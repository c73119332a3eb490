import Pdp11.Dispatch

/-! Contracts of microcode and of the driver's operations. Both may break off with
the state as it is, so a contract says what holds then as well: a caller that
rolls back starts from there. -/

namespace Pdp11

variable {ε σ α γ : Type}

/-- Code that starts where `pre` holds ends as `post` says, or breaks off as
`broken` says. -/
def Ensures (pre : σ → Prop) (code : EStateM ε σ α) (post : α → σ → Prop) (broken : ε → σ → Prop) :
    Prop :=
  ∀ state, pre state →
    match code state with
    | .ok value after => post value after
    | .error failure after => broken failure after

namespace Ensures

variable {pre : σ → Prop} {code : EStateM ε σ α} {post : α → σ → Prop} {broken : ε → σ → Prop}

theorem ok (ensured : Ensures pre code post broken) {before after : σ} {value : α}
    (holds : pre before) (done : code before = .ok value after) : post value after := by
  have ended := ensured before holds
  rwa [done] at ended

theorem error (ensured : Ensures pre code post broken) {before after : σ} {failure : ε}
    (holds : pre before) (failed : code before = .error failure after) : broken failure after := by
  have ended := ensured before holds
  rwa [failed] at ended

/-- Nothing is said of code that breaks off. -/
theorem of_ok (finishes : ∀ {before after value}, pre before → code before = .ok value after → post value after) :
    Ensures pre code post (fun _ _ => True) := by
  intro state holds
  cases result : code state with
  | ok value after => exact finishes holds result
  | error failure after => trivial

theorem pure {value : α} (implies : ∀ state, pre state → post value state) :
    Ensures pre (pure value : EStateM ε σ α) post broken :=
  fun state holds => implies state holds

theorem throw {failure : ε} (implies : ∀ state, pre state → broken failure state) :
    Ensures pre (throw failure : EStateM ε σ α) post broken :=
  fun state holds => implies state holds

theorem modify {change : σ → σ} {post : PUnit → σ → Prop}
    (implies : ∀ state, pre state → post ⟨⟩ (change state)) :
    Ensures pre (modify change : EStateM ε σ PUnit) post broken :=
  fun state holds => implies state holds

theorem weaken {required : σ → Prop} {granted : α → σ → Prop} {left : ε → σ → Prop}
    (ensured : Ensures required code granted left) (entails : ∀ state, pre state → required state)
    (implies : ∀ value state, granted value state → post value state)
    (breaks : ∀ failure state, left failure state → broken failure state) :
    Ensures pre code post broken := by
  intro state holds
  have ended := ensured state (entails state holds)
  cases result : code state with
  | ok value after => exact implies value after (by rwa [result] at ended)
  | error failure after => exact breaks failure after (by rwa [result] at ended)

theorem startingAt (ensured : Ensures pre code post broken) {state : σ} (holds : pre state) :
    Ensures (· = state) code post broken :=
  ensured.weaken (fun _ same => same ▸ holds) (fun _ _ ended => ended) fun _ _ left => left

theorem and {required : σ → Prop} {granted : α → σ → Prop} {left : ε → σ → Prop}
    (first : Ensures pre code post broken) (second : Ensures required code granted left) :
    Ensures (fun state => pre state ∧ required state) code (fun value state => post value state ∧ granted value state)
      (fun failure state => broken failure state ∧ left failure state) := by
  intro state ⟨holds, meets⟩
  have one := first state holds
  have two := second state meets
  cases result : code state with
  | ok value after =>
    rw [result] at one two
    exact ⟨one, two⟩
  | error failure after =>
    rw [result] at one two
    exact ⟨one, two⟩

theorem bind {middle : α → σ → Prop} {next : α → EStateM ε σ γ} {post : γ → σ → Prop}
    (first : Ensures pre code middle broken)
    (rest : ∀ value, Ensures (middle value) (next value) post broken) :
    Ensures pre (code >>= next) post broken := by
  intro state holds
  have reached := first state holds
  change match EStateM.bind code next state with | .ok value after => _ | .error failure after => _
  unfold EStateM.bind
  cases result : code state with
  | ok value after => exact rest value after (by rwa [result] at reached)
  | error failure after => rwa [result] at reached

end Ensures

theorem bind_eq_ok {code : EStateM ε σ α} {next : α → EStateM ε σ γ} {before after : σ} {value : γ}
    (done : (code >>= next) before = .ok value after) :
    ∃ part middle, code before = .ok part middle ∧ next part middle = .ok value after := by
  simp only [Bind.bind, EStateM.bind] at done
  cases result : code before with
  | ok part middle =>
    rw [result] at done
    exact ⟨part, middle, rfl, done⟩
  | error failure middle =>
    rw [result] at done
    cases done

theorem bind_eq_error {code : EStateM ε σ α} {next : α → EStateM ε σ γ} {before after : σ} {failure : ε}
    (failed : (code >>= next) before = .error failure after) :
    code before = .error failure after ∨
      ∃ part middle, code before = .ok part middle ∧ next part middle = .error failure after := by
  simp only [Bind.bind, EStateM.bind] at failed
  cases result : code before with
  | ok part middle =>
    rw [result] at failed
    exact .inr ⟨part, middle, rfl, failed⟩
  | error broken middle =>
    rw [result] at failed
    cases failed
    exact .inl rfl

theorem bind_of_ok {code : EStateM ε σ α} {before middle : σ} {part : α} (done : code before = .ok part middle)
    (next : α → EStateM ε σ γ) : (code >>= next) before = next part middle := by
  simp only [Bind.bind, EStateM.bind, done]

theorem bind_of_error {code : EStateM ε σ α} {before broken : σ} {failure : ε} (failed : code before = .error failure broken)
    (next : α → EStateM ε σ γ) : (code >>= next) before = .error failure broken := by
  simp only [Bind.bind, EStateM.bind, failed]

/-- Programs that end alike may go on alike. -/
theorem bind_of_eq {code other : EStateM ε σ α} {before middle : σ} (same : code before = other middle)
    (next : α → EStateM ε σ γ) : (code >>= next) before = (other >>= next) middle := by
  simp only [Bind.bind, EStateM.bind, same]

def answer? : EStateM.Result ε σ α → Option α
  | .ok value _ => some value
  | .error _ _ => none

def failure? : EStateM.Result ε σ α → Option ε
  | .ok _ _ => none
  | .error failure _ => some failure

/-- The state that code left, however it ended. -/
def ended : EStateM.Result ε σ α → σ
  | .ok _ after => after
  | .error _ after => after

theorem Ensures.ended {code : EStateM ε σ α} {whole : σ → Prop} {state : σ}
    (ensured : Ensures (· = state) code (fun _ => whole) (fun _ => whole)) : whole (ended (code state)) := by
  have finished := ensured state rfl
  cases result : code state with
  | ok value after => rwa [result] at finished
  | error failure after => rwa [result] at finished

theorem eq_ok_of_answer {result : EStateM.Result ε σ α} {value : α} (answered : answer? result = some value) :
    result = .ok value (ended result) := by
  cases result with
  | ok answer after =>
    cases answered
    rfl
  | error failure after => cases answered

theorem eq_error_of_failure {result : EStateM.Result ε σ α} {failure : ε} (failed : failure? result = some failure) :
    result = .error failure (ended result) := by
  cases result with
  | ok answer after => cases failed
  | error failure after =>
    cases failed
    rfl

/-- Whatever the code answers is good, wherever it starts. -/
def Answers (good : α → Prop) (code : EStateM ε σ α) : Prop :=
  ∀ before after value, code before = .ok value after → good value

namespace Answers

variable {good : α → Prop}

theorem pure {value : α} (holds : good value) : Answers good (pure value : EStateM ε σ α) := by
  intro before after answered done
  cases done
  exact holds

theorem bind {known : γ → Prop} {code : EStateM ε σ γ} {next : γ → EStateM ε σ α} (first : Answers known code)
    (rest : ∀ part, known part → Answers good (next part)) : Answers good (code >>= next) := by
  intro before after value done
  obtain ⟨part, middle, begun, finished⟩ := bind_eq_ok done
  exact rest part (first before middle part begun) middle after value finished

theorem last {code : EStateM ε σ γ} {next : γ → EStateM ε σ α} (rest : ∀ part, Answers good (next part)) :
    Answers good (code >>= next) := by
  have any : Answers (fun _ => True) code := fun _ _ _ _ => trivial
  exact any.bind fun part _ => rest part

end Answers

theorem Ensures.answering {pre : σ → Prop} {code : EStateM ε σ α} {post : α → σ → Prop} {broken : ε → σ → Prop}
    {good : α → Prop} (ensured : Ensures pre code post broken) (answers : Answers good code) :
    Ensures pre code (fun value state => good value ∧ post value state) broken := by
  intro state holds
  have finished := ensured state holds
  cases result : code state with
  | ok value after => exact ⟨answers state after value result, by rwa [result] at finished⟩
  | error failure after => rwa [result] at finished

/-- An invariant that code keeps, also where it breaks off. -/
abbrev Keeps (invariant : σ → Prop) (code : EStateM ε σ α) : Prop :=
  Ensures invariant code (fun _ => invariant) (fun _ => invariant)

end Pdp11
