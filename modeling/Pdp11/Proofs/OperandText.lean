import Pdp11.Proofs.DisassemblyTiling
import Mathlib.Data.List.Nodup

/-! The text of an operand says which operand it is and which word it took. Its marks end where
its number begins, and its number ends where its register begins. There is no comma in it, so
a comma after it shows where it ends. -/

namespace Pdp11

/-- What follows is not of this kind, so text of the kind ends here. -/
def Stops (kind : Char → Bool) (text : List Char) : Prop := ∀ next ∈ text.head?, kind next = false

section

variable {kind : Char → Bool} {front other back rest : List Char}

theorem Stops.append (outside : ∀ char ∈ front, kind char = false) (stops : Stops kind back) : Stops kind (front ++ back) := by
  cases front with
  | nil => exact stops
  | cons char _ =>
    rintro next ⟨⟩
    exact outside char List.mem_cons_self

/-- Where text of one kind stops is the only place to cut it off. -/
theorem append_inj_of_stops (inside : ∀ char ∈ front, kind char = true) (within : ∀ char ∈ other, kind char = true)
    (stops : Stops kind back) (ends : Stops kind rest) (same : front ++ back = other ++ rest) :
    front = other ∧ back = rest := by
  induction front generalizing other with
  | nil =>
    cases other with
    | nil => exact ⟨rfl, same⟩
    | cons char _ =>
      obtain rfl : back = _ := same
      exact absurd (within char List.mem_cons_self) (Bool.eq_false_iff.mp (stops char rfl))
  | cons char _ ih =>
    cases other with
    | nil =>
      obtain rfl : _ = rest := same
      exact absurd (inside char List.mem_cons_self) (Bool.eq_false_iff.mp (ends char rfl))
    | cons =>
      obtain ⟨rfl, later⟩ := List.cons.inj same
      obtain ⟨rfl, backs⟩ := ih (fun next member => inside next (List.mem_cons_of_mem _ member))
        (fun next member => within next (List.mem_cons_of_mem _ member)) later
      exact ⟨rfl, backs⟩

variable {separator : Char}

theorem Stops.separated (separator : Char) (text : List Char) : Stops (· != separator) (separator :: text) := by
  rintro next ⟨⟩
  exact bne_self_eq_false separator

theorem append_inj_of_separator (plain : separator ∉ front) (bare : separator ∉ other)
    (stops : Stops (· != separator) back) (ends : Stops (· != separator) rest) (same : front ++ back = other ++ rest) :
    front = other ∧ back = rest := by
  refine append_inj_of_stops (fun char member => ?_) (fun char member => ?_) stops ends same
  · exact bne_iff_ne.mpr (ne_of_mem_of_not_mem member plain)
  · exact bne_iff_ne.mpr (ne_of_mem_of_not_mem member bare)

end

theorem comma_inj {front other back rest : String} (plain : ',' ∉ front.toList) (bare : ',' ∉ other.toList)
    (same : front ++ ", " ++ back = other ++ ", " ++ rest) : front = other ∧ back = rest := by
  have texts := congrArg String.toList same
  simp only [String.toList_append, List.append_assoc] at texts
  have stops (text : List Char) : Stops (· != ',') (", ".toList ++ text) := .separated ',' _
  obtain ⟨fronts, backs⟩ := append_inj_of_separator plain bare (stops _) (stops _) texts
  exact ⟨String.toList_inj.mp fronts, String.toList_inj.mp (List.append_cancel_left backs)⟩

theorem octalDigits_inj {one other : Nat} (same : octalDigits one = octalDigits other) : one = other := by
  have read := congrArg (Nat.ofDigitChars 8 · 0) same
  simpa only [octalDigits, Nat.ofDigitChars_toDigits (b := 8) (by decide) (by decide)] using read

theorem octal_inj {size : Nat} {one other : BitVec size} (same : octal one.toNat = octal other.toNat) : one = other :=
  BitVec.eq_of_toNat_eq (octalDigits_inj (String.ofList_inj.mp same))

theorem isDigit_of_mem_octalDigits {value : Nat} {char : Char} (member : char ∈ octalDigits value) : char.isDigit = true :=
  Nat.isDigit_of_mem_toDigits (by decide) (by decide) member

namespace Register

theorem mem_all (register : Register) : register ∈ all := by
  cases register <;> decide

theorem comma_not_mem_name (register : Register) : ',' ∉ register.name.toList := by
  cases register <;> decide

theorem name_inj {register other : Register} (same : register.name = other.name) : register = other := by
  have apart : (all.map name).Nodup := by decide +kernel
  exact List.inj_on_of_nodup_map apart register.mem_all other.mem_all same

end Register

namespace Operand

def all : List Operand := (List.finRange 8).flatMap fun mode => Register.all.map (⟨.ofBits mode, ·⟩)

theorem mem_all (operand : Operand) : operand ∈ all := by
  refine List.mem_flatMap.mpr ⟨operand.mode.bits, List.mem_finRange _, ?_⟩
  refine List.mem_map.mpr ⟨operand.register, operand.register.mem_all, ?_⟩
  rw [AddressingMode.ofBits_bits]

def isMark (char : Char) : Bool := char == '@' || char == '#' || char == '-'

theorem isMark_of_isDigit {char : Char} (digit : char.isDigit = true) : isMark char = false := by
  by_contra marked
  rw [Bool.not_eq_false, isMark, Bool.or_eq_true, Bool.or_eq_true, beq_iff_eq, beq_iff_eq, beq_iff_eq] at marked
  rcases marked with (rfl | rfl) | rfl <;> cases digit

/-- What separates the parts of an operand from one another, and the operand from a comma. -/
theorem parts_apart (operand : Operand) : operand.marks.all isMark ∧ ',' ∉ operand.marks ∧ ',' ∉ operand.tail ∧
    operand.tail.head?.all fun next => !isMark next && !next.isDigit := by
  obtain ⟨mode, register⟩ := operand
  cases mode <;> cases register <;> decide

/-- The marks, what comes after the number, and whether there is one, belong to one operand only. -/
theorem eq_of_parts {operand other : Operand} (marks : operand.marks = other.marks) (taken : operand.taken = other.taken)
    (tail : operand.tail = other.tail) : operand = other := by
  have apart : (all.map fun operand => (operand.marks, operand.taken, operand.tail)).Nodup := by decide +kernel
  exact List.inj_on_of_nodup_map apart operand.mem_all other.mem_all (by rw [marks, taken, tail])

section

variable {operand other : Operand} {pc : Word} {extension words : List Word}

theorem number_inj {word value : Word} (same : operand.number pc word = operand.number pc value) : word = value := by
  obtain ⟨mode, register⟩ := operand
  cases mode with
  | index | indexDeferred =>
    simp only [number] at same
    split at same
    · exact (BitVec.add_right_inj _).mp same
    · exact same
  | register | registerDeferred | autoIncrement | autoIncrementDeferred | autoDecrement | autoDecrementDeferred => exact same

theorem isDigit_of_mem_digits {char : Char} (member : char ∈ operand.digits pc extension) : char.isDigit = true := by
  obtain ⟨_, _, written⟩ := List.mem_flatMap.mp member
  exact isDigit_of_mem_octalDigits written

theorem extension_cases (length : extension.length = operand.taken) :
    extension = [] ∧ operand.taken = 0 ∨ ∃ word, extension = [word] ∧ operand.taken = 1 := by
  rcases Nat.le_one_iff_eq_zero_or_eq_one.mp operand.taken_le with none | one
  · exact .inl ⟨List.eq_nil_of_length_eq_zero (length.trans none), none⟩
  · obtain ⟨word, rfl⟩ := List.length_eq_one_iff.mp (length.trans one)
    exact .inr ⟨word, rfl, one⟩

theorem digits_eq_nil_iff (length : extension.length = operand.taken) :
    operand.digits pc extension = [] ↔ operand.taken = 0 := by
  rcases extension_cases length with ⟨rfl, none⟩ | ⟨word, rfl, one⟩
  · exact iff_of_true rfl none
  · rw [digits_word, one]
    exact iff_of_false Nat.toDigits_ne_nil Nat.one_ne_zero

theorem digits_inj (length : extension.length = operand.taken) (size : words.length = operand.taken)
    (same : operand.digits pc extension = operand.digits pc words) : extension = words := by
  rcases extension_cases length with ⟨rfl, none⟩ | ⟨word, rfl, one⟩
  · exact (List.eq_nil_of_length_eq_zero (size.trans none)).symm
  · obtain ⟨value, rfl⟩ := List.length_eq_one_iff.mp (size.trans one)
    rw [digits_word, digits_word] at same
    rw [number_inj (BitVec.eq_of_toNat_eq (octalDigits_inj same))]

theorem spell_inj (length : extension.length = operand.taken) (size : words.length = other.taken)
    (same : operand.spell pc extension = other.spell pc words) : operand = other ∧ extension = words := by
  have marked (operand : Operand) : ∀ char ∈ operand.marks, isMark char = true :=
    List.all_eq_true.mp operand.parts_apart.1
  have tails (operand : Operand) : ∀ next ∈ operand.tail.head?, isMark next = false ∧ next.isDigit = false := by
    intro next first
    have apart := (Option.all_eq_true _ _).mp operand.parts_apart.2.2.2 next first
    simpa only [Bool.and_eq_true, Bool.not_eq_true'] using apart
  have unmarked (operand : Operand) (extension : List Word) : Stops isMark (operand.digits pc extension ++ operand.tail) :=
    .append (fun _ member => isMark_of_isDigit (isDigit_of_mem_digits member)) fun next first => (tails operand next first).1
  rw [spell, spell, List.append_assoc, List.append_assoc] at same
  obtain ⟨marks, rest⟩ := append_inj_of_stops (marked operand) (marked other) (unmarked operand _) (unmarked other _) same
  obtain ⟨digits, tail⟩ := append_inj_of_stops (fun _ member => isDigit_of_mem_digits member)
    (fun _ member => isDigit_of_mem_digits member) (fun next first => (tails operand next first).2)
    (fun next first => (tails other next first).2) rest
  -- An index differs from a deferred register by nothing but its number.
  have numbered : operand.digits pc extension = [] ↔ other.digits pc words = [] := by rw [digits]
  rw [digits_eq_nil_iff length, digits_eq_nil_iff size] at numbered
  have taken : operand.taken = other.taken := by
    have atMost := operand.taken_le
    have bounded := other.taken_le
    omega
  obtain rfl := eq_of_parts marks taken tail
  exact ⟨rfl, digits_inj length size digits⟩

theorem comma_not_mem_spell : ',' ∉ operand.spell pc extension := by
  obtain ⟨_, marks, tail, _⟩ := operand.parts_apart
  intro member
  rcases List.mem_append.mp member with front | last
  · rcases List.mem_append.mp front with mark | digit
    · exact marks mark
    · cases isDigit_of_mem_digits digit
  · exact tail last

/-- Two operands, one after the other. Only once the first is known is it clear where the words
of the second lie. -/
theorem spell_pair_inj {src dst first second : Operand} (length : extension.length = src.taken + dst.taken)
    (size : words.length = first.taken + second.taken)
    (same : String.ofList (src.spell pc (extension.take src.taken)) ++ ", " ++
        String.ofList (dst.spell (pc + 2 * BitVec.ofNat 16 src.taken) (extension.drop src.taken)) =
      String.ofList (first.spell pc (words.take first.taken)) ++ ", " ++
        String.ofList (second.spell (pc + 2 * BitVec.ofNat 16 first.taken) (words.drop first.taken))) :
    src = first ∧ dst = second ∧ extension = words := by
  have plain (operand : Operand) (words : List Word) : ',' ∉ (String.ofList (operand.spell pc words)).toList := by
    rw [String.toList_ofList]
    exact comma_not_mem_spell
  have took {extension : List Word} {first second : Nat} (length : extension.length = first + second) :
      (extension.take first).length = first ∧ (extension.drop first).length = second := by
    rw [List.length_take, List.length_drop]
    omega
  obtain ⟨sources, destinations⟩ := comma_inj (plain src _) (plain first _) same
  obtain ⟨rfl, front⟩ := spell_inj (took length).1 (took size).1 (String.ofList_inj.mp sources)
  obtain ⟨rfl, back⟩ := spell_inj (took length).2 (took size).2 (String.ofList_inj.mp destinations)
  refine ⟨rfl, rfl, ?_⟩
  rw [← List.take_append_drop src.taken extension, front, back, List.take_append_drop]

end

end Operand
end Pdp11
