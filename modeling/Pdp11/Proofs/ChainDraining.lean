import Mathlib.Data.List.Basic
import Mathlib.Logic.Function.Iterate
import Pdp11.Proofs.RequestConservation

/-! Acknowledge cycles one after the other. Each one answers the nearest request and takes it off,
so the requests are answered in the order of their slots until none is left, and from then on
nothing answers. -/

namespace Pdp11

namespace InterruptChain

/-- The slots of the devices that ask, nearest first. -/
def requests (chain : InterruptChain) : List Nat := chain.findIdxs (·.pending)

/-- The same devices after so many acknowledge cycles. -/
def afterCycles (chain : InterruptChain) (count : Nat) : InterruptChain :=
  (fun devices => devices.acknowledge.2)^[count] chain

theorem afterCycles_succ (chain : InterruptChain) (count : Nat) :
    chain.afterCycles (count + 1) = (chain.afterCycles count).acknowledge.2 :=
  Function.iterate_succ_apply' ..

theorem mem_requests {chain : InterruptChain} {slot : Nat} :
    slot ∈ chain.requests ↔ ∃ device, chain[slot]? = some device ∧ device.pending = true := by
  rw [requests, List.mem_findIdxs_iff_exists_getElem_pos]
  constructor
  · intro ⟨inside, pending⟩
    exact ⟨chain[slot], List.getElem?_eq_getElem inside, pending⟩
  · intro ⟨device, found, pending⟩
    obtain ⟨inside, rfl⟩ := List.getElem?_eq_some_iff.mp found
    exact ⟨inside, pending⟩

/-- One acknowledge cycle. -/
inductive Cycle (chain : InterruptChain) : Prop where
  | quiet (drained : chain.requests = []) (silent : chain.anyPending = false)
      (unanswered : chain.acknowledge = (none, chain))
  | nearest (slot : Nat) (device : ChainDevice) (found : chain[slot]? = some device) (asking : chain.anyPending = true)
      (answered : chain.acknowledge = (device.vector.filter (· != 0), chain.set slot device.answered))
      (next : chain.requests = slot :: requests (chain.set slot device.answered))

theorem cycle (chain : InterruptChain) : Cycle chain := by
  rcases chain.quiet_or_nearest with quiet | ⟨front, device, back, rfl, idle, pending⟩
  · refine .quiet (List.findIdxs_eq_nil_iff.mpr quiet) (List.any_eq_false.mpr fun other member => ?_)
      (acknowledge_of_quiet quiet)
    exact Bool.eq_false_iff.mp (quiet other member)
  · have none : front.findIdxs (·.pending) = [] := List.findIdxs_eq_nil_iff.mpr idle
    have replaced : (front ++ device :: back).set front.length device.answered = front ++ device.answered :: back := by
      rw [List.set_append_right _ _ (Nat.le_refl _), Nat.sub_self]
      rfl
    refine .nearest front.length device ?_ ?_ ?_ ?_
    · rw [List.getElem?_append_right (Nat.le_refl _), Nat.sub_self]
      rfl
    · exact List.any_eq_true.mpr ⟨device, List.mem_append_right _ List.mem_cons_self, pending⟩
    · rw [replaced]
      exact acknowledge_nearest idle pending
    · have gone : device.answered.pending = false := rfl
      rw [replaced, requests, requests, List.findIdxs_append, List.findIdxs_append, none, List.findIdxs_cons,
        if_pos pending, List.findIdxs_cons, gone]
      simp only [List.nil_append, Nat.zero_add, Bool.false_eq_true, if_false]

/-- Every cycle takes the first request off. -/
theorem requests_afterCycles (chain : InterruptChain) (count : Nat) :
    (chain.afterCycles count).requests = chain.requests.drop count := by
  induction count with
  | zero => rfl
  | succ count ih =>
    rw [afterCycles_succ, List.drop_add_one_eq_tail_drop, ← ih]
    cases (chain.afterCycles count).cycle with
    | quiet drained _ unanswered => rw [unanswered, drained, List.tail_nil]
    | nearest _ _ _ _ answered next => rw [answered, next, List.tail_cons]

/-- The next request is the one that has so many before it. -/
theorem getElem?_requests (chain : InterruptChain) (count : Nat) :
    chain.requests[count]? = (chain.afterCycles count).requests.head? := by
  rw [requests_afterCycles, List.head?_drop]

/-- A device whose turn it is has not had one before. -/
theorem not_mem_take_requests {chain : InterruptChain} {count slot : Nat} (turn : chain.requests[count]? = some slot) :
    slot ∉ chain.requests.take count := by
  intro earlier
  have later : slot ∈ chain.requests.drop count := by
    rw [← List.head?_drop] at turn
    exact List.mem_of_mem_head? turn
  exact List.disjoint_take_drop List.nodup_findIdxs (Nat.le_refl count) earlier later

/-- Those that have had their turn have answered once, and the others are as they were. -/
theorem getElem?_afterCycles (chain : InterruptChain) (count slot : Nat) :
    (chain.afterCycles count)[slot]? =
      if slot ∈ chain.requests.take count then chain[slot]?.map .answered else chain[slot]? := by
  induction count with
  | zero => rfl
  | succ count ih =>
    rw [afterCycles_succ, List.take_add_one]
    cases (chain.afterCycles count).cycle with
    | quiet drained _ unanswered =>
      have past : chain.requests[count]? = none := by rw [getElem?_requests, drained, List.head?_nil]
      rw [unanswered, past, ih, Option.toList_none, List.append_nil]
    | nearest nearest device found _ answered next =>
      have turn : chain.requests[count]? = some nearest := by rw [getElem?_requests, next, List.head?_cons]
      rw [answered, turn, Option.toList_some]
      by_cases own : nearest = slot
      · subst own
        rw [if_neg (not_mem_take_requests turn), found] at ih
        have inside := (List.getElem?_eq_some_iff.mp found).1
        rw [if_pos (List.mem_append_right _ List.mem_cons_self), ← ih, List.getElem?_set_self inside]
        rfl
      · have same : slot ∈ chain.requests.take count ++ [nearest] ↔ slot ∈ chain.requests.take count := by
          simp only [List.mem_append, List.mem_singleton, Ne.symm own, or_false]
        rw [List.getElem?_set_ne own, ih]
        exact (if_congr same rfl rfl).symm

/-- The cycle that comes after so many others. It is for the device that has so many requests
before it and finds that device as it was at the beginning, or there is no such device left. -/
inductive Turn (chain : InterruptChain) (count : Nat) : Prop where
  | answered (slot : Nat) (device : ChainDevice) (turn : chain.requests[count]? = some slot)
      (first : chain[slot]? = some device) (untouched : (chain.afterCycles count)[slot]? = some device)
      (asking : (chain.afterCycles count).anyPending = true)
      (cycle : (chain.afterCycles count).acknowledge =
        (device.vector.filter (· != 0),
          (chain.afterCycles count).set slot
            { device with pending := false, acknowledged := device.acknowledged.bump }))
  | drained (past : chain.requests[count]? = none) (silent : (chain.afterCycles count).anyPending = false)
      (cycle : (chain.afterCycles count).acknowledge = (none, chain.afterCycles count))

/-- Repeated acknowledge cycles answer the devices that ask at the beginning, in the order of
their slots and each of them once; then nothing answers any more. -/
theorem chain_drains_in_order (chain : InterruptChain) :
    chain.requests.Pairwise (· < ·) ∧
      (∀ slot, slot ∈ chain.requests ↔ ∃ device, chain[slot]? = some device ∧ device.pending = true) ∧
      ∀ count, chain.Turn count := by
  refine ⟨List.pairwise_findIdxs, fun slot => mem_requests, fun count => ?_⟩
  cases (chain.afterCycles count).cycle with
  | quiet drained silent unanswered =>
    have past : chain.requests[count]? = none := by rw [getElem?_requests, drained, List.head?_nil]
    exact .drained past silent unanswered
  | nearest slot device found asking answered next =>
    have turn : chain.requests[count]? = some slot := by rw [getElem?_requests, next, List.head?_cons]
    refine .answered slot device turn ?_ found asking answered
    rw [getElem?_afterCycles, if_neg (not_mem_take_requests turn)] at found
    exact found

/-- A device that withdraws uses up a cycle. -/
example :
    let chain : InterruptChain :=
      [⟨some 0o300, false, .zero⟩, ⟨some 0o310, true, .zero⟩, ⟨some 0, true, .zero⟩, ⟨some 0o320, true, .zero⟩]
    (List.range 5).map (fun count => (chain.afterCycles count).acknowledge.1) =
      [some 0o310, none, some 0o320, none, none] := by
  decide

end InterruptChain

/-- Acknowledge cycles of a board are those of its devices. -/
theorem Wired.afterCycles {β : Type} [Board β] {sources : β → InterruptChain} (wired : Wired sources) (board : β)
    (count : Nat) :
    sources ((fun board => (Board.acknowledgeChain board).2)^[count] board) = (sources board).afterCycles count := by
  induction count with
  | zero => rfl
  | succ count ih => rw [Function.iterate_succ_apply', wired.acknowledged, ih, InterruptChain.afterCycles_succ]

end Pdp11
