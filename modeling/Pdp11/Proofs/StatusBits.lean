import Pdp11.Microcode.Execute

/-! Which bits of the status word a change reaches. Instructions change condition
codes and at most the priority; only installing a status word reaches the rest. -/

namespace Pdp11

def codeBits : Word := 0o17

/-- The condition codes but for carry. -/
def orderBits : Word := 0o16

namespace StatusWord

variable {status other : StatusWord}

/-- Both agree on every bit outside the field. -/
def SameOutside (field : Word) (status other : StatusWord) : Prop :=
  status.bits &&& ~~~field = other.bits &&& ~~~field

def Fits (implemented : Word) (status : StatusWord) : Prop := status.bits &&& implemented = status.bits

instance {implemented : Word} : Decidable (status.Fits implemented) :=
  inferInstanceAs (Decidable (status.bits &&& implemented = status.bits))

theorem SameOutside.trans {field : Word} {first second third : StatusWord}
    (left : SameOutside field first second) (right : SameOutside field second third) :
    SameOutside field first third :=
  Eq.trans left right

theorem SameOutside.eq (same : SameOutside 0 status other) : status = other := by
  have whole : status.bits &&& ~~~0#16 = other.bits &&& ~~~0#16 := same
  rw [show ~~~0#16 = BitVec.allOnes 16 from rfl, BitVec.and_allOnes, BitVec.and_allOnes] at whole
  exact congrArg StatusWord.mk whole

theorem SameOutside.mono {field wider : Word} (same : SameOutside field status other)
    (within : field &&& wider = field) : SameOutside wider status other := by
  have narrower : ~~~field &&& ~~~wider = ~~~wider := by
    rw [← BitVec.not_or, ← within, BitVec.or_comm]
    apply congrArg
    apply BitVec.eq_of_getElem_eq
    intro index inside
    simp only [BitVec.getElem_or, BitVec.getElem_and]
    cases wider[index] <;> simp
  have outside : status.bits &&& ~~~field = other.bits &&& ~~~field := same
  change status.bits &&& ~~~wider = other.bits &&& ~~~wider
  rw [← narrower, ← BitVec.and_assoc, ← BitVec.and_assoc, outside]

theorem set_sameOutside {field flag : Word} (within : flag &&& field = flag) (status : StatusWord)
    (on : Bool) : SameOutside field (status.set flag on) status := by
  apply BitVec.eq_of_getElem_eq
  intro index inside
  have bit : (flag &&& field)[index] = flag[index] := by rw [within]
  rw [BitVec.getElem_and] at bit
  revert bit
  cases on
  · simp only [set, Bool.false_eq_true, if_false, BitVec.getElem_and, BitVec.getElem_not]
    cases flag[index] <;> cases field[index] <;> simp
  · simp only [set, if_true, BitVec.getElem_and, BitVec.getElem_or, BitVec.getElem_not]
    cases flag[index] <;> cases field[index] <;> simp

theorem setCodes_sameOutside (status : StatusWord) (negative zero overflow carry : Bool) :
    SameOutside codeBits (status.setCodes negative zero overflow carry) status := by
  unfold setCodes
  exact (set_sameOutside (by decide) _ _).trans <| (set_sameOutside (by decide) _ _).trans <|
    (set_sameOutside (by decide) _ _).trans (set_sameOutside (by decide) _ _)

theorem SameOutside.isSet {field : Word} (same : SameOutside field status other) {flag : Word}
    (apart : ~~~field &&& flag = flag) : status.isSet flag = other.isSet flag := by
  have reduced : ∀ bits : Word, bits &&& flag = (bits &&& ~~~field) &&& flag := fun bits => by
    rw [BitVec.and_assoc, apart]
  simp only [StatusWord.isSet, reduced status.bits, reduced other.bits]
  rw [show status.bits &&& ~~~field = other.bits &&& ~~~field from same]

theorem and_carryBit (status : StatusWord) : status.bits &&& carryBit = if status.carry then carryBit else 0 := by
  have tested := BitVec.and_twoPow status.bits 0
  rw [show BitVec.twoPow 16 0 = carryBit by decide] at tested
  rw [carry, isSet, tested]
  cases status.bits.getLsbD 0 <;> rfl

/-- Where carry is kept besides, only the other codes may differ. -/
theorem SameOutside.but_carry (same : SameOutside codeBits status other) (kept : status.carry = other.carry) :
    SameOutside orderBits status other := by
  have split : ~~~orderBits = ~~~codeBits ||| carryBit := by decide
  have outside : status.bits &&& ~~~codeBits = other.bits &&& ~~~codeBits := same
  change status.bits &&& ~~~orderBits = other.bits &&& ~~~orderBits
  rw [split, BitVec.and_or_distrib_left, BitVec.and_or_distrib_left, outside, and_carryBit, and_carryBit, kept]

theorem SameOutside.priority {field : Word} (same : SameOutside field status other)
    (apart : priorityMask &&& field = 0) : status.priority = other.priority := by
  apply BitVec.eq_of_getLsbD_eq
  intro index inside
  have outside := congrArg (BitVec.getLsbD · (5 + index)) same
  have clear := congrArg (BitVec.getLsbD · (5 + index)) apart
  have masked : priorityMask.getLsbD (5 + index) = true := by
    have all : ∀ index < 3, priorityMask.getLsbD (5 + index) = true := by decide
    exact all index inside
  have within : 5 + index < 16 := by omega
  simp only [BitVec.getLsbD_and, masked, Bool.true_and, BitVec.ofNat_eq_ofNat, BitVec.getLsbD_zero] at clear
  simp only [BitVec.getLsbD_and, BitVec.getLsbD_not, within, clear, decide_true, Bool.not_false,
    Bool.and_true] at outside
  simp only [StatusWord.priority, BitVec.getLsbD_extractLsb', inside, decide_true, Bool.true_and]
  exact outside

theorem SameOutside.haltMode (same : SameOutside codeBits status other) :
    status.haltMode = other.haltMode :=
  same.isSet (by decide)

theorem isSet_set {flag : Word} (nonempty : flag ≠ 0) (status : StatusWord) (on : Bool) :
    (status.set flag on).isSet flag = on := by
  cases on with
  | true =>
    have absorbed : (status.bits ||| flag) &&& flag = flag := by
      apply BitVec.eq_of_getElem_eq
      intro index inside
      simp only [BitVec.getElem_and, BitVec.getElem_or]
      cases flag[index] <;> simp
    simp [set, isSet, absorbed]
  | false =>
    have clear : status.bits &&& ~~~flag &&& flag = 0 := by
      apply BitVec.eq_of_getElem_eq
      intro index inside
      simp
    simpa [set, isSet, clear] using nonempty.symm

theorem isSet_set_of_apart {flag other : Word} (apart : ~~~flag &&& other = other) (status : StatusWord) (on : Bool) :
    (status.set flag on).isSet other = status.isSet other :=
  (set_sameOutside BitVec.and_self status on).isSet apart

section

variable (status : StatusWord) (negative zero overflow carry : Bool)

theorem carry_setCodes : (status.setCodes negative zero overflow carry).carry = carry :=
  isSet_set (by decide) _ _

theorem overflow_setCodes : (status.setCodes negative zero overflow carry).overflow = overflow :=
  (isSet_set_of_apart (by decide) _ _).trans (isSet_set (by decide) _ _)

theorem zero_setCodes : (status.setCodes negative zero overflow carry).zero = zero :=
  (isSet_set_of_apart (by decide) _ _).trans <| (isSet_set_of_apart (by decide) _ _).trans (isSet_set (by decide) _ _)

theorem negative_setCodes : (status.setCodes negative zero overflow carry).negative = negative :=
  (isSet_set_of_apart (by decide) _ _).trans <| (isSet_set_of_apart (by decide) _ _).trans <|
    (isSet_set_of_apart (by decide) _ _).trans (isSet_set (by decide) _ _)

end

/-- Changes inside the implemented bits keep a status word inside them. -/
theorem SameOutside.fits {field implemented : Word} (same : SameOutside field status other)
    (within : field &&& implemented = field) (fits : other.Fits implemented) : status.Fits implemented := by
  apply BitVec.eq_of_getElem_eq
  intro index inside
  have inField : (field &&& implemented)[index] = field[index] := by rw [within]
  have outside : (status.bits &&& ~~~field)[index] = (other.bits &&& ~~~field)[index] := by
    rw [show status.bits &&& ~~~field = other.bits &&& ~~~field from same]
  have before : (other.bits &&& implemented)[index] = other.bits[index] := by
    rw [show other.bits &&& implemented = other.bits from fits]
  simp only [BitVec.getElem_and, BitVec.getElem_not] at inField outside before ⊢
  revert inField outside before
  cases field[index] <;> cases implemented[index] <;> simp
  exact fun agree clear => agree.trans clear

theorem masked_fits (status : StatusWord) (implemented : Word) :
    (status.masked implemented).Fits implemented := by
  simp [Fits, masked, BitVec.and_assoc]

theorem Fits.masked {implemented : Word} (fits : status.Fits implemented) :
    status.masked implemented = status := by
  unfold StatusWord.masked
  rw [show status.bits &&& implemented = status.bits from fits]

theorem isSet_masked_or {flag implemented : Word} (within : implemented &&& flag = flag) (bits : Word) :
    (StatusWord.masked ⟨bits ||| flag⟩ implemented).isSet flag = true := by
  have absorbed : (bits ||| flag) &&& flag = flag := by
    apply BitVec.eq_of_getElem_eq
    intro index inside
    simp only [BitVec.getElem_and, BitVec.getElem_or]
    cases flag[index] <;> simp
  simp only [isSet, masked, BitVec.and_assoc, within, absorbed, beq_self_eq_true]

/-- MTPS does not reach the bits outside its mask. -/
theorem mtps_sameOutside {implemented : Word} (fits : status.Fits implemented) (value : Word) :
    (StatusWord.masked ⟨(status.bits &&& ~~~mtpsMask) ||| (value &&& mtpsMask)⟩ implemented).SameOutside
      mtpsMask status := by
  apply BitVec.eq_of_getElem_eq
  intro index inside
  have within : (status.bits &&& implemented)[index] = status.bits[index] := by
    rw [show status.bits &&& implemented = status.bits from fits]
  simp only [StatusWord.masked, BitVec.getElem_and, BitVec.getElem_or, BitVec.getElem_not] at within ⊢
  grind

/-- MTPS does not reach the HALT mode bit. -/
theorem mtps_haltMode (status : StatusWord) (value : Word) :
    (StatusWord.masked ⟨(status.bits &&& ~~~mtpsMask) ||| (value &&& mtpsMask)⟩ Model.vm2.implemented).haltMode =
      status.haltMode := by
  have kept : ~~~mtpsMask &&& (Model.vm2.implemented &&& haltBit) = haltBit := by decide
  have dropped : mtpsMask &&& (Model.vm2.implemented &&& haltBit) = 0 := by decide
  have same : ((status.bits &&& ~~~mtpsMask) ||| (value &&& mtpsMask)) &&& Model.vm2.implemented &&& haltBit =
      status.bits &&& haltBit := by
    rw [BitVec.and_assoc, BitVec.and_or_distrib_right, BitVec.and_assoc, BitVec.and_assoc, kept, dropped]
    simp
  simp only [StatusWord.haltMode, isSet, StatusWord.masked, same]

/-- Without the HALT mode bit among the implemented ones there is no HALT mode. -/
theorem Fits.haltMode {implemented : Word} (fits : status.Fits implemented)
    (without : implemented &&& haltBit = 0) : status.haltMode = false := by
  have clear : status.bits &&& haltBit = 0 := by
    rw [← show status.bits &&& implemented = status.bits from fits, BitVec.and_assoc, without]
    simp
  simp only [StatusWord.haltMode, isSet, clear]
  decide

theorem Fits.clearHalt {implemented : Word} (fits : status.Fits implemented) :
    (status.set haltBit false).Fits implemented := by
  have whole : status.bits &&& implemented = status.bits := fits
  change status.bits &&& ~~~haltBit &&& implemented = status.bits &&& ~~~haltBit
  rw [BitVec.and_assoc, BitVec.and_comm (~~~haltBit), ← BitVec.and_assoc, whole]

theorem haltMode_clearHalt (status : StatusWord) : (status.set haltBit false).haltMode = false := by
  have clear : status.bits &&& ~~~haltBit &&& haltBit = 0 := by
    rw [BitVec.and_assoc, show ~~~haltBit &&& haltBit = 0 by decide]
    exact BitVec.and_zero
  change (status.bits &&& ~~~haltBit &&& haltBit == haltBit) = false
  rw [clear]
  decide

theorem clearHalt_of_user (user : status.haltMode = false) : status.set haltBit false = status := by
  have clear : status.bits &&& haltBit = 0 := by
    have tested := BitVec.and_twoPow status.bits 8
    rw [show BitVec.twoPow 16 8 = haltBit by decide] at tested
    split at tested
    · rw [haltMode, isSet, tested, beq_self_eq_true] at user
      cases user
    · exact tested
  have kept : status.bits &&& ~~~haltBit = status.bits := by
    apply BitVec.eq_of_getElem_eq
    intro index inside
    have off : (status.bits &&& haltBit)[index] = false := by
      rw [clear]
      simp
    simp only [BitVec.getElem_and, BitVec.getElem_not] at off ⊢
    grind
  exact congrArg StatusWord.mk kept

end StatusWord

open StatusWord

theorem CodesUpdate.apply_sameOutside (update : CodesUpdate) (width : Width) (value : Word)
    (status : StatusWord) : SameOutside codeBits (update.apply width value status) status := by
  unfold CodesUpdate.apply
  cases update with
  | keep => rfl
  | logic | arithmetic _ _ | keepCarry _ => exact setCodes_sameOutside _ _ _ _ _

/-- The bits that an update may change. -/
def CodesUpdate.field : CodesUpdate → Word
  | keep => 0
  | logic | keepCarry _ => orderBits
  | arithmetic _ _ => codeBits

theorem CodesUpdate.apply_sameOutside_field (update : CodesUpdate) (width : Width) (value : Word)
    (status : StatusWord) : SameOutside update.field (update.apply width value status) status := by
  cases update with
  | keep => rfl
  | logic | keepCarry => exact (setCodes_sameOutside ..).but_carry (carry_setCodes ..)
  | arithmetic => exact setCodes_sameOutside ..

theorem Model.codeBits_implemented (model : Model) : codeBits &&& model.implemented = codeBits := by
  cases model <;> decide

end Pdp11
