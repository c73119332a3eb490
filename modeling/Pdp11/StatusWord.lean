import Pdp11.Word

/-! The processor status word: condition codes in bits 0 to 3, the trace bit,
three bits of priority, and the privileged HALT mode bit that only one of the
two processors implements. -/

namespace Pdp11

/-- Status word as the raw hardware pattern. -/
structure StatusWord where
  bits : Word := 0
deriving DecidableEq, Repr, Inhabited

namespace StatusWord

def carryBit : Word := 0o1
def overflowBit : Word := 0o2
def zeroBit : Word := 0o4
def negativeBit : Word := 0o10
def traceBit : Word := 0o20
def priorityMask : Word := 0o340
def haltBit : Word := 0o400

/-- Highest priority: nothing but a trace trap and the HALT pin interrupts it. -/
def maxPriority : BitVec 3 := 7

/-- Every bit of the flag is set; an empty flag is always set. -/
def isSet (status : StatusWord) (flag : Word) : Bool := status.bits &&& flag == flag

def set (status : StatusWord) (flag : Word) (on : Bool) : StatusWord :=
  ⟨if on then status.bits ||| flag else status.bits &&& ~~~flag⟩

def carry (status : StatusWord) : Bool := status.isSet carryBit
def overflow (status : StatusWord) : Bool := status.isSet overflowBit
def zero (status : StatusWord) : Bool := status.isSet zeroBit
def negative (status : StatusWord) : Bool := status.isSet negativeBit
def trace (status : StatusWord) : Bool := status.isSet traceBit
def haltMode (status : StatusWord) : Bool := status.isSet haltBit

def priority (status : StatusWord) : BitVec 3 := status.bits.extractLsb' 5 3

/-- Only the low three bits of the level reach the priority field. -/
def setPriority (status : StatusWord) (level : Byte) : StatusWord :=
  ⟨(status.bits &&& ~~~priorityMask) ||| ((level.setWidth 16 <<< 5) &&& priorityMask)⟩

/-- Replaces all four condition codes at once. -/
def setCodes (status : StatusWord) (negative zero overflow carry : Bool) : StatusWord :=
  (((status.set negativeBit negative).set zeroBit zero).set overflowBit overflow).set carryBit carry

/-- Bits outside the implemented ones read as zero once a status word is installed. -/
def masked (status : StatusWord) (implemented : Word) : StatusWord := ⟨status.bits &&& implemented⟩

/-- One letter for each of the low eight bits, highest bit first, with a dot
for a clear bit. -/
def letters (status : StatusWord) : String :=
  String.ofList ("IIITNZVC".toList.mapIdx fun index letter =>
    if status.bits.getLsbD (7 - index) then letter else '.')

end StatusWord
end Pdp11
