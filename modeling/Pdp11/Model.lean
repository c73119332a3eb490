import Pdp11.StatusWord

/-! The two processors of the library, and the tables in which they differ. -/

namespace Pdp11

inductive Model where
  | t11
  | vm2
deriving DecidableEq, Repr, Inhabited

namespace Model

def name : Model → String
  | t11 => "T-11"
  | vm2 => "K1801VM2"

/-- Bits of the status word that exist; installing one clears all others. -/
def implemented : Model → Word
  | t11 => 0o377
  | vm2 => 0o777

/-- Has a privileged mode with a memory bank of its own. -/
def hasHaltMode : Model → Bool
  | t11 => false
  | vm2 => true

/-- What MFPT answers. Without an answer MFPT is a reserved instruction. -/
def processorType? : Model → Option Word
  | t11 => some 4
  | vm2 => none

/-- Status flags for display, led by the HALT mode bit where there is one. -/
def flags : Model → StatusWord → String
  | t11, status => status.letters
  | vm2, status => (if status.haltMode then "H" else ".") ++ status.letters

end Model

/-- Stack pointer after reset. -/
def resetSp : Word := 0o376

namespace T11

/-- Start address by the top three bits of the mode register. -/
def startAddresses : Vector Word 8 :=
  #v[0xC000, 0x8000, 0x4000, 0x2000, 0x1000, 0x0000, 0xF600, 0xF400]

def startAddress (mode : Word) : Word := startAddresses[(mode.extractLsb' 13 3).toFin]

/-- Status after reset and after a HALT instruction: highest priority, no codes. -/
def resetStatus : StatusWord := ⟨0o340⟩

structure Request where
  priority : BitVec 3
  vector : Word
deriving DecidableEq, Repr

/-- Requests by the number on the request pins. Number zero is no request: its
priority interrupts nothing. -/
def requests : Vector Request 16 := #v[
  ⟨0, 0⟩, ⟨4, 0o070⟩, ⟨4, 0o064⟩, ⟨4, 0o060⟩,
  ⟨5, 0o134⟩, ⟨5, 0o130⟩, ⟨5, 0o124⟩, ⟨5, 0o120⟩,
  ⟨6, 0o114⟩, ⟨6, 0o110⟩, ⟨6, 0o104⟩, ⟨6, 0o100⟩,
  ⟨7, 0o154⟩, ⟨7, 0o150⟩, ⟨7, 0o144⟩, ⟨7, 0o140⟩]

def request (number : BitVec 4) : Request := requests[number.toFin]

end T11

namespace Vm2

/-- Address of the start block, which holds a program counter and a status word
for reset, and the same for entry into HALT mode. -/
def startBlock (mode : Word) : Word := mode &&& 0xFF00

/-- The board's switches reach only the low bits of the mode register. -/
def switchMask : Word := 0o7

end Vm2
end Pdp11
