import Pdp11.Word

/-! Sixty-four kibibytes of memory, addressed by bytes and read by words with
the low byte first. -/

namespace Pdp11

structure Memory where
  bytes : Vector Byte 0x10000

namespace Memory

/-- All zero. -/
def blank : Memory := ⟨Vector.replicate 0x10000 0⟩

instance : Inhabited Memory := ⟨blank⟩

def byte (memory : Memory) (address : Word) : Byte := memory.bytes[address.toFin]

def setByte (memory : Memory) (address : Word) (value : Byte) : Memory :=
  ⟨memory.bytes.set address.toNat value address.isLt⟩

/-- The word that holds the addressed byte. -/
def word (memory : Memory) (address : Word) : Word :=
  Word.ofBytes (memory.byte address.even) (memory.byte (address.even + 1))

def setWord (memory : Memory) (address value : Word) : Memory :=
  (memory.setByte address.even value.low).setByte (address.even + 1) value.high

/-- Stores consecutive words, going on at address zero past the top. -/
def load (memory : Memory) (address : Word) : List Word → Memory
  | [] => memory
  | value :: rest => (memory.setWord address value).load (address + 2) rest

/-- The whole address space in order of addresses. -/
def image (memory : Memory) : Array Byte := memory.bytes.toArray

/-- Words of `after` that differ from the word of `before` at the same even
address, in order of addresses. -/
def changes (before after : Memory) : List (Word × Word) :=
  (List.range 32768).filterMap fun index =>
    let low := BitVec.ofNat 16 (2 * index)
    let high := BitVec.ofNat 16 (2 * index + 1)
    if after.byte low = before.byte low ∧ after.byte high = before.byte high then none
    else some (low, Word.ofBytes (after.byte low) (after.byte high))

theorem byte_setByte (memory : Memory) (address other : Word) (value : Byte) :
    (memory.setByte address value).byte other =
      if address = other then value else memory.byte other := by
  simp [byte, setByte, Vector.getElem_set, BitVec.toNat_inj]

end Memory
end Pdp11
