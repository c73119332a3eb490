import Pdp11.Word

/-! The eight general registers. Two of them have a second role: the stack
pointer and the program counter are ordinary registers to every instruction. -/

namespace Pdp11

inductive Register where
  | r0 | r1 | r2 | r3 | r4 | r5 | sp | pc
deriving DecidableEq, Repr, Inhabited

namespace Register

def index : Register → Fin 8
  | r0 => 0 | r1 => 1 | r2 => 2 | r3 => 3 | r4 => 4 | r5 => 5 | sp => 6 | pc => 7

def ofIndex : Fin 8 → Register
  | 0 => r0 | 1 => r1 | 2 => r2 | 3 => r3 | 4 => r4 | 5 => r5 | 6 => sp | 7 => pc

/-- Registers by number; there are only eight. -/
def ofNat? (number : Nat) : Option Register :=
  if inside : number < 8 then some (ofIndex ⟨number, inside⟩) else none

/-- The three-bit register field that starts at `shift` in an instruction word. -/
def ofField (word : Word) (shift : Nat) : Register := ofIndex (word.extractLsb' shift 3).toFin

def all : List Register := [r0, r1, r2, r3, r4, r5, sp, pc]

/-- Autoincrement and autodecrement keep these even, so a byte operand still
moves them by a whole word. -/
def stepsByWord : Register → Bool
  | sp | pc => true
  | _ => false

/-- Assembler name. -/
def name : Register → String
  | r0 => "R0" | r1 => "R1" | r2 => "R2" | r3 => "R3"
  | r4 => "R4" | r5 => "R5" | sp => "SP" | pc => "PC"

theorem ofIndex_index (register : Register) : ofIndex register.index = register := by
  cases register <;> rfl

theorem index_inj {left right : Register} : left.index = right.index ↔ left = right :=
  ⟨fun same => by rw [← ofIndex_index left, same, ofIndex_index], fun same => same ▸ rfl⟩

end Register

/-- Contents of the general registers, all zero at power-on. -/
structure RegisterFile where
  cells : Vector Word 8 := Vector.replicate 8 0
deriving DecidableEq, Inhabited

namespace RegisterFile

def get (file : RegisterFile) (register : Register) : Word := file.cells[register.index]

def set (file : RegisterFile) (register : Register) (value : Word) : RegisterFile :=
  ⟨file.cells.set register.index value⟩

def getByte (file : RegisterFile) (register : Register) : Byte := (file.get register).low

/-- A byte written to a register leaves its high half alone. -/
def setByte (file : RegisterFile) (register : Register) (value : Byte) : RegisterFile :=
  file.set register (Word.ofBytes value (file.get register).high)

def pc (file : RegisterFile) : Word := file.get .pc

def sp (file : RegisterFile) : Word := file.get .sp

def setPc (file : RegisterFile) (value : Word) : RegisterFile := file.set .pc value

def setSp (file : RegisterFile) (value : Word) : RegisterFile := file.set .sp value

def toList (file : RegisterFile) : List Word := file.cells.toList

theorem get_set (file : RegisterFile) (register other : Register) (value : Word) :
    (file.set register value).get other = if register = other then value else file.get other := by
  simp only [get, set, Fin.getElem_fin, Vector.getElem_set]
  by_cases same : register = other
  · subst same; simp
  · have different : register.index.val ≠ other.index.val := fun equal =>
      same (Register.index_inj.mp (Fin.ext equal))
    simp [same, different]

/-- A register file is known by its eight contents. -/
theorem ext_get {left right : RegisterFile} (same : ∀ register, left.get register = right.get register) :
    left = right := by
  cases left with | mk leftCells => cases right with | mk rightCells =>
    congr 1
    apply Vector.ext
    intro index inside
    have read := same (Register.ofIndex ⟨index, inside⟩)
    have back : ∀ position : Fin 8, (Register.ofIndex position).index = position := by decide
    simpa [get, back] using read

end RegisterFile
end Pdp11
