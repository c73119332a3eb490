import Pdp11.Instruction

/-! Octal disassembly of a memory image. Program-counter operands are shown as
what they mean: immediate and absolute ones by their value, relative ones and
branches by the address they reach. -/

namespace Pdp11

/-- The little-endian word at an even address, if the image holds both bytes. -/
def imageWord? (image : Array Byte) (address : Word) : Option Word := do
  let low ← image[address.even.toNat]?
  let high ← image[address.even.toNat + 1]?
  return Word.ofBytes low high

/-- A piece of assembler text and the extension words it was made from. -/
structure Listing where
  text : String
  extension : List Word := []
deriving DecidableEq

/-- One disassembled instruction. -/
structure Row where
  address : Word
  /-- Instruction word and extension words. -/
  words : List Word
  mnemonic : String
  operands : String
  /-- The word is no instruction and is shown as data. -/
  reserved : Bool
deriving DecidableEq

namespace Row

/-- Length in bytes. -/
def length (row : Row) : Nat := 2 * row.words.length

def text (row : Row) : String :=
  if row.operands.isEmpty then row.mnemonic else row.mnemonic ++ " " ++ row.operands

end Row

namespace Operand

/-- Text of an operand whose extension word, if it has one, lies at `pc`. -/
def listing? (image : Array Byte) (pc : Word) (operand : Operand) : Option Listing := do
  let name := operand.register.name
  let relative := operand.register == .pc
  match operand.mode with
  | .register => return ⟨name, []⟩
  | .registerDeferred => return ⟨"(" ++ name ++ ")", []⟩
  | .autoIncrement =>
    if relative then
      let value ← imageWord? image pc
      return ⟨"#" ++ octal value.toNat, [value]⟩
    else return ⟨"(" ++ name ++ ")+", []⟩
  | .autoIncrementDeferred =>
    if relative then
      let address ← imageWord? image pc
      return ⟨"@#" ++ octal address.toNat, [address]⟩
    else return ⟨"@(" ++ name ++ ")+", []⟩
  | .autoDecrement => return ⟨"-(" ++ name ++ ")", []⟩
  | .autoDecrementDeferred => return ⟨"@-(" ++ name ++ ")", []⟩
  | .index => indexed ""
  | .indexDeferred => indexed "@"
where
  /-- An index is relative to the address after its own word. -/
  indexed (marker : String) : Option Listing := do
    let offset ← imageWord? image pc
    if operand.register == .pc then
      return ⟨marker ++ octal (pc + 2 + offset).toNat, [offset]⟩
    else
      return ⟨marker ++ octal offset.toNat ++ "(" ++ operand.register.name ++ ")", [offset]⟩

end Operand

/-- Name of a condition-code instruction: the codes it touches, from carry to
negative, or the name of the whole group. -/
def codesMnemonic (set : Bool) (mask : BitVec 4) : String :=
  if mask = 0 then "NOP"
  else if mask = 0o17 then (Opcode.codes set).mnemonic
  else
    let letters := (["C", "V", "Z", "N"].mapIdx fun bit letter =>
      if mask.getLsbD bit then some letter else none).reduceOption
    "|".intercalate (letters.map ((if set then "SE" else "CL") ++ ·))

namespace Instruction

def mnemonic : Instruction → String
  | codes set mask => codesMnemonic set mask
  | instruction => instruction.opcode.mnemonic

/-- Operand text of an instruction whose first extension word would lie at `pc`. -/
def listing? (image : Array Byte) (pc : Word) (instruction : Instruction) : Option Listing :=
  match instruction with
  | control _ | codes _ _ => some ⟨"", []⟩
  | jmp dst | swab dst | sxt dst | mtps dst | mfps dst => dst.listing? image pc
  | clr _ dst | tst _ dst | unary _ _ dst => dst.listing? image pc
  | jsr register dst | xor register dst => do
    let operand ← dst.listing? image pc
    return ⟨register.name ++ ", " ++ operand.text, operand.extension⟩
  | mov _ src dst | cmp _ src dst | bit _ src dst | bic _ src dst | bis _ src dst
  | add src dst | sub src dst => do
    let first ← src.listing? image pc
    let second ← dst.listing? image (pc + 2 * BitVec.ofNat 16 first.extension.length)
    return ⟨first.text ++ ", " ++ second.text, first.extension ++ second.extension⟩
  | rts register => some ⟨register.name, []⟩
  | branch _ offset => some ⟨octal (pc + branchDistance offset).toNat, []⟩
  | sob register offset => some ⟨register.name ++ ", " ++ octal (pc - loopDistance offset).toNat, []⟩
  | mark count => some ⟨octal count.toNat, []⟩
  | call _ code => some ⟨octal code.toNat, []⟩

end Instruction

/-- The row at an address, whose bit 0 is dropped. There is none when one of its
words lies outside the image. -/
def disassemble? (image : Array Byte) (pc : Word) : Option Row := do
  let address := pc.even
  let word ← imageWord? image address
  match Instruction.ofWord? word with
  | some instruction =>
    let operands ← instruction.listing? image (address + 2)
    return ⟨address, word :: operands.extension, instruction.mnemonic, operands.text, false⟩
  | none => return ⟨address, [word], ".WORD", octal word.toNat, true⟩

/-- Up to `count` rows, each starting where the one before it ends. -/
def disassembleRange (image : Array Byte) (pc : Word) : Nat → List Row
  | 0 => []
  | count + 1 =>
    match disassemble? image pc with
    | some row => row :: disassembleRange image (pc + BitVec.ofNat 16 row.length) count
    | none => []

end Pdp11
