import Pdp11.Opcode

/-! The encoding table, and classification of instruction words by it. No word
matches two rows, so the order of the rows does not matter; a word that matches
none is reserved. -/

namespace Pdp11

/-- One row of the table: a word belongs to the opcode when its masked bits are
the pattern. -/
structure Encoding where
  mask : Word
  pattern : Word
  opcode : Opcode
deriving DecidableEq, Repr

namespace Encoding

def admits (row : Encoding) (word : Word) : Bool := word &&& row.mask == row.pattern

open Opcode in
def table : List Encoding := [
  ⟨0o177777, 0o000000, control .halt⟩,
  ⟨0o177777, 0o000001, control .wait⟩,
  ⟨0o177777, 0o000002, control .rti⟩,
  ⟨0o177777, 0o000003, control .bpt⟩,
  ⟨0o177777, 0o000004, control .iot⟩,
  ⟨0o177777, 0o000005, control .reset⟩,
  ⟨0o177777, 0o000006, control .rtt⟩,
  ⟨0o177777, 0o000007, control .mfpt⟩,
  ⟨0o177777, 0o000012, control .start⟩,
  ⟨0o177700, 0o000100, jmp⟩,
  ⟨0o177770, 0o000200, rts⟩,
  ⟨0o177760, 0o000240, codes false⟩,
  ⟨0o177760, 0o000260, codes true⟩,
  ⟨0o177700, 0o000300, swab⟩,
  ⟨0o177400, 0o000400, branch .always⟩,
  ⟨0o177400, 0o001000, branch .ne⟩,
  ⟨0o177400, 0o001400, branch .eq⟩,
  ⟨0o177400, 0o002000, branch .ge⟩,
  ⟨0o177400, 0o002400, branch .lt⟩,
  ⟨0o177400, 0o003000, branch .gt⟩,
  ⟨0o177400, 0o003400, branch .le⟩,
  ⟨0o177000, 0o004000, jsr⟩,
  ⟨0o177700, 0o005000, clr .word⟩,
  ⟨0o177700, 0o005100, unary .com .word⟩,
  ⟨0o177700, 0o005200, unary .inc .word⟩,
  ⟨0o177700, 0o005300, unary .dec .word⟩,
  ⟨0o177700, 0o005400, unary .neg .word⟩,
  ⟨0o177700, 0o005500, unary .adc .word⟩,
  ⟨0o177700, 0o005600, unary .sbc .word⟩,
  ⟨0o177700, 0o005700, tst .word⟩,
  ⟨0o177700, 0o006000, unary .ror .word⟩,
  ⟨0o177700, 0o006100, unary .rol .word⟩,
  ⟨0o177700, 0o006200, unary .asr .word⟩,
  ⟨0o177700, 0o006300, unary .asl .word⟩,
  ⟨0o177700, 0o006400, mark⟩,
  ⟨0o177700, 0o006700, sxt⟩,
  ⟨0o170000, 0o010000, mov .word⟩,
  ⟨0o170000, 0o020000, cmp .word⟩,
  ⟨0o170000, 0o030000, bit .word⟩,
  ⟨0o170000, 0o040000, bic .word⟩,
  ⟨0o170000, 0o050000, bis .word⟩,
  ⟨0o170000, 0o060000, add⟩,
  ⟨0o177000, 0o074000, xor⟩,
  ⟨0o177000, 0o077000, sob⟩,
  ⟨0o177400, 0o100000, branch .pl⟩,
  ⟨0o177400, 0o100400, branch .mi⟩,
  ⟨0o177400, 0o101000, branch .hi⟩,
  ⟨0o177400, 0o101400, branch .los⟩,
  ⟨0o177400, 0o102000, branch .vc⟩,
  ⟨0o177400, 0o102400, branch .vs⟩,
  ⟨0o177400, 0o103000, branch .cc⟩,
  ⟨0o177400, 0o103400, branch .cs⟩,
  ⟨0o177400, 0o104000, call .emt⟩,
  ⟨0o177400, 0o104400, call .trap⟩,
  ⟨0o177700, 0o105000, clr .byte⟩,
  ⟨0o177700, 0o105100, unary .com .byte⟩,
  ⟨0o177700, 0o105200, unary .inc .byte⟩,
  ⟨0o177700, 0o105300, unary .dec .byte⟩,
  ⟨0o177700, 0o105400, unary .neg .byte⟩,
  ⟨0o177700, 0o105500, unary .adc .byte⟩,
  ⟨0o177700, 0o105600, unary .sbc .byte⟩,
  ⟨0o177700, 0o105700, tst .byte⟩,
  ⟨0o177700, 0o106000, unary .ror .byte⟩,
  ⟨0o177700, 0o106100, unary .rol .byte⟩,
  ⟨0o177700, 0o106200, unary .asr .byte⟩,
  ⟨0o177700, 0o106300, unary .asl .byte⟩,
  ⟨0o177700, 0o106400, mtps⟩,
  ⟨0o177700, 0o106700, mfps⟩,
  ⟨0o170000, 0o110000, mov .byte⟩,
  ⟨0o170000, 0o120000, cmp .byte⟩,
  ⟨0o170000, 0o130000, bit .byte⟩,
  ⟨0o170000, 0o140000, bic .byte⟩,
  ⟨0o170000, 0o150000, bis .byte⟩,
  ⟨0o170000, 0o160000, sub⟩]

end Encoding

/-- Opcode of an instruction word; `none` for a reserved one. -/
def Opcode.ofWord? (word : Word) : Option Opcode :=
  (Encoding.table.find? (·.admits word)).map (·.opcode)

/-- Maximal runs of words from `first` to `last` with one classification, each
given by its first word. -/
def Opcode.runs (first last : Nat) : List (Nat × Option Opcode) :=
  let classified := (List.range' first (last + 1 - first)).map fun word =>
    (word, Opcode.ofWord? (BitVec.ofNat 16 word))
  (classified.splitBy fun one next => one.2 == next.2).filterMap List.head?

end Pdp11
