import Pdp11.StatusWord
import Pdp11.Width

/-! Arithmetic of the processor. Each operation yields a result and says how
the condition codes follow from it; the result counts only in its width, and
bits of an operand above its width never matter. -/

namespace Pdp11

/-- How an operation sets the condition codes. Negative and zero always come
from the result, so only overflow and carry differ between operations. -/
inductive CodesUpdate where
  /-- No code changes. -/
  | keep
  /-- Overflow is cleared and carry kept. -/
  | logic
  | arithmetic (overflow carry : Bool)
  | keepCarry (overflow : Bool)
deriving DecidableEq, Repr, Inhabited

namespace CodesUpdate

def isNegative (width : Width) (result : Word) : Bool := result &&& width.signBit != 0

def isZero (width : Width) (result : Word) : Bool := result &&& width.mask == 0

def apply (update : CodesUpdate) (width : Width) (result : Word) (status : StatusWord) : StatusWord :=
  let negative := isNegative width result
  let zero := isZero width result
  match update with
  | keep => status
  | logic => status.setCodes negative zero false status.carry
  | arithmetic overflow carry => status.setCodes negative zero overflow carry
  | keepCarry overflow => status.setCodes negative zero overflow status.carry

end CodesUpdate

/-- What an operation computes, before anything is stored. -/
structure AluResult where
  value : Word
  update : CodesUpdate
deriving DecidableEq, Repr

/-- The status word that records the result. -/
def AluResult.status (result : AluResult) (width : Width) (before : StatusWord) : StatusWord :=
  result.update.apply width result.value before

namespace Alu

/-- Results are cut to their width on the way out. -/
def result (width : Width) (value : Word) (update : CodesUpdate) : AluResult :=
  ⟨value &&& width.mask, update⟩

/-- A single bit as a word. -/
def bit (on : Bool) : Word := if on then 1 else 0

def add (width : Width) (dst src : Word) : AluResult :=
  let a := dst &&& width.mask
  let b := src &&& width.mask
  let sum := (a + b) &&& width.mask
  result width sum (.arithmetic
    (~~~(a ^^^ b) &&& (a ^^^ sum) &&& width.signBit != 0)
    (width.mask.toNat < a.toNat + b.toNat))

/-- Subtraction of `src` from `dst`; carry is the borrow. -/
def sub (width : Width) (dst src : Word) : AluResult :=
  let a := dst &&& width.mask
  let b := src &&& width.mask
  let difference := (a - b) &&& width.mask
  result width difference (.arithmetic
    ((a ^^^ b) &&& (a ^^^ difference) &&& width.signBit != 0)
    (a < b))

def inc (width : Width) (dst : Word) : AluResult :=
  let a := dst &&& width.mask
  result width (a + 1) (.keepCarry (a == width.maxPositive))

def dec (width : Width) (dst : Word) : AluResult :=
  let a := dst &&& width.mask
  result width (a - 1) (.keepCarry (a == width.signBit))

/-- Negation overflows only on the most negative value, its own negative. -/
def neg (width : Width) (dst : Word) : AluResult :=
  let negated := (0 - dst) &&& width.mask
  result width negated (.arithmetic (negated == width.signBit) (negated != 0))

def adc (width : Width) (dst : Word) (carry : Bool) : AluResult :=
  let a := dst &&& width.mask
  result width (a + bit carry) (.arithmetic
    (carry && a == width.maxPositive) (carry && a == width.mask))

def sbc (width : Width) (dst : Word) (carry : Bool) : AluResult :=
  let a := dst &&& width.mask
  result width (a - bit carry) (.arithmetic
    (carry && a == width.signBit) (carry && a == 0))

def com (width : Width) (dst : Word) : AluResult :=
  result width (~~~dst) (.arithmetic false true)

/-- Shifts and rotates share one rule: overflow is negative xor carry. -/
def shifted (width : Width) (value : Word) (carry : Bool) : AluResult :=
  result width value (.arithmetic (CodesUpdate.isNegative width value ^^ carry) carry)

def ror (width : Width) (dst : Word) (carry : Bool) : AluResult :=
  let a := dst &&& width.mask
  shifted width ((a >>> 1) ||| (if carry then width.signBit else 0)) (a &&& 1 != 0)

def rol (width : Width) (dst : Word) (carry : Bool) : AluResult :=
  let a := dst &&& width.mask
  shifted width ((a <<< 1) ||| bit carry) (a &&& width.signBit != 0)

def asr (width : Width) (dst : Word) : AluResult :=
  let a := dst &&& width.mask
  shifted width ((a >>> 1) ||| (a &&& width.signBit)) (a &&& 1 != 0)

def asl (width : Width) (dst : Word) : AluResult :=
  let a := dst &&& width.mask
  shifted width (a <<< 1) (a &&& width.signBit != 0)

/-- A value moved or combined bit by bit. -/
def logic (width : Width) (value : Word) : AluResult := result width value .logic

/-- A value looked at: overflow and carry are cleared. -/
def test (width : Width) (value : Word) : AluResult := result width value (.arithmetic false false)

end Alu
end Pdp11
