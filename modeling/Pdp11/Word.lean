/-! Words, bytes, and the octal notation in which addresses are written. An
address is a word, so address arithmetic wraps at 64 KiB by its type alone. -/

namespace Pdp11

abbrev Word := BitVec 16

abbrev Byte := BitVec 8

/-- Word cycles are always issued at an even address; bit 0 is dropped, not an error. -/
def Word.even (address : Word) : Word := address &&& ~~~1#16

def Word.low (word : Word) : Byte := word.extractLsb' 0 8

def Word.high (word : Word) : Byte := word.extractLsb' 8 8

/-- The low byte of a word is the one at its even address. -/
def Word.ofBytes (low high : Byte) : Word := (high.setWidth 16 <<< 8) ||| low.setWidth 16

theorem Word.low_ofBytes (low high : Byte) : (Word.ofBytes low high).low = low := by
  ext bit inside
  have below : bit < 16 := by omega
  simp [Word.low, Word.ofBytes, inside, below]

theorem Word.high_ofBytes (low high : Byte) : (Word.ofBytes low high).high = high := by
  ext bit inside
  have below : 8 + bit < 16 := by omega
  simp [Word.high, Word.ofBytes, inside, below]

/-- Octal digits without leading zeros; zero keeps one digit. -/
def octalDigits (value : Nat) : List Char := Nat.toDigits 8 value

def octal (value : Nat) : String := String.ofList (octalDigits value)

/-- An octal literal with its marker, at least `width` digits long. -/
def octalLiteral (width value : Nat) : String :=
  let digits := octalDigits value
  String.ofList ('0' :: 'o' :: (List.replicate (width - digits.length) '0' ++ digits))

end Pdp11
