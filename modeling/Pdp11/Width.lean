import Pdp11.Word

/-! Operand width. Arithmetic is done on words in either width; a byte operand
is a word whose high half does not count. -/

namespace Pdp11

inductive Width where
  | word
  | byte
deriving DecidableEq, Repr

namespace Width

def signBit : Width → Word
  | word => 0x8000
  | byte => 0x80

/-- All ones in this width. -/
def mask : Width → Word
  | word => 0xFFFF
  | byte => 0xFF

def maxPositive (width : Width) : Word := width.signBit - 1

/-- Distance between neighbouring operands of this width in memory. -/
def step : Width → Word
  | word => 2
  | byte => 1

/-- Byte forms of an instruction carry a trailing B. -/
def suffix : Width → String
  | word => ""
  | byte => "B"

end Width
end Pdp11
