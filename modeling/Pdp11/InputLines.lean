import Pdp11.Counter

/-! Input pins. Most are levels that stay as driven; the timer event is an edge
that stays latched until it is served, and bus errors are counted. -/

namespace Pdp11

inductive InputLine where
  /-- Request pins of the T-11, read together as a four-bit number. -/
  | irq0 | irq1 | irq2 | irq3
  /-- Vectored request from the interrupt chain. -/
  | virq
  /-- Power fail. -/
  | aclo
  | halt
  | event
  | busError
deriving DecidableEq, Repr

namespace InputLine

def all : List InputLine := [irq0, irq1, irq2, irq3, virq, aclo, halt, event, busError]

/-- Bit in the level register; a latched or counted line has none. -/
def levelBit? : InputLine → Option (BitVec 7)
  | irq0 => some 1
  | irq1 => some 2
  | irq2 => some 4
  | irq3 => some 8
  | virq => some 16
  | aclo => some 32
  | halt => some 64
  | event | busError => none

end InputLine

structure InputLines where
  levels : BitVec 7 := 0
  event : Bool := false
  busErrors : LongCounter := .zero
deriving DecidableEq, Inhabited

namespace InputLines

/-- Sets or clears a level; the other two lines have no level to set. -/
def setLevel (lines : InputLines) (line : InputLine) (asserted : Bool) : InputLines :=
  match line.levelBit? with
  | some bit =>
    { lines with levels := if asserted then lines.levels ||| bit else lines.levels &&& ~~~bit }
  | none => lines

def raiseBusError (lines : InputLines) : InputLines :=
  { lines with busErrors := lines.busErrors.bump }

def clearBusErrors (lines : InputLines) : InputLines := { lines with busErrors := .zero }

def clearEvent (lines : InputLines) : InputLines := { lines with event := false }

/-- What a driver's change of a line does. Releasing the event line keeps a
pending event, because only its edge counts. -/
def drive (lines : InputLines) (line : InputLine) (asserted : Bool) : InputLines :=
  match line with
  | .event => { lines with event := lines.event || asserted }
  | .busError => if asserted then lines.raiseBusError else lines.clearBusErrors
  | line => lines.setLevel line asserted

/-- The line is high, latched or counted. -/
def isAsserted (lines : InputLines) (line : InputLine) : Bool :=
  match line.levelBit?, line with
  | some bit, _ => lines.levels &&& bit != 0
  | none, .event => lines.event
  | none, _ => lines.busErrors.value != 0

/-- A bus error was reported and not yet answered. -/
def hasBusError (lines : InputLines) : Bool := lines.busErrors.value != 0

/-- The four request pins as one number. -/
def request (lines : InputLines) : BitVec 4 := lines.levels.setWidth 4

end InputLines
end Pdp11
