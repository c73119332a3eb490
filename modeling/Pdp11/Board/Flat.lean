import Pdp11.Board
import Pdp11.Board.Chain
import Pdp11.Board.Memory

/-! A board of plain memory with holes, read-only windows, an interrupt chain
and switches. Holes answer nothing, windows refuse writes, and the hooks are
kept on record for inspection. -/

namespace Pdp11

/-- Addresses from the first to the last one, both included. -/
structure Region where
  first : Word
  last : Word
deriving DecidableEq, Repr

def Region.contains (region : Region) (address : Word) : Bool :=
  region.first ≤ address && address ≤ region.last

structure FlatBoard where
  memory : Memory := .blank
  holes : List Region := []
  windows : List Region := []
  sources : InterruptChain := []
  /-- Vectors answered in place of the priority table's, by request. -/
  vectors : Vector (Option Word) 16 := Vector.replicate 16 none
  acknowledged : Array Byte := #[]
  banks : Array Bank := #[]
  pulses : LongCounter := .zero
  switches : Byte := 0
deriving Inhabited

namespace FlatBoard

/-- Makes every cycle in the range go unanswered. -/
def unmap (board : FlatBoard) (region : Region) : FlatBoard :=
  { board with holes := region :: board.holes }

/-- Makes writes in the range fail. -/
def protect (board : FlatBoard) (region : Region) : FlatBoard :=
  { board with windows := region :: board.windows }

/-- Stores words without a bus cycle, through holes and windows alike. -/
def load (board : FlatBoard) (address : Word) (words : List Word) : FlatBoard :=
  { board with memory := board.memory.load address words }

/-- Puts an idle device at the far end of the chain. -/
def addSource (board : FlatBoard) (vector : Word) : FlatBoard :=
  { board with sources := board.sources ++ [⟨some vector, false, .zero⟩] }

/-- Changes the device in a slot, and tells whether the slot is taken. -/
def updateSource (board : FlatBoard) (slot : Nat) (change : ChainDevice → ChainDevice) :
    Bool × FlatBoard :=
  (slot < board.sources.length, { board with sources := board.sources.modify slot change })

/-- There are sixteen requests; a vector for any other is dropped. -/
def setVector (board : FlatBoard) (request : Byte) (vector : Option Word) : FlatBoard :=
  { board with vectors := board.vectors.setIfInBounds request.toNat vector }

def checkMapped (board : FlatBoard) (address : Word) : Except BusError Unit :=
  if board.holes.any (·.contains address) then .error (.noResponse address) else .ok ()

/-- A hole inside a window is still a hole. -/
def checkWritable (board : FlatBoard) (address : Word) : Except BusError Unit := do
  board.checkMapped address
  if board.windows.any (·.contains address) then .error (.rejected address) else .ok ()

def readWord (address : Word) (board : FlatBoard) : Except BusError Word × FlatBoard :=
  ((board.checkMapped address).map fun _ => board.memory.word address, board)

def readByte (address : Word) (board : FlatBoard) : Except BusError Byte × FlatBoard :=
  ((board.checkMapped address).map fun _ => board.memory.byte address, board)

def writeWord (address value : Word) (board : FlatBoard) : Except BusError Unit × FlatBoard :=
  match board.checkWritable address with
  | .error failure => (.error failure, board)
  | .ok () => (.ok (), { board with memory := board.memory.setWord address value })

def writeByte (address : Word) (value : Byte) (board : FlatBoard) :
    Except BusError Unit × FlatBoard :=
  match board.checkWritable address with
  | .error failure => (.error failure, board)
  | .ok () => (.ok (), { board with memory := board.memory.setByte address value })

def acknowledge (request : Byte) (board : FlatBoard) : Option Word × FlatBoard :=
  (board.vectors[request.toNat]?.join,
    { board with acknowledged := board.acknowledged.push request })

def acknowledgeChain (board : FlatBoard) : Option Word × FlatBoard :=
  let (vector, sources) := board.sources.acknowledge
  (vector, { board with sources })

def selectBank (bank : Bank) (board : FlatBoard) : FlatBoard :=
  { board with banks := board.banks.push bank }

def resetDevices (board : FlatBoard) : FlatBoard :=
  { board with pulses := board.pulses.bump, sources := board.sources.map (·.withdraw) }

end FlatBoard

instance : Board FlatBoard where
  readWord := FlatBoard.readWord
  readByte := FlatBoard.readByte
  writeWord := FlatBoard.writeWord
  writeByte := FlatBoard.writeByte
  acknowledge := FlatBoard.acknowledge
  acknowledgeChain := FlatBoard.acknowledgeChain
  selectBank := FlatBoard.selectBank
  resetDevices := FlatBoard.resetDevices
  startSwitches := FlatBoard.switches

end Pdp11
