import Pdp11.Board

/-! A board that keeps a record of what the processor asked of it and what was
answered. Recording changes no answer, so a statement about the record of a run
is one about the run on the board behind. -/

namespace Pdp11

/-- One cycle or hook together with its answer. -/
inductive BusCall where
  | readWord (address : Word) (answer : Except BusError Word)
  | readByte (address : Word) (answer : Except BusError Byte)
  | writeWord (address value : Word) (answer : Except BusError Unit)
  | writeByte (address : Word) (value : Byte) (answer : Except BusError Unit)
  | acknowledge (request : Byte) (vector : Option Word)
  | acknowledgeChain (vector : Option Word)
  | selectBank (bank : Bank)
  | resetDevices

structure Recorded (β : Type) where
  board : β
  recording : Bool := true
  calls : Array BusCall := #[]

namespace Recorded

variable {β : Type}

/-- The board after a call, with the call noted if recording is on. -/
def note (recording : Bool) (calls : Array BusCall) (call : BusCall) (board : β) : Recorded β :=
  ⟨board, recording, if recording then calls.push call else calls⟩

/-- Hands out the calls noted so far; recording goes on as before. -/
def takeCalls (recorded : Recorded β) : Array BusCall × Recorded β :=
  match recorded with
  | ⟨board, recording, calls⟩ => (calls, ⟨board, recording, #[]⟩)

end Recorded

instance {β : Type} [Board β] : Board (Recorded β) where
  readWord address recorded :=
    match recorded with
    | ⟨board, recording, calls⟩ =>
      let (answer, board) := Board.readWord address board
      (answer, .note recording calls (.readWord address answer) board)
  readByte address recorded :=
    match recorded with
    | ⟨board, recording, calls⟩ =>
      let (answer, board) := Board.readByte address board
      (answer, .note recording calls (.readByte address answer) board)
  writeWord address value recorded :=
    match recorded with
    | ⟨board, recording, calls⟩ =>
      let (answer, board) := Board.writeWord address value board
      (answer, .note recording calls (.writeWord address value answer) board)
  writeByte address value recorded :=
    match recorded with
    | ⟨board, recording, calls⟩ =>
      let (answer, board) := Board.writeByte address value board
      (answer, .note recording calls (.writeByte address value answer) board)
  acknowledge request recorded :=
    match recorded with
    | ⟨board, recording, calls⟩ =>
      let (vector, board) := Board.acknowledge request board
      (vector, .note recording calls (.acknowledge request vector) board)
  acknowledgeChain recorded :=
    match recorded with
    | ⟨board, recording, calls⟩ =>
      let (vector, board) := Board.acknowledgeChain board
      (vector, .note recording calls (.acknowledgeChain vector) board)
  selectBank bank recorded :=
    match recorded with
    | ⟨board, recording, calls⟩ =>
      .note recording calls (.selectBank bank) (Board.selectBank bank board)
  resetDevices recorded :=
    match recorded with
    | ⟨board, recording, calls⟩ => .note recording calls .resetDevices (Board.resetDevices board)
  startSwitches recorded := Board.startSwitches recorded.board

end Pdp11
