import Pdp11.Board

/-! A board on which chosen bus cycles are refused. Cycles are numbered from
zero; a refused one never reaches the board behind, so holes and windows are
not even looked at. -/

namespace Pdp11

structure Faulty (β : Type) where
  board : β
  /-- Number of the next cycle. -/
  next : Nat := 0
  refused : List Nat := []

namespace Faulty

variable {α β : Type}

/-- Also refuses the cycles at these distances from the next one. -/
def refuse (faulty : Faulty β) (distances : List Nat) : Faulty β :=
  { faulty with refused := distances.map (faulty.next + ·) ++ faulty.refused }

/-- Counts a cycle, and passes it on unless it is one of the refused. -/
def cycle (address : Word) (request : β → Except BusError α × β) (faulty : Faulty β) :
    Except BusError α × Faulty β :=
  match faulty with
  | ⟨board, next, refused⟩ =>
    if refused.contains next then (.error (.rejected address), ⟨board, next + 1, refused⟩)
    else
      let (answer, board) := request board
      (answer, ⟨board, next + 1, refused⟩)

end Faulty

instance {β : Type} [Board β] : Board (Faulty β) where
  readWord address := Faulty.cycle address (Board.readWord address)
  readByte address := Faulty.cycle address (Board.readByte address)
  writeWord address value := Faulty.cycle address (Board.writeWord address value)
  writeByte address value := Faulty.cycle address (Board.writeByte address value)
  acknowledge request faulty :=
    let (vector, board) := Board.acknowledge request faulty.board
    (vector, { faulty with board })
  acknowledgeChain faulty :=
    let (vector, board) := Board.acknowledgeChain faulty.board
    (vector, { faulty with board })
  selectBank bank faulty := { faulty with board := Board.selectBank bank faulty.board }
  resetDevices faulty := { faulty with board := Board.resetDevices faulty.board }
  startSwitches faulty := Board.startSwitches faulty.board

end Pdp11
