import Pdp11.Board

/-! A board whose hooks can be cut off. Without them the processor meets nothing
but the four cycles, and the board behind never hears of a hook. -/

namespace Pdp11

structure Gated (β : Type) where
  board : β
  hooks : Bool := true

instance {β : Type} [Board β] : Board (Gated β) where
  readWord address gated :=
    match gated with
    | ⟨board, hooks⟩ =>
      let (answer, board) := Board.readWord address board
      (answer, ⟨board, hooks⟩)
  readByte address gated :=
    match gated with
    | ⟨board, hooks⟩ =>
      let (answer, board) := Board.readByte address board
      (answer, ⟨board, hooks⟩)
  writeWord address value gated :=
    match gated with
    | ⟨board, hooks⟩ =>
      let (answer, board) := Board.writeWord address value board
      (answer, ⟨board, hooks⟩)
  writeByte address value gated :=
    match gated with
    | ⟨board, hooks⟩ =>
      let (answer, board) := Board.writeByte address value board
      (answer, ⟨board, hooks⟩)
  acknowledge request gated :=
    if gated.hooks then
      let (vector, board) := Board.acknowledge request gated.board
      (vector, { gated with board })
    else (none, gated)
  acknowledgeChain gated :=
    if gated.hooks then
      let (vector, board) := Board.acknowledgeChain gated.board
      (vector, { gated with board })
    else (none, gated)
  selectBank bank gated :=
    if gated.hooks then { gated with board := Board.selectBank bank gated.board } else gated
  resetDevices gated :=
    if gated.hooks then { gated with board := Board.resetDevices gated.board } else gated
  startSwitches gated := if gated.hooks then Board.startSwitches gated.board else 0

end Pdp11
