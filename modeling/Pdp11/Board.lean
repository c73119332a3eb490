import Pdp11.Word

/-! What the processor sees of a board. A board is a state and nine operations
on it, all of which may change that state, so devices, failing cycles and
side effects of reads need no further machinery. -/

namespace Pdp11

/-- Why a bus cycle did not complete. -/
inductive BusError where
  /-- Nothing answered in time. -/
  | noResponse (address : Word)
  /-- A device answered and refused. -/
  | rejected (address : Word)
deriving DecidableEq, Repr

namespace BusError

def address : BusError → Word
  | noResponse address | rejected address => address

def message : BusError → String
  | noResponse address => "no response at " ++ octalLiteral 4 address.toNat
  | rejected address => "cycle rejected at " ++ octalLiteral 4 address.toNat

end BusError

/-- Memory bank selected by the processor that has a HALT mode. -/
inductive Bank where
  | user
  | halt
deriving DecidableEq, Repr, Inhabited

def Bank.ofHaltMode (haltMode : Bool) : Bank := if haltMode then .halt else .user

/-- The four bus cycles, and hooks with defaults for a board that has nothing
but memory. Word cycles come at even addresses. -/
class Board (β : Type) where
  readWord : Word → β → Except BusError Word × β
  readByte : Word → β → Except BusError Byte × β
  writeWord : Word → Word → β → Except BusError Unit × β
  writeByte : Word → Byte → β → Except BusError Unit × β
  /-- Acknowledges a request of the T-11; a vector given here replaces the one
  of the priority table. -/
  acknowledge : Byte → β → Option Word × β := fun _ board => (none, board)
  /-- Acknowledges the vectored interrupt chain. Vector zero is no answer. -/
  acknowledgeChain : β → Option Word × β := fun board => (none, board)
  selectBank : Bank → β → β := fun _ board => board
  /-- Pulse of the RESET instruction. -/
  resetDevices : β → β := id
  /-- Start-mode switches, read at reset. -/
  startSwitches : β → Byte := fun _ => 0

end Pdp11
