import Pdp11.Dispatch.Step

/-! Everything that a driver can do with a processor, as one type. A history of
a processor is a list of operations, with a board that may change between them. -/

namespace Pdp11

inductive Operation where
  | reset
  | step
  | run (budget : UInt32)
  | checkInterrupts
  | drive (line : InputLine) (asserted : Bool)
  | suspend
  | resume
  /-- Installs an observer of trace events, or removes it. -/
  | observe (on : Bool)
deriving DecidableEq, Repr

/-- What an operation answers. -/
inductive Response where
  | done
  | outcome (outcome : Outcome)
  | consumed (cycles : Nat)
  | taken (any : Bool)
deriving DecidableEq, Repr

def Operation.perform {β : Type} [Board β] : Operation → Dispatch β Response
  | reset => do
    Dispatch.reset
    return .done
  | step => return .outcome (← Dispatch.step)
  | run budget => return .consumed (← Dispatch.run budget)
  | checkInterrupts => return .taken (← Dispatch.checkInterrupts)
  | drive line asserted => do
    Dispatch.drive line asserted
    return .done
  | suspend => do
    Dispatch.suspend
    return .done
  | resume => do
    Dispatch.resume
    return .done
  | observe on => do
    Dispatch.update (·.observe on)
    return .done

end Pdp11
