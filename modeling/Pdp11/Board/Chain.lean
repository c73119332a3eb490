import Pdp11.Counter
import Pdp11.Word

/-! The vectored interrupt chain. The pending device nearest to the processor
answers an acknowledge, and devices behind it do not hear of it. -/

namespace Pdp11

/-- A device that answers with one fixed vector, or gives way without a vector. -/
structure ChainDevice where
  vector : Option Word
  pending : Bool := false
  acknowledged : LongCounter := .zero
deriving DecidableEq, Inhabited

namespace ChainDevice

def raise (device : ChainDevice) : ChainDevice := { device with pending := true }

def withdraw (device : ChainDevice) : ChainDevice := { device with pending := false }

/-- Once it has answered, the device's request is gone. -/
def answered (device : ChainDevice) : ChainDevice :=
  { device with pending := false, acknowledged := device.acknowledged.bump }

end ChainDevice

/-- Devices by priority, nearest to the processor first. -/
abbrev InterruptChain := List ChainDevice

namespace InterruptChain

def anyPending (chain : InterruptChain) : Bool := chain.any (·.pending)

/-- One acknowledge cycle. A device that answers zero has withdrawn: its request
is gone and nobody else is asked. -/
def acknowledge : InterruptChain → Option Word × InterruptChain
  | [] => (none, [])
  | device :: rest =>
    if device.pending then (device.vector.filter (· != 0), device.answered :: rest)
    else
      let (vector, rest) := acknowledge rest
      (vector, device :: rest)

end InterruptChain
end Pdp11
