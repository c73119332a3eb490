import Pdp11.Counter
import Pdp11.Fault

/-! Diagnostic counts. They only ever observe: nothing the processor does
depends on them, and a reset leaves them alone. -/

namespace Pdp11

/-- Where and when a fault happened. -/
structure FaultRecord where
  code : FaultCode
  pc : Word
  cycle : UInt64
deriving DecidableEq

structure Statistics where
  lastFault : Option FaultRecord := none
  busFaults : ShortCounter := .zero
  decodeFaults : ShortCounter := .zero
  dispatchFaults : ShortCounter := .zero
  instructions : LongCounter := .zero
  interrupts : LongCounter := .zero
deriving DecidableEq, Inhabited

namespace Statistics

/-- Notes the fault and counts it in its class. -/
def recordFault (statistics : Statistics) (fault : FaultRecord) : Statistics :=
  let noted := { statistics with lastFault := some fault }
  match fault.code.faultClass with
  | .bus => { noted with busFaults := noted.busFaults.bump }
  | .decode => { noted with decodeFaults := noted.decodeFaults.bump }
  | .dispatch => { noted with dispatchFaults := noted.dispatchFaults.bump }

def countInstruction (statistics : Statistics) : Statistics :=
  { statistics with instructions := statistics.instructions.bump }

def countInterrupt (statistics : Statistics) : Statistics :=
  { statistics with interrupts := statistics.interrupts.bump }

end Statistics
end Pdp11
