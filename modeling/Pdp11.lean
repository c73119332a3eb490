import Pdp11.Alu
import Pdp11.Board.Faulty
import Pdp11.Board.Flat
import Pdp11.Board.Gated
import Pdp11.Board.Recorded
import Pdp11.Disassembly
import Pdp11.Operation
import Pdp11.Proofs.Actions
import Pdp11.Proofs.RoutineActions
import Pdp11.Proofs.TrapEntry
import Pdp11.Proofs.BoundaryCases
import Pdp11.Proofs.Consistency
import Pdp11.Proofs.ResetCases
import Pdp11.Proofs.History
import Pdp11.Proofs.BoardRecord
import Pdp11.Proofs.FaultAtomicity
import Pdp11.Proofs.Retirement
import Pdp11.Proofs.NestedAbort
import Pdp11.Proofs.Latching
import Pdp11.Proofs.CycleCount
import Pdp11.Proofs.Inertness
import Pdp11.Proofs.Resumption
import Pdp11.Proofs.InstructionCases
import Pdp11.Proofs.ActionScope
import Pdp11.Proofs.BankSignals
import Pdp11.Proofs.BoundaryInvariant
import Pdp11.Proofs.HaltTransparency
import Pdp11.Proofs.BusErrorPrecedence
import Pdp11.Proofs.TrapReturn
import Pdp11.Proofs.TraceTraps
import Pdp11.Proofs.Coupling
import Pdp11.Proofs.Lockstep
import Pdp11.Proofs.CycleCost
import Pdp11.Proofs.BudgetSlicing
import Pdp11.Proofs.RunBounds
import Pdp11.Proofs.OperandStage
import Pdp11.Proofs.InstructionLayout
import Pdp11.Proofs.WriteOrder
import Pdp11.Proofs.TrapNesting
import Pdp11.Proofs.ArbitrationPhase
import Pdp11.Proofs.RequestConservation
import Pdp11.Proofs.EventLedger
import Pdp11.Proofs.EventGrammar
import Pdp11.Proofs.OrderlyScripts
import Pdp11.Proofs.DeviceAnswers
import Pdp11.Proofs.RequestPriority
import Pdp11.Proofs.VectorAlignment
import Pdp11.Proofs.HaltShadow
import Pdp11.Proofs.ResetHistory
import Pdp11.Proofs.ExactArithmetic
import Pdp11.Proofs.SealedMemory
import Pdp11.Proofs.RowWords
import Pdp11.Proofs.DisassemblyTiling
import Pdp11.Proofs.TextAmbiguity
import Pdp11.Proofs.ComparedBranches
import Pdp11.Proofs.CarryChains
import Pdp11.Proofs.SubroutineNesting
import Pdp11.Proofs.MarkedFrames
import Pdp11.Proofs.InstructionFrame
import Pdp11.Proofs.RegisterStacks
import Pdp11.Proofs.ChainDraining
