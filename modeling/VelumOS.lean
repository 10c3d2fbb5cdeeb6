import VelumOS.Base.Octets
import VelumOS.Base.CString
import VelumOS.Base.RecordStream
import VelumOS.Base.Runs
import VelumOS.Base.IntervalChain
import VelumOS.Source.Libc
import VelumOS.Source.NodeLogic
import VelumOS.Source.Sandbox
import VelumOS.Source.Tables
import VelumOS.Source.Spawn
import VelumOS.Source.Engine
import VelumOS.Guarantees.WireRoundTrip
import VelumOS.Guarantees.ScatterCoverage
import VelumOS.Guarantees.DecodeBounds
import VelumOS.Spec.Connections
import VelumOS.Guarantees.Framing
import VelumOS.Guarantees.IdentityMap
import VelumOS.Guarantees.DeathDetection
import VelumOS.Guarantees.RequestReplies
import VelumOS.Guarantees.GatherSums
import VelumOS.Guarantees.LedgerExactness
import VelumOS.Guarantees.WorkerLoss
import VelumOS.Base.Batches
import VelumOS.Spec.ChunkedTasks
import VelumOS.Guarantees.PiCounts
import VelumOS.Guarantees.PrimeCounts
import VelumOS.Guarantees.InboundSlots
import VelumOS.Guarantees.IndexBounds
import VelumOS.Guarantees.JobIds
import VelumOS.Guarantees.ProgressCounts
import VelumOS.Guarantees.EncoderBounds
import VelumOS.Guarantees.WireMemory
import VelumOS.Base.Links
import VelumOS.Guarantees.WorkerReachable
import VelumOS.Spec.Network
import VelumOS.Guarantees.GenuineResults
import VelumOS.Spec.Answers
import VelumOS.Guarantees.ReplyProtocol
import VelumOS.Guarantees.WorkCounts
import VelumOS.Base.Selection
import VelumOS.Spec.Scheduling
import VelumOS.Guarantees.NodeSelection
import VelumOS.Guarantees.BusyScores
import VelumOS.Guarantees.WorkerTargets
import VelumOS.Guarantees.ScatterArithmetic
import VelumOS.Guarantees.DispatchBookkeeping
import VelumOS.Spec.Interpreter
import VelumOS.Guarantees.SandboxErrors
import VelumOS.Guarantees.GuestArguments
import VelumOS.Guarantees.PrimeTests
import VelumOS.Base.Refinement
import VelumOS.Base.Timers
import VelumOS.Source.EngineLoop
import VelumOS.Spec.Rounds
import VelumOS.Guarantees.EngineRounds
import VelumOS.Base.Journal
import VelumOS.Guarantees.TableHistories
import VelumOS.Base.Leb128
import VelumOS.Source.M3.Core
import VelumOS.Guarantees.WasmNumbers
import VelumOS.Base.Wasm
import VelumOS.Base.WasmBinary
import VelumOS.Source.M3.Exec
import VelumOS.Spec.WasmArithmetic
import VelumOS.Source.M3.Compile
import VelumOS.Spec.CompilerState
import VelumOS.Spec.CompilerRuns
import VelumOS.Spec.CompilerConstants
import VelumOS.Spec.CompilerLocals
import VelumOS.Spec.CompilerOperators
import VelumOS.Spec.CompilerInstrs
import VelumOS.Spec.CompilerBlocks
import VelumOS.Spec.CompilerPrologue
import VelumOS.Spec.CompilerFunctions
import VelumOS.Guarantees.CompiledCode
import VelumOS.Source.M3.Env
import VelumOS.Guarantees.SandboxCode
import VelumOS.Spec.ParserSections
import VelumOS.Spec.ParserState
import VelumOS.Spec.ParserFunctions
import VelumOS.Base.Formats
import VelumOS.Base.WasmModule
import VelumOS.Source.M3.Module
import VelumOS.Source.M3.Parse
import VelumOS.Spec.WasmReaders
import VelumOS.Guarantees.ModuleParsing
