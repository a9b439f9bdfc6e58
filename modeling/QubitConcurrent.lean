import QubitConcurrent.DoubleChecked.Executor
import QubitConcurrent.DoubleChecked.Lifecycle
import QubitConcurrent.DoubleChecked.Once
import QubitConcurrent.DoubleChecked.Panics
import QubitConcurrent.FixedPool.Accounting
import QubitConcurrent.FixedPool.Admission
import QubitConcurrent.FixedPool.Contract
import QubitConcurrent.FixedPool.Inflight
import QubitConcurrent.FixedPool.Inner
import QubitConcurrent.FixedPool.Jobs
import QubitConcurrent.FixedPool.Loop
import QubitConcurrent.FixedPool.Moves
import QubitConcurrent.FixedPool.Quiescence
import QubitConcurrent.FixedPool.Report
import QubitConcurrent.FixedPool.Threads
import QubitConcurrent.FixedPool.Turns
import QubitConcurrent.FixedPool.Waiters
import QubitConcurrent.FixedPool.Wakeups
import QubitConcurrent.Lib.Admission
import QubitConcurrent.Lib.Books
import QubitConcurrent.Lib.Contract
import QubitConcurrent.Lib.Custody
import QubitConcurrent.Lib.Gate
import QubitConcurrent.Lib.History
import QubitConcurrent.Lib.Lists
import QubitConcurrent.Lib.Machine
import QubitConcurrent.Lib.Serial
import QubitConcurrent.Lib.Stories
import QubitConcurrent.Lock.Locks
import QubitConcurrent.Lock.Monitor
import QubitConcurrent.Lock.Notification
import QubitConcurrent.Lock.PredicateWaits
import QubitConcurrent.Lock.Sections
import QubitConcurrent.Lock.WaitSet
import QubitConcurrent.Services.Contract
import QubitConcurrent.Services.Core
import QubitConcurrent.Services.Endings
import QubitConcurrent.Services.ExecutionServices
import QubitConcurrent.Services.FinalWakeup
import QubitConcurrent.Services.Rayon
import QubitConcurrent.Services.RayonAccounting
import QubitConcurrent.Services.RayonEnd
import QubitConcurrent.Services.RayonGate
import QubitConcurrent.Services.RayonMoves
import QubitConcurrent.Services.RayonProgress
import QubitConcurrent.Services.RayonRace
import QubitConcurrent.Services.RayonShutdown
import QubitConcurrent.Services.Stability
import QubitConcurrent.Services.ThreadPerTask
import QubitConcurrent.Services.ThreadPerTaskEnd
import QubitConcurrent.Services.ThreadPerTaskGate
import QubitConcurrent.Services.ThreadPerTaskPanics
import QubitConcurrent.Services.Tokio
import QubitConcurrent.Services.TokioAborts
import QubitConcurrent.Services.TokioCallables
import QubitConcurrent.Services.TokioContract
import QubitConcurrent.Services.TokioEnd
import QubitConcurrent.Services.TokioGate
import QubitConcurrent.Services.TokioMoves
import QubitConcurrent.Services.TokioReports
import QubitConcurrent.TaskHandle.Cell
import QubitConcurrent.TaskHandle.Consumers
import QubitConcurrent.TaskHandle.OneShot
import QubitConcurrent.TaskHandle.StartAndComplete
import QubitConcurrent.ThreadPool.Accounting
import QubitConcurrent.ThreadPool.Callables
import QubitConcurrent.ThreadPool.Cas
import QubitConcurrent.ThreadPool.Claiming
import QubitConcurrent.ThreadPool.Contract
import QubitConcurrent.ThreadPool.Decomposition
import QubitConcurrent.ThreadPool.Effects
import QubitConcurrent.ThreadPool.Ending
import QubitConcurrent.ThreadPool.Faults
import QubitConcurrent.ThreadPool.Inner
import QubitConcurrent.ThreadPool.Jobs
import QubitConcurrent.ThreadPool.Moves
import QubitConcurrent.ThreadPool.Order
import QubitConcurrent.ThreadPool.Overtaking
import QubitConcurrent.ThreadPool.Pool
import QubitConcurrent.ThreadPool.Prestart
import QubitConcurrent.ThreadPool.Progress
import QubitConcurrent.ThreadPool.Rejection
import QubitConcurrent.ThreadPool.Sections
import QubitConcurrent.ThreadPool.Sizing
import QubitConcurrent.ThreadPool.State
import QubitConcurrent.ThreadPool.Steps
import QubitConcurrent.ThreadPool.Termination
import QubitConcurrent.ThreadPool.Wakeups
import QubitConcurrent.ThreadPool.WellFormed
