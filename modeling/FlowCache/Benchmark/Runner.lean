import FlowCache.Benchmark.ExecuteOps
import FlowCache.Benchmark.Sampling
import FlowCache.Metrics.Recorders
import FlowCache.WorkerPool.Lifetime

/-!
# A benchmark run

`BenchmarkRunner.run`: as long as the deadline is not reached it keeps up to `concurrency`
batches in flight, each of them a task of a worker pool that others may use too, and adds
up what comes back.  A batch whose promise is rejected counts as errors only.

Batches come back in any order, and late, failed or crashed tasks are settled by the pool.
The totals are nevertheless those of a pass over the batches of the workload in the order
in which they were launched.
-/

namespace FlowCache

open Transition

/-- `BenchmarkRunOptions` as far as a run reads them. -/
structure BenchmarkRunOptions where
  name : String
  targetBaseUrl : String
  workload : WorkloadDefinition
  durationMs : Millis
  concurrency : Nat
  opsPerBatch : Option Nat
  requestTimeoutMs : Option Nat

/-- `options.opsPerBatch ?? DEFAULT_OPS_PER_BATCH`. -/
def BenchmarkRunOptions.batchSize (options : BenchmarkRunOptions) : Nat :=
  options.opsPerBatch.getD 50

/-- What became of a launched batch. -/
inductive BatchOutcome where
  | pending
  | failed
  | finished (result : BenchmarkExecuteOpsResult)
  deriving DecidableEq, Repr

/-! ## Totals -/

/-- `allLatenciesMs`, `opCounts` and `errors`. -/
structure RunTotals where
  allLatenciesMs : List Rat
  opCounts : OpCounts
  errors : Nat
  deriving DecidableEq, Repr

namespace RunTotals

/-- Before the first batch. -/
def zero : RunTotals := ⟨[], .zero, 0⟩

/-- The callbacks `then` and `catch` of a batch. -/
def add (totals : RunTotals) (payload : BenchmarkExecuteOpsPayload) :
    BatchOutcome → RunTotals
  | .pending => totals
  | .failed => { totals with errors := totals.errors + payload.operations.length }
  | .finished result =>
      { allLatenciesMs := totals.allLatenciesMs ++ result.latenciesMs
        opCounts := totals.opCounts.add result.opCounts
        errors := totals.errors + result.errors }

/-- `totalOperations`. -/
def totalOperations (totals : RunTotals) : Nat := totals.opCounts.total + totals.errors

end RunTotals

/-- `BenchmarkRunResult` without the captured metrics. -/
structure BenchmarkRunResult where
  name : String
  workloadType : WorkloadType
  startedAt : Millis
  finishedAt : Millis
  durationMs : Millis
  totalOperations : Nat
  opCounts : OpCounts
  errors : Nat
  throughputOpsPerSec : Rat
  latency : LatencyPercentiles
  deriving DecidableEq, Repr

/-- What `run` returns for its totals. -/
def RunTotals.report (totals : RunTotals) (options : BenchmarkRunOptions)
    (startedAt finishedAt : Millis) : BenchmarkRunResult :=
  let actualDurationMs := max 1 (finishedAt - startedAt)
  { name := options.name
    workloadType := options.workload.type
    startedAt := startedAt
    finishedAt := finishedAt
    durationMs := actualDurationMs
    totalOperations := totals.totalOperations
    opCounts := totals.opCounts
    errors := totals.errors
    throughputOpsPerSec := float (float (totals.totalOperations / actualDurationMs) * 1000)
    latency := computeLatencyPercentiles totals.allLatenciesMs }

/-! ## The run -/

/-- A worker thread that knows how to execute a batch. -/
structure BenchmarkThread extends
    WorkerThread BenchmarkExecuteOpsPayload BenchmarkExecuteOpsResult BenchmarkNetwork where
  executes : (benchmarkExecuteOpsType, benchmarkExecuteOps) ∈ registrations

/-- A batch in flight: its promise is that of a task, or was rejected right away. -/
structure LaunchedBatch where
  promise : Option Nat
  payload : BenchmarkExecuteOpsPayload

/-- State of a run: the pool, the generator, and the batches in flight with the totals of
those that came back.  What was delivered is kept as a log. -/
structure BenchmarkRun where
  lifetime : PoolLifetime BenchmarkExecuteOpsPayload BenchmarkExecuteOpsResult
  generator : Workload
  source : RandomSource
  inFlight : List LaunchedBatch
  totals : RunTotals
  delivered : List (BenchmarkExecuteOpsPayload × BatchOutcome)

/-- What can happen during a run. -/
inductive BenchmarkAction where
  | launch (nowMs : Millis)
  | pool (event : LifetimeEvent BenchmarkExecuteOpsPayload BenchmarkNetwork)
  | deliver (index : Nat)

namespace BenchmarkRun

/-- Before the first batch, on a pool that may have been used. -/
def start (power : PowerFunction) (options : BenchmarkRunOptions) (source : RandomSource)
    (lifetime : PoolLifetime BenchmarkExecuteOpsPayload BenchmarkExecuteOpsResult) :
    BenchmarkRun :=
  ⟨lifetime, options.workload.createWorkload power, source, [], .zero, []⟩

/-- `launchBatch()`. -/
def launchBatch (options : BenchmarkRunOptions) (run : BenchmarkRun) : BenchmarkRun :=
  let (operations, later, next) := run.generator.nextBatch run.source options.batchSize
  let payload : BenchmarkExecuteOpsPayload :=
    ⟨options.targetBaseUrl, operations, options.requestTimeoutMs⟩
  let promise := if run.lifetime.pool.disposed then none else some run.lifetime.pool.nextTaskId
  { run with
    lifetime := run.lifetime.submit benchmarkExecuteOpsType payload none
    generator := next
    source := later
    inFlight := run.inFlight ++ [⟨promise, payload⟩] }

/-- How the promise of a batch was settled, if it was. -/
def settledAs (run : BenchmarkRun) (batch : LaunchedBatch) : Option BatchOutcome :=
  match batch.promise with
  | none => some .failed
  | some taskId =>
      match run.lifetime.pool.settled.find? fun settled => settled.1 = taskId with
      | some (_, .resolved result) => some (.finished result)
      | some (_, .rejected _ _) => some .failed
      | none => if taskId ∈ run.lifetime.disposedTasks then some .failed else none

/-- The callbacks of a batch run when its promise is settled. -/
def deliver (run : BenchmarkRun) (index : Nat) : BenchmarkRun :=
  match run.inFlight[index]? with
  | none => run
  | some batch =>
      match run.settledAs batch with
      | none => run
      | some outcome =>
          { run with
            inFlight := run.inFlight.eraseIdx index
            totals := run.totals.add batch.payload outcome
            delivered := run.delivered ++ [(batch.payload, outcome)] }

/-- One action.  The loop launches a batch only before the deadline and only if fewer than
`concurrency` are in flight. -/
def step (thread : BenchmarkThread) (options : BenchmarkRunOptions) (deadline : Millis)
    (run : BenchmarkRun) : BenchmarkAction → BenchmarkRun
  | .launch nowMs =>
      if nowMs < deadline ∧ run.inFlight.length < options.concurrency then
        run.launchBatch options
      else
        run
  | .pool event => { run with lifetime := run.lifetime.step thread.toWorkerThread event }
  | .deliver index => run.deliver index

end BenchmarkRun

end FlowCache
