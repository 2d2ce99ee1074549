import FlowCache.Benchmark.Workloads
import FlowCache.Gateway.KeyPaths
import FlowCache.WorkerPool.WorkerEntry

/-!
# Executing a batch

The handler of `benchmark:execute-ops`, which sends the operations of a batch one after
the other to a gateway or a node.  The network is a parameter: what the `n`-th request of
the batch is answered and how long it takes.
-/

namespace FlowCache

/-- `TaskTypes.BENCHMARK_EXECUTE_OPS`. -/
def benchmarkExecuteOpsType : String := "benchmark:execute-ops"

/-- `BenchmarkExecuteOpsPayload`. -/
structure BenchmarkExecuteOpsPayload where
  targetBaseUrl : String
  operations : List BenchmarkOperation
  requestTimeoutMs : Option Nat

/-- Payloads are plain data. -/
instance : StructuredClone BenchmarkExecuteOpsPayload where
  cloneable _ := true

/-- `opCounts`. -/
structure OpCounts where
  get : Nat
  put : Nat
  delete : Nat
  deriving DecidableEq, Repr

namespace OpCounts

/-- No operation. -/
def zero : OpCounts := ⟨0, 0, 0⟩

/-- `opCounts[kind]`. -/
def of (counts : OpCounts) : OperationKind → Nat
  | .get => counts.get
  | .put => counts.put
  | .delete => counts.delete

/-- `opCounts[kind] += 1`. -/
def increment (counts : OpCounts) : OperationKind → OpCounts
  | .get => { counts with get := counts.get + 1 }
  | .put => { counts with put := counts.put + 1 }
  | .delete => { counts with delete := counts.delete + 1 }

/-- The counts of two batches. -/
def add (first second : OpCounts) : OpCounts :=
  ⟨first.get + second.get, first.put + second.put, first.delete + second.delete⟩

/-- All operations. -/
def total (counts : OpCounts) : Nat := counts.get + counts.put + counts.delete

@[simp] theorem total_increment (counts : OpCounts) (kind : OperationKind) :
    (counts.increment kind).total = counts.total + 1 := by
  cases kind <;> simp only [increment, total] <;> omega

theorem of_increment (counts : OpCounts) (kind other : OperationKind) :
    (counts.increment kind).of other = counts.of other + if kind = other then 1 else 0 := by
  cases kind <;> cases other <;> simp [increment, of]

end OpCounts

/-- `BenchmarkExecuteOpsResult`. -/
structure BenchmarkExecuteOpsResult where
  latenciesMs : List Rat
  errors : Nat
  opCounts : OpCounts
  deriving DecidableEq, Repr

/-! ## One operation -/

/-- What is passed to `fetch`; the body of a PUT is the JSON text of its fields. -/
inductive HttpRequest where
  | get (url : String)
  | put (url : String) (key : String) (value : Option SyntheticValue)
  | delete (url : String)

/-- How a `fetch` ends: with a status, or with an error, which may be that of the abort. -/
inductive FetchOutcome where
  | response (status : Nat)
  | failure (message : String)
  deriving DecidableEq, Repr

/-- The answer to the `n`-th request of a batch, given the timeout it is sent with, and the
nanoseconds until then. -/
structure BenchmarkNetwork where
  fetch : Nat → HttpRequest → Nat → FetchOutcome
  elapsedNs : Nat → Nat

/-- `response.ok`. -/
def responseOk (status : Nat) : Bool := 200 ≤ status && status ≤ 299

/-- The request of an operation. -/
def requestOf (baseUrl : String) (operation : BenchmarkOperation) : HttpRequest :=
  let keyUrl := baseUrl ++ "/cache/" ++ encodeURIComponent operation.key
  match operation.op with
  | .get => .get keyUrl
  | .put => .put (baseUrl ++ "/cache") operation.key operation.value
  | .delete => .delete keyUrl

/-- `executeOperation(baseUrl, operation, timeoutMs)`.  A miss is no error, except for a
PUT. -/
def executeOperation (fetch : HttpRequest → Nat → FetchOutcome) (baseUrl : String)
    (operation : BenchmarkOperation) (timeoutMs : Nat) : Except String Unit :=
  match fetch (requestOf baseUrl operation) timeoutMs with
  | .failure message => .error message
  | .response status =>
      match operation.op with
      | .get =>
          if !responseOk status && status ≠ 404 then
            .error ("GET /cache/" ++ operation.key ++ " failed with status " ++ toString status)
          else .ok ()
      | .put =>
          if !responseOk status then
            .error ("PUT /cache (key=" ++ operation.key ++ ") failed with status " ++
              toString status)
          else .ok ()
      | .delete =>
          if !responseOk status && status ≠ 404 then
            .error ("DELETE /cache/" ++ operation.key ++ " failed with status " ++
              toString status)
          else .ok ()

/-! ## The batch -/

/-- `DEFAULT_REQUEST_TIMEOUT_MS`. -/
def defaultRequestTimeoutMs : Nat := 5000

/-- One round of the handler's loop. -/
def executeNext (network : BenchmarkNetwork) (payload : BenchmarkExecuteOpsPayload)
    (result : BenchmarkExecuteOpsResult) (numbered : BenchmarkOperation × Nat) :
    BenchmarkExecuteOpsResult :=
  let (operation, index) := numbered
  let latencyMs := float (float (network.elapsedNs index) / 1000000)
  match executeOperation (network.fetch index) payload.targetBaseUrl operation
      (payload.requestTimeoutMs.getD defaultRequestTimeoutMs) with
  | .ok () =>
      { result with
        opCounts := result.opCounts.increment operation.op
        latenciesMs := result.latenciesMs ++ [latencyMs] }
  | .error _ =>
      { result with
        errors := result.errors + 1
        latenciesMs := result.latenciesMs ++ [latencyMs] }

/-- The loop of `benchmarkExecuteOpsHandler`. -/
def executeOps (network : BenchmarkNetwork) (payload : BenchmarkExecuteOpsPayload) :
    BenchmarkExecuteOpsResult :=
  payload.operations.zipIdx.foldl (executeNext network payload) ⟨[], 0, .zero⟩

/-- `benchmarkExecuteOpsHandler`, which never throws. -/
def benchmarkExecuteOps :
    TaskHandler BenchmarkExecuteOpsPayload BenchmarkExecuteOpsResult BenchmarkNetwork :=
  fun network payload => .ok (executeOps network payload)

/-- Every operation has a latency and is counted once: as an error or under its kind. -/
structure BenchmarkExecuteOpsResult.Tallies (result : BenchmarkExecuteOpsResult)
    (operations : List BenchmarkOperation) : Prop where
  latencies : result.latenciesMs.length = operations.length
  counted : result.opCounts.total + result.errors = operations.length
  kinds : ∀ kind, result.opCounts.of kind ≤ operations.countP (·.op = kind)

theorem tallies_executeNext (network : BenchmarkNetwork) (payload : BenchmarkExecuteOpsPayload)
    {result : BenchmarkExecuteOpsResult} {operations : List BenchmarkOperation}
    (tallies : result.Tallies operations) (operation : BenchmarkOperation) (index : Nat) :
    (executeNext network payload result (operation, index)).Tallies
      (operations ++ [operation]) := by
  have kindsOf : ∀ kind, (operations ++ [operation]).countP (·.op = kind) =
      operations.countP (·.op = kind) + if operation.op = kind then 1 else 0 := by
    intro kind
    simp [List.countP_append, List.countP_singleton]
  unfold executeNext
  simp only
  split
  · constructor
    case latencies => simp [tallies.latencies]
    case counted =>
      rw [OpCounts.total_increment, List.length_append, ← tallies.counted]
      exact Nat.add_right_comm _ _ _
    case kinds =>
      intro kind
      rw [kindsOf, OpCounts.of_increment]
      exact Nat.add_le_add_right (tallies.kinds kind) _
  · constructor
    case latencies => simp [tallies.latencies]
    case counted =>
      rw [List.length_append, ← tallies.counted]
      rfl
    case kinds =>
      intro kind
      rw [kindsOf]
      exact (tallies.kinds kind).trans (Nat.le_add_right _ _)

theorem tallies_executeOps (network : BenchmarkNetwork) (payload : BenchmarkExecuteOpsPayload) :
    (executeOps network payload).Tallies payload.operations := by
  have run : ∀ (rest earlier : List BenchmarkOperation) (start : Nat)
      (result : BenchmarkExecuteOpsResult), result.Tallies earlier →
        ((rest.zipIdx start).foldl (executeNext network payload) result).Tallies
          (earlier ++ rest) := by
    intro rest
    induction rest with
    | nil =>
        intro earlier start result tallies
        rw [List.append_nil]
        exact tallies
    | cons operation rest ih =>
        intro earlier start result tallies
        have next := ih (earlier ++ [operation]) (start + 1) _
          (tallies_executeNext network payload tallies operation start)
        rwa [List.append_assoc] at next
  exact run payload.operations [] 0 _ ⟨rfl, rfl, fun kind => by cases kind <;> exact le_rfl⟩

end FlowCache
