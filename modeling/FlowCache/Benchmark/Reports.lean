import FlowCache.Benchmark.Runner

/-!
# What a run reports

Whatever order the batches come back in, and however the pool settles their promises, a
run reports what it would if it had sent the batches of its workload one after the other
and each had come to the same end.
-/

namespace FlowCache

open Transition

/-! ## The order of the batches -/

namespace RunTotals

/-- One batch after the other. -/
def addAll (totals : RunTotals)
    (outcomes : List (BenchmarkExecuteOpsPayload × BatchOutcome)) : RunTotals :=
  run (fun totals outcome => totals.add outcome.1 outcome.2) totals outcomes

/-- Equal totals up to the order of the latencies. -/
structure Same (first second : RunTotals) : Prop where
  latencies : first.allLatenciesMs.Perm second.allLatenciesMs
  opCounts : first.opCounts = second.opCounts
  errors : first.errors = second.errors

theorem same_equivalence : Equivalence Same where
  refl _ := ⟨.refl _, rfl, rfl⟩
  symm same := ⟨same.latencies.symm, same.opCounts.symm, same.errors.symm⟩
  trans first second := ⟨first.latencies.trans second.latencies,
    first.opCounts.trans second.opCounts, first.errors.trans second.errors⟩

theorem Same.add {first second : RunTotals} (same : first.Same second)
    (payload : BenchmarkExecuteOpsPayload) (outcome : BatchOutcome) :
    (first.add payload outcome).Same (second.add payload outcome) := by
  cases outcome with
  | pending => exact same
  | failed => exact ⟨same.latencies, same.opCounts, congrArg (· + _) same.errors⟩
  | finished result =>
      exact ⟨same.latencies.append_right _, congrArg (OpCounts.add · _) same.opCounts,
        congrArg (· + _) same.errors⟩

theorem add_add_same (totals : RunTotals) (payload other : BenchmarkExecuteOpsPayload)
    (outcome next : BatchOutcome) :
    ((totals.add payload outcome).add other next).Same
      ((totals.add other next).add payload outcome) := by
  have swapped : ∀ {first second third : List Rat},
      (first ++ second ++ third).Perm (first ++ third ++ second) := by
    intro first second third
    rw [List.append_assoc, List.append_assoc]
    exact List.perm_append_comm.append_left _
  cases outcome <;> cases next <;>
    exact ⟨by first | exact swapped | exact .refl _,
      by simp [RunTotals.add, OpCounts.add, Nat.add_right_comm],
      by simp [RunTotals.add, Nat.add_right_comm]⟩

theorem same_addAll_of_perm (totals : RunTotals)
    {outcomes others : List (BenchmarkExecuteOpsPayload × BatchOutcome)}
    (perm : outcomes.Perm others) : (totals.addAll outcomes).Same (totals.addAll others) :=
  run_perm same_equivalence (fun _ _ outcome same => same.add outcome.1 outcome.2)
    (fun totals outcome next => totals.add_add_same outcome.1 next.1 outcome.2 next.2) perm totals

/-- Batches in flight count for nothing yet. -/
theorem addAll_pending (totals : RunTotals) (batches : List LaunchedBatch) :
    totals.addAll (batches.map fun batch => (batch.payload, .pending)) = totals := by
  induction batches with
  | nil => rfl
  | cons batch rest ih => exact ih

theorem Same.report {first second : RunTotals} (same : first.Same second)
    (options : BenchmarkRunOptions) (startedAt finishedAt : Millis) :
    first.report options startedAt finishedAt = second.report options startedAt finishedAt := by
  have operations : first.totalOperations = second.totalOperations := by
    rw [totalOperations, totalOperations, same.opCounts, same.errors]
  simp only [RunTotals.report, operations, same.opCounts, same.errors,
    computeLatencyPercentiles_eq_of_perm same.latencies]

end RunTotals

/-! ## Outcomes -/

namespace BatchOutcome

/-- A result is what the handler made of this very batch, for some behaviour of the
network. -/
def ExplainedBy (payload : BenchmarkExecuteOpsPayload) (outcome : BatchOutcome) : Prop :=
  ∀ result, outcome = .finished result → ∃ network, executeOps network payload = result

/-- How many operations of a batch the totals count. -/
def counted (payload : BenchmarkExecuteOpsPayload) (outcome : BatchOutcome) : Nat :=
  if outcome = .pending then 0 else payload.operations.length

/-- With batches of one size the operations not counted are those of the pending ones. -/
theorem sum_counted {size : Nat}
    {outcomes : List (BenchmarkExecuteOpsPayload × BatchOutcome)}
    (sizes : ∀ outcome ∈ outcomes, outcome.1.operations.length = size) :
    (outcomes.map fun outcome => outcome.2.counted outcome.1).sum +
        size * outcomes.countP (fun outcome => outcome.2 = .pending) =
      size * outcomes.length := by
  induction outcomes with
  | nil => rfl
  | cons outcome rest ih =>
      have next := ih fun other member => sizes other (List.mem_cons_of_mem _ member)
      have one : outcome.2.counted outcome.1 +
          size * (if decide (outcome.2 = .pending) then 1 else 0) = size := by
        by_cases waiting : outcome.2 = .pending
        · simp [waiting, counted]
        · simp [waiting, counted, sizes outcome List.mem_cons_self]
      rw [List.map_cons, List.sum_cons, List.countP_cons, List.length_cons, Nat.mul_add,
        Nat.mul_succ, ← next]
      omega

end BatchOutcome

theorem RunTotals.totalOperations_add (totals : RunTotals)
    {payload : BenchmarkExecuteOpsPayload} {outcome : BatchOutcome}
    (explained : outcome.ExplainedBy payload) :
    (totals.add payload outcome).totalOperations =
      totals.totalOperations + outcome.counted payload := by
  cases outcome with
  | pending => rfl
  | failed => exact (Nat.add_assoc _ _ _).symm
  | finished result =>
      obtain ⟨network, rfl⟩ := explained result rfl
      have tallied := (tallies_executeOps network payload).counted
      simp only [RunTotals.add, totalOperations, OpCounts.add, OpCounts.total,
        BatchOutcome.counted, reduceCtorEq, if_false] at tallied ⊢
      omega

theorem RunTotals.totalOperations_addAll
    {outcomes : List (BenchmarkExecuteOpsPayload × BatchOutcome)}
    (explained : ∀ outcome ∈ outcomes, outcome.2.ExplainedBy outcome.1) (totals : RunTotals) :
    (totals.addAll outcomes).totalOperations =
      totals.totalOperations + (outcomes.map fun outcome => outcome.2.counted outcome.1).sum := by
  induction outcomes generalizing totals with
  | nil => rfl
  | cons outcome rest ih =>
      have next := ih (fun other member => explained other (List.mem_cons_of_mem _ member))
        (totals.add outcome.1 outcome.2)
      rw [totalOperations_add totals (explained outcome List.mem_cons_self)] at next
      rw [List.map_cons, List.sum_cons, ← Nat.add_assoc]
      exact next

/-! ## The generator -/

namespace Workload

theorem length_nextBatch (workload : Workload) (source : RandomSource) (count : Nat) :
    (workload.nextBatch source count).1.length = count := by
  induction count generalizing workload source with
  | zero => rfl
  | succ count ih => exact congrArg (· + 1) (ih _ _)

/-- The generator after some batches. -/
def afterBatches (workload : Workload) (source : RandomSource) (counts : List Nat) :
    RandomSource × Workload :=
  counts.foldl (fun position count => (position.2.nextBatch position.1 count).2)
    (source, workload)

theorem afterBatches_append_singleton (workload : Workload) (source : RandomSource)
    (counts : List Nat) (count : Nat) :
    workload.afterBatches source (counts ++ [count]) =
      ((workload.afterBatches source counts).2.nextBatch
        (workload.afterBatches source counts).1 count).2 :=
  List.foldl_append

theorem nextBatches_append_singleton (workload : Workload) (source : RandomSource)
    (counts : List Nat) (count : Nat) :
    workload.nextBatches source (counts ++ [count]) = workload.nextBatches source counts ++
      [((workload.afterBatches source counts).2.nextBatch
        (workload.afterBatches source counts).1 count).1] := by
  induction counts generalizing workload source with
  | nil => rfl
  | cons first rest ih =>
      exact congrArg ((workload.nextBatch source first).1 :: ·) (ih _ _)

end Workload

/-! ## The ledger of a run -/

/-- The payload of a batch. -/
def BenchmarkRunOptions.payloadOf (options : BenchmarkRunOptions)
    (operations : List BenchmarkOperation) : BenchmarkExecuteOpsPayload :=
  ⟨options.targetBaseUrl, operations, options.requestTimeoutMs⟩

/-- The first batches that the workload of the options generates. -/
def BenchmarkRunOptions.firstBatches (options : BenchmarkRunOptions) (power : PowerFunction)
    (source : RandomSource) (count : Nat) : List BenchmarkExecuteOpsPayload :=
  ((options.workload.createWorkload power).nextBatches source
    (List.replicate count options.batchSize)).map options.payloadOf

theorem PoolLifetime.accepted_step {Payload Result World : Type} [StructuredClone Payload]
    (thread : WorkerThread Payload Result World) (lifetime : PoolLifetime Payload Result)
    (event : LifetimeEvent Payload World) :
    lifetime.accepted <+: (lifetime.step thread event).accepted := by
  cases event with
  | submit type payload timeoutMs =>
      simp only [step, submit]
      split
      · exact List.prefix_refl _
      · exact List.prefix_append _ _
  | answers workerId taskId world =>
      simp only [step, answers]
      split
      · split
        · exact List.prefix_refl _
        · exact List.prefix_refl _
      · exact List.prefix_refl _
  | error workerId message => exact List.prefix_refl _
  | exit workerId code => exact List.prefix_refl _
  | timeout taskId => exact List.prefix_refl _
  | dispose => exact List.prefix_refl _
  | terminated =>
      simp only [step, terminated]
      split
      · exact List.prefix_refl _
      · exact List.prefix_refl _

namespace BenchmarkRun

/-- The outcomes of all launched batches, in the order they were launched, against the
state of the run. -/
structure Ledger (thread : BenchmarkThread) (power : PowerFunction)
    (options : BenchmarkRunOptions) (source : RandomSource) (run : BenchmarkRun)
    (outcomes : List (BenchmarkExecuteOpsPayload × BatchOutcome)) : Prop where
  honest : run.lifetime.Honest thread.toWorkerThread
  promised : ∀ batch ∈ run.inFlight, ∀ taskId, batch.promise = some taskId →
    run.lifetime.accepted[taskId]? = some (benchmarkExecuteOpsType, batch.payload)
  totals : run.totals = RunTotals.zero.addAll run.delivered
  arranged : outcomes.Perm
    (run.delivered ++ run.inFlight.map fun batch => (batch.payload, .pending))
  launched : outcomes.map Prod.fst = options.firstBatches power source outcomes.length
  position : (run.source, run.generator) = (options.workload.createWorkload power).afterBatches
    source (List.replicate outcomes.length options.batchSize)
  explained : ∀ outcome ∈ run.delivered,
    outcome.2 ≠ .pending ∧ outcome.2.ExplainedBy outcome.1
  limit : run.inFlight.length ≤ options.concurrency

namespace Ledger

variable {thread : BenchmarkThread} {power : PowerFunction} {options : BenchmarkRunOptions}
variable {source : RandomSource} {run : BenchmarkRun}
variable {outcomes : List (BenchmarkExecuteOpsPayload × BatchOutcome)}

/-- A promise is settled with a result of its own batch. -/
theorem explainedBy_settledAs (ledger : run.Ledger thread power options source outcomes)
    {batch : LaunchedBatch} (member : batch ∈ run.inFlight) {outcome : BatchOutcome}
    (settled : run.settledAs batch = some outcome) :
    outcome ≠ .pending ∧ outcome.ExplainedBy batch.payload := by
  have failed : BatchOutcome.failed ≠ .pending ∧
      BatchOutcome.failed.ExplainedBy batch.payload :=
    ⟨by simp, fun _ impossible => by cases impossible⟩
  unfold settledAs at settled
  split at settled
  · cases settled
    exact failed
  · next taskId promise =>
      split at settled
      · next known result found =>
          cases settled
          refine ⟨by simp, ?_⟩
          rintro returned ⟨⟩
          have own : known = taskId := by simpa using List.find?_some found
          obtain ⟨type, payload, accepted, earned⟩ :=
            ledger.honest.faithful.settled _ _ (List.mem_of_find?_eq_some found)
          rw [own, ledger.promised batch member taskId promise] at accepted
          cases accepted
          cases earned with
          | resolved canReturn =>
              obtain ⟨handler, registered, ⟨network, ran⟩, -⟩ := canReturn
              have same := thread.getHandler_eq_some_iff.mpr registered
              rw [thread.getHandler_eq_some_iff.mpr thread.executes] at same
              cases same
              exact ⟨network, Except.ok.inj ran⟩
      · cases settled
        exact failed
      · split at settled
        · cases settled
          exact failed
        · cases settled

/-- The pool goes on, whoever uses it. -/
theorem pool (ledger : run.Ledger thread power options source outcomes)
    (event : LifetimeEvent BenchmarkExecuteOpsPayload BenchmarkNetwork) :
    ({ run with lifetime := run.lifetime.step thread.toWorkerThread event } :
      BenchmarkRun).Ledger thread power options source outcomes where
  honest := ledger.honest.step event
  promised := by
    intro batch member taskId promise
    have known := ledger.promised batch member taskId promise
    obtain ⟨later, grown⟩ := PoolLifetime.accepted_step thread.toWorkerThread run.lifetime event
    obtain ⟨inside, -⟩ := List.getElem?_eq_some_iff.mp known
    rw [← known, ← grown, List.getElem?_append_left inside]
  totals := ledger.totals
  arranged := ledger.arranged
  launched := ledger.launched
  position := ledger.position
  explained := ledger.explained
  limit := ledger.limit

/-- A new batch is the next one of the workload. -/
theorem launchBatch (ledger : run.Ledger thread power options source outcomes)
    (room : run.inFlight.length < options.concurrency) :
    (run.launchBatch options).Ledger thread power options source
      (outcomes ++ [(options.payloadOf
        (run.generator.nextBatch run.source options.batchSize).1, .pending)]) := by
  have lengths : ∀ outcome : BenchmarkExecuteOpsPayload × BatchOutcome,
      List.replicate (outcomes ++ [outcome]).length options.batchSize =
        List.replicate outcomes.length options.batchSize ++ [options.batchSize] := by
    intro outcome
    rw [List.length_append, List.length_singleton, List.replicate_succ']
  have drawn := (options.workload.createWorkload power).nextBatches_append_singleton source
    (List.replicate outcomes.length options.batchSize) options.batchSize
  rw [← ledger.position] at drawn
  have submitted := ledger.pool (.submit benchmarkExecuteOpsType
    (options.payloadOf (run.generator.nextBatch run.source options.batchSize).1) none)
  constructor
  case honest => exact submitted.honest
  case promised =>
    intro batch member taskId promise
    rcases List.mem_append.mp member with earlier | new
    · exact submitted.promised batch earlier taskId promise
    · cases List.mem_singleton.mp new
      simp only [BenchmarkRun.launchBatch, PoolLifetime.submit] at promise ⊢
      split at promise
      · cases promise
      · next running =>
          cases promise
          rw [if_neg running]
          simp [← ledger.honest.count]
  case totals => exact ledger.totals
  case arranged =>
    simp only [BenchmarkRun.launchBatch, List.map_append, ← List.append_assoc]
    exact ledger.arranged.append_right _
  case launched =>
    rw [BenchmarkRunOptions.firstBatches, lengths, drawn, List.map_append, List.map_append,
      ledger.launched]
    rfl
  case position =>
    rw [lengths, Workload.afterBatches_append_singleton, ← ledger.position]
    rfl
  case explained => exact ledger.explained
  case limit =>
    simp only [BenchmarkRun.launchBatch, List.length_append, List.length_singleton]
    exact room

/-- A batch that comes back takes the place of one in flight. -/
theorem deliver (ledger : run.Ledger thread power options source outcomes) (index : Nat) :
    ∃ next, (run.deliver index).Ledger thread power options source next ∧
      next.length = outcomes.length := by
  unfold BenchmarkRun.deliver
  split
  · exact ⟨outcomes, ledger, rfl⟩
  · next batch found =>
      split
      · exact ⟨outcomes, ledger, rfl⟩
      · next outcome settled =>
          obtain ⟨inside, rfl⟩ := List.getElem?_eq_some_iff.mp found
          have member : run.inFlight[index] ∈ run.inFlight := List.getElem_mem inside
          have picked : run.inFlight.Perm (run.inFlight[index] :: run.inFlight.eraseIdx index) :=
            (List.getElem_cons_eraseIdx_perm inside).symm
          have listed : (run.inFlight[index].payload, BatchOutcome.pending) ∈ outcomes := by
            rw [ledger.arranged.mem_iff, List.mem_append]
            exact .inr (List.mem_map.mpr ⟨_, member, rfl⟩)
          obtain ⟨before, after, rfl⟩ := List.append_of_mem listed
          have lengths : (before ++ (run.inFlight[index].payload, outcome) :: after).length =
              (before ++ (run.inFlight[index].payload, BatchOutcome.pending) :: after).length := by
            simp
          refine ⟨before ++ (run.inFlight[index].payload, outcome) :: after, ?_, lengths⟩
          have rest : (before ++ after).Perm (run.delivered ++
              (run.inFlight.eraseIdx index).map fun batch => (batch.payload, .pending)) := by
            have both := List.perm_middle.symm.trans (ledger.arranged.trans
              ((picked.map _).append_left run.delivered))
            exact (both.trans List.perm_middle).cons_inv
          constructor
          case honest => exact ledger.honest
          case promised =>
            intro other kept
            exact ledger.promised other (List.mem_of_mem_eraseIdx kept)
          case totals =>
            simp only [RunTotals.addAll, run_append, run_cons, run_nil]
            rw [ledger.totals]
            rfl
          case arranged =>
            rw [List.append_assoc]
            exact List.perm_middle.trans ((rest.cons _).trans List.perm_middle.symm)
          case launched =>
            rw [lengths, ← ledger.launched]
            simp
          case position =>
            rw [lengths]
            exact ledger.position
          case explained =>
            intro told told_mem
            rcases List.mem_append.mp told_mem with earlier | last
            · exact ledger.explained told earlier
            · cases List.mem_singleton.mp last
              exact ledger.explainedBy_settledAs member settled
          case limit => exact (List.length_eraseIdx_le _ _).trans ledger.limit

theorem step (ledger : run.Ledger thread power options source outcomes) (deadline : Millis)
    (action : BenchmarkAction) :
    ∃ next, (run.step thread options deadline action).Ledger thread power options source next := by
  cases action with
  | launch nowMs =>
      simp only [BenchmarkRun.step]
      split
      · next room => exact ⟨_, ledger.launchBatch room.2⟩
      · exact ⟨outcomes, ledger⟩
  | pool event => exact ⟨outcomes, ledger.pool event⟩
  | deliver index =>
      obtain ⟨next, delivered, -⟩ := ledger.deliver index
      exact ⟨next, delivered⟩

theorem start (thread : BenchmarkThread) (power : PowerFunction)
    (options : BenchmarkRunOptions) (source : RandomSource)
    {lifetime : PoolLifetime BenchmarkExecuteOpsPayload BenchmarkExecuteOpsResult}
    (honest : lifetime.Honest thread.toWorkerThread) :
    (BenchmarkRun.start power options source lifetime).Ledger thread power options source [] where
  honest := honest
  promised := fun _ member => by cases member
  totals := rfl
  arranged := .refl _
  launched := rfl
  position := rfl
  explained := fun _ member => by cases member
  limit := Nat.zero_le _

/-- All outcomes are explained, and those that are pending are in flight. -/
theorem outcomes_explained (ledger : run.Ledger thread power options source outcomes) :
    (∀ outcome ∈ outcomes, outcome.2.ExplainedBy outcome.1) ∧
      outcomes.countP (fun outcome => outcome.2 = .pending) = run.inFlight.length := by
  constructor
  · intro outcome member
    rcases List.mem_append.mp (ledger.arranged.mem_iff.mp member) with told | waiting
    · exact (ledger.explained outcome told).2
    · obtain ⟨batch, -, rfl⟩ := List.mem_map.mp waiting
      exact fun _ impossible => by cases impossible
  · have told : run.delivered.countP (fun outcome => outcome.2 = .pending) = 0 := by
      rw [List.countP_eq_zero]
      intro outcome member
      simpa using (ledger.explained outcome member).1
    rw [ledger.arranged.countP_eq, List.countP_append, told, List.countP_map, Nat.zero_add]
    exact List.countP_eq_length.mpr fun _ _ => rfl

theorem same_totals (ledger : run.Ledger thread power options source outcomes) :
    run.totals.Same (RunTotals.zero.addAll outcomes) := by
  have all : RunTotals.zero.addAll (run.delivered ++
      run.inFlight.map fun batch => (batch.payload, .pending)) = run.totals := by
    rw [RunTotals.addAll, run_append, ledger.totals]
    exact RunTotals.addAll_pending _ _
  rw [← all]
  exact RunTotals.same_addAll_of_perm .zero ledger.arranged.symm

/-- Every batch has the configured size. -/
theorem length_operations (ledger : run.Ledger thread power options source outcomes)
    {outcome : BenchmarkExecuteOpsPayload × BatchOutcome} (member : outcome ∈ outcomes) :
    outcome.1.operations.length = options.batchSize := by
  have sizes : ∀ (counts : List Nat) (workload : Workload) (from_ : RandomSource),
      (∀ count ∈ counts, count = options.batchSize) →
        ∀ batch ∈ workload.nextBatches from_ counts, batch.length = options.batchSize := by
    intro counts
    induction counts with
    | nil => exact fun _ _ _ _ impossible => by cases impossible
    | cons count rest ih =>
        intro workload from_ equal batch drawn
        rcases List.mem_cons.mp drawn with rfl | later
        · rw [Workload.length_nextBatch]
          exact equal count List.mem_cons_self
        · exact ih _ _ (fun other kept => equal other (List.mem_cons_of_mem _ kept)) batch later
  have payload := List.mem_map_of_mem (f := Prod.fst) member
  rw [ledger.launched] at payload
  obtain ⟨operations, drawn, same⟩ := List.mem_map.mp payload
  rw [← same]
  exact sizes _ _ _ (fun count kept => List.eq_of_mem_replicate kept) operations drawn

end Ledger

/-- The outcomes of the first batches of the workload, of which the pending ones are in
flight, and what they say about the totals: these are the totals of a pass over the
batches in order, and every operation that is not in flight counts once. -/
structure ReportsEachBatch (power : PowerFunction) (options : BenchmarkRunOptions)
    (source : RandomSource) (run : BenchmarkRun)
    (outcomes : List (BenchmarkExecuteOpsPayload × BatchOutcome)) : Prop where
  launched : outcomes.map Prod.fst = options.firstBatches power source outcomes.length
  explained : ∀ outcome ∈ outcomes, outcome.2.ExplainedBy outcome.1
  pending : outcomes.countP (fun outcome => outcome.2 = .pending) = run.inFlight.length
  limit : run.inFlight.length ≤ options.concurrency
  report : ∀ startedAt finishedAt, run.totals.report options startedAt finishedAt =
    (RunTotals.zero.addAll outcomes).report options startedAt finishedAt
  counted : run.totals.totalOperations + options.batchSize * run.inFlight.length =
    options.batchSize * outcomes.length

theorem Ledger.reportsEachBatch {thread : BenchmarkThread} {power : PowerFunction}
    {options : BenchmarkRunOptions} {source : RandomSource} {run : BenchmarkRun}
    {outcomes : List (BenchmarkExecuteOpsPayload × BatchOutcome)}
    (ledger : run.Ledger thread power options source outcomes) :
    run.ReportsEachBatch power options source outcomes := by
  obtain ⟨explained, pending⟩ := ledger.outcomes_explained
  have same := ledger.same_totals
  refine ⟨ledger.launched, explained, pending, ledger.limit, same.report options, ?_⟩
  have total : run.totals.totalOperations =
      (outcomes.map fun outcome => outcome.2.counted outcome.1).sum := by
    have all := RunTotals.totalOperations_addAll explained .zero
    have started : RunTotals.zero.totalOperations = 0 := rfl
    rw [started, Nat.zero_add] at all
    rw [← all, RunTotals.totalOperations, RunTotals.totalOperations, same.opCounts, same.errors]
  rw [total, ← pending]
  exact BatchOutcome.sum_counted fun outcome member => ledger.length_operations member

/-- In every state of every run, on a pool that was used before and is used by others, the
totals are those of the batches of the workload taken in order, each with its own
outcome. -/
theorem runs_report_each_batch (thread : BenchmarkThread) (power : PowerFunction)
    (poolOptions : WorkerPoolOptions)
    (before : List (LifetimeEvent BenchmarkExecuteOpsPayload BenchmarkNetwork))
    (options : BenchmarkRunOptions) (source : RandomSource) (deadline : Millis)
    (actions : List BenchmarkAction) :
    ∃ outcomes, (run (step thread options deadline)
      (start power options source
        (run (PoolLifetime.step thread.toWorkerThread) (PoolLifetime.start poolOptions) before))
      actions).ReportsEachBatch power options source outcomes := by
  have honest := run_invariant (fun _ event honest => honest.step event)
    (PoolLifetime.honest_start thread.toWorkerThread poolOptions) before
  obtain ⟨outcomes, ledger⟩ := @run_invariant _ _ _
    (fun run : BenchmarkRun => ∃ outcomes, run.Ledger thread power options source outcomes) _
    (fun run action ⟨outcomes, ledger⟩ => ledger.step deadline action)
    ⟨[], Ledger.start thread power options source honest⟩ actions
  exact ⟨outcomes, ledger.reportsEachBatch⟩

/-- A thread that has the handler and no other. -/
def executesOps : BenchmarkThread where
  registrations := [(benchmarkExecuteOpsType, benchmarkExecuteOps)]
  handlers := InsertionMap.empty.insert benchmarkExecuteOpsType benchmarkExecuteOps
  started := rfl
  cloneError := fun _ => none
  executes := List.mem_singleton_self _

/-- Batches of two reads, two of which are in flight at a time. -/
def twoReads : BenchmarkRunOptions where
  name := "reads"
  targetBaseUrl := "http://gateway"
  workload := ⟨.uniformRandom, 4, some 1, none, none⟩
  durationMs := 100
  concurrency := 2
  opsPerBatch := some 2
  requestTimeoutMs := none

/-- A network that finds every other key, after a millisecond. -/
def everyOtherKey : BenchmarkNetwork where
  fetch := fun index _ _ => if index = 0 then .response 200 else .failure "timeout"
  elapsedNs := fun _ => 1000000

/-- The second batch comes back first, and the thread of the first one crashes.  A third
one has to wait until then. -/
def crashedBatch : List BenchmarkAction :=
  [.launch 0, .launch 1, .launch 2, .pool (.answers 1 1 everyOtherKey), .deliver 1,
    .pool (.exit 0 1), .deliver 0, .launch 3]

/-- Every random value is a half. -/
def halves : RandomSource := ⟨fun _ => ⟨1 / 2, by norm_num, by norm_num⟩, 0⟩

theorem runs_report_each_batch_crashedBatch :
    let reached := run (step executesOps twoReads 100)
      (start harmonic twoReads halves
        (run (PoolLifetime.step executesOps.toWorkerThread) (PoolLifetime.start ⟨2, none⟩) []))
      crashedBatch
    (∃ outcomes, reached.ReportsEachBatch harmonic twoReads halves outcomes) ∧
      reached.totals = ⟨[1, 1], ⟨1, 0, 0⟩, 3⟩ ∧ reached.inFlight.length = 1 :=
  ⟨runs_report_each_batch executesOps harmonic ⟨2, none⟩ [] twoReads halves 100 crashedBatch,
    by decide +kernel, by decide +kernel⟩

end BenchmarkRun

end FlowCache
