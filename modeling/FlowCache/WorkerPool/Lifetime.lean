import FlowCache.WorkerPool.WorkerEntry

/-!
# A pool from its creation to its disposal

The pool together with its threads' own code and `dispose`.  A thread answers a request
with what its listener makes of it.  `dispose` rejects whatever still waits and lets the
threads terminate; until they have, they may still answer, fail or exit.

The accepted tasks are kept as a log, so that what a promise is settled with can be
compared with the task it was made for.  A promise takes the first settlement only: the
tasks that `dispose` rejects are those whose promise was still open.
-/

namespace FlowCache

open Transition

variable {Payload Result World : Type}

/-- A pool, the tasks it accepted, the tasks whose promise `dispose` rejected and the
number of tasks it refused. -/
structure PoolLifetime (Payload Result : Type) where
  pool : WorkerPool Payload Result
  accepted : List (String × Payload)
  disposedTasks : List Nat
  refused : Nat

/-- What can happen to a pool and its threads. -/
inductive LifetimeEvent (Payload World : Type) where
  | submit (type : String) (payload : Payload) (timeoutMs : Option Int)
  | answers (workerId taskId : Nat) (world : World)
  | error (workerId : Nat) (message : String)
  | exit (workerId : Nat) (code : Int)
  | timeout (taskId : Nat)
  | dispose
  | terminated

namespace WorkerPool

/-- The ids of the settled promises, in order. -/
def settledIds (pool : WorkerPool Payload Result) : List Nat :=
  pool.settled.map Prod.fst

end WorkerPool

namespace PoolLifetime

/-- A new pool. -/
def start (options : WorkerPoolOptions) : PoolLifetime Payload Result :=
  ⟨.create options, [], [], 0⟩

/-- `pending.reject(...)` in `dispose`, which an already settled promise ignores. -/
def rejectOpen (settled rejected : List Nat) (taskId : Nat) : List Nat :=
  if taskId ∈ settled ∨ taskId ∈ rejected then rejected else rejected ++ [taskId]

/-- `dispose()` up to its `await`: the waiting tasks are rejected before the pending ones,
most of them twice. -/
def dispose (lifetime : PoolLifetime Payload Result) : PoolLifetime Payload Result :=
  let pool := lifetime.pool
  { lifetime with
    pool := { pool with disposed := true, queue := [], pendingByTaskId := .empty }
    disposedTasks := (pool.queueIds ++ pool.pendingByTaskId.keys).foldl
      (rejectOpen pool.settledIds) lifetime.disposedTasks }

/-- The rest of `dispose()`, when all threads have terminated. -/
def terminated (lifetime : PoolLifetime Payload Result) : PoolLifetime Payload Result :=
  if lifetime.pool.disposed then
    { lifetime with pool := { lifetime.pool with workers := [] } }
  else
    lifetime

variable [StructuredClone Payload]

/-- `submitTask(type, payload, timeoutMs)`, which a disposed pool refuses. -/
def submit (lifetime : PoolLifetime Payload Result) (type : String) (payload : Payload)
    (timeoutMs : Option Int) : PoolLifetime Payload Result :=
  if lifetime.pool.disposed then
    { lifetime with refused := lifetime.refused + 1 }
  else
    { lifetime with
      pool := lifetime.pool.submitTask type payload timeoutMs
      accepted := lifetime.accepted ++ [(type, payload)] }

/-- A thread's listener answers one of the requests it was given. -/
def answers (thread : WorkerThread Payload Result World)
    (lifetime : PoolLifetime Payload Result) (workerId taskId : Nat) (world : World) :
    PoolLifetime Payload Result :=
  match lifetime.pool.liveWorker? workerId with
  | some worker =>
      match worker.posted.find? fun request => request.taskId = taskId with
      | some request =>
          { lifetime with
            pool := lifetime.pool.handle (.result workerId (thread.onMessage world request)) }
      | none => lifetime
  | none => lifetime

/-- One event. -/
def step (thread : WorkerThread Payload Result World)
    (lifetime : PoolLifetime Payload Result) :
    LifetimeEvent Payload World → PoolLifetime Payload Result
  | .submit type payload timeoutMs => lifetime.submit type payload timeoutMs
  | .answers workerId taskId world => lifetime.answers thread workerId taskId world
  | .error workerId message =>
      { lifetime with pool := lifetime.pool.handle (.error workerId message) }
  | .exit workerId code =>
      { lifetime with pool := lifetime.pool.handle (.exit workerId code) }
  | .timeout taskId => { lifetime with pool := lifetime.pool.handle (.timeout taskId) }
  | .dispose => lifetime.dispose
  | .terminated => lifetime.terminated

end PoolLifetime

/-! ## Whose outcome a promise gets -/

/-- What the promise of a task may be settled with: what its own handler makes of its own
payload, or a rejection by the pool. -/
inductive WorkerThread.Earns (thread : WorkerThread Payload Result World) (taskId : Nat)
    (type : String) (payload : Payload) : TaskOutcome Result → Prop where
  | resolved {result : Result} (returned : thread.CanReturn type payload result) :
      thread.Earns taskId type payload (.resolved result)
  | failed {message : String} (fails : thread.CanFail type payload message) :
      thread.Earns taskId type payload
        (.rejected (.taskFailed message) ((TaskRejection.taskFailed message).message type taskId))
  | byPool {reason : TaskRejection} (own : ∀ message, reason ≠ .taskFailed message) :
      thread.Earns taskId type payload (.rejected reason (reason.message type taskId))

namespace WorkerPool

/-- What a thread answers for a request is what the task with the same data earns. -/
theorem earns_resultOutcome (thread : WorkerThread Payload Result World) (world : World)
    {request : TaskRequest Payload} {task : PendingTask Payload}
    (own : task.taskId = request.taskId) (type : task.type = request.type)
    (payload : task.payload = request.payload) :
    thread.Earns request.taskId task.type task.payload
      (resultOutcome (thread.onMessage world request) task) := by
  rw [type, payload]
  rcases thread.onMessage_cases world request with
    ⟨result, returned, same⟩ | ⟨message, fails, same⟩
  · rw [same]
    exact .resolved returned
  · rw [same, resultOutcome, rejection, own, type]
    exact .failed fails

/-- A submitted task is registered, and then posted to an idle worker, rejected while
being posted, or queued. -/
theorem submitTask_cases [StructuredClone Payload] {pool : WorkerPool Payload Result}
    (running : pool.disposed = false) (type : String) (payload : Payload)
    (timeoutMs : Option Int) :
    ∃ task : PendingTask Payload,
      task.taskId = pool.nextTaskId ∧ task.type = type ∧ task.payload = payload ∧
      ((StructuredClone.cloneable payload = true ∧ ∃ workerId,
          pool.submitTask type payload timeoutMs = (pool.register task).dispatch workerId task) ∨
        (StructuredClone.cloneable payload = false ∧ ∃ workerId,
          pool.submitTask type payload timeoutMs =
            { (pool.register task).dispatch workerId task with
              settled := pool.settled ++ [(task.taskId, rejection .notCloneable task)] }) ∨
        pool.submitTask type payload timeoutMs =
          { pool.register task with queue := pool.queue ++ [task] }) := by
  refine ⟨⟨pool.nextTaskId, type, payload, 0 < timeoutMs.getD pool.defaultTimeoutMs⟩,
    rfl, rfl, rfl, ?_⟩
  unfold WorkerPool.submitTask
  rw [if_neg (by simp [running])]
  split
  · next idleWorker _ =>
      split
      · next clones => exact .inl ⟨clones, idleWorker.id, rfl⟩
      · next refuses => exact .inr (.inl ⟨by simpa using refuses, idleWorker.id, rfl⟩)
  · exact .inr (.inr rfl)

theorem nextTaskId_submitTask [StructuredClone Payload] {pool : WorkerPool Payload Result}
    (running : pool.disposed = false) (type : String) (payload : Payload)
    (timeoutMs : Option Int) :
    (pool.submitTask type payload timeoutMs).nextTaskId = pool.nextTaskId + 1 := by
  obtain ⟨task, -, -, -, ⟨-, _, same⟩ | ⟨-, _, same⟩ | same⟩ :=
    submitTask_cases running type payload timeoutMs
  all_goals
    rw [same]
    rfl

/-- Whatever waits, is pending or was posted is the accepted task of its id, and a settled
promise got what that task earns. -/
structure Faithful (thread : WorkerThread Payload Result World)
    (accepted : List (String × Payload)) (pool : WorkerPool Payload Result) : Prop where
  pending : ∀ taskId task, pool.pendingByTaskId.get? taskId = some task →
    task.taskId = taskId ∧ accepted[taskId]? = some (task.type, task.payload)
  queue : ∀ task ∈ pool.queue, accepted[task.taskId]? = some (task.type, task.payload)
  posted : ∀ worker ∈ pool.workers, ∀ request ∈ worker.posted,
    accepted[request.taskId]? = some (request.type, request.payload)
  settled : ∀ taskId outcome, (taskId, outcome) ∈ pool.settled →
    ∃ type payload, accepted[taskId]? = some (type, payload) ∧
      thread.Earns taskId type payload outcome

namespace Faithful

variable {thread : WorkerThread Payload Result World} {accepted : List (String × Payload)}
variable {pool : WorkerPool Payload Result}

/-- Accepting a task changes nothing about the earlier ones. -/
theorem accept (faithful : pool.Faithful thread accepted) (task : String × Payload) :
    pool.Faithful thread (accepted ++ [task]) := by
  have kept : ∀ (taskId : Nat) known, accepted[taskId]? = some known →
      (accepted ++ [task])[taskId]? = some known := by
    intro taskId known found
    obtain ⟨inside, -⟩ := List.getElem?_eq_some_iff.mp found
    rw [List.getElem?_append_left inside]
    exact found
  constructor
  case pending =>
    intro taskId pending found
    obtain ⟨own, known⟩ := faithful.pending taskId pending found
    exact ⟨own, kept taskId _ known⟩
  case queue =>
    intro waiting member
    exact kept _ _ (faithful.queue waiting member)
  case posted =>
    intro worker member request posted
    exact kept _ _ (faithful.posted worker member request posted)
  case settled =>
    intro taskId outcome told
    obtain ⟨type, payload, known, earned⟩ := faithful.settled taskId outcome told
    exact ⟨type, payload, kept taskId _ known, earned⟩

theorem settle (faithful : pool.Faithful thread accepted) {taskId : Nat}
    {outcome : PendingTask Payload → TaskOutcome Result}
    (earned : ∀ task : PendingTask Payload, task.taskId = taskId →
      accepted[taskId]? = some (task.type, task.payload) →
        thread.Earns taskId task.type task.payload (outcome task)) :
    (pool.settle taskId outcome).Faithful thread accepted := by
  unfold WorkerPool.settle
  split
  · exact faithful
  · next task found =>
      obtain ⟨own, known⟩ := faithful.pending taskId task found
      constructor
      case pending =>
        intro other pending kept
        rw [InsertionMap.get?_erase] at kept
        split at kept
        · cases kept
        · exact faithful.pending other pending kept
      case queue => exact faithful.queue
      case posted => exact faithful.posted
      case settled =>
        intro other told member
        rcases List.mem_append.mp member with before | last
        · exact faithful.settled other told before
        · cases List.mem_singleton.mp last
          exact ⟨task.type, task.payload, known, earned task own known⟩

/-- The pool rejects a pending task on its own account. -/
theorem settle_rejection (faithful : pool.Faithful thread accepted) (taskId : Nat)
    {reason : TaskRejection} (own : ∀ message, reason ≠ .taskFailed message) :
    (pool.settle taskId (rejection reason)).Faithful thread accepted := by
  apply faithful.settle
  rintro task rfl -
  exact .byPool own

theorem rejectCurrent (faithful : pool.Faithful thread accepted)
    (worker : ManagedWorker Payload) {reason : TaskRejection}
    (own : ∀ message, reason ≠ .taskFailed message) :
    (pool.rejectCurrent worker reason).Faithful thread accepted := by
  unfold WorkerPool.rejectCurrent
  split
  · exact faithful.settle_rejection _ own
  · exact faithful

/-- Workers may come, go and forget requests. -/
theorem of_workers (faithful : pool.Faithful thread accepted)
    {workers : List (ManagedWorker Payload)} {ended : List Nat} {nextWorkerId : Nat}
    (posted : ∀ worker ∈ workers, ∀ request ∈ worker.posted,
      accepted[request.taskId]? = some (request.type, request.payload)) :
    ({ pool with workers := workers, ended := ended, nextWorkerId := nextWorkerId } :
      WorkerPool Payload Result).Faithful thread accepted :=
  ⟨faithful.pending, faithful.queue, posted, faithful.settled⟩

theorem updateWorker (faithful : pool.Faithful thread accepted) (id : Nat)
    (change : ManagedWorker Payload → ManagedWorker Payload)
    (fewer : ∀ worker, (change worker).posted ⊆ worker.posted) :
    (pool.updateWorker id change).Faithful thread accepted :=
  faithful.of_workers
    (forall_mem_updateWorker
      (fun worker member _ request posted =>
        faithful.posted worker member request (fewer worker posted))
      faithful.posted)

theorem spawnWorker (faithful : pool.Faithful thread accepted) :
    pool.spawnWorker.Faithful thread accepted := by
  apply faithful.of_workers
  intro worker member request posted
  rcases List.mem_append.mp member with before | fresh
  · exact faithful.posted worker before request posted
  · rw [List.mem_singleton.mp fresh] at posted
    cases posted

variable [StructuredClone Payload]

theorem dispatch (faithful : pool.Faithful thread accepted) (id : Nat)
    {task : PendingTask Payload}
    (known : accepted[task.taskId]? = some (task.type, task.payload)) :
    (pool.dispatch id task).Faithful thread accepted := by
  constructor
  case pending => exact faithful.pending
  case queue => exact faithful.queue
  case posted =>
    refine forall_mem_updateWorker ?_ faithful.posted
    intro worker member _ request posted
    simp only [ManagedWorker.assign] at posted
    split at posted
    · rcases List.mem_append.mp posted with before | last
      · exact faithful.posted worker member request before
      · rw [List.mem_singleton.mp last]
        exact known
    · exact faithful.posted worker member request posted
  case settled => exact faithful.settled

theorem drainQueueTo (faithful : pool.Faithful thread accepted) (id : Nat) :
    (pool.drainQueueTo id).Faithful thread accepted := by
  unfold WorkerPool.drainQueueTo
  split
  · exact faithful
  · split
    · exact faithful
    · split
      · exact faithful
      · next next rest waiting =>
          have shorter : ({ pool with queue := rest } : WorkerPool Payload Result).Faithful
              thread accepted :=
            ⟨faithful.pending,
              fun task member => faithful.queue task (waiting ▸ List.mem_cons_of_mem _ member),
              faithful.posted, faithful.settled⟩
          exact shorter.dispatch id (faithful.queue next (waiting ▸ List.mem_cons_self))

theorem replaceWorker (faithful : pool.Faithful thread accepted) (id : Nat) :
    (pool.replaceWorker id).Faithful thread accepted := by
  have removed : ({ pool with
      workers := pool.workers.filter fun worker => worker.id ≠ id
      ended := pool.ended ++ [id] } : WorkerPool Payload Result).Faithful thread accepted :=
    faithful.of_workers fun worker member =>
      faithful.posted worker (List.mem_of_mem_filter member)
  unfold WorkerPool.replaceWorker
  split
  · exact removed
  · exact removed.spawnWorker.drainQueueTo _

theorem submitTask (faithful : pool.Faithful thread accepted)
    (count : accepted.length = pool.nextTaskId) (running : pool.disposed = false)
    (type : String) (payload : Payload) (timeoutMs : Option Int) :
    (pool.submitTask type payload timeoutMs).Faithful thread (accepted ++ [(type, payload)]) := by
  obtain ⟨task, fresh, rfl, rfl, submitted⟩ :=
    submitTask_cases running type payload timeoutMs
  have before := faithful.accept (task.type, task.payload)
  have own : (accepted ++ [(task.type, task.payload)])[task.taskId]? =
      some (task.type, task.payload) := by
    rw [fresh, ← count]
    exact List.getElem?_concat_length
  have registered : (pool.register task).Faithful thread
      (accepted ++ [(task.type, task.payload)]) := by
    refine ⟨?_, before.queue, before.posted, before.settled⟩
    intro taskId pending found
    rw [register, InsertionMap.get?_insert] at found
    split at found
    · next here =>
        cases found
        exact ⟨here.symm, here ▸ own⟩
    · exact before.pending taskId pending found
  rcases submitted with ⟨-, workerId, same⟩ | ⟨-, workerId, same⟩ | same
  · rw [same]
    exact registered.dispatch workerId own
  · rw [same]
    have posted := registered.dispatch workerId own
    refine ⟨posted.pending, posted.queue, posted.posted, ?_⟩
    intro taskId outcome told
    rcases List.mem_append.mp told with earlier | last
    · exact before.settled taskId outcome earlier
    · cases List.mem_singleton.mp last
      exact ⟨_, _, own, .byPool fun message impossible => by cases impossible⟩
  · rw [same]
    refine ⟨registered.pending, ?_, registered.posted, registered.settled⟩
    intro waiting member
    rcases List.mem_append.mp member with queued | last
    · exact registered.queue waiting queued
    · rw [List.mem_singleton.mp last]
      exact own

/-- A thread's answer to a request it was given. -/
theorem handleAnswer (faithful : pool.Faithful thread accepted) {worker : ManagedWorker Payload}
    (member : worker ∈ pool.workers) {request : TaskRequest Payload}
    (posted : request ∈ worker.posted) (world : World) (workerId : Nat) :
    (pool.handle (.result workerId (thread.onMessage world request))).Faithful
      thread accepted := by
  have known := faithful.posted worker member request posted
  simp only [WorkerPool.handle]
  split
  · split
    · have answered := faithful.updateWorker workerId
        (·.answer (thread.onMessage world request).taskId)
        fun worker => List.filter_subset_self _
      have freed := answered.updateWorker workerId ManagedWorker.release
        fun worker => List.Subset.refl _
      apply Faithful.drainQueueTo
      apply freed.settle
      rintro task own same
      rw [thread.taskId_onMessage] at own same ⊢
      obtain ⟨type, payload⟩ := Prod.mk.inj (Option.some.inj (same.symm.trans known))
      exact earns_resultOutcome thread world own type payload
    · exact faithful
  · exact faithful

theorem handleError (faithful : pool.Faithful thread accepted) (workerId : Nat)
    (message : String) :
    (pool.handle (.error workerId message)).Faithful thread accepted := by
  simp only [WorkerPool.handle]
  split
  · exact (faithful.rejectCurrent _ fun _ impossible => by cases impossible).replaceWorker _
  · exact faithful

theorem handleExit (faithful : pool.Faithful thread accepted) (workerId : Nat) (code : Int) :
    (pool.handle (.exit workerId code)).Faithful thread accepted := by
  simp only [WorkerPool.handle]
  split
  · have ended : ({ pool with ended := pool.ended ++ [workerId] } :
        WorkerPool Payload Result).Faithful thread accepted :=
      faithful.of_workers faithful.posted
    unfold handleWorkerExit
    split
    · exact ended
    · split
      · exact (ended.rejectCurrent _ fun _ impossible => by cases impossible).replaceWorker _
      · exact ended
  · exact faithful

theorem handleTimeout (faithful : pool.Faithful thread accepted) (taskId : Nat) :
    (pool.handle (.timeout taskId)).Faithful thread accepted := by
  simp only [WorkerPool.handle]
  split
  · split
    · unfold WorkerPool.handleTimeout
      have told : (pool.settle taskId (rejection .timedOut)).Faithful thread accepted :=
        faithful.settle_rejection taskId fun _ impossible => by cases impossible
      split
      · split
        · exact told.replaceWorker _
        · exact told
      · exact faithful
    · exact faithful
  · exact faithful

omit [StructuredClone Payload] in
theorem spawnWorkers (faithful : pool.Faithful thread accepted) (count : Nat) :
    (WorkerPool.spawnWorkers count pool).Faithful thread accepted := by
  induction count generalizing pool with
  | zero => exact faithful
  | succ count ih => exact ih faithful.spawnWorker

end Faithful

end WorkerPool

/-! ## What an event other than a submission does -/

namespace WorkerPool

/-- Promises are settled and waiting tasks leave the queue; no task is added, lost or
settled twice, and no settlement is taken back. -/
structure Settles (before after : WorkerPool Payload Result) : Prop where
  nextTaskId : after.nextTaskId = before.nextTaskId
  disposed : after.disposed = before.disposed
  queue : after.queue ⊆ before.queue
  tasks : (after.settledIds ++ after.pendingByTaskId.keys).Perm
    (before.settledIds ++ before.pendingByTaskId.keys)
  log : before.settled <+: after.settled

namespace Settles

variable {before between after : WorkerPool Payload Result}

theorem refl (pool : WorkerPool Payload Result) : pool.Settles pool :=
  ⟨rfl, rfl, List.Subset.refl _, .refl _, List.prefix_refl _⟩

theorem trans (first : before.Settles between) (second : between.Settles after) :
    before.Settles after where
  nextTaskId := second.nextTaskId.trans first.nextTaskId
  disposed := second.disposed.trans first.disposed
  queue := List.Subset.trans second.queue first.queue
  tasks := second.tasks.trans first.tasks
  log := first.log.trans second.log

/-- What the workers do before is of no account. -/
theorem of_workers {pool other after : WorkerPool Payload Result}
    (moved : other = { pool with
      workers := other.workers, ended := other.ended, nextWorkerId := other.nextWorkerId })
    (settles : other.Settles after) : pool.Settles after := by
  rw [moved] at settles
  exact ⟨settles.nextTaskId, settles.disposed, settles.queue, settles.tasks, settles.log⟩

theorem settle (pool : WorkerPool Payload Result) (taskId : Nat)
    (outcome : PendingTask Payload → TaskOutcome Result) :
    pool.Settles (pool.settle taskId outcome) := by
  unfold WorkerPool.settle
  split
  · exact .refl pool
  · next task found =>
      refine ⟨rfl, rfl, List.Subset.refl _, ?_, List.prefix_append _ _⟩
      have member := InsertionMap.mem_keys_of_get? found
      have erased : (pool.pendingByTaskId.erase taskId).keys =
          pool.pendingByTaskId.keys.erase taskId := by
        rw [InsertionMap.keys_erase, pool.pendingByTaskId.keys_nodup.erase_eq_filter]
        exact List.filter_congr fun other _ => by
          rw [Bool.eq_iff_iff]
          simp
      simp only [settledIds, List.map_append, List.map_cons, List.map_nil, List.append_assoc]
      rw [erased]
      exact (List.perm_cons_erase member).symm.append_left _

theorem rejectCurrent (pool : WorkerPool Payload Result) (worker : ManagedWorker Payload)
    (reason : TaskRejection) : pool.Settles (pool.rejectCurrent worker reason) := by
  unfold WorkerPool.rejectCurrent
  split
  · exact .settle pool _ _
  · exact .refl pool

variable [StructuredClone Payload]

theorem drainQueueTo (pool : WorkerPool Payload Result) (id : Nat) :
    pool.Settles (pool.drainQueueTo id) := by
  unfold WorkerPool.drainQueueTo
  split
  · exact .refl pool
  · split
    · exact .refl pool
    · split
      · exact .refl pool
      · next next rest waiting =>
          exact ⟨rfl, rfl, fun task member => waiting ▸ List.mem_cons_of_mem _ member,
            .refl _, List.prefix_refl _⟩

theorem replaceWorker (pool : WorkerPool Payload Result) (id : Nat) :
    pool.Settles (pool.replaceWorker id) := by
  unfold WorkerPool.replaceWorker
  split
  · exact of_workers rfl (.refl _)
  · exact of_workers rfl (.drainQueueTo _ _)

theorem handleWorkerMessage (pool : WorkerPool Payload Result) (workerId : Nat)
    (message : TaskResult Result) :
    pool.Settles (pool.handleWorkerMessage workerId message) :=
  of_workers rfl ((Settles.settle (pool.updateWorker workerId ManagedWorker.release) _ _).trans
    (.drainQueueTo _ _))

theorem handleWorkerExit (pool : WorkerPool Payload Result) (worker : ManagedWorker Payload)
    (code : Int) : pool.Settles (pool.handleWorkerExit worker code) := by
  unfold WorkerPool.handleWorkerExit
  split
  · exact .refl pool
  · split
    · exact (Settles.rejectCurrent pool worker _).trans (.replaceWorker _ _)
    · exact .refl pool

theorem handleTimeout (pool : WorkerPool Payload Result) (taskId : Nat) :
    pool.Settles (pool.handleTimeout taskId) := by
  unfold WorkerPool.handleTimeout
  split
  · split
    · exact (Settles.settle pool taskId _).trans (.replaceWorker _ _)
    · exact .settle pool taskId _
  · exact .refl pool

/-- Only a submission does anything else. -/
theorem handle (pool : WorkerPool Payload Result) (event : PoolEvent Payload Result)
    (other : ∀ type payload timeoutMs, event ≠ .submit type payload timeoutMs) :
    pool.Settles (pool.handle event) := by
  cases event with
  | submit type payload timeoutMs => exact absurd rfl (other type payload timeoutMs)
  | result workerId message =>
      simp only [WorkerPool.handle]
      split
      · split
        · exact of_workers rfl (.handleWorkerMessage _ _ _)
        · exact .refl pool
      · exact .refl pool
  | error workerId message =>
      simp only [WorkerPool.handle]
      split
      · exact (Settles.rejectCurrent pool _ _).trans (.replaceWorker _ _)
      · exact .refl pool
  | exit workerId code =>
      simp only [WorkerPool.handle]
      split
      · exact of_workers rfl (.handleWorkerExit _ _ _)
      · exact .refl pool
  | timeout taskId =>
      simp only [WorkerPool.handle]
      split
      · split
        · exact .handleTimeout pool taskId
        · exact .refl pool
      · exact .refl pool

end Settles

end WorkerPool

/-! ## Whole lifetimes -/

namespace PoolLifetime

/-- Every settled promise has what its own task earns. -/
def EachEarned (thread : WorkerThread Payload Result World)
    (lifetime : PoolLifetime Payload Result) : Prop :=
  ∀ taskId outcome, (taskId, outcome) ∈ lifetime.pool.settled →
    ∃ type payload, lifetime.accepted[taskId]? = some (type, payload) ∧
      thread.Earns taskId type payload outcome

/-- The accepted tasks are numbered in order, and the pool is faithful to them. -/
structure Honest (thread : WorkerThread Payload Result World)
    (lifetime : PoolLifetime Payload Result) : Prop where
  count : lifetime.accepted.length = lifetime.pool.nextTaskId
  faithful : lifetime.pool.Faithful thread lifetime.accepted

theorem spawnWorkers_frame (count : Nat) (pool : WorkerPool Payload Result) :
    (WorkerPool.spawnWorkers count pool).nextTaskId = pool.nextTaskId ∧
      (WorkerPool.spawnWorkers count pool).disposed = pool.disposed ∧
      (WorkerPool.spawnWorkers count pool).settled = pool.settled ∧
      (WorkerPool.spawnWorkers count pool).queue = pool.queue ∧
      (WorkerPool.spawnWorkers count pool).pendingByTaskId = pool.pendingByTaskId := by
  induction count generalizing pool with
  | zero => exact ⟨rfl, rfl, rfl, rfl, rfl⟩
  | succ count ih => exact ih pool.spawnWorker

theorem honest_start (thread : WorkerThread Payload Result World)
    (options : WorkerPoolOptions) :
    (start options : PoolLifetime Payload Result).Honest thread where
  count := (spawnWorkers_frame _ (WorkerPool.unstaffed options)).1.symm
  faithful := by
    apply WorkerPool.Faithful.spawnWorkers
    constructor
    case pending => exact fun _ _ found => by cases found
    case queue => exact fun _ member => by cases member
    case posted => exact fun _ member => by cases member
    case settled => exact fun _ _ member => by cases member

section Steps

variable [StructuredClone Payload]
variable {thread : WorkerThread Payload Result World} {lifetime : PoolLifetime Payload Result}

theorem Honest.step (honest : lifetime.Honest thread) (event : LifetimeEvent Payload World) :
    (lifetime.step thread event).Honest thread := by
  have settled : ∀ {pool : WorkerPool Payload Result}, lifetime.pool.Settles pool →
      pool.Faithful thread lifetime.accepted →
      ({ lifetime with pool := pool } : PoolLifetime Payload Result).Honest thread :=
    fun settles faithful => ⟨honest.count.trans settles.nextTaskId.symm, faithful⟩
  cases event with
  | submit type payload timeoutMs =>
      simp only [PoolLifetime.step, PoolLifetime.submit]
      split
      · exact ⟨honest.count, honest.faithful⟩
      · next open_ =>
          have running : lifetime.pool.disposed = false := by simpa using open_
          refine ⟨?_, honest.faithful.submitTask honest.count running type payload timeoutMs⟩
          simp [WorkerPool.nextTaskId_submitTask running, honest.count]
  | answers workerId taskId world =>
      simp only [PoolLifetime.step, PoolLifetime.answers]
      split
      · next worker found =>
          split
          · next request posted =>
              exact settled (.handle _ _ (by simp))
                (honest.faithful.handleAnswer (WorkerPool.liveWorker?_mem found).1
                  (List.mem_of_find?_eq_some posted) world workerId)
          · exact honest
      · exact honest
  | error workerId message =>
      exact settled (.handle _ _ (by simp)) (honest.faithful.handleError workerId message)
  | exit workerId code =>
      exact settled (.handle _ _ (by simp)) (honest.faithful.handleExit workerId code)
  | timeout taskId =>
      exact settled (.handle _ _ (by simp)) (honest.faithful.handleTimeout taskId)
  | dispose =>
      refine ⟨honest.count, ?_⟩
      constructor
      case pending => exact fun _ _ found => by cases found
      case queue => exact fun _ member => by cases member
      case posted => exact honest.faithful.posted
      case settled => exact honest.faithful.settled
  | terminated =>
      simp only [PoolLifetime.step, PoolLifetime.terminated]
      split
      · exact ⟨honest.count, honest.faithful.of_workers fun _ member => by cases member⟩
      · exact honest

/-- Whatever happens, no promise is settled with anything but what its own task earns. -/
theorem outcomes_are_earned (thread : WorkerThread Payload Result World)
    (options : WorkerPoolOptions) (events : List (LifetimeEvent Payload World)) :
    (run (step thread) (start options) events).EachEarned thread :=
  (run_invariant (fun _ event honest => honest.step event) (honest_start thread options)
    events).faithful.settled

end Steps

end PoolLifetime

end FlowCache
