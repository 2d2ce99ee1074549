import FlowCache.WorkerPool.Bookkeeping

/-!
# Tasks that cannot be posted

`dispatch` marks the worker and then calls `postMessage`, which throws when the payload
cannot be cloned.  Nothing catches the exception: it ends the executor of the task's own
promise, or the handler of the event that freed a worker for a waiting task.  Either way
the worker keeps a task that its thread was never given.
-/

namespace FlowCache.WorkerPool

open Transition

variable {Payload Result : Type}

/-- The task that an event posts if it posts one: the submitted one or the first in the
queue. -/
def nextToPost (pool : WorkerPool Payload Result) :
    PoolEvent Payload Result → Option (PendingTask Payload)
  | .submit type payload timeoutMs =>
      some ⟨pool.nextTaskId, type, payload, 0 < timeoutMs.getD pool.defaultTimeoutMs⟩
  | _ => pool.queue.head?

/-- The worker is marked with a task. -/
def Occupies (pool : WorkerPool Payload Result) (taskId workerId : Nat) : Prop :=
  ∃ worker ∈ pool.workers, worker.id = workerId ∧ worker.busy = true ∧
    worker.currentTaskId = some taskId

/-- The worker is idle or runs another task that waited. -/
def FreeOf (pool : WorkerPool Payload Result) (waiting : List Nat) (taskId workerId : Nat) :
    Prop :=
  ∀ worker ∈ pool.workers, worker.id = workerId →
    worker.busy = false ∨
      ∃ other ∈ waiting, other ≠ taskId ∧ worker.currentTaskId = some other

/-- The last entry of the log, if there is a new one, is a task that occupies its worker. -/
def OccupiesDispatched (before : List (Nat × Nat)) (after : WorkerPool Payload Result) :
    Prop :=
  after.dispatched = before ∨
    ∃ taskId workerId, after.dispatched = before ++ [(taskId, workerId)] ∧
      after.Occupies taskId workerId

theorem Occupies.not_freeOf {pool : WorkerPool Payload Result} {taskId workerId : Nat}
    (occupies : pool.Occupies taskId workerId) (waiting : List Nat) :
    ¬pool.FreeOf waiting taskId workerId := by
  obtain ⟨worker, member, same, busy, running⟩ := occupies
  intro free
  rcases free worker member same with idle | ⟨other, -, different, current⟩
  · rw [busy] at idle
    cases idle
  · rw [running] at current
    exact different (Option.some.inj current).symm

theorem mem_settled_settle {pool : WorkerPool Payload Result} {taskId other : Nat}
    {change : PendingTask Payload → TaskOutcome Result} {outcome : TaskOutcome Result}
    (told : (taskId, outcome) ∈ (pool.settle other change).settled) :
    (taskId, outcome) ∈ pool.settled ∨ taskId = other := by
  unfold settle at told
  split at told
  · exact .inl told
  · rcases List.mem_append.mp told with before | last
    · exact .inl before
    · exact .inr (congrArg Prod.fst (List.mem_singleton.mp last))

variable [StructuredClone Payload]

/-- The event dispatches a task to a worker, and posting it throws. -/
structure FailsToPost (pool : WorkerPool Payload Result) (event : PoolEvent Payload Result)
    (pending : PendingTask Payload) (workerId : Nat) : Prop where
  task : pool.nextToPost event = some pending
  posts : (pool.handle event).dispatched = pool.dispatched ++ [(pending.taskId, workerId)]
  throws : StructuredClone.cloneable pending.payload = false

/-- A task that could not be posted has left no trace but the rejection of its promise. -/
structure LeavesPoolIntact (pool : WorkerPool Payload Result)
    (event : PoolEvent Payload Result) (pending : PendingTask Payload) (workerId : Nat) :
    Prop where
  rejected : ∃ reason message,
    (pending.taskId, .rejected reason message) ∈ (pool.handle event).settled
  notQueued : pending.taskId ∉ (pool.handle event).queueIds
  notPending : pending.taskId ∉ (pool.handle event).pendingByTaskId.keys
  freed : (pool.handle event).FreeOf pool.queueIds pending.taskId workerId
  unseen : ∃ type payload timeoutMs, event = .submit type payload timeoutMs
  unharmed : ∀ later, ((run handle (pool.handle event) later).handle
    (.timeout pending.taskId)).ended = (run handle (pool.handle event) later).ended

section Posting

variable {pool : WorkerPool Payload Result}

theorem occupies_dispatch {worker : ManagedWorker Payload} (member : worker ∈ pool.workers)
    (pending : PendingTask Payload) :
    (pool.dispatch worker.id pending).Occupies pending.taskId worker.id :=
  ⟨worker.assign pending, mem_updateWorker_self member, rfl, rfl, rfl⟩

/-- Draining dispatches nothing, or a task that then occupies the worker. -/
theorem occupiesDispatched_drainQueueTo (pool : WorkerPool Payload Result) (id : Nat) :
    OccupiesDispatched pool.dispatched (pool.drainQueueTo id) := by
  unfold drainQueueTo
  split
  · exact .inl rfl
  · next worker found =>
      split
      · exact .inl rfl
      · split
        · exact .inl rfl
        · next next rest waiting =>
            have member := List.mem_of_find?_eq_some found
            have same : worker.id = id := by simpa using List.find?_some found
            subst same
            exact .inr ⟨next.taskId, worker.id, rfl, occupies_dispatch member next⟩

end Posting

namespace Scheduled

variable {pool : WorkerPool Payload Result}

theorem occupiesDispatched_replaceRejected (scheduled : pool.Scheduled)
    (worker : ManagedWorker Payload) (reason : TaskRejection) (id : Nat) :
    OccupiesDispatched pool.dispatched
      ((pool.rejectCurrent worker reason).replaceWorker id) := by
  have rejected := scheduled.rejectCurrent worker reason
  rw [replaceWorker_eq rejected.undisposed, ← rejectCurrent_dispatched pool worker reason]
  exact occupiesDispatched_drainQueueTo _ _

theorem occupiesDispatched_submitTask (scheduled : pool.Scheduled) (type : String)
    (payload : Payload) (timeoutMs : Option Int) :
    OccupiesDispatched pool.dispatched (pool.submitTask type payload timeoutMs) := by
  unfold WorkerPool.submitTask
  rw [if_neg (by simp [scheduled.undisposed])]
  split
  · next worker found =>
      have member := List.mem_of_find?_eq_some found
      have occupies : ∀ pending : PendingTask Payload,
          ((pool.register pending).dispatch worker.id pending).Occupies pending.taskId
            worker.id := fun pending => occupies_dispatch member pending
      split
      · exact .inr ⟨_, _, rfl, occupies _⟩
      · exact .inr ⟨_, _, rfl, occupies _⟩
  · exact .inl rfl

/-- An event dispatches nothing, or a task that then occupies the worker. -/
theorem occupiesDispatched_of_reacts (scheduled : pool.Scheduled)
    {event : PoolEvent Payload Result} {next : WorkerPool Payload Result}
    (reacts : pool.Reacts event next) : OccupiesDispatched pool.dispatched next := by
  cases reacts with
  | submit type payload timeoutMs =>
      exact scheduled.occupiesDispatched_submitTask type payload timeoutMs
  | @answer worker message member running =>
      have posts := occupiesDispatched_drainQueueTo
        (((pool.updateWorker worker.id (·.answer message.taskId)).updateWorker worker.id
          ManagedWorker.release).settle message.taskId (resultOutcome message)) worker.id
      rwa [settle_dispatched] at posts
  | error member message => exact scheduled.occupiesDispatched_replaceRejected _ _ _
  | crash member crashed =>
      have ended := scheduled.endThread (List.mem_map.mpr ⟨_, member, rfl⟩)
      exact ended.occupiesDispatched_replaceRejected _ _ _
  | leave member live => exact .inl rfl
  | stuck member running => exact scheduled.occupiesDispatched_replaceRejected _ _ _
  | expire enabled nobody => exact .inl (settle_dispatched _ _ _)
  | ignore disabled => exact .inl rfl

/-- The worker of a post that failed is marked with the task. -/
theorem occupies_of_failsToPost (scheduled : pool.Scheduled)
    {event : PoolEvent Payload Result} {pending : PendingTask Payload} {workerId : Nat}
    (fails : pool.FailsToPost event pending workerId) :
    (pool.handle event).Occupies pending.taskId workerId := by
  have posts := scheduled.occupiesDispatched_of_reacts (scheduled.reacts event)
  rw [OccupiesDispatched, fails.posts] at posts
  rcases posts with nothing | ⟨taskId, id, same, occupies⟩
  · exact absurd nothing (by simp)
  · have entry := List.singleton_inj.mp (List.append_cancel_left same)
    cases entry
    exact occupies

/-- The timer of a pending task ends the worker that is marked with it. -/
theorem ended_timeout (scheduled : pool.Scheduled) {taskId workerId : Nat}
    (occupies : pool.Occupies taskId workerId) {pending : PendingTask Payload}
    (found : pool.pendingByTaskId.get? taskId = some pending)
    (timed : pending.hasTimeout = true) :
    (pool.handle (.timeout taskId)).ended = pool.ended ++ [workerId] := by
  obtain ⟨worker, member, rfl, -, running⟩ := occupies
  have reacts := reacts_timeout pool taskId
  generalize pool.handle (.timeout taskId) = next at reacts
  cases reacts with
  | @stuck other otherMember _ otherRunning =>
      have same := scheduled.unique_runner otherMember member otherRunning running
      have rejected := scheduled.rejectCurrent other .timedOut
      rw [replaceWorker_eq rejected.undisposed, drainQueueTo_ended, ← same,
        ← rejectCurrent_ended pool other .timedOut]
      rfl
  | expire enabled nobody => exact absurd running (nobody worker member)
  | ignore disabled => exact absurd ⟨pending, found, timed⟩ disabled

theorem submitTask_get? (scheduled : pool.Scheduled) (type : String) (payload : Payload)
    (timeoutMs : Option Int) :
    (pool.submitTask type payload timeoutMs).pendingByTaskId.get? pool.nextTaskId =
      pool.nextToPost (.submit type payload timeoutMs : PoolEvent Payload Result) := by
  unfold WorkerPool.submitTask
  rw [if_neg (by simp [scheduled.undisposed])]
  split
  · split
    · exact InsertionMap.get?_insert_self _ _ _
    · exact InsertionMap.get?_insert_self _ _ _
  · exact InsertionMap.get?_insert_self _ _ _

/-- A submitted task that cannot be posted stays pending, so that its timer ends the
worker, which is healthy. -/
theorem submit_failsToPost (scheduled : pool.Scheduled) {type : String} {payload : Payload}
    {timeoutMs : Option Int} {pending : PendingTask Payload} {workerId : Nat}
    (fails : pool.FailsToPost (.submit type payload timeoutMs) pending workerId) :
    (pool.handle (.submit type payload timeoutMs)).pendingByTaskId.get? pending.taskId =
        some pending ∧
      (pending.hasTimeout = true →
        ((pool.handle (.submit type payload timeoutMs)).handle
          (.timeout pending.taskId)).ended =
            (pool.handle (.submit type payload timeoutMs)).ended ++ [workerId]) := by
  have registered : (pool.handle (.submit type payload timeoutMs)).pendingByTaskId.get?
      pending.taskId = some pending := by
    cases fails.task
    exact scheduled.submitTask_get? type payload timeoutMs
  exact ⟨registered, (scheduled.handle _).ended_timeout
    (scheduled.occupies_of_failsToPost fails) registered⟩

/-- Replacing a worker settles the task it was running and no other. -/
theorem settled_replaceRejected (scheduled : pool.Scheduled) {worker : ManagedWorker Payload}
    {reason : TaskRejection} {id taskId : Nat} {outcome : TaskOutcome Result}
    (other : worker.currentTaskId ≠ some taskId)
    (told : (taskId, outcome) ∈
      ((pool.rejectCurrent worker reason).replaceWorker id).settled) :
    (taskId, outcome) ∈ pool.settled := by
  have rejected := scheduled.rejectCurrent worker reason
  rw [replaceWorker_eq rejected.undisposed, drainQueueTo_eq] at told
  change (taskId, outcome) ∈ (pool.rejectCurrent worker reason).settled at told
  unfold WorkerPool.rejectCurrent at told
  split at told
  · next current running =>
      rcases mem_settled_settle told with before | same
      · exact before
      · exact absurd (same ▸ running) other
  · exact told

/-- A waiting task that cannot be posted leaves the queue, and the event does not settle its
promise. -/
theorem queued_failsToPost (scheduled : pool.Scheduled) {event : PoolEvent Payload Result}
    {pending : PendingTask Payload} {workerId : Nat}
    (fails : pool.FailsToPost event pending workerId)
    (queued : pool.queue.head? = some pending) {outcome : TaskOutcome Result}
    (told : (pending.taskId, outcome) ∈ (pool.handle event).settled)
    (later : ∀ type payload timeoutMs, event ≠ .submit type payload timeoutMs) :
    (pending.taskId, outcome) ∈ pool.settled := by
  have waiting : pending.taskId ∈ pool.queueIds :=
    List.mem_map.mpr ⟨pending, List.mem_of_head? queued, rfl⟩
  have other : ∀ worker ∈ pool.workers, worker.currentTaskId ≠ some pending.taskId :=
    fun worker member running => scheduled.running_not_queued member running waiting
  have posts := fails.posts
  have reacts := scheduled.reacts event
  generalize pool.handle event = next at reacts told posts
  cases reacts with
  | submit type payload timeoutMs => exact absurd rfl (later type payload timeoutMs)
  | @answer worker message member running =>
      rw [handleWorkerMessage, drainQueueTo_eq] at told
      rcases mem_settled_settle told with before | same
      · exact before
      · exact absurd (same ▸ running) (other worker member)
  | error member message => exact scheduled.settled_replaceRejected (other _ member) told
  | crash member crashed =>
      have ended := scheduled.endThread (List.mem_map.mpr ⟨_, member, rfl⟩)
      exact ended.settled_replaceRejected (other _ member) told
  | leave member live => exact told
  | stuck member running => exact scheduled.settled_replaceRejected (other _ member) told
  | expire enabled nobody =>
      rw [settle_dispatched] at posts
      exact absurd posts (by simp)
  | ignore disabled => exact told

end Scheduled

/-- In no run does a task that cannot be posted leave the pool intact: the worker stays
marked with it. -/
theorem failed_post_never_intact (options : WorkerPoolOptions)
    (events : List (PoolEvent Payload Result)) (event : PoolEvent Payload Result)
    (pending : PendingTask Payload) (workerId : Nat)
    (fails : (run handle (create options) events).FailsToPost event pending workerId) :
    ¬(run handle (create options) events).LeavesPoolIntact event pending workerId := by
  intro intact
  have occupies := (scheduled_run options events).occupies_of_failsToPost fails
  exact occupies.not_freeOf _ intact.freed

/-- A payload of plain data, or one that holds a function. -/
inductive MixedPayload where
  | data (value : Nat)
  | function
  deriving DecidableEq, Repr

/-- Functions cannot be cloned. -/
instance : StructuredClone MixedPayload where
  cloneable payload := payload ≠ .function

/-- One worker: the second task waits and is dispatched when the first is done. -/
def queuedFunction : List (PoolEvent MixedPayload Nat) :=
  [.submit "echo" (.data 1) none, .submit "echo" .function none]

theorem failed_post_never_intact_queued :
    ¬(run handle (create ⟨1, none⟩) queuedFunction).LeavesPoolIntact
      (.result 0 (.success 0 1)) ⟨1, "echo", .function, true⟩ 0 :=
  failed_post_never_intact ⟨1, none⟩ queuedFunction (.result 0 (.success 0 1))
    ⟨1, "echo", .function, true⟩ 0
    ⟨by decide +kernel, by decide +kernel, by decide +kernel⟩

/-- One idle worker that a task with a function is submitted to. -/
theorem pool_not_intact_after_function :
    ¬∀ (options : WorkerPoolOptions) (events : List (PoolEvent MixedPayload Nat))
      (event : PoolEvent MixedPayload Nat) (pending : PendingTask MixedPayload)
      (workerId : Nat),
      (run handle (create options) events).FailsToPost event pending workerId →
        (run handle (create options) events).LeavesPoolIntact event pending workerId := by
  intro intact
  have fails : (create ⟨1, none⟩ : WorkerPool MixedPayload Nat).FailsToPost
      (.submit "echo" .function none) ⟨0, "echo", .function, true⟩ 0 :=
    ⟨by decide +kernel, by decide +kernel, by decide +kernel⟩
  have claimed := (intact ⟨1, none⟩ [] _ _ _ fails).notPending
  revert claimed
  decide +kernel

end FlowCache.WorkerPool
