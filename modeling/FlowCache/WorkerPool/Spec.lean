import FlowCache.WorkerPool.Pool

/-!
# What each operation of the pool leaves alone

Lookups, ids and logs before and after the steps that the handlers are made of.
-/

namespace FlowCache.WorkerPool

variable {Payload Result : Type}

/-- The ids of the posted tasks, in order. -/
def dispatchedIds (pool : WorkerPool Payload Result) : List Nat :=
  pool.dispatched.map Prod.fst

/-- The ids of the waiting tasks, in order. -/
def queueIds (pool : WorkerPool Payload Result) : List Nat :=
  pool.queue.map PendingTask.taskId

/-- A task is entered into the map of pending tasks. -/
def register (pool : WorkerPool Payload Result) (pending : PendingTask Payload) :
    WorkerPool Payload Result :=
  { pool with
    nextTaskId := pool.nextTaskId + 1
    pendingByTaskId := pool.pendingByTaskId.insert pending.taskId pending }

/-! ## Changing one worker -/

theorem mem_updateWorker {pool : WorkerPool Payload Result} {id : Nat}
    {change : ManagedWorker Payload → ManagedWorker Payload}
    {worker : ManagedWorker Payload} :
    worker ∈ (pool.updateWorker id change).workers ↔
      ∃ before ∈ pool.workers,
        (if before.id = id then change before else before) = worker :=
  List.mem_map

/-- What every worker has, and the changed one as well, every worker has afterwards. -/
theorem forall_mem_updateWorker {pool : WorkerPool Payload Result} {id : Nat}
    {change : ManagedWorker Payload → ManagedWorker Payload}
    {property : ManagedWorker Payload → Prop}
    (changed : ∀ worker ∈ pool.workers, worker.id = id → property (change worker))
    (kept : ∀ worker ∈ pool.workers, property worker) :
    ∀ worker ∈ (pool.updateWorker id change).workers, property worker := by
  intro worker member
  obtain ⟨before, beforeMember, rfl⟩ := mem_updateWorker.mp member
  split
  · next same => exact changed before beforeMember same
  · exact kept before beforeMember

/-- The other workers stay as they are. -/
theorem mem_updateWorker_of_ne {pool : WorkerPool Payload Result} {id : Nat}
    {change : ManagedWorker Payload → ManagedWorker Payload}
    {worker : ManagedWorker Payload} (member : worker ∈ pool.workers)
    (other : worker.id ≠ id) : worker ∈ (pool.updateWorker id change).workers :=
  mem_updateWorker.mpr ⟨worker, member, if_neg other⟩

theorem mem_updateWorker_self {pool : WorkerPool Payload Result}
    {change : ManagedWorker Payload → ManagedWorker Payload}
    {worker : ManagedWorker Payload} (member : worker ∈ pool.workers) :
    change worker ∈ (pool.updateWorker worker.id change).workers :=
  mem_updateWorker.mpr ⟨worker, member, if_pos rfl⟩

theorem map_id_updateWorker (pool : WorkerPool Payload Result) (id : Nat)
    (change : ManagedWorker Payload → ManagedWorker Payload)
    (kept : ∀ worker ∈ pool.workers, worker.id = id → (change worker).id = id) :
    (pool.updateWorker id change).workers.map ManagedWorker.id =
      pool.workers.map ManagedWorker.id := by
  rw [updateWorker, List.map_map]
  apply List.map_congr_left
  intro worker member
  rw [Function.comp_apply]
  split
  · next same => rw [kept worker member same, same]
  · rfl

theorem updateWorker_updateWorker (pool : WorkerPool Payload Result) (id : Nat)
    (first second : ManagedWorker Payload → ManagedWorker Payload)
    (kept : ∀ worker, (first worker).id = worker.id) :
    (pool.updateWorker id first).updateWorker id second =
      pool.updateWorker id (second ∘ first) := by
  simp only [updateWorker, List.map_map]
  congr 1
  apply List.map_congr_left
  intro worker _
  by_cases same : worker.id = id
  · simp [same, kept]
  · simp [same]

theorem settle_updateWorker (pool : WorkerPool Payload Result) (id taskId : Nat)
    (change : ManagedWorker Payload → ManagedWorker Payload)
    (outcome : PendingTask Payload → TaskOutcome Result) :
    (pool.updateWorker id change).settle taskId outcome =
      (pool.settle taskId outcome).updateWorker id change := by
  unfold settle
  cases found : pool.pendingByTaskId.get? taskId with
  | none => simp [updateWorker, found]
  | some pending => simp [updateWorker, found]

theorem liveWorker?_mem {pool : WorkerPool Payload Result} {id : Nat}
    {worker : ManagedWorker Payload} (found : pool.liveWorker? id = some worker) :
    worker ∈ pool.workers ∧ worker.id = id ∧ id ∉ pool.ended := by
  unfold liveWorker? at found
  split at found
  · cases found
  · next running =>
      exact ⟨List.mem_of_find?_eq_some found, by simpa using List.find?_some found,
        running⟩

/-! ## Settling -/

section Settle

variable (pool : WorkerPool Payload Result) (taskId : Nat)
variable (outcome : PendingTask Payload → TaskOutcome Result)

@[simp] theorem settle_workers : (pool.settle taskId outcome).workers = pool.workers := by
  unfold settle
  split <;> rfl

@[simp] theorem settle_queue : (pool.settle taskId outcome).queue = pool.queue := by
  unfold settle
  split <;> rfl

@[simp] theorem settle_dispatched :
    (pool.settle taskId outcome).dispatched = pool.dispatched := by
  unfold settle
  split <;> rfl

@[simp] theorem settle_ended : (pool.settle taskId outcome).ended = pool.ended := by
  unfold settle
  split <;> rfl

@[simp] theorem settle_nextWorkerId :
    (pool.settle taskId outcome).nextWorkerId = pool.nextWorkerId := by
  unfold settle
  split <;> rfl

theorem mem_pending_settle {other : Nat} :
    other ∈ (pool.settle taskId outcome).pendingByTaskId.keys ↔
      other ≠ taskId ∧ other ∈ pool.pendingByTaskId.keys := by
  unfold settle
  split
  · next absent =>
      rw [InsertionMap.get?_eq_none_iff] at absent
      constructor
      · intro member
        exact ⟨fun same => absent (same ▸ member), member⟩
      · exact fun both => both.2
  · exact InsertionMap.mem_keys_erase

@[simp] theorem settle_size : (pool.settle taskId outcome).size = pool.size := by
  unfold settle
  split <;> rfl

end Settle

section RejectCurrent

variable (pool : WorkerPool Payload Result)

@[simp] theorem rejectCurrent_size (worker : ManagedWorker Payload) (reason : TaskRejection) :
    (pool.rejectCurrent worker reason).size = pool.size := by
  unfold rejectCurrent
  split
  · exact settle_size _ _ _
  · rfl

@[simp] theorem rejectCurrent_workers (worker : ManagedWorker Payload) (reason : TaskRejection) :
    (pool.rejectCurrent worker reason).workers = pool.workers := by
  unfold rejectCurrent
  split
  · exact settle_workers _ _ _
  · rfl

@[simp] theorem rejectCurrent_ended (worker : ManagedWorker Payload)
    (reason : TaskRejection) :
    (pool.rejectCurrent worker reason).ended = pool.ended := by
  unfold rejectCurrent
  split
  · exact settle_ended _ _ _
  · rfl

@[simp] theorem rejectCurrent_queue (worker : ManagedWorker Payload)
    (reason : TaskRejection) :
    (pool.rejectCurrent worker reason).queue = pool.queue := by
  unfold rejectCurrent
  split
  · exact settle_queue _ _ _
  · rfl

@[simp] theorem rejectCurrent_dispatched (worker : ManagedWorker Payload)
    (reason : TaskRejection) :
    (pool.rejectCurrent worker reason).dispatched = pool.dispatched := by
  unfold rejectCurrent
  split
  · exact settle_dispatched _ _ _
  · rfl

end RejectCurrent

/-! ## Posting -/

variable [StructuredClone Payload]

theorem replaceWorker_eq {pool : WorkerPool Payload Result}
    (undisposed : pool.disposed = false) (id : Nat) :
    pool.replaceWorker id =
      ({ pool with
        workers := pool.workers.filter fun worker => worker.id ≠ id
        ended := pool.ended ++ [id] } : WorkerPool Payload Result).spawnWorker.drainQueueTo
          pool.nextWorkerId :=
  if_neg (by simp [undisposed])

/-- Draining touches the workers, the queue and the log of posted tasks. -/
theorem drainQueueTo_eq (pool : WorkerPool Payload Result) (id : Nat) :
    pool.drainQueueTo id =
      { pool with
        workers := (pool.drainQueueTo id).workers
        queue := (pool.drainQueueTo id).queue
        dispatched := (pool.drainQueueTo id).dispatched } := by
  unfold drainQueueTo
  split
  · rfl
  · split
    · rfl
    · split <;> rfl

@[simp] theorem drainQueueTo_size (pool : WorkerPool Payload Result) (id : Nat) :
    (pool.drainQueueTo id).size = pool.size := by
  rw [drainQueueTo_eq]

@[simp] theorem replaceWorker_size (pool : WorkerPool Payload Result) (id : Nat) :
    (pool.replaceWorker id).size = pool.size := by
  unfold replaceWorker
  split
  · rfl
  · rw [drainQueueTo_size]
    rfl

theorem handleWorkerExit_zero (pool : WorkerPool Payload Result)
    (worker : ManagedWorker Payload) : pool.handleWorkerExit worker 0 = pool := by
  unfold handleWorkerExit
  split
  · rfl
  · exact if_neg (by simp)

theorem length_workers_dispatch (pool : WorkerPool Payload Result) (id : Nat)
    (pending : PendingTask Payload) :
    (pool.dispatch id pending).workers.length = pool.workers.length := by
  simp [dispatch, updateWorker]

theorem dispatchedIds_dispatch (pool : WorkerPool Payload Result) (id : Nat)
    (pending : PendingTask Payload) :
    (pool.dispatch id pending).dispatchedIds = pool.dispatchedIds ++ [pending.taskId] := by
  simp [dispatch, dispatchedIds]

theorem map_id_dispatch (pool : WorkerPool Payload Result) (id : Nat)
    (pending : PendingTask Payload) :
    (pool.dispatch id pending).workers.map ManagedWorker.id =
      pool.workers.map ManagedWorker.id :=
  map_id_updateWorker pool id (·.assign pending) fun _ _ same => same

theorem map_id_drainQueueTo (pool : WorkerPool Payload Result) (id : Nat) :
    (pool.drainQueueTo id).workers.map ManagedWorker.id =
      pool.workers.map ManagedWorker.id := by
  unfold drainQueueTo
  split
  · rfl
  · split
    · rfl
    · split
      · rfl
      · exact map_id_dispatch _ _ _

theorem drainQueueTo_ended (pool : WorkerPool Payload Result) (id : Nat) :
    (pool.drainQueueTo id).ended = pool.ended := by
  rw [drainQueueTo_eq]

theorem drainQueueTo_pending (pool : WorkerPool Payload Result) (id : Nat) :
    (pool.drainQueueTo id).pendingByTaskId = pool.pendingByTaskId := by
  rw [drainQueueTo_eq]

end FlowCache.WorkerPool
