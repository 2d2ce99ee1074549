import Mathlib.Data.List.Range
import FlowCache.WorkerPool.Spec

/-!
# The pool's invariant

What the queue, the map of pending tasks, the workers and the posted requests say about
each other, kept by every handler.  A handler passes through states in which one worker
is idle although tasks wait; these are the states that `drainQueueTo` starts from.
-/

namespace FlowCache.WorkerPool

variable {Payload Result : Type}

/-- The workers' fields agree with each other and with what was posted. -/
structure Consistent (pool : WorkerPool Payload Result) : Prop where
  distinct : (pool.workers.map ManagedWorker.id).Nodup
  idsBelow : ∀ worker ∈ pool.workers, worker.id < pool.nextWorkerId
  endedBelow : ∀ id ∈ pool.ended, id < pool.nextWorkerId
  busyIff : ∀ worker ∈ pool.workers, worker.busy = worker.currentTaskId.isSome
  postedIs : ∀ worker ∈ pool.workers, ∀ request ∈ worker.posted,
    worker.currentTaskId = some request.taskId
  running : ∀ worker ∈ pool.workers, ∀ taskId, worker.currentTaskId = some taskId →
    (taskId, worker.id) ∈ pool.dispatched
  assigned : ∀ taskId workerId, (taskId, workerId) ∈ pool.dispatched →
    taskId ∈ pool.pendingByTaskId.keys →
    ∃ worker ∈ pool.workers, worker.id = workerId ∧ worker.currentTaskId = some taskId

/-- The task a worker was given is no longer pending. -/
def Released (pool : WorkerPool Payload Result) (workerId : Nat) : Prop :=
  ∀ worker ∈ pool.workers, worker.id = workerId →
    ∀ taskId, worker.currentTaskId = some taskId → taskId ∉ pool.pendingByTaskId.keys

namespace Consistent

variable {pool : WorkerPool Payload Result}

theorem eq_of_id (consistent : pool.Consistent) {first second : ManagedWorker Payload}
    (firstMember : first ∈ pool.workers) (secondMember : second ∈ pool.workers)
    (same : first.id = second.id) : first = second :=
  List.inj_on_of_nodup_map consistent.distinct firstMember secondMember same

theorem worker?_eq_some_iff (consistent : pool.Consistent) {id : Nat}
    {worker : ManagedWorker Payload} :
    pool.worker? id = some worker ↔ worker ∈ pool.workers ∧ worker.id = id := by
  constructor
  · intro found
    exact ⟨List.mem_of_find?_eq_some found, by simpa using List.find?_some found⟩
  · rintro ⟨member, rfl⟩
    cases found : pool.worker? worker.id with
    | none =>
        rw [worker?, List.find?_eq_none] at found
        exact absurd (decide_eq_true rfl) (found worker member)
    | some other =>
        have otherMember := List.mem_of_find?_eq_some found
        have sameId : other.id = worker.id := by simpa using List.find?_some found
        rw [consistent.eq_of_id otherMember member sameId]

theorem idle_of_id (consistent : pool.Consistent)
    {worker : ManagedWorker Payload} (member : worker ∈ pool.workers)
    (idle : worker.currentTaskId = none) :
    ∀ other ∈ pool.workers, other.id = worker.id → other.currentTaskId = none := by
  intro other otherMember same
  rw [consistent.eq_of_id otherMember member same]
  exact idle

/-- A worker can only answer for its current task. -/
theorem running_of_posted (consistent : pool.Consistent)
    {worker : ManagedWorker Payload} (member : worker ∈ pool.workers) {taskId : Nat}
    (posted : taskId ∈ worker.posted.map TaskRequest.taskId) :
    worker.currentTaskId = some taskId := by
  obtain ⟨request, asked, rfl⟩ := List.mem_map.mp posted
  exact consistent.postedIs worker member request asked

theorem settle (consistent : pool.Consistent) (taskId : Nat)
    (outcome : PendingTask Payload → TaskOutcome Result) :
    (pool.settle taskId outcome).Consistent := by
  unfold WorkerPool.settle
  split
  · exact consistent
  · refine ⟨consistent.distinct, consistent.idsBelow, consistent.endedBelow,
      consistent.busyIff, consistent.postedIs, consistent.running, ?_⟩
    intro other workerId posted pending
    exact consistent.assigned other workerId posted
      (InsertionMap.mem_keys_erase.mp pending).2

/-- A worker whose task is no longer pending is marked idle. -/
theorem free (consistent : pool.Consistent) {id : Nat} (released : pool.Released id)
    {change : ManagedWorker Payload → ManagedWorker Payload}
    (changed : ∀ worker ∈ pool.workers, worker.id = id →
      change worker = ⟨id, false, none, []⟩) :
    (pool.updateWorker id change).Consistent where
  distinct := by
    rw [map_id_updateWorker pool id change fun worker member same => by
      rw [changed worker member same]]
    exact consistent.distinct
  idsBelow := by
    apply forall_mem_updateWorker _ consistent.idsBelow
    intro worker member same
    rw [changed worker member same, ← same]
    exact consistent.idsBelow worker member
  endedBelow := consistent.endedBelow
  busyIff := by
    apply forall_mem_updateWorker _ consistent.busyIff
    intro worker member same
    rw [changed worker member same]
    rfl
  postedIs := by
    apply forall_mem_updateWorker _ consistent.postedIs
    intro worker member same
    simp [changed worker member same]
  running := by
    apply forall_mem_updateWorker _ consistent.running
    intro worker member same
    simp [changed worker member same]
  assigned := by
    intro taskId workerId posted pending
    obtain ⟨worker, member, sameId, current⟩ :=
      consistent.assigned taskId workerId posted pending
    have other : worker.id ≠ id := by
      intro same
      exact released worker member same taskId current pending
    exact ⟨worker, mem_updateWorker_of_ne member other, sameId, current⟩

/-- A worker whose task is no longer pending is removed and its thread terminated. -/
theorem remove (consistent : pool.Consistent) {id : Nat} (released : pool.Released id)
    (below : id < pool.nextWorkerId) :
    ({ pool with
      workers := pool.workers.filter fun worker => worker.id ≠ id
      ended := pool.ended ++ [id] } : WorkerPool Payload Result).Consistent where
  distinct := (List.filter_sublist.map _).nodup consistent.distinct
  idsBelow worker member := consistent.idsBelow worker (List.mem_filter.mp member).1
  endedBelow := by
    intro other member
    rcases List.mem_append.mp member with before | last
    · exact consistent.endedBelow other before
    · rw [List.mem_singleton.mp last]
      exact below
  busyIff worker member := consistent.busyIff worker (List.mem_filter.mp member).1
  postedIs worker member := consistent.postedIs worker (List.mem_filter.mp member).1
  running worker member := consistent.running worker (List.mem_filter.mp member).1
  assigned := by
    intro taskId workerId posted pending
    obtain ⟨worker, member, sameId, current⟩ :=
      consistent.assigned taskId workerId posted pending
    have other : worker.id ≠ id := by
      intro same
      exact released worker member same taskId current pending
    exact ⟨worker, List.mem_filter.mpr ⟨member, by simpa using other⟩, sameId, current⟩

theorem spawnWorker (consistent : pool.Consistent) : pool.spawnWorker.Consistent where
  distinct := by
    rw [WorkerPool.spawnWorker, List.map_append, List.nodup_append]
    refine ⟨consistent.distinct, List.nodup_singleton _, ?_⟩
    intro id member fresh freshMember same
    obtain ⟨worker, workerMember, rfl⟩ := List.mem_map.mp member
    have below := consistent.idsBelow worker workerMember
    rw [same, List.mem_singleton.mp freshMember] at below
    exact Nat.lt_irrefl _ below
  idsBelow := by
    intro worker member
    rcases List.mem_append.mp member with before | last
    · exact Nat.lt_succ_of_lt (consistent.idsBelow worker before)
    · rw [List.mem_singleton.mp last]
      exact Nat.lt_succ_self _
  endedBelow id member := Nat.lt_succ_of_lt (consistent.endedBelow id member)
  busyIff := by
    intro worker member
    rcases List.mem_append.mp member with before | last
    · exact consistent.busyIff worker before
    · rw [List.mem_singleton.mp last]
      rfl
  postedIs := by
    intro worker member
    rcases List.mem_append.mp member with before | last
    · exact consistent.postedIs worker before
    · simp [List.mem_singleton.mp last]
  running := by
    intro worker member
    rcases List.mem_append.mp member with before | last
    · exact consistent.running worker before
    · simp [List.mem_singleton.mp last]
  assigned := by
    intro taskId workerId posted pending
    obtain ⟨worker, member, rest⟩ := consistent.assigned taskId workerId posted pending
    exact ⟨worker, List.mem_append_left _ member, rest⟩

/-- Nothing is posted to an idle worker. -/
theorem posted_of_idle (consistent : pool.Consistent) {worker : ManagedWorker Payload}
    (member : worker ∈ pool.workers) (idle : worker.currentTaskId = none) :
    worker.posted = [] := by
  apply List.eq_nil_iff_forall_not_mem.mpr
  intro request asked
  have current := consistent.postedIs worker member request asked
  rw [idle] at current
  cases current

/-- An idle worker is given a task. -/
theorem dispatch [StructuredClone Payload] (consistent : pool.Consistent) {id : Nat}
    (idle : ∀ worker ∈ pool.workers, worker.id = id → worker.currentTaskId = none)
    (tracked : id ∈ pool.workers.map ManagedWorker.id) (pending : PendingTask Payload) :
    (pool.dispatch id pending).Consistent where
  distinct := by
    have sameIds := map_id_updateWorker pool id (·.assign pending)
      fun worker _ same => same
    exact sameIds ▸ consistent.distinct
  idsBelow := by
    apply forall_mem_updateWorker _ consistent.idsBelow
    intro worker member _
    exact consistent.idsBelow worker member
  endedBelow := consistent.endedBelow
  busyIff := by
    apply forall_mem_updateWorker _ consistent.busyIff
    intro worker _ _
    rfl
  postedIs := by
    apply forall_mem_updateWorker _ consistent.postedIs
    intro worker member same request asked
    have nothing := consistent.posted_of_idle member (idle worker member same)
    simp only [ManagedWorker.assign, nothing, List.nil_append] at asked
    split at asked
    · rw [List.mem_singleton.mp asked, ManagedWorker.assign_currentTaskId]
    · cases asked
  running := by
    apply forall_mem_updateWorker
    · intro worker _ same taskId current
      cases current
      rw [ManagedWorker.assign_id, same]
      exact List.mem_append_right _ List.mem_cons_self
    · intro worker member taskId current
      exact List.mem_append_left _ (consistent.running worker member taskId current)
  assigned := by
    intro taskId workerId posted waiting
    rcases List.mem_append.mp posted with before | last
    · obtain ⟨worker, member, sameId, current⟩ :=
        consistent.assigned taskId workerId before waiting
      have other : worker.id ≠ id := by
        intro same
        rw [idle worker member same] at current
        cases current
      exact ⟨worker, mem_updateWorker_of_ne member other, sameId, current⟩
    · cases List.mem_singleton.mp last
      obtain ⟨worker, member, rfl⟩ := List.mem_map.mp tracked
      exact ⟨_, mem_updateWorker_self member, worker.assign_id pending,
        worker.assign_currentTaskId pending⟩

end Consistent

/-- What holds between the steps of a handler as well. -/
structure Orderly (pool : WorkerPool Payload Result) : Prop where
  consistent : pool.Consistent
  undisposed : pool.disposed = false
  count : pool.workers.length = pool.size
  order : pool.dispatchedIds ++ pool.queueIds = List.range pool.nextTaskId
  pendingBelow : ∀ taskId ∈ pool.pendingByTaskId.keys, taskId < pool.nextTaskId
  told : ∀ taskId message, (taskId, .rejected .timedOut message) ∈ pool.settled →
    taskId ∉ pool.pendingByTaskId.keys ∧ taskId < pool.nextTaskId

/-- Tasks wait only for busy workers. -/
structure Scheduled (pool : WorkerPool Payload Result) : Prop extends Orderly pool where
  allBusy : pool.queue ≠ [] → ∀ worker ∈ pool.workers, worker.busy = true

/-- One worker is idle and may be the only one beside a waiting task. -/
structure Offering (pool : WorkerPool Payload Result) (id : Nat) : Prop
    extends Orderly pool where
  idle : ∃ worker ∈ pool.workers, worker.id = id ∧ worker.currentTaskId = none
  othersBusy : pool.queue ≠ [] → ∀ worker ∈ pool.workers, worker.id ≠ id →
    worker.busy = true

namespace Orderly

variable {pool : WorkerPool Payload Result}

theorem settle (orderly : pool.Orderly) (taskId : Nat)
    (outcome : PendingTask Payload → TaskOutcome Result) :
    (pool.settle taskId outcome).Orderly := by
  have consistent := orderly.consistent.settle taskId outcome
  unfold WorkerPool.settle at consistent ⊢
  cases found : pool.pendingByTaskId.get? taskId with
  | none => exact orderly
  | some pending =>
      rw [found] at consistent
      refine ⟨consistent, orderly.undisposed, orderly.count, orderly.order, ?_, ?_⟩
      · intro other member
        exact orderly.pendingBelow other (InsertionMap.mem_keys_erase.mp member).2
      · intro other message logged
        rw [InsertionMap.mem_keys_erase]
        rcases List.mem_append.mp logged with before | last
        · obtain ⟨gone, below⟩ := orderly.told other message before
          exact ⟨fun both => gone both.2, below⟩
        · have same : other = taskId := congrArg Prod.fst (List.mem_singleton.mp last)
          rw [same]
          exact ⟨fun both => both.1 rfl,
            orderly.pendingBelow taskId (InsertionMap.mem_keys_of_get? found)⟩

theorem free (orderly : pool.Orderly) {id : Nat} (released : pool.Released id)
    {change : ManagedWorker Payload → ManagedWorker Payload}
    (changed : ∀ worker ∈ pool.workers, worker.id = id →
      change worker = ⟨id, false, none, []⟩) :
    (pool.updateWorker id change).Orderly where
  consistent := orderly.consistent.free released changed
  undisposed := orderly.undisposed
  count := by
    rw [updateWorker, List.length_map]
    exact orderly.count
  order := orderly.order
  pendingBelow := orderly.pendingBelow
  told := orderly.told

/-- Ids are distinct, so a filter takes exactly one worker away. -/
theorem length_filter_id (orderly : pool.Orderly) {id : Nat}
    (tracked : id ∈ pool.workers.map ManagedWorker.id) :
    (pool.workers.filter fun worker => worker.id ≠ id).length + 1 =
      pool.workers.length := by
  have once := List.count_eq_one_of_mem orderly.consistent.distinct tracked
  rw [List.count, List.countP_map] at once
  have others : pool.workers.countP (fun worker => worker.id ≠ id) =
      pool.workers.countP (fun worker => ¬((· == id) ∘ ManagedWorker.id) worker) := by
    apply List.countP_congr
    intro worker _
    simp
  rw [← List.countP_eq_length_filter, others, Nat.add_comm, ← once]
  exact (List.length_eq_countP_add_countP ((· == id) ∘ ManagedWorker.id)).symm

/-- A worker whose task is no longer pending is replaced by an idle one. -/
theorem replaced (orderly : pool.Orderly) {id : Nat}
    (tracked : id ∈ pool.workers.map ManagedWorker.id) (released : pool.Released id) :
    ({ pool with
      workers := pool.workers.filter fun worker => worker.id ≠ id
      ended := pool.ended ++ [id] } : WorkerPool Payload Result).spawnWorker.Orderly := by
  have below : id < pool.nextWorkerId := by
    obtain ⟨worker, member, rfl⟩ := List.mem_map.mp tracked
    exact orderly.consistent.idsBelow worker member
  refine ⟨(orderly.consistent.remove released below).spawnWorker, orderly.undisposed, ?_,
    orderly.order, orderly.pendingBelow, orderly.told⟩
  rw [spawnWorker, List.length_append, List.length_singleton,
    orderly.length_filter_id tracked]
  exact orderly.count

end Orderly

section Drain

variable [StructuredClone Payload] {pool : WorkerPool Payload Result}

theorem drainQueueTo_of_idle (consistent : pool.Consistent)
    (undisposed : pool.disposed = false) {worker : ManagedWorker Payload}
    (member : worker ∈ pool.workers) (idle : worker.currentTaskId = none) :
    pool.drainQueueTo worker.id =
      match pool.queue with
      | [] => pool
      | next :: rest => dispatch { pool with queue := rest } worker.id next := by
  have notBusy : worker.busy = false := by
    rw [consistent.busyIff worker member, idle]
    rfl
  rw [drainQueueTo, consistent.worker?_eq_some_iff.mpr ⟨member, rfl⟩]
  exact if_neg (by simp [notBusy, undisposed])

/-- The idle worker takes the first waiting task. -/
theorem Offering.drain {id : Nat} (offering : pool.Offering id) :
    (pool.drainQueueTo id).Scheduled := by
  obtain ⟨worker, member, rfl, idle⟩ := offering.idle
  rw [drainQueueTo_of_idle offering.consistent offering.undisposed member idle]
  cases waiting : pool.queue with
  | nil => exact ⟨offering.toOrderly, fun impossible => absurd waiting impossible⟩
  | cons next rest =>
      have shortened : ({ pool with queue := rest } : WorkerPool Payload Result).Consistent :=
        ⟨offering.consistent.distinct, offering.consistent.idsBelow,
          offering.consistent.endedBelow, offering.consistent.busyIff,
          offering.consistent.postedIs, offering.consistent.running,
          offering.consistent.assigned⟩
      have order := offering.order
      rw [queueIds, waiting, List.map_cons] at order
      refine ⟨⟨shortened.dispatch (offering.consistent.idle_of_id member idle)
        (List.mem_map.mpr ⟨worker, member, rfl⟩) next, offering.undisposed, ?_, ?_,
        offering.pendingBelow, offering.told⟩, ?_⟩
      · exact (length_workers_dispatch _ _ _).trans offering.count
      · rw [dispatchedIds_dispatch, List.append_assoc]
        exact order
      · intro _ other otherMember
        obtain ⟨before, beforeMember, rfl⟩ := mem_updateWorker.mp otherMember
        split
        · rfl
        · next different =>
            exact offering.othersBusy (by simp [waiting]) before beforeMember different

end Drain

namespace Scheduled

variable {pool : WorkerPool Payload Result}

theorem settle (scheduled : pool.Scheduled) (taskId : Nat)
    (outcome : PendingTask Payload → TaskOutcome Result) :
    (pool.settle taskId outcome).Scheduled where
  toOrderly := scheduled.toOrderly.settle taskId outcome
  allBusy := by
    rw [settle_queue, settle_workers]
    exact scheduled.allBusy

theorem endThread (scheduled : pool.Scheduled) {id : Nat}
    (tracked : id ∈ pool.workers.map ManagedWorker.id) :
    ({ pool with ended := pool.ended ++ [id] } : WorkerPool Payload Result).Scheduled := by
  have consistent := scheduled.consistent
  refine ⟨⟨⟨consistent.distinct, consistent.idsBelow, ?_, consistent.busyIff,
    consistent.postedIs, consistent.running, consistent.assigned⟩, scheduled.undisposed,
    scheduled.count, scheduled.order, scheduled.pendingBelow, scheduled.told⟩,
    scheduled.allBusy⟩
  intro other member
  rcases List.mem_append.mp member with before | last
  · exact consistent.endedBelow other before
  · obtain ⟨worker, workerMember, rfl⟩ := List.mem_map.mp tracked
    rw [List.mem_singleton.mp last]
    exact consistent.idsBelow worker workerMember

theorem rejectCurrent (scheduled : pool.Scheduled) (worker : ManagedWorker Payload)
    (reason : TaskRejection) : (pool.rejectCurrent worker reason).Scheduled := by
  unfold WorkerPool.rejectCurrent
  split
  · exact scheduled.settle _ _
  · exact scheduled

/-- A worker whose task was settled can be released. -/
theorem released_settle (scheduled : pool.Scheduled) {worker : ManagedWorker Payload}
    (member : worker ∈ pool.workers) {taskId : Nat}
    (running : worker.currentTaskId = some taskId)
    (outcome : PendingTask Payload → TaskOutcome Result) :
    (pool.settle taskId outcome).Released worker.id := by
  intro other otherMember same current isCurrent
  rw [settle_workers] at otherMember
  rw [scheduled.consistent.eq_of_id otherMember member same, running] at isCurrent
  cases isCurrent
  rw [mem_pending_settle]
  exact fun both => both.1 rfl

theorem released_rejectCurrent (scheduled : pool.Scheduled)
    {worker : ManagedWorker Payload} (member : worker ∈ pool.workers)
    (reason : TaskRejection) :
    (pool.rejectCurrent worker reason).Released worker.id := by
  unfold WorkerPool.rejectCurrent
  split
  · next taskId running => exact scheduled.released_settle member running _
  · next idle =>
      intro other otherMember same taskId current
      rw [scheduled.consistent.eq_of_id otherMember member same, idle] at current
      cases current

/-- What a worker's answer makes of its record. -/
theorem answered_eq (scheduled : pool.Scheduled) {worker : ManagedWorker Payload}
    (member : worker ∈ pool.workers) {taskId : Nat}
    (running : worker.currentTaskId = some taskId) :
    (worker.answer taskId).release = ⟨worker.id, false, none, []⟩ := by
  have nothing : worker.posted.filter (fun request => request.taskId ≠ taskId) = [] := by
    rw [List.filter_eq_nil_iff]
    intro request posted
    have current := scheduled.consistent.postedIs worker member request posted
    rw [running] at current
    simpa using (Option.some.inj current).symm
  simp only [ManagedWorker.answer, ManagedWorker.release, nothing]

variable [StructuredClone Payload]

/-- The fresh worker takes the first waiting task. -/
theorem replaceWorker (scheduled : pool.Scheduled) {id : Nat}
    (tracked : id ∈ pool.workers.map ManagedWorker.id) (released : pool.Released id) :
    (pool.replaceWorker id).Scheduled := by
  rw [replaceWorker_eq scheduled.undisposed]
  apply Offering.drain
  refine ⟨scheduled.toOrderly.replaced tracked released, ?_, ?_⟩
  · exact ⟨⟨pool.nextWorkerId, false, none, []⟩,
      List.mem_append_right _ List.mem_cons_self, rfl, rfl⟩
  · intro waiting worker member different
    rcases List.mem_append.mp member with before | last
    · exact scheduled.allBusy waiting worker (List.mem_filter.mp before).1
    · rw [List.mem_singleton.mp last] at different
      exact absurd rfl different

theorem replaceRejected (scheduled : pool.Scheduled) {worker : ManagedWorker Payload}
    (member : worker ∈ pool.workers) (reason : TaskRejection) :
    ((pool.rejectCurrent worker reason).replaceWorker worker.id).Scheduled := by
  apply (scheduled.rejectCurrent worker reason).replaceWorker
  · rw [rejectCurrent_workers]
    exact List.mem_map.mpr ⟨worker, member, rfl⟩
  · exact scheduled.released_rejectCurrent member reason

theorem handleWorkerExit_crash (scheduled : pool.Scheduled)
    {worker : ManagedWorker Payload}
    (member : worker ∈ pool.workers) {code : Int} (crashed : code ≠ 0) :
    pool.handleWorkerExit worker code =
      (pool.rejectCurrent worker (.workerExit code)).replaceWorker worker.id := by
  have tracked := scheduled.consistent.worker?_eq_some_iff.mpr ⟨member, rfl⟩
  rw [WorkerPool.handleWorkerExit, if_neg (by simp [scheduled.undisposed]), tracked]
  exact if_pos (by simp [crashed])

/-- A worker answers its request, and takes the first waiting task. -/
theorem handleAnswer (scheduled : pool.Scheduled) {worker : ManagedWorker Payload}
    (member : worker ∈ pool.workers) {message : TaskResult Result}
    (running : worker.currentTaskId = some message.taskId) :
    ((pool.updateWorker worker.id (·.answer message.taskId)).handleWorkerMessage worker.id
      message).Scheduled := by
  rw [WorkerPool.handleWorkerMessage, updateWorker_updateWorker pool worker.id
    (·.answer message.taskId) ManagedWorker.release fun _ => rfl, settle_updateWorker]
  have told := scheduled.settle message.taskId (resultOutcome message)
  have released := scheduled.released_settle member running (resultOutcome message)
  have changed : ∀ other ∈ (pool.settle message.taskId (resultOutcome message)).workers,
      other.id = worker.id → (ManagedWorker.release ∘ (·.answer message.taskId)) other =
        ⟨worker.id, false, none, []⟩ := by
    intro other otherMember same
    rw [settle_workers] at otherMember
    rw [scheduled.consistent.eq_of_id otherMember member same]
    exact scheduled.answered_eq member running
  apply Offering.drain
  refine ⟨told.toOrderly.free released changed, ?_, ?_⟩
  · rw [← settle_workers] at member
    exact ⟨_, mem_updateWorker_self member, rfl, rfl⟩
  · intro waiting other otherMember different
    obtain ⟨before, beforeMember, rfl⟩ := mem_updateWorker.mp otherMember
    split at different
    · next same => exact absurd same different
    · next other =>
        rw [if_neg other]
        exact told.allBusy waiting before beforeMember

end Scheduled

/-! ## Submissions -/

namespace Orderly

variable {pool : WorkerPool Payload Result}

theorem dispatched_below (orderly : pool.Orderly) {taskId : Nat}
    (posted : taskId ∈ pool.dispatchedIds) : taskId < pool.nextTaskId := by
  rw [← List.mem_range, ← orderly.order]
  exact List.mem_append_left _ posted

theorem consistent_register (orderly : pool.Orderly) {pending : PendingTask Payload}
    (fresh : pending.taskId = pool.nextTaskId) : (pool.register pending).Consistent := by
  have consistent := orderly.consistent
  refine ⟨consistent.distinct, consistent.idsBelow, consistent.endedBelow,
    consistent.busyIff, consistent.postedIs, consistent.running, ?_⟩
  intro taskId workerId posted waiting
  rcases InsertionMap.mem_keys_insert.mp waiting with same | before
  · have below := orderly.dispatched_below (List.mem_map.mpr ⟨_, posted, rfl⟩)
    simp only [same, fresh] at below
    exact absurd below (Nat.lt_irrefl _)
  · exact consistent.assigned taskId workerId posted before

theorem pendingBelow_register (orderly : pool.Orderly) {pending : PendingTask Payload}
    (fresh : pending.taskId = pool.nextTaskId) :
    ∀ taskId ∈ (pool.register pending).pendingByTaskId.keys,
      taskId < (pool.register pending).nextTaskId := by
  intro taskId member
  rcases InsertionMap.mem_keys_insert.mp member with same | before
  · rw [same, fresh]
    exact Nat.lt_succ_self _
  · exact Nat.lt_succ_of_lt (orderly.pendingBelow taskId before)

theorem told_register (orderly : pool.Orderly) {pending : PendingTask Payload}
    (fresh : pending.taskId = pool.nextTaskId) (taskId : Nat) (message : String)
    (logged : (taskId, .rejected .timedOut message) ∈ pool.settled) :
    taskId ∉ (pool.register pending).pendingByTaskId.keys ∧
      taskId < (pool.register pending).nextTaskId := by
  obtain ⟨gone, below⟩ := orderly.told taskId message logged
  refine ⟨?_, Nat.lt_succ_of_lt below⟩
  intro member
  rcases InsertionMap.mem_keys_insert.mp member with same | before
  · rw [same, fresh] at below
    exact Nat.lt_irrefl _ below
  · exact gone before

end Orderly

namespace Scheduled

variable {pool : WorkerPool Payload Result}

/-- All workers are busy, so the task waits. -/
theorem enqueue (scheduled : pool.Scheduled) {pending : PendingTask Payload}
    (fresh : pending.taskId = pool.nextTaskId)
    (busy : ∀ worker ∈ pool.workers, worker.busy = true) :
    ({ pool.register pending with queue := pool.queue ++ [pending] } :
      WorkerPool Payload Result).Scheduled := by
  have registered := scheduled.consistent_register fresh
  refine ⟨⟨⟨registered.distinct, registered.idsBelow, registered.endedBelow,
    registered.busyIff, registered.postedIs, registered.running, registered.assigned⟩,
    scheduled.undisposed, scheduled.count, ?_, scheduled.pendingBelow_register fresh,
    scheduled.told_register fresh⟩, fun _ => busy⟩
  change pool.dispatchedIds ++ (pool.queue ++ [pending]).map PendingTask.taskId =
    List.range (pool.nextTaskId + 1)
  rw [List.map_append, ← List.append_assoc, List.range_succ, ← scheduled.order, ← fresh]
  rfl

/-- Only a timeout leaves the log entry of a timeout. -/
theorem logRejection (scheduled : pool.Scheduled) (taskId : Nat) {reason : TaskRejection}
    (notTimeout : reason ≠ .timedOut) (message : String) :
    ({ pool with settled := pool.settled ++ [(taskId, .rejected reason message)] } :
      WorkerPool Payload Result).Scheduled := by
  have consistent := scheduled.consistent
  refine ⟨⟨⟨consistent.distinct, consistent.idsBelow, consistent.endedBelow,
    consistent.busyIff, consistent.postedIs, consistent.running, consistent.assigned⟩,
    scheduled.undisposed, scheduled.count, scheduled.order, scheduled.pendingBelow, ?_⟩,
    scheduled.allBusy⟩
  intro other text logged
  rcases List.mem_append.mp logged with before | last
  · exact scheduled.told other text before
  · have same := congrArg Prod.snd (List.mem_singleton.mp last)
    cases same
    exact absurd rfl notTimeout

variable [StructuredClone Payload]

/-- A worker is idle, so nothing waits and the task is posted. -/
theorem dispatchRegistered (scheduled : pool.Scheduled) {pending : PendingTask Payload}
    (fresh : pending.taskId = pool.nextTaskId) {worker : ManagedWorker Payload}
    (member : worker ∈ pool.workers) (notBusy : worker.busy = false) :
    ((pool.register pending).dispatch worker.id pending).Scheduled := by
  have nothing : pool.queue = [] := by
    by_contra waiting
    rw [scheduled.allBusy waiting worker member] at notBusy
    cases notBusy
  have idle : worker.currentTaskId = none := by
    rw [← Option.not_isSome_iff_eq_none, ← scheduled.consistent.busyIff worker member,
      notBusy]
    exact Bool.false_ne_true
  have registered := scheduled.consistent_register fresh
  refine ⟨⟨registered.dispatch (registered.idle_of_id member idle)
    (List.mem_map.mpr ⟨worker, member, rfl⟩) pending, scheduled.undisposed, ?_, ?_,
    scheduled.pendingBelow_register fresh, scheduled.told_register fresh⟩, ?_⟩
  · exact (length_workers_dispatch _ _ _).trans scheduled.count
  · have order := scheduled.order
    rw [queueIds, nothing, List.map_nil, List.append_nil] at order
    rw [dispatchedIds_dispatch]
    change (pool.dispatchedIds ++ [pending.taskId]) ++ pool.queue.map PendingTask.taskId =
      List.range (pool.nextTaskId + 1)
    rw [nothing, List.map_nil, List.append_nil, List.range_succ, order, fresh]
  · intro waiting
    exact absurd nothing waiting

theorem submitTask (scheduled : pool.Scheduled) (type : String) (payload : Payload)
    (timeoutMs : Option Int) : (pool.submitTask type payload timeoutMs).Scheduled := by
  unfold WorkerPool.submitTask
  rw [if_neg (by simp [scheduled.undisposed])]
  split
  · next worker found =>
      have member := List.mem_of_find?_eq_some found
      have notBusy : worker.busy = false := by simpa using List.find?_some found
      have posted := @dispatchRegistered _ _ _ _ scheduled ⟨pool.nextTaskId, type, payload,
        0 < timeoutMs.getD pool.defaultTimeoutMs⟩ rfl worker member notBusy
      split
      · exact posted
      · exact posted.logRejection _ (by decide) _
  · next found =>
      apply scheduled.enqueue rfl
      intro worker member
      simpa using List.find?_eq_none.mp found worker member

end Scheduled

/-! ## Events -/

section Events

/-- The event can happen: the thread is alive and has the request, or the timer is
set. -/
def Enabled (pool : WorkerPool Payload Result) : PoolEvent Payload Result → Prop
  | .submit _ _ _ => True
  | .result workerId message => ∃ worker, pool.liveWorker? workerId = some worker ∧
      message.taskId ∈ worker.posted.map TaskRequest.taskId
  | .error workerId _ => ∃ worker, pool.liveWorker? workerId = some worker
  | .exit workerId _ => ∃ worker, pool.liveWorker? workerId = some worker
  | .timeout taskId => ∃ pending, pool.pendingByTaskId.get? taskId = some pending ∧
      pending.hasTimeout = true

variable [StructuredClone Payload]

/-- What an event makes of a pool. -/
inductive Reacts (pool : WorkerPool Payload Result) :
    PoolEvent Payload Result → WorkerPool Payload Result → Prop where
  | submit (type : String) (payload : Payload) (timeoutMs : Option Int) :
      Reacts pool (.submit type payload timeoutMs)
        (pool.submitTask type payload timeoutMs)
  | answer {worker : ManagedWorker Payload} {message : TaskResult Result}
      (member : worker ∈ pool.workers)
      (running : worker.currentTaskId = some message.taskId) :
      Reacts pool (.result worker.id message)
        ((pool.updateWorker worker.id (·.answer message.taskId)).handleWorkerMessage
          worker.id message)
  | error {worker : ManagedWorker Payload} (member : worker ∈ pool.workers)
      (message : String) :
      Reacts pool (.error worker.id message)
        ((pool.rejectCurrent worker (.workerError message)).replaceWorker worker.id)
  | crash {worker : ManagedWorker Payload} (member : worker ∈ pool.workers) {code : Int}
      (crashed : code ≠ 0) :
      Reacts pool (.exit worker.id code)
        (({ pool with ended := pool.ended ++ [worker.id] }.rejectCurrent worker
          (.workerExit code)).replaceWorker worker.id)
  | leave {worker : ManagedWorker Payload} (member : worker ∈ pool.workers)
      (live : pool.liveWorker? worker.id = some worker) :
      Reacts pool (.exit worker.id 0) { pool with ended := pool.ended ++ [worker.id] }
  | stuck {worker : ManagedWorker Payload} (member : worker ∈ pool.workers) {taskId : Nat}
      (running : worker.currentTaskId = some taskId) :
      Reacts pool (.timeout taskId)
        ((pool.rejectCurrent worker .timedOut).replaceWorker worker.id)
  | expire {taskId : Nat} (enabled : pool.Enabled (.timeout taskId))
      (nobody : ∀ worker ∈ pool.workers, worker.currentTaskId ≠ some taskId) :
      Reacts pool (.timeout taskId) (pool.settle taskId (rejection .timedOut))
  | ignore {event : PoolEvent Payload Result} (disabled : ¬pool.Enabled event) :
      Reacts pool event pool

namespace Scheduled

variable {pool : WorkerPool Payload Result}

theorem reacts_exit (scheduled : pool.Scheduled) (workerId : Nat) (code : Int) :
    pool.Reacts (.exit workerId code) (pool.handle (.exit workerId code)) := by
  simp only [handle]
  cases found : pool.liveWorker? workerId with
  | none => exact .ignore (by simp [Enabled, found])
  | some worker =>
      obtain ⟨member, rfl, _⟩ := liveWorker?_mem found
      by_cases zero : code = 0
      · subst zero
        simp only [handleWorkerExit_zero]
        exact .leave member found
      · have ended := scheduled.endThread (List.mem_map.mpr ⟨worker, member, rfl⟩)
        simp only [ended.handleWorkerExit_crash member zero]
        exact .crash member zero

theorem reacts_timeout (pool : WorkerPool Payload Result) (taskId : Nat) :
    pool.Reacts (.timeout taskId) (pool.handle (.timeout taskId)) := by
  simp only [handle]
  cases found : pool.pendingByTaskId.get? taskId with
  | none => exact .ignore (by simp [Enabled, found])
  | some pending =>
      cases timed : pending.hasTimeout with
      | false => simpa [timed] using Reacts.ignore (by simp [Enabled, found, timed])
      | true =>
          have isPending : pool.pendingByTaskId.contains taskId = true := by
            rw [InsertionMap.contains, found]
            rfl
          simp only [timed, if_true, handleTimeout, isPending]
          split
          · next stuckWorker stuck =>
              have running : stuckWorker.currentTaskId = some taskId := by
                simpa using List.find?_some stuck
              have reaction := Reacts.stuck (List.mem_of_find?_eq_some stuck) running
              rw [WorkerPool.rejectCurrent, running] at reaction
              exact reaction
          · next nobody =>
              apply Reacts.expire ⟨pending, found, timed⟩
              intro worker member
              simpa using List.find?_eq_none.mp nobody worker member

/-- Every event is one of the listed reactions. -/
theorem reacts (scheduled : pool.Scheduled) (event : PoolEvent Payload Result) :
    pool.Reacts event (pool.handle event) := by
  cases event with
  | submit type payload timeoutMs => exact .submit type payload timeoutMs
  | result workerId message =>
      simp only [handle]
      cases found : pool.liveWorker? workerId with
      | none => exact .ignore (by simp [Enabled, found])
      | some worker =>
          obtain ⟨member, rfl, _⟩ := liveWorker?_mem found
          simp only
          split
          · next answered =>
              exact .answer member (scheduled.consistent.running_of_posted member answered)
          · next unasked =>
              apply Reacts.ignore
              rintro ⟨other, live, asked⟩
              rw [found] at live
              cases live
              exact unasked asked
  | error workerId message =>
      simp only [handle]
      cases found : pool.liveWorker? workerId with
      | none => exact .ignore (by simp [Enabled, found])
      | some worker =>
          obtain ⟨member, rfl, _⟩ := liveWorker?_mem found
          exact .error member message
  | exit workerId code => exact scheduled.reacts_exit workerId code
  | timeout taskId => exact reacts_timeout pool taskId

/-- Every reaction leaves the pool scheduled. -/
theorem of_reacts (scheduled : pool.Scheduled) {event : PoolEvent Payload Result}
    {next : WorkerPool Payload Result} (reacts : pool.Reacts event next) :
    next.Scheduled := by
  cases reacts with
  | submit type payload timeoutMs => exact scheduled.submitTask type payload timeoutMs
  | answer member running => exact scheduled.handleAnswer member running
  | error member message => exact scheduled.replaceRejected member _
  | crash member crashed =>
      exact (scheduled.endThread (List.mem_map.mpr ⟨_, member, rfl⟩)).replaceRejected
        member _
  | leave member live => exact scheduled.endThread (List.mem_map.mpr ⟨_, member, rfl⟩)
  | stuck member running => exact scheduled.replaceRejected member _
  | expire enabled nobody => exact scheduled.settle _ _
  | ignore disabled => exact scheduled

theorem handle (scheduled : pool.Scheduled) (event : PoolEvent Payload Result) :
    (pool.handle event).Scheduled :=
  scheduled.of_reacts (scheduled.reacts event)

end Scheduled

end Events

end FlowCache.WorkerPool
