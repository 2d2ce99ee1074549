import FlowCache.WorkerPool.Scheduling

/-!
# Task bookkeeping

A task is pending as long as it waits in the queue or runs on a worker.  Every handler
that settles a task also makes its worker forget it, but a timeout that goes off while
the task waits deletes it from the map of pending tasks alone: it stays in the queue and
is posted later although its caller was told that it timed out.
-/

namespace FlowCache.WorkerPool

open Transition

variable {Payload Result : Type}

/-- The current tasks of the busy workers. -/
def runningIds (pool : WorkerPool Payload Result) : List Nat :=
  (pool.workers.filter ManagedWorker.busy).filterMap ManagedWorker.currentTaskId

/-- The pending tasks are the waiting and the running ones, each of them once, and the
task of a busy worker is still pending, so its timer has not been cleared. -/
structure Bookkept (pool : WorkerPool Payload Result) : Prop where
  union : pool.pendingByTaskId.keys.Perm (pool.queueIds ++ pool.runningIds)
  once : (pool.queueIds ++ pool.runningIds).Nodup
  guarded : ∀ worker ∈ pool.workers, worker.busy = true →
    ∃ pending, worker.currentTaskId.bind pool.pendingByTaskId.get? = some pending

/-- A timer goes off while its task waits in the queue. -/
def TimesOutQueued (pool : WorkerPool Payload Result) : PoolEvent Payload Result → Prop
  | .timeout taskId =>
      (pool.pendingByTaskId.get? taskId).any PendingTask.hasTimeout = true ∧
        taskId ∈ pool.queueIds
  | _ => False

/-- The event posts no task whose caller was told that it timed out. -/
def PostsNoTimedOut [StructuredClone Payload] (pool : WorkerPool Payload Result)
    (event : PoolEvent Payload Result) : Prop :=
  ∀ taskId message workerId, (taskId, .rejected .timedOut message) ∈ pool.settled →
    (taskId, workerId) ∈ (pool.handle event).dispatched →
    (taskId, workerId) ∈ pool.dispatched

/-- The task waits or is the current one of a worker. -/
def Mentions (pool : WorkerPool Payload Result) (taskId : Nat) : Prop :=
  taskId ∈ pool.queueIds ∨ ∃ worker ∈ pool.workers, worker.currentTaskId = some taskId

/-- Every task that waits or runs is pending. -/
def Covered (pool : WorkerPool Payload Result) : Prop :=
  ∀ taskId, pool.Mentions taskId → taskId ∈ pool.pendingByTaskId.keys

namespace Scheduled

variable {pool : WorkerPool Payload Result}

theorem nodup_order (scheduled : pool.Scheduled) :
    (pool.dispatchedIds ++ pool.queueIds).Nodup := by
  rw [scheduled.order]
  exact List.nodup_range

/-- A running task does not wait. -/
theorem running_not_queued (scheduled : pool.Scheduled) {worker : ManagedWorker Payload}
    (member : worker ∈ pool.workers) {taskId : Nat}
    (running : worker.currentTaskId = some taskId) : taskId ∉ pool.queueIds := by
  intro waiting
  have posted := scheduled.consistent.running worker member taskId running
  exact (List.nodup_append.mp scheduled.nodup_order).2.2 taskId
    (List.mem_map.mpr ⟨_, posted, rfl⟩) taskId waiting rfl

/-- A task runs on one worker. -/
theorem unique_runner (scheduled : pool.Scheduled) {first second : ManagedWorker Payload}
    (firstMember : first ∈ pool.workers) (secondMember : second ∈ pool.workers)
    {taskId : Nat} (firstRuns : first.currentTaskId = some taskId)
    (secondRuns : second.currentTaskId = some taskId) : first.id = second.id := by
  have distinct := (List.nodup_append.mp scheduled.nodup_order).1
  have same := List.inj_on_of_nodup_map distinct
    (scheduled.consistent.running first firstMember taskId firstRuns)
    (scheduled.consistent.running second secondMember taskId secondRuns) rfl
  exact congrArg Prod.snd same

theorem mem_runningIds (scheduled : pool.Scheduled) {taskId : Nat} :
    taskId ∈ pool.runningIds ↔
      ∃ worker ∈ pool.workers, worker.currentTaskId = some taskId := by
  simp only [runningIds, List.mem_filterMap, List.mem_filter]
  constructor
  · rintro ⟨worker, ⟨member, _⟩, current⟩
    exact ⟨worker, member, current⟩
  · rintro ⟨worker, member, current⟩
    refine ⟨worker, ⟨member, ?_⟩, current⟩
    rw [scheduled.consistent.busyIff worker member, current]
    rfl

theorem nodup_runningIds (scheduled : pool.Scheduled) : pool.runningIds.Nodup := by
  rw [runningIds, List.Nodup, List.pairwise_filterMap]
  apply List.Pairwise.imp_of_mem _
    ((List.pairwise_map.mp scheduled.consistent.distinct).sublist List.filter_sublist)
  intro first second firstMember secondMember different taskId firstRuns other secondRuns
  rintro rfl
  exact different (scheduled.unique_runner (List.mem_filter.mp firstMember).1
    (List.mem_filter.mp secondMember).1 firstRuns secondRuns)

/-- What is pending waits or runs. -/
theorem mentions_of_pending (scheduled : pool.Scheduled) {taskId : Nat}
    (pending : taskId ∈ pool.pendingByTaskId.keys) : pool.Mentions taskId := by
  have below := scheduled.pendingBelow taskId pending
  rw [← List.mem_range, ← scheduled.order, List.mem_append] at below
  rcases below with posted | waiting
  · obtain ⟨⟨_, workerId⟩, logged, rfl⟩ := List.mem_map.mp posted
    obtain ⟨worker, member, _, current⟩ :=
      scheduled.consistent.assigned _ workerId logged pending
    exact .inr ⟨worker, member, current⟩
  · exact .inl waiting

theorem bookkept (scheduled : pool.Scheduled) (covered : pool.Covered) :
    pool.Bookkept := by
  have once : (pool.queueIds ++ pool.runningIds).Nodup := by
    rw [List.nodup_append]
    refine ⟨(List.nodup_append.mp scheduled.nodup_order).2.1,
      scheduled.nodup_runningIds, ?_⟩
    intro waiting queued running member same
    obtain ⟨worker, tracked, current⟩ := scheduled.mem_runningIds.mp member
    exact scheduled.running_not_queued tracked current (same ▸ queued)
  refine ⟨?_, once, ?_⟩
  · rw [List.perm_ext_iff_of_nodup pool.pendingByTaskId.keys_nodup once]
    intro taskId
    rw [List.mem_append, scheduled.mem_runningIds]
    exact ⟨scheduled.mentions_of_pending, covered taskId⟩
  · intro worker member busy
    rw [scheduled.consistent.busyIff worker member, Option.isSome_iff_exists] at busy
    obtain ⟨taskId, current⟩ := busy
    rw [current]
    exact InsertionMap.mem_keys_iff.mp (covered taskId (.inr ⟨worker, member, current⟩))

theorem covered (scheduled : pool.Scheduled) (bookkept : pool.Bookkept) :
    pool.Covered := by
  intro taskId mentioned
  rw [bookkept.union.mem_iff, List.mem_append, scheduled.mem_runningIds]
  exact mentioned

end Scheduled

theorem covered_create (options : WorkerPoolOptions) :
    (create options : WorkerPool Payload Result).Covered := by
  have running : ∀ (count : Nat) (pool : WorkerPool Payload Result),
      (∀ worker ∈ pool.workers, worker.currentTaskId = none) →
      ∀ worker ∈ (spawnWorkers count pool).workers, worker.currentTaskId = none := by
    intro count
    induction count with
    | zero => exact fun pool idle => idle
    | succ count ih =>
        intro pool idle
        apply ih pool.spawnWorker
        intro worker member
        rcases List.mem_append.mp member with before | fresh
        · exact idle worker before
        · rw [List.mem_singleton.mp fresh]
  have idle := running (max 1 options.size).toNat (unstaffed options) (by simp [unstaffed])
  rintro taskId (queued | ⟨worker, member, current⟩)
  · rw [queueIds, create, spawnWorkers_eq] at queued
    cases queued
  · rw [idle worker member] at current
    cases current

/-! ## What the handlers do to waiting and running tasks -/

/-- The task waits or is the current one of another worker. -/
def MentionsBeside (pool : WorkerPool Payload Result) (workerId taskId : Nat) : Prop :=
  taskId ∈ pool.queueIds ∨
    ∃ worker ∈ pool.workers, worker.id ≠ workerId ∧ worker.currentTaskId = some taskId

theorem Scheduled.mentions_beside {pool : WorkerPool Payload Result}
    (scheduled : pool.Scheduled) {worker : ManagedWorker Payload}
    (member : worker ∈ pool.workers) {taskId : Nat}
    (beside : pool.MentionsBeside worker.id taskId) :
    pool.Mentions taskId ∧ worker.currentTaskId ≠ some taskId := by
  rcases beside with waiting | ⟨other, otherMember, different, current⟩
  · refine ⟨.inl waiting, ?_⟩
    intro running
    exact scheduled.running_not_queued member running waiting
  · refine ⟨.inr ⟨other, otherMember, current⟩, ?_⟩
    intro running
    exact different (scheduled.unique_runner otherMember member current running)

theorem mem_pending_rejectCurrent {pool : WorkerPool Payload Result}
    {worker : ManagedWorker Payload} {reason : TaskRejection} {taskId : Nat}
    (pending : taskId ∈ pool.pendingByTaskId.keys)
    (other : worker.currentTaskId ≠ some taskId) :
    taskId ∈ (pool.rejectCurrent worker reason).pendingByTaskId.keys := by
  unfold rejectCurrent
  split
  · next current running =>
      rw [mem_pending_settle]
      refine ⟨?_, pending⟩
      rintro rfl
      exact other running
  · exact pending

variable [StructuredClone Payload]

section Drain

variable {pool : WorkerPool Payload Result}

/-- Draining moves a waiting task to a worker. -/
theorem mentions_of_drainQueueTo {id taskId : Nat}
    (mentioned : (pool.drainQueueTo id).Mentions taskId) : pool.Mentions taskId := by
  unfold drainQueueTo at mentioned
  split at mentioned
  · exact mentioned
  · split at mentioned
    · exact mentioned
    · split at mentioned
      · exact mentioned
      · next next rest waiting =>
          rcases mentioned with queued | ⟨worker, member, current⟩
          · left
            rw [queueIds, waiting]
            exact List.mem_cons_of_mem _ queued
          · obtain ⟨before, beforeMember, rfl⟩ := mem_updateWorker.mp member
            split at current
            · left
              cases current
              rw [queueIds, waiting]
              exact List.mem_cons_self
            · exact .inr ⟨before, beforeMember, current⟩

theorem dispatched_of_drainQueueTo {id taskId workerId : Nat}
    (posted : (taskId, workerId) ∈ (pool.drainQueueTo id).dispatched) :
    (taskId, workerId) ∈ pool.dispatched ∨ taskId ∈ pool.queueIds := by
  unfold drainQueueTo at posted
  split at posted
  · exact .inl posted
  · split at posted
    · exact .inl posted
    · split at posted
      · exact .inl posted
      · next next rest waiting =>
          rcases List.mem_append.mp posted with before | last
          · exact .inl before
          · right
            cases List.mem_singleton.mp last
            rw [queueIds, waiting]
            exact List.mem_cons_self

theorem covered_drainQueueTo (covered : pool.Covered) (id : Nat) :
    (pool.drainQueueTo id).Covered := by
  intro taskId mentioned
  rw [drainQueueTo_pending]
  exact covered taskId (mentions_of_drainQueueTo mentioned)

end Drain

namespace Scheduled

variable {pool : WorkerPool Payload Result}

theorem replaceWorker_pending (scheduled : pool.Scheduled) (workerId : Nat) :
    (pool.replaceWorker workerId).pendingByTaskId = pool.pendingByTaskId := by
  rw [replaceWorker_eq scheduled.undisposed, drainQueueTo_pending]
  rfl

/-- Replacing a worker forgets its task. -/
theorem mentions_of_replaceWorker (scheduled : pool.Scheduled) {workerId taskId : Nat}
    (mentioned : (pool.replaceWorker workerId).Mentions taskId) :
    pool.MentionsBeside workerId taskId := by
  rw [replaceWorker_eq scheduled.undisposed] at mentioned
  rcases mentions_of_drainQueueTo mentioned with waiting | ⟨worker, member, current⟩
  · exact .inl waiting
  · rcases List.mem_append.mp member with kept | fresh
    · obtain ⟨before, different⟩ := List.mem_filter.mp kept
      exact .inr ⟨worker, before, by simpa using different, current⟩
    · rw [List.mem_singleton.mp fresh] at current
      cases current

theorem dispatched_of_replaceWorker (scheduled : pool.Scheduled)
    {workerId taskId target : Nat}
    (posted : (taskId, target) ∈ (pool.replaceWorker workerId).dispatched) :
    (taskId, target) ∈ pool.dispatched ∨ taskId ∈ pool.queueIds := by
  rw [replaceWorker_eq scheduled.undisposed] at posted
  rcases dispatched_of_drainQueueTo posted with before | waiting
  · exact .inl before
  · exact .inr waiting

theorem covered_replaceRejected (scheduled : pool.Scheduled) (covered : pool.Covered)
    {worker : ManagedWorker Payload} (member : worker ∈ pool.workers)
    (reason : TaskRejection) :
    ((pool.rejectCurrent worker reason).replaceWorker worker.id).Covered := by
  have rejected := scheduled.rejectCurrent worker reason
  intro taskId mentioned
  rw [rejected.replaceWorker_pending]
  have beside := rejected.mentions_of_replaceWorker mentioned
  rw [MentionsBeside, queueIds, rejectCurrent_queue, rejectCurrent_workers] at beside
  obtain ⟨before, other⟩ := scheduled.mentions_beside member beside
  exact mem_pending_rejectCurrent (covered taskId before) other

theorem covered_submitTask (scheduled : pool.Scheduled) (covered : pool.Covered)
    (type : String) (payload : Payload) (timeoutMs : Option Int) :
    (pool.submitTask type payload timeoutMs).Covered := by
  have registered : ∀ taskId pending, pool.Mentions taskId →
      taskId ∈ (pool.register pending).pendingByTaskId.keys := by
    intro taskId pending mentioned
    exact InsertionMap.mem_keys_insert.mpr (.inr (covered taskId mentioned))
  have posted : ∀ (pending : PendingTask Payload) (id taskId : Nat),
      ((pool.register pending).dispatch id pending).Mentions taskId →
        taskId ∈ (pool.register pending).pendingByTaskId.keys := by
    rintro pending id taskId (queued | ⟨worker, member, current⟩)
    · exact registered taskId pending (.inl queued)
    · obtain ⟨before, beforeMember, rfl⟩ := mem_updateWorker.mp member
      split at current
      · cases current
        exact InsertionMap.mem_keys_insert.mpr (.inl rfl)
      · exact registered taskId pending (.inr ⟨before, beforeMember, current⟩)
  unfold WorkerPool.submitTask
  rw [if_neg (by simp [scheduled.undisposed])]
  split
  · split
    · exact fun taskId mentioned => posted _ _ taskId mentioned
    · exact fun taskId mentioned => posted _ _ taskId mentioned
  · rintro taskId (queued | running)
    · rw [queueIds, List.map_append, List.mem_append] at queued
      rcases queued with before | last
      · exact registered taskId _ (.inl before)
      · rw [List.mem_singleton.mp last]
        exact InsertionMap.mem_keys_insert.mpr (.inl rfl)
    · exact registered taskId _ (.inr running)

theorem covered_answer (scheduled : pool.Scheduled) (covered : pool.Covered)
    {worker : ManagedWorker Payload} (member : worker ∈ pool.workers)
    {message : TaskResult Result} (running : worker.currentTaskId = some message.taskId) :
    ((pool.updateWorker worker.id (·.answer message.taskId)).handleWorkerMessage worker.id
      message).Covered := by
  rw [WorkerPool.handleWorkerMessage, updateWorker_updateWorker pool worker.id
    (·.answer message.taskId) ManagedWorker.release fun _ => rfl, settle_updateWorker]
  apply covered_drainQueueTo
  intro taskId mentioned
  have beside : pool.MentionsBeside worker.id taskId := by
    rcases mentioned with queued | ⟨other, otherMember, current⟩
    · rw [queueIds, updateWorker, settle_queue] at queued
      exact .inl queued
    · obtain ⟨before, beforeMember, rfl⟩ := mem_updateWorker.mp otherMember
      rw [settle_workers] at beforeMember
      split at current
      · cases current
      · next different => exact .inr ⟨before, beforeMember, different, current⟩
  obtain ⟨before, other⟩ := scheduled.mentions_beside member beside
  apply (mem_pending_settle pool message.taskId _).mpr
  refine ⟨?_, covered taskId before⟩
  rintro rfl
  exact other running

/-- Everything but the timeout of a waiting task keeps the waiting and running tasks
pending. -/
theorem covered_reacts_iff (scheduled : pool.Scheduled) (covered : pool.Covered)
    {event : PoolEvent Payload Result} {next : WorkerPool Payload Result}
    (reacts : pool.Reacts event next) : ¬pool.TimesOutQueued event ↔ next.Covered := by
  cases reacts with
  | submit type payload timeoutMs =>
      exact iff_of_true id (scheduled.covered_submitTask covered type payload timeoutMs)
  | answer member running =>
      exact iff_of_true id (scheduled.covered_answer covered member running)
  | error member message =>
      exact iff_of_true id (scheduled.covered_replaceRejected covered member _)
  | crash member crashed =>
      have ended := scheduled.endThread (List.mem_map.mpr ⟨_, member, rfl⟩)
      exact iff_of_true id (ended.covered_replaceRejected covered member _)
  | leave member live => exact iff_of_true id covered
  | stuck member running =>
      apply iff_of_true _ (scheduled.covered_replaceRejected covered member _)
      intro queued
      exact scheduled.running_not_queued member running queued.2
  | @expire taskId enabled nobody =>
      obtain ⟨pending, found, timed⟩ := enabled
      have waiting : taskId ∈ pool.queueIds := by
        rcases scheduled.mentions_of_pending (InsertionMap.mem_keys_of_get? found)
          with queued | ⟨worker, member, current⟩
        · exact queued
        · exact absurd current (nobody worker member)
      apply iff_of_false (fun timely => timely ⟨by rw [found]; exact timed, waiting⟩)
      intro claimed
      have mentioned : (pool.settle taskId (rejection .timedOut)).Mentions taskId := by
        rw [Mentions, queueIds, settle_queue]
        exact .inl waiting
      exact ((mem_pending_settle pool taskId _).mp (claimed taskId mentioned)).1 rfl
  | ignore disabled =>
      apply iff_of_true _ covered
      intro queued
      cases event with
      | timeout taskId =>
          obtain ⟨pending, found, timed⟩ := (Option.any_eq_true _ _).mp queued.1
          exact disabled ⟨pending, found, timed⟩
      | submit type payload timeoutMs => exact queued
      | result workerId message => exact queued
      | error workerId message => exact queued
      | exit workerId code => exact queued

theorem dispatched_of_replaceRejected (scheduled : pool.Scheduled)
    {worker : ManagedWorker Payload} {reason : TaskRejection} {taskId target : Nat}
    (posted : (taskId, target) ∈
      ((pool.rejectCurrent worker reason).replaceWorker worker.id).dispatched) :
    (taskId, target) ∈ pool.dispatched ∨ taskId ∈ pool.queueIds := by
  have rejected := scheduled.rejectCurrent worker reason
  have reached := rejected.dispatched_of_replaceWorker posted
  rw [rejectCurrent_dispatched, queueIds, rejectCurrent_queue] at reached
  exact reached

/-- A task is posted when it is submitted or from the queue. -/
theorem dispatched_of_reacts (scheduled : pool.Scheduled)
    {event : PoolEvent Payload Result} {next : WorkerPool Payload Result}
    (reacts : pool.Reacts event next) {taskId workerId : Nat}
    (posted : (taskId, workerId) ∈ next.dispatched) :
    (taskId, workerId) ∈ pool.dispatched ∨ taskId ∈ pool.queueIds ∨
      taskId = pool.nextTaskId := by
  cases reacts with
  | submit type payload timeoutMs =>
      have fresh : ∀ (pending : PendingTask Payload) (id : Nat),
          pending.taskId = pool.nextTaskId →
          (taskId, workerId) ∈ ((pool.register pending).dispatch id pending).dispatched →
          (taskId, workerId) ∈ pool.dispatched ∨ taskId ∈ pool.queueIds ∨
            taskId = pool.nextTaskId := by
        intro pending id same logged
        rcases List.mem_append.mp logged with before | last
        · exact .inl before
        · cases List.mem_singleton.mp last
          exact .inr (.inr same)
      rw [WorkerPool.submitTask, if_neg (by simp [scheduled.undisposed])] at posted
      simp only at posted
      split at posted
      · split at posted
        · exact fresh _ _ rfl posted
        · exact fresh _ _ rfl posted
      · exact .inl posted
  | answer member running =>
      rcases dispatched_of_drainQueueTo posted with before | waiting
      · rw [settle_dispatched] at before
        exact .inl before
      · rw [queueIds, settle_queue] at waiting
        exact .inr (.inl waiting)
  | error member message =>
      exact (scheduled.dispatched_of_replaceRejected posted).imp_right .inl
  | crash member crashed =>
      have ended := scheduled.endThread (List.mem_map.mpr ⟨_, member, rfl⟩)
      exact (ended.dispatched_of_replaceRejected posted).imp_right .inl
  | leave member live => exact .inl posted
  | stuck member running =>
      exact (scheduled.dispatched_of_replaceRejected posted).imp_right .inl
  | expire enabled nobody =>
      rw [settle_dispatched] at posted
      exact .inl posted
  | ignore disabled => exact .inl posted

/-- When all waiting tasks are pending, none of them has timed out. -/
theorem postsNoTimedOut (scheduled : pool.Scheduled) (covered : pool.Covered)
    (event : PoolEvent Payload Result) : pool.PostsNoTimedOut event := by
  intro taskId message workerId told posted
  obtain ⟨gone, below⟩ := scheduled.told taskId message told
  rcases scheduled.dispatched_of_reacts (scheduled.reacts event) posted
    with before | waiting | fresh
  · exact before
  · exact absurd (covered taskId (.inl waiting)) gone
  · exact absurd below (fresh ▸ Nat.lt_irrefl _)

end Scheduled

/-- In every run, the pending tasks are after each event the waiting and the running ones
and no task is posted after its caller was told that it timed out, exactly as long as no
timer goes off while its task waits in the queue. -/
theorem bookkeeping_iff (options : WorkerPoolOptions)
    (events : List (PoolEvent Payload Result)) :
    EveryStep handle (fun pool event => (pool.handle event).Bookkept ∧
        pool.PostsNoTimedOut event) (create options) events ↔
      EveryStep handle (fun pool event => ¬pool.TimesOutQueued event) (create options)
        events := by
  refine @everyStep_iff _ _ handle _ _ (fun _ _ => True)
    (fun pool => pool.Scheduled ∧ pool.Covered) _ events ?_ ?_
    ⟨scheduled_create options, covered_create options⟩
    (everyStep_of_forall (fun _ _ => trivial) _ events)
  · intro pool event both _ timely
    exact ⟨both.1.handle event,
      (both.1.covered_reacts_iff both.2 (both.1.reacts event)).mp timely⟩
  · intro pool event both _
    have next := both.1.handle event
    rw [both.1.covered_reacts_iff both.2 (both.1.reacts event)]
    constructor
    · intro holds
      exact next.covered holds.1
    · intro covered
      exact ⟨next.bookkept covered, both.1.postsNoTimedOut both.2 event⟩

/-- One worker: the second task times out while it waits.  It is deleted from the pending
tasks, stays in the queue, and is posted when the first task is done. -/
theorem bookkeeping_fails_on_queued_timeout :
    ¬EveryStep handle (fun pool event => (pool.handle event).Bookkept ∧
        pool.PostsNoTimedOut event) (create ⟨1, none⟩ : WorkerPool Nat Nat)
        [.submit "slow" 1 none, .submit "echo" 2 (some 10), .timeout 1,
          .result 0 (.success 0 1)] ∧
      (run handle (create ⟨1, none⟩ : WorkerPool Nat Nat)
        [.submit "slow" 1 none, .submit "echo" 2 (some 10), .timeout 1]).queueIds = [1] ∧
      (run handle (create ⟨1, none⟩ : WorkerPool Nat Nat)
        [.submit "slow" 1 none, .submit "echo" 2 (some 10),
          .timeout 1]).pendingByTaskId.keys = [0] ∧
      (run handle (create ⟨1, none⟩ : WorkerPool Nat Nat)
        [.submit "slow" 1 none, .submit "echo" 2 (some 10), .timeout 1,
          .result 0 (.success 0 1)]).dispatched = [(0, 0), (1, 0)] := by
  refine ⟨?_, by decide +kernel, by decide +kernel, by decide +kernel⟩
  intro every
  have bookkept := every.2.2.1.1
  have queued := bookkept.union.length_eq
  revert queued
  decide +kernel

end FlowCache.WorkerPool
