import FlowCache.WorkerPool.Lifetime

/-!
# Every promise is settled once

Over a whole lifetime no accepted task is lost and none is settled twice: it is pending
until its promise is settled or `dispose` rejects it.  The exception are payloads that
cannot be posted, whose task stays pending although its promise is rejected.
-/

namespace FlowCache

open Transition

variable {Payload Result World : Type}

/-- The payload, if the event submits one, can be posted. -/
def LifetimeEvent.Cloneable [StructuredClone Payload] : LifetimeEvent Payload World → Prop
  | .submit _ payload _ => StructuredClone.cloneable payload = true
  | _ => True

/-- A task is submitted. -/
def LifetimeEvent.isSubmit : LifetimeEvent Payload World → Bool
  | .submit _ _ _ => true
  | _ => false

namespace PoolLifetime

/-- Every accepted task is settled, rejected by `dispose` or pending, and only one of
these, once. -/
structure Accounts (lifetime : PoolLifetime Payload Result) : Prop where
  count : lifetime.accepted.length = lifetime.pool.nextTaskId
  once : (lifetime.pool.settledIds ++
    (lifetime.disposedTasks ++ lifetime.pool.pendingByTaskId.keys)).Perm
      (List.range lifetime.pool.nextTaskId)
  queueBelow : ∀ task ∈ lifetime.pool.queue, task.taskId < lifetime.pool.nextTaskId
  gone : lifetime.pool.disposed = true → lifetime.pool.pendingByTaskId.keys = []

section Dispose

variable {settled rejected taskIds : List Nat} {taskId : Nat}

theorem mem_foldl_rejectOpen :
    taskId ∈ taskIds.foldl (rejectOpen settled) rejected ↔
      taskId ∈ rejected ∨ (taskId ∈ taskIds ∧ taskId ∉ settled) := by
  induction taskIds generalizing rejected with
  | nil => simp
  | cons first rest ih =>
      rw [List.foldl_cons, ih, rejectOpen]
      by_cases told : first ∈ settled ∨ first ∈ rejected
      · rw [if_pos told]
        have skipped : taskId = first → taskId ∉ settled → taskId ∈ rejected := by
          rintro rfl notSettled
          exact told.resolve_left notSettled
        rw [List.mem_cons]
        tauto
      · rw [if_neg told]
        have fresh : taskId = first → taskId ∉ settled := by
          rintro rfl settledFirst
          exact told (.inl settledFirst)
        rw [List.mem_append, List.mem_singleton, List.mem_cons]
        tauto

theorem nodup_foldl_rejectOpen (nodup : rejected.Nodup) :
    (taskIds.foldl (rejectOpen settled) rejected).Nodup := by
  induction taskIds generalizing rejected with
  | nil => exact nodup
  | cons first rest ih =>
      apply ih
      unfold rejectOpen
      split
      · exact nodup
      · next told =>
          rw [← List.concat_eq_append]
          exact nodup.concat fun again => told (.inr again)

theorem prefix_foldl_rejectOpen :
    rejected <+: taskIds.foldl (rejectOpen settled) rejected := by
  induction taskIds generalizing rejected with
  | nil => exact List.prefix_refl _
  | cons first rest ih =>
      refine List.IsPrefix.trans ?_ ih
      unfold rejectOpen
      split
      · exact List.prefix_refl _
      · exact List.prefix_append _ _

end Dispose

theorem accounts_start (options : WorkerPoolOptions) :
    (start options : PoolLifetime Payload Result).Accounts := by
  obtain ⟨next, _, settled, queue, pending⟩ := spawnWorkers_frame
    (max 1 options.size).toNat (WorkerPool.unstaffed options : WorkerPool Payload Result)
  constructor
  case count => exact next.symm
  case once =>
    simp only [start, WorkerPool.create, WorkerPool.settledIds]
    rw [settled, pending, next]
    exact .refl []
  case queueBelow =>
    simp only [start, WorkerPool.create]
    rw [queue]
    exact fun _ member => by cases member
  case gone =>
    simp only [start, WorkerPool.create]
    rw [pending]
    exact fun _ => rfl

section Steps

variable {lifetime : PoolLifetime Payload Result}

/-- An event of the pool that submits nothing. -/
theorem Accounts.of_settles (accounts : lifetime.Accounts) {pool : WorkerPool Payload Result}
    (settles : lifetime.pool.Settles pool) : ({ lifetime with pool := pool }).Accounts where
  count := accounts.count.trans settles.nextTaskId.symm
  once := by
    have moved : ∀ other : WorkerPool Payload Result,
        (other.settledIds ++ (lifetime.disposedTasks ++ other.pendingByTaskId.keys)).Perm
          (lifetime.disposedTasks ++ (other.settledIds ++ other.pendingByTaskId.keys)) := by
      intro other
      rw [← List.append_assoc, ← List.append_assoc]
      exact List.perm_append_comm.append_right _
    rw [settles.nextTaskId]
    exact ((moved pool).trans (settles.tasks.append_left _)).trans
      ((moved lifetime.pool).symm.trans accounts.once)
  queueBelow := by
    rw [settles.nextTaskId]
    exact fun task member => accounts.queueBelow task (settles.queue member)
  gone := by
    intro disposed
    have before := accounts.gone (settles.disposed ▸ disposed)
    have lengths := settles.tasks.length_eq
    have longer := (settles.log.map Prod.fst).length_le
    rw [before, List.append_nil, List.length_append] at lengths
    apply List.eq_nil_of_length_eq_zero
    simp only [WorkerPool.settledIds] at lengths
    change pool.pendingByTaskId.keys.length = 0
    omega

theorem Accounts.dispose (accounts : lifetime.Accounts) : lifetime.dispose.Accounts where
  count := accounts.count
  once := by
    have nodup := accounts.once.nodup_iff.mpr List.nodup_range
    obtain ⟨settledOnce, otherOnce, apart⟩ := List.nodup_append.mp nodup
    obtain ⟨rejectedOnce, -, -⟩ := List.nodup_append.mp otherOnce
    have present : ∀ taskId, taskId ∈ lifetime.pool.settledIds ∨
        taskId ∈ lifetime.disposedTasks ∨ taskId ∈ lifetime.pool.pendingByTaskId.keys ↔
          taskId < lifetime.pool.nextTaskId := by
      intro taskId
      rw [← List.mem_append, ← List.mem_append, accounts.once.mem_iff, List.mem_range]
    have queued : ∀ taskId ∈ lifetime.pool.queueIds, taskId < lifetime.pool.nextTaskId := by
      intro taskId member
      obtain ⟨task, waiting, rfl⟩ := List.mem_map.mp member
      exact accounts.queueBelow task waiting
    simp only [PoolLifetime.dispose, InsertionMap.keys_empty, List.append_nil]
    apply (List.perm_ext_iff_of_nodup ?_ List.nodup_range).mpr
    · intro taskId
      have inRange := present taskId
      have waiting := queued taskId
      rw [List.mem_append, mem_foldl_rejectOpen, List.mem_append, List.mem_range]
      tauto
    · rw [List.nodup_append]
      refine ⟨settledOnce, nodup_foldl_rejectOpen rejectedOnce, ?_⟩
      rintro taskId settled other rejected rfl
      rcases mem_foldl_rejectOpen.mp rejected with earlier | ⟨_, open_⟩
      · exact apart taskId settled taskId (List.mem_append_left _ earlier) rfl
      · exact open_ settled
  queueBelow := fun task member => by cases member
  gone := fun _ => rfl

variable [StructuredClone Payload]

/-- An accepted task is pending, and nothing else changes. -/
theorem Accounts.submit (accounts : lifetime.Accounts) (type : String) (payload : Payload)
    (clones : StructuredClone.cloneable payload = true) (timeoutMs : Option Int) :
    (lifetime.submit type payload timeoutMs).Accounts := by
  unfold PoolLifetime.submit
  split
  · exact ⟨accounts.count, accounts.once, accounts.queueBelow, accounts.gone⟩
  · next open_ =>
      have running : lifetime.pool.disposed = false := by simpa using open_
      obtain ⟨task, fresh, rfl, rfl, submitted⟩ :=
        WorkerPool.submitTask_cases running type payload timeoutMs
      have absent : task.taskId ∉ lifetime.pool.pendingByTaskId.keys := by
        intro member
        have below := accounts.once.mem_iff.mp
          (List.mem_append_right _ (List.mem_append_right _ member))
        rw [fresh, List.mem_range] at below
        exact lt_irrefl _ below
      have registered : ({ lifetime with
          pool := lifetime.pool.register task
          accepted := lifetime.accepted ++ [(task.type, task.payload)] } :
            PoolLifetime Payload Result).Accounts := by
        constructor
        case count => simp [WorkerPool.register, accounts.count]
        case once =>
          simp only [WorkerPool.register, WorkerPool.settledIds]
          rw [InsertionMap.keys_insert_of_not_mem absent, fresh, List.range_succ,
            ← List.append_assoc, ← List.append_assoc]
          rw [List.append_assoc (lifetime.pool.settled.map Prod.fst)]
          exact accounts.once.append_right _
        case queueBelow =>
          exact fun waiting member => Nat.lt_succ_of_lt (accounts.queueBelow waiting member)
        case gone =>
          intro disposed
          rw [WorkerPool.register, running] at disposed
          cases disposed
      rcases submitted with ⟨-, workerId, same⟩ | ⟨refuses, -⟩ | same
      · rw [same]
        exact ⟨registered.count, registered.once, registered.queueBelow, registered.gone⟩
      · rw [clones] at refuses
        cases refuses
      · rw [same]
        refine ⟨registered.count, registered.once, ?_, registered.gone⟩
        intro waiting member
        rcases List.mem_append.mp member with queued | last
        · exact registered.queueBelow waiting queued
        · rw [List.mem_singleton.mp last, fresh]
          exact Nat.lt_succ_self _

theorem Accounts.step (accounts : lifetime.Accounts) (thread : WorkerThread Payload Result World)
    {event : LifetimeEvent Payload World} (clones : event.Cloneable) :
    (lifetime.step thread event).Accounts := by
  cases event with
  | submit type payload timeoutMs => exact accounts.submit type payload clones timeoutMs
  | answers workerId taskId world =>
      simp only [PoolLifetime.step, PoolLifetime.answers]
      split
      · split
        · exact accounts.of_settles (.handle _ _ (by simp))
        · exact accounts
      · exact accounts
  | error workerId message => exact accounts.of_settles (.handle _ _ (by simp))
  | exit workerId code => exact accounts.of_settles (.handle _ _ (by simp))
  | timeout taskId => exact accounts.of_settles (.handle _ _ (by simp))
  | dispose => exact accounts.dispose
  | terminated =>
      simp only [PoolLifetime.step, PoolLifetime.terminated]
      split
      · exact ⟨accounts.count, accounts.once, accounts.queueBelow, accounts.gone⟩
      · exact accounts

end Steps

/-! ## Counting submissions, and what stays -/

section Progress

variable [StructuredClone Payload]
variable (thread : WorkerThread Payload Result World) (lifetime : PoolLifetime Payload Result)

/-- A later lifetime of the same pool: settlements stay, and so does the disposal. -/
structure Continues (before after : PoolLifetime Payload Result) : Prop where
  settled : before.pool.settled <+: after.pool.settled
  rejected : before.disposedTasks <+: after.disposedTasks
  disposed : before.pool.disposed = true → after.pool.disposed = true

theorem settled_submit (type : String) (payload : Payload) (timeoutMs : Option Int) :
    lifetime.pool.settled <+: (lifetime.pool.submitTask type payload timeoutMs).settled ∧
      (lifetime.pool.submitTask type payload timeoutMs).disposed = lifetime.pool.disposed := by
  cases running : lifetime.pool.disposed with
  | true => simp [WorkerPool.submitTask, running]
  | false =>
      obtain ⟨task, -, -, -, ⟨-, _, same⟩ | ⟨-, _, same⟩ | same⟩ :=
        WorkerPool.submitTask_cases running type payload timeoutMs
      · rw [same]
        exact ⟨List.prefix_refl _, running⟩
      · rw [same]
        exact ⟨List.prefix_append _ _, running⟩
      · rw [same]
        exact ⟨List.prefix_refl _, running⟩

theorem continues_step (event : LifetimeEvent Payload World) :
    lifetime.Continues (lifetime.step thread event) := by
  have settled : ∀ {pool : WorkerPool Payload Result}, lifetime.pool.Settles pool →
      lifetime.Continues { lifetime with pool := pool } := fun settles =>
    ⟨settles.log, List.prefix_refl _, fun disposed => settles.disposed.trans disposed⟩
  have same : lifetime.Continues lifetime := settled (.refl _)
  cases event with
  | submit type payload timeoutMs =>
      simp only [PoolLifetime.step, PoolLifetime.submit]
      split
      · exact ⟨List.prefix_refl _, List.prefix_refl _, id⟩
      · obtain ⟨log, disposed⟩ := settled_submit lifetime type payload timeoutMs
        exact ⟨log, List.prefix_refl _, fun before => disposed.trans before⟩
  | answers workerId taskId world =>
      simp only [PoolLifetime.step, PoolLifetime.answers]
      split
      · split
        · exact settled (.handle _ _ (by simp))
        · exact same
      · exact same
  | error workerId message => exact settled (.handle _ _ (by simp))
  | exit workerId code => exact settled (.handle _ _ (by simp))
  | timeout taskId => exact settled (.handle _ _ (by simp))
  | dispose => exact ⟨List.prefix_refl _, prefix_foldl_rejectOpen, fun _ => rfl⟩
  | terminated =>
      simp only [PoolLifetime.step, PoolLifetime.terminated]
      split
      · exact ⟨List.prefix_refl _, List.prefix_refl _, id⟩
      · exact same

theorem continues_run (events : List (LifetimeEvent Payload World)) :
    lifetime.Continues (run (step thread) lifetime events) := by
  have preserved : ∀ between event, lifetime.Continues between →
      lifetime.Continues (between.step thread event) := by
    intro between event before
    have next := continues_step thread between event
    exact ⟨before.settled.trans next.settled, before.rejected.trans next.rejected,
      next.disposed ∘ before.disposed⟩
  exact run_invariant preserved ⟨List.prefix_refl _, List.prefix_refl _, id⟩ events

/-- A submission is accepted or refused, and nothing else is. -/
theorem submissions_step (event : LifetimeEvent Payload World) :
    (lifetime.step thread event).accepted.length + (lifetime.step thread event).refused =
      lifetime.accepted.length + lifetime.refused + [event].countP LifetimeEvent.isSubmit := by
  cases event with
  | submit type payload timeoutMs =>
      simp only [PoolLifetime.step, PoolLifetime.submit]
      split
      · simp [LifetimeEvent.isSubmit, Nat.add_assoc]
      · simp [LifetimeEvent.isSubmit, Nat.add_right_comm]
  | answers workerId taskId world =>
      simp only [PoolLifetime.step, PoolLifetime.answers]
      split
      · split <;> rfl
      · rfl
  | error workerId message => rfl
  | exit workerId code => rfl
  | timeout taskId => rfl
  | dispose => rfl
  | terminated =>
      simp only [PoolLifetime.step, PoolLifetime.terminated]
      split <;> rfl

theorem submissions_run (events : List (LifetimeEvent Payload World)) :
    (run (step thread) lifetime events).accepted.length +
        (run (step thread) lifetime events).refused =
      lifetime.accepted.length + lifetime.refused + events.countP LifetimeEvent.isSubmit := by
  induction events generalizing lifetime with
  | nil => simp
  | cons event rest ih =>
      rw [run_cons, ih, submissions_step, Nat.add_assoc, ← List.countP_append]
      rfl

end Progress

/-! ## The whole life of a pool -/

section Whole

variable [StructuredClone Payload]

/-- What becomes of the tasks submitted in a run: each is accepted or refused, each
accepted one is settled, rejected by `dispose` or pending, and only one of these, once;
none is pending after `dispose`, and what a promise was settled with stays. -/
structure SettlesOnce (thread : WorkerThread Payload Result World) (options : WorkerPoolOptions)
    (events : List (LifetimeEvent Payload World)) : Prop where
  submitted : (run (step thread) (start options) events).accepted.length +
    (run (step thread) (start options) events).refused = events.countP LifetimeEvent.isSubmit
  once : ((run (step thread) (start options) events).pool.settledIds ++
    ((run (step thread) (start options) events).disposedTasks ++
      (run (step thread) (start options) events).pool.pendingByTaskId.keys)).Perm
        (List.range (run (step thread) (start options) events).accepted.length)
  noneLeft : .dispose ∈ events →
    (run (step thread) (start options) events).pool.pendingByTaskId.keys = []
  final : ∀ earlier later, events = earlier ++ later →
    (run (step thread) (start options) earlier).Continues
      (run (step thread) (start options) events)

/-- If every payload can be posted, every accepted promise is settled once, at the latest
by `dispose`. -/
theorem promises_settle_once (thread : WorkerThread Payload Result World)
    (options : WorkerPoolOptions) {events : List (LifetimeEvent Payload World)}
    (clones : ∀ event ∈ events, event.Cloneable) : SettlesOnce thread options events := by
  have accounts : (run (step thread) (start options) events).Accounts :=
    EveryStep.invariant (fun _ _ accounts clones => accounts.step thread clones)
      (accounts_start options)
      (everyStep_of_forall_mem (fun _ event member => clones event member) _)
  constructor
  case submitted =>
    rw [submissions_run]
    exact Nat.zero_add _
  case once =>
    rw [accounts.count]
    exact accounts.once
  case noneLeft =>
    intro member
    obtain ⟨earlier, later, rfl⟩ := List.append_of_mem member
    apply accounts.gone
    rw [run_append, run_cons]
    exact (continues_run thread _ later).disposed rfl
  case final =>
    rintro earlier later rfl
    rw [run_append]
    exact continues_run thread _ later

/-- Two tasks on one worker: the first is answered, the second rejected by `dispose`. -/
def doubling : WorkerThread Nat Nat Unit where
  registrations := [("double", fun _ payload => .ok (2 * payload))]
  handlers := InsertionMap.empty.insert "double" fun _ payload => .ok (2 * payload)
  started := rfl
  cloneError := fun _ => none

theorem promises_settle_once_doubling :
    SettlesOnce doubling ⟨1, none⟩ [.submit "double" 4 none, .submit "double" 5 none,
      .answers 0 0 (), .dispose, .submit "double" 6 none, .terminated] ∧
    (run (step doubling) (start ⟨1, none⟩) [.submit "double" 4 none, .submit "double" 5 none,
      .answers 0 0 (), .dispose, .submit "double" 6 none, .terminated]).pool.settled =
        [(0, .resolved 8)] :=
  ⟨promises_settle_once doubling ⟨1, none⟩ (by simp [LifetimeEvent.Cloneable,
    StructuredClone.cloneable]), by decide +kernel⟩

end Whole

end PoolLifetime

end FlowCache
