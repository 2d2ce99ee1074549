import FlowCache.WorkerPool.Scheduling

/-!
# Self-healing

Every way a worker can end but one takes it out of the pool: an error, a crash and a
timeout reject its task and replace it.  A worker that exits with code zero stays where
it is, and the pool goes on posting tasks to a thread that will never answer.
-/

namespace FlowCache.WorkerPool

open Transition

variable {Payload Result : Type}

/-- No tracked worker has exited, and no pending task was given to one that has. -/
structure Healthy (pool : WorkerPool Payload Result) : Prop where
  alive : ∀ worker ∈ pool.workers, worker.id ∉ pool.ended
  attended : ∀ taskId workerId, (taskId, workerId) ∈ pool.dispatched →
    taskId ∈ pool.pendingByTaskId.keys → workerId ∉ pool.ended

/-- A tracked worker exits with code zero. -/
def ExitsWithZero (pool : WorkerPool Payload Result) : PoolEvent Payload Result → Prop
  | .exit workerId code => code = 0 ∧ (pool.liveWorker? workerId).isSome
  | _ => False

instance (pool : WorkerPool Payload Result) :
    (event : PoolEvent Payload Result) → Decidable (pool.ExitsWithZero event)
  | .exit workerId code =>
      inferInstanceAs (Decidable (code = 0 ∧ (pool.liveWorker? workerId).isSome))
  | .submit _ _ _ => isFalse id
  | .result _ _ => isFalse id
  | .error _ _ => isFalse id
  | .timeout _ => isFalse id

/-- The tracked workers but one have not exited. -/
def AliveBut (pool : WorkerPool Payload Result) (workerId : Nat) : Prop :=
  ∀ id ∈ pool.workers.map ManagedWorker.id, id ≠ workerId → id ∉ pool.ended

/-- A pending task that was posted is the current one of its worker, so it is attended
to as long as the tracked workers are alive. -/
theorem Scheduled.healthy {pool : WorkerPool Payload Result} (scheduled : pool.Scheduled)
    (alive : ∀ id ∈ pool.workers.map ManagedWorker.id, id ∉ pool.ended) : pool.Healthy where
  alive worker member := alive worker.id (List.mem_map.mpr ⟨worker, member, rfl⟩)
  attended := by
    intro taskId workerId posted pending
    obtain ⟨worker, member, rfl, _⟩ :=
      scheduled.consistent.assigned taskId workerId posted pending
    exact alive worker.id (List.mem_map.mpr ⟨worker, member, rfl⟩)

theorem Healthy.alive_ids {pool : WorkerPool Payload Result} (healthy : pool.Healthy) :
    ∀ id ∈ pool.workers.map ManagedWorker.id, id ∉ pool.ended := by
  intro id member
  obtain ⟨worker, tracked, rfl⟩ := List.mem_map.mp member
  exact healthy.alive worker tracked

variable [StructuredClone Payload]

/-- Replacing a worker leaves the others and adds a fresh one. -/
theorem Scheduled.alive_replaceWorker {pool : WorkerPool Payload Result}
    (scheduled : pool.Scheduled) {workerId : Nat}
    (tracked : workerId ∈ pool.workers.map ManagedWorker.id)
    (others : pool.AliveBut workerId) :
    ∀ id ∈ (pool.replaceWorker workerId).workers.map ManagedWorker.id,
      id ∉ (pool.replaceWorker workerId).ended := by
  rw [replaceWorker_eq scheduled.undisposed, map_id_drainQueueTo, drainQueueTo_ended]
  intro id member
  rw [spawnWorker, List.map_append, List.mem_append] at member
  rw [spawnWorker, List.mem_append, List.mem_singleton, not_or]
  rcases member with kept | fresh
  · obtain ⟨worker, filtered, rfl⟩ := List.mem_map.mp kept
    obtain ⟨before, different⟩ := List.mem_filter.mp filtered
    have other : worker.id ≠ workerId := by simpa using different
    exact ⟨others worker.id (List.mem_map.mpr ⟨worker, before, rfl⟩) other, other⟩
  · have newest : id = pool.nextWorkerId := List.mem_singleton.mp fresh
    rw [newest]
    obtain ⟨worker, before, same⟩ := List.mem_map.mp tracked
    constructor
    · intro ended
      exact Nat.lt_irrefl _ (scheduled.consistent.endedBelow _ ended)
    · intro equal
      have below := scheduled.consistent.idsBelow worker before
      rw [same, ← equal] at below
      exact Nat.lt_irrefl _ below

theorem Scheduled.alive_replaceRejected {pool : WorkerPool Payload Result}
    (scheduled : pool.Scheduled) {worker : ManagedWorker Payload}
    (member : worker ∈ pool.workers) (reason : TaskRejection)
    (others : pool.AliveBut worker.id) :
    ∀ id ∈ ((pool.rejectCurrent worker reason).replaceWorker
        worker.id).workers.map ManagedWorker.id,
      id ∉ ((pool.rejectCurrent worker reason).replaceWorker worker.id).ended := by
  apply (scheduled.rejectCurrent worker reason).alive_replaceWorker
  · rw [rejectCurrent_workers]
    exact List.mem_map.mpr ⟨worker, member, rfl⟩
  · rw [AliveBut, rejectCurrent_workers, rejectCurrent_ended]
    exact others

/-- In a healthy pool, everything but an exit with code zero leaves the pool healthy. -/
theorem Healthy.reacts_iff {pool next : WorkerPool Payload Result}
    (healthy : pool.Healthy) (scheduled : pool.Scheduled)
    {event : PoolEvent Payload Result} (reacts : pool.Reacts event next) :
    ¬pool.ExitsWithZero event ↔ next.Healthy := by
  have alive := healthy.alive_ids
  have after := scheduled.of_reacts reacts
  cases reacts with
  | submit type payload timeoutMs =>
      apply iff_of_true id (after.healthy _)
      simp only [submitTask]
      split
      · exact alive
      · split
        · split
          · rw [map_id_dispatch]
            exact alive
          · rw [map_id_dispatch]
            exact alive
        · exact alive
  | @answer worker message member running =>
      apply iff_of_true id (after.healthy _)
      rw [handleWorkerMessage, map_id_drainQueueTo, drainQueueTo_ended, settle_workers,
        settle_ended, map_id_updateWorker _ _ ManagedWorker.release fun _ _ same => same,
        map_id_updateWorker _ _ (·.answer message.taskId) fun _ _ same => same]
      exact alive
  | error member message =>
      apply iff_of_true id (after.healthy _)
      exact scheduled.alive_replaceRejected member _ fun id tracked _ => alive id tracked
  | @crash worker member code crashed =>
      apply iff_of_true (fun exits => crashed exits.1) (after.healthy _)
      have ended := scheduled.endThread (List.mem_map.mpr ⟨worker, member, rfl⟩)
      apply ended.alive_replaceRejected member
      intro id tracked different
      rw [List.mem_append, List.mem_singleton, not_or]
      exact ⟨alive id tracked, different⟩
  | @leave worker member live =>
      apply iff_of_false (fun stays => stays ⟨rfl, by rw [live]; rfl⟩)
      intro claimed
      exact claimed.alive worker member (List.mem_append_right _ List.mem_cons_self)
  | stuck member running =>
      apply iff_of_true id (after.healthy _)
      exact scheduled.alive_replaceRejected member _ fun id tracked _ => alive id tracked
  | expire enabled nobody =>
      apply iff_of_true id (after.healthy _)
      rw [settle_workers, settle_ended]
      exact alive
  | ignore disabled =>
      apply iff_of_true _ healthy
      intro exits
      cases event with
      | exit workerId code => exact disabled (Option.isSome_iff_exists.mp exits.2)
      | submit type payload timeoutMs => exact exits
      | result workerId message => exact exits
      | error workerId message => exact exits
      | timeout taskId => exact exits

/-- In every run, the pool is healthy after each event exactly as long as no tracked
worker exits with code zero. -/
theorem self_healing_iff (options : WorkerPoolOptions)
    (events : List (PoolEvent Payload Result)) :
    EveryStep handle (fun pool event => (pool.handle event).Healthy) (create options)
        events ↔
      EveryStep handle (fun pool event => ¬pool.ExitsWithZero event) (create options)
        events := by
  symm
  refine @everyStep_iff_goal _ _ handle (fun pool event => ¬pool.ExitsWithZero event)
    (fun _ _ => True) Scheduled Healthy _ events ?_ ?_ (scheduled_create options) ?_
    (everyStep_of_forall (fun _ _ => trivial) _ events)
  · intro pool event scheduled _ _ _
    exact scheduled.handle event
  · intro pool event scheduled healthy _
    exact healthy.reacts_iff scheduled (scheduled.reacts event)
  · apply (scheduled_create options).healthy
    rw [create, spawnWorkers_eq]
    exact fun _ _ => List.not_mem_nil

/-- The only worker exits with code zero while it is idle: it stays tracked, and the next
task is posted to the thread that has ended. -/
theorem self_healing_fails_on_exit_zero :
    ¬EveryStep handle (fun pool event => (pool.handle event).Healthy)
        (create ⟨1, none⟩ : WorkerPool Nat Nat) [.exit 0 0, .submit "echo" 7 none] ∧
      (run handle (create ⟨1, none⟩ : WorkerPool Nat Nat)
          [.exit 0 0, .submit "echo" 7 none]).ended = [0] ∧
      (run handle (create ⟨1, none⟩ : WorkerPool Nat Nat)
          [.exit 0 0, .submit "echo" 7 none]).dispatched = [(0, 0)] ∧
      (run handle (create ⟨1, none⟩ : WorkerPool Nat Nat)
          [.exit 0 0, .submit "echo" 7 none]).pendingByTaskId.keys = [0] := by
  refine ⟨?_, by decide +kernel, by decide +kernel, by decide +kernel⟩
  intro every
  exact every.1.alive ⟨0, false, none, []⟩ (by decide +kernel) (by decide +kernel)

end FlowCache.WorkerPool
