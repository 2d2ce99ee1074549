import FlowCache.WorkerPool.Invariant

/-!
# Scheduling

Tasks are posted from two places: when they are submitted and a worker is idle, and from
the queue when a worker has finished or was replaced.  They are posted in the order of
their submission because an idle worker is never left beside a waiting task: every
handler that makes a worker idle ends by offering it the first task of the queue.
-/

namespace FlowCache.WorkerPool

open Transition

variable {Payload Result : Type}

theorem spawnWorkers_length (count : Nat) (pool : WorkerPool Payload Result) :
    (spawnWorkers count pool).workers.length = pool.workers.length + count := by
  induction count generalizing pool with
  | zero => rfl
  | succ count ih =>
      rw [spawnWorkers, ih, spawnWorker, List.length_append, List.length_singleton]
      omega

/-- Spawning touches nothing but the workers. -/
theorem spawnWorkers_eq (count : Nat) (pool : WorkerPool Payload Result) :
    spawnWorkers count pool =
      { pool with
        workers := (spawnWorkers count pool).workers
        nextWorkerId := (spawnWorkers count pool).nextWorkerId } := by
  induction count generalizing pool with
  | zero => rfl
  | succ count ih =>
      rw [spawnWorkers]
      exact ih pool.spawnWorker

theorem Consistent.spawnWorkers {pool : WorkerPool Payload Result}
    (consistent : pool.Consistent) (count : Nat) :
    (WorkerPool.spawnWorkers count pool).Consistent := by
  induction count generalizing pool with
  | zero => exact consistent
  | succ count ih => exact ih consistent.spawnWorker

theorem consistent_unstaffed (options : WorkerPoolOptions) :
    (unstaffed options : WorkerPool Payload Result).Consistent := by
  constructor <;> simp [unstaffed]

theorem scheduled_create (options : WorkerPoolOptions) :
    (create options : WorkerPool Payload Result).Scheduled := by
  have spawned := (@consistent_unstaffed Payload Result options).spawnWorkers
    (max 1 options.size).toNat
  have length := spawnWorkers_length (max 1 options.size).toNat
    (unstaffed options : WorkerPool Payload Result)
  rw [create]
  rw [spawnWorkers_eq] at spawned length ⊢
  refine ⟨⟨spawned, rfl, ?_, rfl, ?_, ?_⟩, fun impossible => absurd rfl impossible⟩
  · exact length.trans (Nat.zero_add _)
  · intro taskId impossible
    cases impossible
  · intro taskId message impossible
    cases impossible

variable [StructuredClone Payload]

theorem scheduled_run (options : WorkerPoolOptions)
    (events : List (PoolEvent Payload Result)) :
    (run handle (create options) events).Scheduled :=
  run_invariant (fun _ event scheduled => scheduled.handle event)
    (scheduled_create options) events

theorem Reacts.size_eq {pool next : WorkerPool Payload Result}
    {event : PoolEvent Payload Result} (reacts : pool.Reacts event next) :
    next.size = pool.size := by
  cases reacts with
  | submit type payload timeoutMs =>
      simp only [submitTask]
      split
      · rfl
      · split
        · split <;> rfl
        · rfl
  | answer member running =>
      rw [handleWorkerMessage, drainQueueTo_size, settle_size]
      rfl
  | error member message => rw [replaceWorker_size, rejectCurrent_size]
  | crash member crashed => rw [replaceWorker_size, rejectCurrent_size]
  | leave member live => rfl
  | stuck member running => rw [replaceWorker_size, rejectCurrent_size]
  | expire enabled nobody => rw [settle_size]
  | ignore disabled => rfl

theorem size_run (options : WorkerPoolOptions)
    (events : List (PoolEvent Payload Result)) :
    (run handle (create options) events).size = (max 1 options.size).toNat := by
  have both : (run handle (create options) events).Scheduled ∧
      (run handle (create options) events).size = (max 1 options.size).toNat := by
    apply @run_invariant _ _ handle (fun pool : WorkerPool Payload Result =>
      pool.Scheduled ∧ pool.size = (max 1 options.size).toNat)
    · intro pool event before
      refine ⟨before.1.handle event, ?_⟩
      rw [(before.1.reacts event).size_eq, before.2]
    · refine ⟨scheduled_create options, ?_⟩
      rw [create, spawnWorkers_eq]
      rfl
  exact both.2

/-- However the events interleave, the pool tracks as many workers as it was made for,
tasks wait only while all of them are busy, no task is posted twice, and the posted tasks
are the first ones that were submitted, in that order. -/
theorem scheduling (options : WorkerPoolOptions)
    (events : List (PoolEvent Payload Result)) :
    ((run handle (create options) events).workers.length : Int) = max 1 options.size ∧
      ((run handle (create options) events).queue ≠ [] →
        ∀ worker ∈ (run handle (create options) events).workers, worker.busy = true) ∧
      (run handle (create options) events).dispatchedIds.Nodup ∧
      (run handle (create options) events).dispatchedIds.Pairwise (· < ·) ∧
      (run handle (create options) events).dispatchedIds <+:
        List.range (run handle (create options) events).nextTaskId := by
  have scheduled := scheduled_run options events
  have front : (run handle (create options) events).dispatchedIds <+:
      List.range (run handle (create options) events).nextTaskId :=
    ⟨_, scheduled.order⟩
  refine ⟨?_, scheduled.allBusy, ?_, ?_, front⟩
  · rw [scheduled.count, size_run]
    exact Int.toNat_of_nonneg (Int.le_trans Int.one_nonneg (Int.le_max_left 1 _))
  · exact front.sublist.nodup List.nodup_range
  · exact List.pairwise_lt_range.sublist front.sublist

end FlowCache.WorkerPool
