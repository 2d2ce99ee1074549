import FlowCache.Library.InsertionMap
import FlowCache.Library.Transition

/-!
# The worker pool

`packages/worker-pool`: a fixed number of worker threads, a queue of waiting tasks and a
map of the tasks whose caller still waits.  A handler runs to its end before the next
event is handled.

Besides the pool's own fields the state has the threads as far as they matter: what was
posted to each of them and not yet answered, and which of them have ended.  The posted
tasks and the settled promises are kept as logs.  Task and worker ids are handed out in
order, which is all that the pool relies on `generateId` for.
-/

namespace FlowCache

/-- Payloads that `postMessage` may be unable to clone. -/
class StructuredClone (Payload : Type) where
  cloneable : Payload → Bool

/-- Numbers can be cloned. -/
instance : StructuredClone Nat where
  cloneable _ := true

/-- `TaskRequest`. -/
structure TaskRequest (Payload : Type) where
  taskId : Nat
  type : String
  payload : Payload
  deriving DecidableEq, Repr

/-- `TaskResult` without its duration. -/
inductive TaskResult (Result : Type) where
  | success (taskId : Nat) (result : Result)
  | failure (taskId : Nat) (message : String)
  deriving DecidableEq, Repr

/-- `message.taskId`. -/
def TaskResult.taskId {Result : Type} : TaskResult Result → Nat
  | .success taskId _ => taskId
  | .failure taskId _ => taskId

/-- `PendingTask`; `hasTimeout` is whether a timer was set for it. -/
structure PendingTask (Payload : Type) where
  taskId : Nat
  type : String
  payload : Payload
  hasTimeout : Bool
  deriving DecidableEq, Repr

/-- `ManagedWorker` with the requests its thread has not answered. -/
structure ManagedWorker (Payload : Type) where
  id : Nat
  busy : Bool
  currentTaskId : Option Nat
  posted : List (TaskRequest Payload)
  deriving DecidableEq, Repr

/-- The worker is no longer occupied. -/
def ManagedWorker.release {Payload : Type} (worker : ManagedWorker Payload) :
    ManagedWorker Payload :=
  { worker with busy := false, currentTaskId := none }

/-- The thread has answered a request. -/
def ManagedWorker.answer {Payload : Type} (worker : ManagedWorker Payload)
    (taskId : Nat) : ManagedWorker Payload :=
  { worker with posted := worker.posted.filter fun request => request.taskId ≠ taskId }

/-- The worker is marked with a task, and the request is posted if it can be cloned. -/
def ManagedWorker.assign {Payload : Type} [StructuredClone Payload]
    (worker : ManagedWorker Payload) (pending : PendingTask Payload) :
    ManagedWorker Payload :=
  { worker with
    busy := true
    currentTaskId := some pending.taskId
    posted :=
      if StructuredClone.cloneable pending.payload then
        worker.posted ++ [⟨pending.taskId, pending.type, pending.payload⟩]
      else worker.posted }

section ManagedWorker

variable {Payload : Type} [StructuredClone Payload]
variable (worker : ManagedWorker Payload) (pending : PendingTask Payload)

@[simp] theorem ManagedWorker.assign_id : (worker.assign pending).id = worker.id := rfl

@[simp] theorem ManagedWorker.assign_busy : (worker.assign pending).busy = true := rfl

@[simp] theorem ManagedWorker.assign_currentTaskId :
    (worker.assign pending).currentTaskId = some pending.taskId := rfl

end ManagedWorker

/-- Why a task is rejected. -/
inductive TaskRejection where
  | taskFailed (message : String)
  | timedOut
  | workerError (message : String)
  | workerExit (code : Int)
  | notCloneable
  deriving DecidableEq, Repr

/-- The message of the error a caller receives. -/
def TaskRejection.message (type : String) (taskId : Nat) : TaskRejection → String
  | .taskFailed message => "Worker task \"" ++ type ++ "\" failed: " ++ message
  | .timedOut => "Task \"" ++ type ++ "\" (" ++ toString taskId ++ ") timed out"
  | .workerError message => message
  | .workerExit code => "Worker exited unexpectedly (code " ++ toString code ++
      ") while running task \"" ++ type ++ "\""
  | .notCloneable => "DataCloneError"

/-- How the promise of a task is settled; a rejection carries its message. -/
inductive TaskOutcome (Result : Type) where
  | resolved (result : Result)
  | rejected (reason : TaskRejection) (message : String)
  deriving DecidableEq, Repr

/-- `WorkerPoolOptions` as far as the pool's logic reads them. -/
structure WorkerPoolOptions where
  size : Int
  taskTimeoutMs : Option Int
  deriving DecidableEq, Repr

/-- State of a `WorkerPool`. -/
structure WorkerPool (Payload Result : Type) where
  size : Nat
  defaultTimeoutMs : Int
  workers : List (ManagedWorker Payload)
  queue : List (PendingTask Payload)
  pendingByTaskId : InsertionMap Nat (PendingTask Payload)
  nextWorkerId : Nat
  disposed : Bool
  nextTaskId : Nat
  dispatched : List (Nat × Nat)
  settled : List (Nat × TaskOutcome Result)
  ended : List Nat

/-- What can happen to a pool. -/
inductive PoolEvent (Payload Result : Type) where
  | submit (type : String) (payload : Payload) (timeoutMs : Option Int)
  | result (workerId : Nat) (message : TaskResult Result)
  | error (workerId : Nat) (message : String)
  | exit (workerId : Nat) (code : Int)
  | timeout (taskId : Nat)
  deriving DecidableEq, Repr

namespace WorkerPool

variable {Payload Result : Type}

/-- `this.workers.find((w) => w.id === id)`. -/
def worker? (pool : WorkerPool Payload Result) (id : Nat) :
    Option (ManagedWorker Payload) :=
  pool.workers.find? fun worker => worker.id = id

/-- Change one tracked worker in place. -/
def updateWorker (pool : WorkerPool Payload Result) (id : Nat)
    (change : ManagedWorker Payload → ManagedWorker Payload) :
    WorkerPool Payload Result :=
  { pool with
    workers := pool.workers.map fun worker =>
      if worker.id = id then change worker else worker }

/-- `spawnWorker()`. -/
def spawnWorker (pool : WorkerPool Payload Result) : WorkerPool Payload Result :=
  { pool with
    workers := pool.workers ++ [⟨pool.nextWorkerId, false, none, []⟩]
    nextWorkerId := pool.nextWorkerId + 1 }

/-- The loop of the constructor. -/
def spawnWorkers : Nat → WorkerPool Payload Result → WorkerPool Payload Result
  | 0, pool => pool
  | count + 1, pool => spawnWorkers count pool.spawnWorker

/-- The fields of a new pool before its workers are spawned. -/
def unstaffed (options : WorkerPoolOptions) : WorkerPool Payload Result where
  size := (max 1 options.size).toNat
  defaultTimeoutMs := options.taskTimeoutMs.getD 30000
  workers := []
  queue := []
  pendingByTaskId := .empty
  nextWorkerId := 0
  disposed := false
  nextTaskId := 0
  dispatched := []
  settled := []
  ended := []

/-- `new WorkerPool(options)`. -/
def create (options : WorkerPoolOptions) : WorkerPool Payload Result :=
  spawnWorkers (max 1 options.size).toNat (unstaffed options)

/-- Delete a pending task and settle its promise; a task that is not pending is left
alone. -/
def settle (pool : WorkerPool Payload Result) (taskId : Nat)
    (outcome : PendingTask Payload → TaskOutcome Result) : WorkerPool Payload Result :=
  match pool.pendingByTaskId.get? taskId with
  | none => pool
  | some pending =>
      { pool with
        pendingByTaskId := pool.pendingByTaskId.erase taskId
        settled := pool.settled ++ [(taskId, outcome pending)] }

/-- A rejection with the message its caller receives. -/
def rejection (reason : TaskRejection) (pending : PendingTask Payload) :
    TaskOutcome Result :=
  .rejected reason (reason.message pending.type pending.taskId)

/-- The outcome a worker reports. -/
def resultOutcome (message : TaskResult Result) (pending : PendingTask Payload) :
    TaskOutcome Result :=
  match message with
  | .success _ result => .resolved result
  | .failure _ error => rejection (.taskFailed error) pending

variable [StructuredClone Payload]

/-- `dispatch(managedWorker, pending)`: the worker is marked before the request is
posted, so it stays marked when posting throws. -/
def dispatch (pool : WorkerPool Payload Result) (workerId : Nat)
    (pending : PendingTask Payload) : WorkerPool Payload Result :=
  { pool.updateWorker workerId (·.assign pending) with
    dispatched := pool.dispatched ++ [(pending.taskId, workerId)] }

/-- `drainQueueTo(managedWorker)`. -/
def drainQueueTo (pool : WorkerPool Payload Result) (workerId : Nat) :
    WorkerPool Payload Result :=
  match pool.worker? workerId with
  | none => pool
  | some worker =>
      if worker.busy || pool.disposed then
        pool
      else
        match pool.queue with
        | [] => pool
        | next :: rest => dispatch { pool with queue := rest } workerId next

/-- `replaceWorker(managedWorker)`: the old thread is terminated. -/
def replaceWorker (pool : WorkerPool Payload Result) (workerId : Nat) :
    WorkerPool Payload Result :=
  let removed : WorkerPool Payload Result :=
    { pool with
      workers := pool.workers.filter fun worker => worker.id ≠ workerId
      ended := pool.ended ++ [workerId] }
  if pool.disposed then removed
  else removed.spawnWorker.drainQueueTo removed.nextWorkerId

/-- `submitTask(type, payload, timeoutMs)`; a promise whose executor throws is rejected
and the task stays pending. -/
def submitTask (pool : WorkerPool Payload Result) (type : String) (payload : Payload)
    (timeoutMs : Option Int) : WorkerPool Payload Result :=
  if pool.disposed then
    pool
  else
    let pending : PendingTask Payload :=
      { taskId := pool.nextTaskId
        type := type
        payload := payload
        hasTimeout := 0 < timeoutMs.getD pool.defaultTimeoutMs }
    let registered : WorkerPool Payload Result :=
      { pool with
        nextTaskId := pool.nextTaskId + 1
        pendingByTaskId := pool.pendingByTaskId.insert pending.taskId pending }
    match pool.workers.find? fun worker => !worker.busy with
    | some idleWorker =>
        let dispatched := registered.dispatch idleWorker.id pending
        if StructuredClone.cloneable payload then
          dispatched
        else
          { dispatched with
            settled := dispatched.settled ++
              [(pending.taskId, rejection .notCloneable pending)] }
    | none => { registered with queue := pool.queue ++ [pending] }

/-- `handleWorkerMessage(managedWorker, message)`. -/
def handleWorkerMessage (pool : WorkerPool Payload Result) (workerId : Nat)
    (message : TaskResult Result) : WorkerPool Payload Result :=
  let freed := pool.updateWorker workerId ManagedWorker.release
  (freed.settle message.taskId (resultOutcome message)).drainQueueTo workerId

/-- `handleTimeout(pending)`. -/
def handleTimeout (pool : WorkerPool Payload Result) (taskId : Nat) :
    WorkerPool Payload Result :=
  if pool.pendingByTaskId.contains taskId then
    let told := pool.settle taskId (rejection .timedOut)
    match pool.workers.find? fun worker => worker.currentTaskId = some taskId with
    | some stuckWorker => told.replaceWorker stuckWorker.id
    | none => told
  else
    pool

/-- Reject the task a worker was running, if it is still pending. -/
def rejectCurrent (pool : WorkerPool Payload Result) (worker : ManagedWorker Payload)
    (reason : TaskRejection) : WorkerPool Payload Result :=
  match worker.currentTaskId with
  | some taskId => pool.settle taskId (rejection reason)
  | none => pool

/-- `handleWorkerError(managedWorker, err)`. -/
def handleWorkerError (pool : WorkerPool Payload Result) (worker : ManagedWorker Payload)
    (message : String) : WorkerPool Payload Result :=
  (pool.rejectCurrent worker (.workerError message)).replaceWorker worker.id

/-- `handleWorkerExit(managedWorker, code)`: only the crash of a tracked worker is acted
upon. -/
def handleWorkerExit (pool : WorkerPool Payload Result) (worker : ManagedWorker Payload)
    (code : Int) : WorkerPool Payload Result :=
  if pool.disposed then
    pool
  else if (pool.worker? worker.id).isSome && code ≠ 0 then
    (pool.rejectCurrent worker (.workerExit code)).replaceWorker worker.id
  else
    pool

/-- A tracked worker whose thread has not ended; the listeners of any other worker are
never called. -/
def liveWorker? (pool : WorkerPool Payload Result) (id : Nat) :
    Option (ManagedWorker Payload) :=
  if id ∈ pool.ended then none else pool.worker? id

/-- One event.  A thread answers each request that was posted to it at most once, a timer
goes off at most once and only until it is cleared, and a thread that ended sends nothing
more; an event that cannot happen changes nothing. -/
def handle (pool : WorkerPool Payload Result) :
    PoolEvent Payload Result → WorkerPool Payload Result
  | .submit type payload timeoutMs => pool.submitTask type payload timeoutMs
  | .result workerId message =>
      match pool.liveWorker? workerId with
      | some worker =>
          if message.taskId ∈ worker.posted.map TaskRequest.taskId then
            (pool.updateWorker workerId (·.answer message.taskId)).handleWorkerMessage
              workerId message
          else pool
      | none => pool
  | .error workerId message =>
      match pool.liveWorker? workerId with
      | some worker => pool.handleWorkerError worker message
      | none => pool
  | .exit workerId code =>
      match pool.liveWorker? workerId with
      | some worker =>
          { pool with ended := pool.ended ++ [workerId] }.handleWorkerExit worker code
      | none => pool
  | .timeout taskId =>
      match pool.pendingByTaskId.get? taskId with
      | some pending => if pending.hasTimeout then pool.handleTimeout taskId else pool
      | none => pool

end WorkerPool

end FlowCache
