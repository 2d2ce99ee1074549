import FlowCache.WorkerPool.Spec

/-!
# Inside a worker thread

`workers/workerEntry.ts` with its registry: a thread looks the handler of a request up by
the request's type, runs it on the payload and posts back how the run ended.  Whatever a
handler reads besides its payload (a clock, the network) is a parameter of the run.
-/

namespace FlowCache

variable {Payload Result World : Type}

/-- `TaskHandler`: the value a run returns, or the message of what it throws. -/
abbrev TaskHandler (Payload Result World : Type) := World → Payload → Except String Result

/-- The `handlers` of `registry.ts`. -/
abbrev HandlerRegistry (Payload Result World : Type) :=
  InsertionMap String (TaskHandler Payload Result World)

namespace HandlerRegistry

/-- `registerHandler(type, handler)`. -/
def registerHandler (handlers : HandlerRegistry Payload Result World) (type : String)
    (handler : TaskHandler Payload Result World) :
    Except String (HandlerRegistry Payload Result World) :=
  if handlers.contains type then
    .error ("A task handler is already registered for type \"" ++ type ++ "\"")
  else
    .ok (handlers.insert type handler)

/-- `getHandler(type)`. -/
def getHandler (handlers : HandlerRegistry Payload Result World) (type : String) :
    Option (TaskHandler Payload Result World) :=
  handlers.get? type

/-- `registeredTaskTypes()`. -/
def registeredTaskTypes (handlers : HandlerRegistry Payload Result World) : List String :=
  handlers.keys

/-- Registrations in order, as `handlers/index.ts` makes them by its imports. -/
def registerAll (handlers : HandlerRegistry Payload Result World) :
    List (String × TaskHandler Payload Result World) →
      Except String (HandlerRegistry Payload Result World)
  | [] => .ok handlers
  | (type, handler) :: rest =>
      match handlers.registerHandler type handler with
      | .ok registered => registerAll registered rest
      | .error message => .error message

theorem registerHandler_eq_ok_iff {handlers next : HandlerRegistry Payload Result World}
    {type : String} {handler : TaskHandler Payload Result World} :
    handlers.registerHandler type handler = .ok next ↔
      type ∉ handlers.registeredTaskTypes ∧ handlers.insert type handler = next := by
  unfold registerHandler InsertionMap.contains registeredTaskTypes
  cases found : handlers.get? type with
  | none => simp [InsertionMap.get?_eq_none_iff.mp found]
  | some registered => simp [InsertionMap.mem_keys_of_get? found]

/-- Registrations that go through are all kept, in order. -/
theorem entries_registerAll {registrations : List (String × TaskHandler Payload Result World)}
    {handlers next : HandlerRegistry Payload Result World}
    (registered : handlers.registerAll registrations = .ok next) :
    next.entries = handlers.entries ++ registrations := by
  induction registrations generalizing handlers with
  | nil =>
      cases registered
      rw [List.append_nil]
  | cons registration rest ih =>
      obtain ⟨type, handler⟩ := registration
      unfold registerAll at registered
      split at registered
      · next one accepted =>
          obtain ⟨fresh, rfl⟩ := registerHandler_eq_ok_iff.mp accepted
          have absent := InsertionMap.get?_eq_none_iff.mpr fresh
          rw [ih registered, InsertionMap.entries_insert_of_get?_none absent, List.append_assoc]
          rfl
      · cases registered

end HandlerRegistry

/-- A worker thread that has started: its registrations went through.  `cloneError` is the
message of the error `postMessage` throws for a result it cannot clone. -/
structure WorkerThread (Payload Result World : Type) where
  registrations : List (String × TaskHandler Payload Result World)
  handlers : HandlerRegistry Payload Result World
  started : HandlerRegistry.registerAll .empty registrations = .ok handlers
  cloneError : Result → Option String

namespace WorkerThread

theorem getHandler_eq_some_iff (thread : WorkerThread Payload Result World) {type : String}
    {handler : TaskHandler Payload Result World} :
    thread.handlers.getHandler type = some handler ↔
      (type, handler) ∈ thread.registrations := by
  rw [HandlerRegistry.getHandler, InsertionMap.get?_eq_some_iff,
    HandlerRegistry.entries_registerAll thread.started]
  rfl

theorem getHandler_eq_none_iff (thread : WorkerThread Payload Result World) {type : String} :
    thread.handlers.getHandler type = none ↔
      type ∉ thread.registrations.map Prod.fst := by
  rw [HandlerRegistry.getHandler, InsertionMap.get?_eq_none_iff, InsertionMap.keys,
    HandlerRegistry.entries_registerAll thread.started]
  rfl

/-- The message of a request without handler. -/
def noHandlerMessage (type : String) : String :=
  "No task handler registered for type \"" ++ type ++ "\""

/-- The listener of `workerEntry.ts`.  The result is posted inside the `try`, so one that
cannot be cloned is reported as a failure. -/
def onMessage (thread : WorkerThread Payload Result World) (world : World)
    (request : TaskRequest Payload) : TaskResult Result :=
  match thread.handlers.getHandler request.type with
  | none => .failure request.taskId (noHandlerMessage request.type)
  | some handler =>
      match handler world request.payload with
      | .error message => .failure request.taskId message
      | .ok value =>
          match thread.cloneError value with
          | some message => .failure request.taskId message
          | none => .success request.taskId value

/-- The handler registered for the type returns the result for the payload. -/
def CanReturn (thread : WorkerThread Payload Result World) (type : String)
    (payload : Payload) (result : Result) : Prop :=
  ∃ handler, (type, handler) ∈ thread.registrations ∧
    (∃ world, handler world payload = .ok result) ∧ thread.cloneError result = none

/-- The type has no handler, its handler throws the message for the payload, or what the
handler returns cannot be cloned. -/
def CanFail (thread : WorkerThread Payload Result World) (type : String)
    (payload : Payload) (message : String) : Prop :=
  (type ∉ thread.registrations.map Prod.fst ∧ message = noHandlerMessage type) ∨
    ∃ handler, (type, handler) ∈ thread.registrations ∧ ∃ world,
      handler world payload = .error message ∨
        ∃ value, handler world payload = .ok value ∧ thread.cloneError value = some message

theorem onMessage_cases (thread : WorkerThread Payload Result World) (world : World)
    (request : TaskRequest Payload) :
    (∃ result, thread.CanReturn request.type request.payload result ∧
        thread.onMessage world request = .success request.taskId result) ∨
      ∃ message, thread.CanFail request.type request.payload message ∧
        thread.onMessage world request = .failure request.taskId message := by
  unfold onMessage
  cases registered : thread.handlers.getHandler request.type with
  | none => exact .inr ⟨_, .inl ⟨thread.getHandler_eq_none_iff.mp registered, rfl⟩, rfl⟩
  | some handler =>
      have member := thread.getHandler_eq_some_iff.mp registered
      cases ended : handler world request.payload with
      | error message =>
          exact .inr ⟨message, .inr ⟨handler, member, world, .inl ended⟩, by simp [ended]⟩
      | ok value =>
          cases clone : thread.cloneError value with
          | some message =>
              exact .inr ⟨message, .inr ⟨handler, member, world, .inr ⟨value, ended, clone⟩⟩,
                by simp [ended, clone]⟩
          | none =>
              exact .inl ⟨value, ⟨handler, member, ⟨world, ended⟩, clone⟩,
                by simp [ended, clone]⟩

/-- A request is answered under its own id. -/
@[simp] theorem taskId_onMessage (thread : WorkerThread Payload Result World) (world : World)
    (request : TaskRequest Payload) :
    (thread.onMessage world request).taskId = request.taskId := by
  rcases thread.onMessage_cases world request with ⟨_, _, same⟩ | ⟨_, _, same⟩ <;>
    simp [same, TaskResult.taskId]

end WorkerThread

end FlowCache
