import FlowCache.Replication.AckProtocol

/-!
# One engine with its timers

One `ReplicationEngine` with the timers and the promises of its calls.  What reaches it
is given by a list of inputs in any order: calls, the ends of its `publish` requests,
acks, timers that fire and `dispose`.

Which waiters an engine has is decided by its inputs and its earlier waiters alone, and
the waiters of a node of a cluster follow the inputs of its engine.
-/

namespace FlowCache

open Transition

variable {Value Store : Type}

/-- A call of `replicate`: where its `publish` stands, its `ackPromise` and the promise
its caller holds. -/
structure PendingCall where
  targetNodeIds : List String
  publish : PublishState
  ackPromise : Option AckOutcome
  returned : Option AckOutcome
  deriving DecidableEq, Repr

/-- The payload of an `ackTimeout` event. -/
structure AckTimeout where
  eventId : String
  ackedBy : List String
  targetNodeIds : List String
  deriving DecidableEq, Repr

/-- An engine, the event ids of the timers that are set, the calls made so far by event
id, and the `ackTimeout` events emitted. -/
structure TimedEngine where
  nodeId : String
  pendingAcks : InsertionMap String AckWaiter
  timers : List String
  calls : String → Option PendingCall
  ackTimeouts : List AckTimeout

/-- What reaches an engine.  `replicateWrite` and `replicateDelete` are `replicate` with
their operation, and come with the id `generateId` returns and the node's view of the
ring. -/
inductive EngineInput (Value : Type) where
  | replicate (eventId : String) (getReplicaNodeIds : CacheKey → List String)
      (now : Millis) (key : CacheKey) (op : ReplicationOp Value)
  | publishReturns (eventId : String)
  | publishRejects (eventId reason : String)
  | ack (ack : ReplicationAck)
  | timeout (eventId : String)
  | dispose

/-- The input is a call with this id. -/
def EngineInput.IsCall (eventId : String) : EngineInput Value → Prop
  | .replicate id _ _ _ _ => id = eventId
  | _ => False

namespace PendingCall

/-- `resolve` or `reject` of the `ackPromise`, which settles once.  The caller's promise
follows when `replicate` has returned it. -/
def settle (call : PendingCall) (outcome : AckOutcome) : PendingCall :=
  let ackPromise := call.ackPromise.getD outcome
  { call with
    ackPromise := some ackPromise
    returned := if call.publish = .published then some ackPromise else call.returned }

/-- `publish` returns, and `replicate` goes on to return `ackPromise`. -/
def publishReturns (call : PendingCall) : PendingCall :=
  if call.publish = .publishing then
    { call with publish := .published, returned := call.ackPromise }
  else
    call

/-- `publish` rejects, and so does the call. -/
def publishRejects (call : PendingCall) (reason : String) : PendingCall :=
  if call.publish = .publishing then
    { call with publish := .failed, returned := some (.rejected reason) }
  else
    call

end PendingCall

/-- A waiter after `handleAck` has counted an ack. -/
def AckWaiter.count (waiter : AckWaiter) (ack : ReplicationAck) : AckWaiter :=
  if ack.success then
    { waiter with ackedBy := addToSet waiter.ackedBy ack.replicaNodeId }
  else
    waiter

namespace TimedEngine

/-- A new engine. -/
def start (nodeId : String) : TimedEngine where
  nodeId := nodeId
  pendingAcks := .empty
  timers := []
  calls _ := none
  ackTimeouts := []

/-- `getPendingAckCount()`. -/
def getPendingAckCount (engine : TimedEngine) : Nat := engine.pendingAcks.size

def updateCall (engine : TimedEngine) (eventId : String)
    (change : PendingCall → PendingCall) : TimedEngine :=
  { engine with
    calls := Function.update engine.calls eventId ((engine.calls eventId).map change) }

/-- `clearTimeout(waiter.timeoutHandle)` for the waiter of an event. -/
def clearTimer (engine : TimedEngine) (eventId : String) : TimedEngine :=
  { engine with timers := engine.timers.filter (· ≠ eventId) }

/-- `registerAckWaiter(eventId, targetNodeIds)`. -/
def registerAckWaiter (engine : TimedEngine) (eventId : String)
    (targetNodeIds : List String) : TimedEngine :=
  { engine with
    timers := engine.timers ++ [eventId]
    pendingAcks := engine.pendingAcks.insert eventId ⟨eventId, newSet targetNodeIds, []⟩ }

/-- `replicate(key, op, ...)` up to its `await`. -/
def callReplicate (engine : TimedEngine) (eventId : String)
    (getReplicaNodeIds : CacheKey → List String) (now : Millis) (key : CacheKey)
    (op : ReplicationOp Value) : TimedEngine :=
  match replicate engine.nodeId getReplicaNodeIds eventId now key op with
  | none =>
      { engine with
        calls := Function.update engine.calls eventId
          (some ⟨[], .published, some (.resolved []), some (.resolved [])⟩) }
  | some message =>
      { engine.registerAckWaiter eventId message.targetNodeIds with
        calls := Function.update engine.calls eventId
          (some ⟨message.targetNodeIds, .publishing, none, none⟩) }

/-- The callback of `setTimeout` in `registerAckWaiter`, if the timer is still set. -/
def fireTimer (engine : TimedEngine) (eventId : String) : TimedEngine :=
  if eventId ∈ engine.timers then
    match engine.pendingAcks.get? eventId with
    | none => engine.clearTimer eventId
    | some waiter =>
        let fired :=
          { engine.clearTimer eventId with
            pendingAcks := engine.pendingAcks.erase eventId }
        { fired.updateCall eventId (·.settle (.resolved waiter.ackedBy)) with
          ackTimeouts := engine.ackTimeouts ++
            [⟨eventId, waiter.ackedBy, waiter.targetNodeIds⟩] }
  else
    engine

/-- `handleAck(ack)`. -/
def handleAck (engine : TimedEngine) (ack : ReplicationAck) : TimedEngine :=
  match engine.pendingAcks.get? ack.eventId with
  | none => engine
  | some waiter =>
      let waiter := waiter.count ack
      if waiter.allTargetsAcked then
        { (engine.clearTimer ack.eventId).updateCall ack.eventId
            (·.settle (.resolved waiter.ackedBy)) with
          pendingAcks := engine.pendingAcks.erase ack.eventId }
      else
        { engine with pendingAcks := engine.pendingAcks.insert ack.eventId waiter }

/-- The body of the loop in `dispose`. -/
def rejectWaiter (engine : TimedEngine) (eventId : String) : TimedEngine :=
  (engine.clearTimer eventId).updateCall eventId
    (·.settle (.rejected "ReplicationEngine disposed while awaiting replication acks"))

/-- `dispose()`. -/
def dispose (engine : TimedEngine) : TimedEngine :=
  { engine.pendingAcks.keys.foldl rejectWaiter engine with pendingAcks := .empty }

/-- One input. -/
def receive (engine : TimedEngine) : EngineInput Value → TimedEngine
  | .replicate eventId getReplicaNodeIds now key op =>
      engine.callReplicate eventId getReplicaNodeIds now key op
  | .publishReturns eventId => engine.updateCall eventId (·.publishReturns)
  | .publishRejects eventId reason => engine.updateCall eventId (·.publishRejects reason)
  | .ack ack => engine.handleAck ack
  | .timeout eventId => engine.fireTimer eventId
  | .dispose => engine.dispose

/-- The id of a call is one that no earlier call got. -/
def UniqueEventId (engine : TimedEngine) : EngineInput Value → Prop
  | .replicate eventId _ _ _ _ => engine.calls eventId = none
  | _ => True

instance (engine : TimedEngine) :
    (input : EngineInput Value) → Decidable (engine.UniqueEventId input)
  | .replicate eventId _ _ _ _ => inferInstanceAs (Decidable (engine.calls eventId = none))
  | .publishReturns _ => isTrue trivial
  | .publishRejects _ _ => isTrue trivial
  | .ack _ => isTrue trivial
  | .timeout _ => isTrue trivial
  | .dispose => isTrue trivial

/-! ## Frame lemmas -/

section Frame

variable (engine : TimedEngine) (eventId query : String)

@[simp] theorem updateCall_timers (change : PendingCall → PendingCall) :
    (engine.updateCall eventId change).timers = engine.timers := rfl

theorem updateCall_calls (change : PendingCall → PendingCall) :
    (engine.updateCall eventId change).calls query =
      if query = eventId then (engine.calls query).map change else engine.calls query := by
  simp only [updateCall]
  by_cases same : query = eventId
  · rw [if_pos same, same, Function.update_self]
  · rw [if_neg same, Function.update_of_ne same]

theorem mem_clearTimer_timers :
    query ∈ (engine.clearTimer eventId).timers ↔ query ≠ eventId ∧ query ∈ engine.timers := by
  simp [clearTimer, and_comm]

@[simp] theorem rejectWaiters_nodeId (eventIds : List String) :
    (eventIds.foldl rejectWaiter engine).nodeId = engine.nodeId := by
  induction eventIds generalizing engine with
  | nil => rfl
  | cons first rest ih => exact ih (engine.rejectWaiter first)

theorem mem_rejectWaiters_timers (eventIds : List String) :
    query ∈ (eventIds.foldl rejectWaiter engine).timers ↔
      query ∉ eventIds ∧ query ∈ engine.timers := by
  induction eventIds generalizing engine with
  | nil => simp
  | cons first rest ih =>
      rw [List.foldl_cons, ih, rejectWaiter, updateCall_timers, mem_clearTimer_timers,
        List.mem_cons, not_or]
      tauto

/-- The loop of `dispose` settles the promises of the listed events. -/
theorem rejectWaiters_calls {eventIds : List String} (nodup : eventIds.Nodup) :
    (eventIds.foldl rejectWaiter engine).calls query =
      if query ∈ eventIds then
        (engine.calls query).map (·.settle
          (.rejected "ReplicationEngine disposed while awaiting replication acks"))
      else
        engine.calls query := by
  induction eventIds generalizing engine with
  | nil => simp
  | cons first rest ih =>
      obtain ⟨fresh, restNodup⟩ := List.nodup_cons.mp nodup
      have once : (engine.rejectWaiter first).calls query =
          if query = first then
            (engine.calls query).map (·.settle
              (.rejected "ReplicationEngine disposed while awaiting replication acks"))
          else
            engine.calls query :=
        updateCall_calls (engine.clearTimer first) first query _
      rw [List.foldl_cons, ih (engine.rejectWaiter first) restNodup, once]
      by_cases here : query = first
      · rw [if_neg (here ▸ fresh), if_pos here, if_pos (List.mem_cons.mpr (.inl here))]
      · simp only [List.mem_cons, here, false_or, if_false]

end Frame

/-! ## What an engine keeps -/

/-- Every waiter has its timer and its call, and every timer its waiter. -/
structure Sound (engine : TimedEngine) : Prop where
  timed : ∀ eventId, eventId ∈ engine.timers ↔ eventId ∈ engine.pendingAcks.keys
  called : ∀ eventId ∈ engine.pendingAcks.keys, engine.calls eventId ≠ none

theorem sound_start (nodeId : String) : (start nodeId).Sound where
  timed _ := Iff.rfl
  called := by
    intro eventId member
    cases member

namespace Sound

variable {engine : TimedEngine}

theorem updateCall (sound : engine.Sound) (eventId : String)
    (change : PendingCall → PendingCall) : (engine.updateCall eventId change).Sound where
  timed := sound.timed
  called := by
    intro query member
    rw [updateCall_calls]
    split
    · rw [ne_eq, Option.map_eq_none_iff]
      exact sound.called query member
    · exact sound.called query member

/-- A waiter goes, and its timer with it. -/
theorem withdraw (sound : engine.Sound) (eventId : String) :
    Sound { engine.clearTimer eventId with
      pendingAcks := engine.pendingAcks.erase eventId } where
  timed := by
    intro query
    rw [InsertionMap.mem_keys_erase, ← sound.timed]
    exact mem_clearTimer_timers engine eventId query
  called := by
    intro query member
    exact sound.called query (InsertionMap.mem_keys_erase.mp member).2

theorem callReplicate (sound : engine.Sound) (eventId : String)
    (getReplicaNodeIds : CacheKey → List String) (now : Millis) (key : CacheKey)
    (op : ReplicationOp Value) :
    (engine.callReplicate eventId getReplicaNodeIds now key op).Sound := by
  have called : ∀ query call, engine.calls query ≠ none ∨ query = eventId →
      Function.update engine.calls eventId (some call) query ≠ none := by
    intro query call known
    by_cases same : query = eventId
    · rw [same, Function.update_self]
      exact Option.some_ne_none call
    · rw [Function.update_of_ne same]
      exact known.resolve_right same
  unfold TimedEngine.callReplicate
  split
  · exact ⟨sound.timed, fun query member =>
      called query _ (.inl (sound.called query member))⟩
  · next message _ =>
      constructor
      · intro query
        simp only [registerAckWaiter]
        rw [List.mem_append, List.mem_singleton, InsertionMap.mem_keys_insert, sound.timed,
          or_comm]
      · intro query member
        simp only [registerAckWaiter, InsertionMap.mem_keys_insert] at member
        exact called query _ (member.symm.imp_left (sound.called query))

theorem fireTimer (sound : engine.Sound) (eventId : String) :
    (engine.fireTimer eventId).Sound := by
  unfold TimedEngine.fireTimer
  split
  · next set =>
      obtain ⟨waiter, found⟩ := InsertionMap.mem_keys_iff.mp ((sound.timed eventId).mp set)
      simp only [found]
      have settled := (sound.withdraw eventId).updateCall eventId
        (·.settle (.resolved waiter.ackedBy))
      exact ⟨settled.timed, settled.called⟩
  · exact sound

theorem handleAck (sound : engine.Sound) (ack : ReplicationAck) :
    (engine.handleAck ack).Sound := by
  unfold TimedEngine.handleAck
  split
  · exact sound
  · next waiter found =>
      simp only
      split
      · exact (sound.withdraw ack.eventId).updateCall ack.eventId _
      · have keys := InsertionMap.keys_insert_of_mem (InsertionMap.mem_keys_of_get? found)
          (waiter.count ack)
        constructor
        · intro query
          simp only [keys]
          exact sound.timed query
        · intro query member
          simp only [keys] at member
          exact sound.called query member

theorem dispose (sound : engine.Sound) : engine.dispose.Sound where
  timed := by
    intro query
    rw [TimedEngine.dispose, mem_rejectWaiters_timers, sound.timed]
    exact iff_of_false (fun both => both.1 both.2) List.not_mem_nil
  called := by
    intro query member
    cases member

/-- One input. -/
theorem receive (sound : engine.Sound) (input : EngineInput Value) :
    (engine.receive input).Sound := by
  cases input with
  | replicate eventId getReplicaNodeIds now key op =>
      exact sound.callReplicate eventId getReplicaNodeIds now key op
  | publishReturns eventId => exact sound.updateCall eventId _
  | publishRejects eventId reason => exact sound.updateCall eventId _
  | ack ack => exact sound.handleAck ack
  | timeout eventId => exact sound.fireTimer eventId
  | dispose => exact sound.dispose

theorem run (sound : engine.Sound) (inputs : List (EngineInput Value)) :
    (Transition.run TimedEngine.receive engine inputs).Sound :=
  run_invariant (fun _ input sound => sound.receive input) sound inputs

end Sound

theorem receive_nodeId (engine : TimedEngine) (input : EngineInput Value) :
    (engine.receive input).nodeId = engine.nodeId := by
  cases input with
  | replicate eventId getReplicaNodeIds now key op =>
      rw [receive, callReplicate]
      split
      · rfl
      · rfl
  | publishReturns eventId => rfl
  | publishRejects eventId reason => rfl
  | ack ack =>
      rw [receive, handleAck]
      split
      · rfl
      · simp only
        split
        · rfl
        · rfl
  | timeout eventId =>
      rw [receive, fireTimer]
      split
      · split
        · rfl
        · rfl
      · rfl
  | dispose => exact rejectWaiters_nodeId engine _

/-! ## The waiters alone -/

/-- The waiters after an input: neither the calls nor the timers decide them. -/
def nextPendingAcks (nodeId : String) (pendingAcks : InsertionMap String AckWaiter) :
    EngineInput Value → InsertionMap String AckWaiter
  | .replicate eventId getReplicaNodeIds now key op =>
      match FlowCache.replicate nodeId getReplicaNodeIds eventId now key op with
      | none => pendingAcks
      | some message =>
          pendingAcks.insert eventId ⟨eventId, newSet message.targetNodeIds, []⟩
  | .publishReturns _ => pendingAcks
  | .publishRejects _ _ => pendingAcks
  | .ack ack =>
      match pendingAcks.get? ack.eventId with
      | none => pendingAcks
      | some waiter =>
          if (waiter.count ack).allTargetsAcked then pendingAcks.erase ack.eventId
          else pendingAcks.insert ack.eventId (waiter.count ack)
  | .timeout eventId => pendingAcks.erase eventId
  | .dispose => .empty

theorem Sound.receive_pendingAcks {engine : TimedEngine} (sound : engine.Sound)
    (input : EngineInput Value) :
    (engine.receive input).pendingAcks =
      nextPendingAcks engine.nodeId engine.pendingAcks input := by
  cases input with
  | replicate eventId getReplicaNodeIds now key op =>
      simp only [TimedEngine.receive, TimedEngine.callReplicate, nextPendingAcks]
      cases FlowCache.replicate engine.nodeId getReplicaNodeIds eventId now key op with
      | none => rfl
      | some message => rfl
  | publishReturns eventId => rfl
  | publishRejects eventId reason => rfl
  | ack ack =>
      simp only [TimedEngine.receive, TimedEngine.handleAck, nextPendingAcks]
      cases engine.pendingAcks.get? ack.eventId with
      | none => rfl
      | some waiter =>
          simp only
          split
          · rfl
          · rfl
  | timeout eventId =>
      rw [TimedEngine.receive, TimedEngine.fireTimer, nextPendingAcks]
      split
      · split
        · next none =>
            exact (InsertionMap.erase_of_absent (InsertionMap.get?_eq_none_iff.mp none)).symm
        · rfl
      · next cleared =>
          rw [sound.timed] at cleared
          exact (InsertionMap.erase_of_absent cleared).symm
  | dispose => rfl

theorem Sound.pendingAcks_run {engine : TimedEngine} (sound : engine.Sound)
    (inputs : List (EngineInput Value)) :
    (Transition.run TimedEngine.receive engine inputs).pendingAcks =
      inputs.foldl (nextPendingAcks engine.nodeId) engine.pendingAcks := by
  induction inputs generalizing engine with
  | nil => rfl
  | cons input rest ih =>
      rw [run_cons, ih (sound.receive input), receive_nodeId, sound.receive_pendingAcks,
        List.foldl_cons]

/-- Forgetting an event commutes with every input but its own call. -/
theorem erase_nextPendingAcks {nodeId eventId : String}
    (pendingAcks : InsertionMap String AckWaiter) {input : EngineInput Value}
    (foreign : ¬input.IsCall eventId) :
    (nextPendingAcks nodeId pendingAcks input).erase eventId =
      nextPendingAcks nodeId (pendingAcks.erase eventId) input := by
  cases input with
  | replicate id getReplicaNodeIds now key op =>
      simp only [nextPendingAcks]
      cases FlowCache.replicate nodeId getReplicaNodeIds id now key op with
      | none => rfl
      | some message => exact InsertionMap.erase_insert_of_ne _ foreign _
  | publishReturns id => rfl
  | publishRejects id reason => rfl
  | ack ack =>
      simp only [nextPendingAcks]
      by_cases same : ack.eventId = eventId
      · have gone : (pendingAcks.erase eventId).get? ack.eventId = none := by
          rw [InsertionMap.get?_erase, if_pos same]
        rw [gone]
        cases pendingAcks.get? ack.eventId with
        | none => rfl
        | some waiter =>
            simp only
            split
            · rw [same, InsertionMap.erase_of_absent]
              exact InsertionMap.get?_eq_none_iff.mp (same ▸ gone)
            · rw [same, InsertionMap.erase_insert_self]
      · rw [InsertionMap.get?_erase_of_ne _ same]
        cases pendingAcks.get? ack.eventId with
        | none => rfl
        | some waiter =>
            simp only
            split
            · exact InsertionMap.erase_comm _ _ _
            · exact InsertionMap.erase_insert_of_ne _ same _
  | timeout id => exact InsertionMap.erase_comm _ _ _
  | dispose => rfl

/-- What an input does to the waiter of one event, unless it is the call itself. -/
def nextWaiter (eventId : String) (waiter : Option AckWaiter) :
    EngineInput Value → Option AckWaiter
  | .ack ack =>
      if ack.eventId = eventId then
        waiter.bind fun waiter =>
          if (waiter.count ack).allTargetsAcked then none else some (waiter.count ack)
      else
        waiter
  | .timeout id => if id = eventId then none else waiter
  | .dispose => none
  | _ => waiter

theorem get?_nextPendingAcks {nodeId eventId : String}
    (pendingAcks : InsertionMap String AckWaiter) {input : EngineInput Value}
    (foreign : ¬input.IsCall eventId) :
    (nextPendingAcks nodeId pendingAcks input).get? eventId =
      nextWaiter eventId (pendingAcks.get? eventId) input := by
  cases input with
  | replicate id getReplicaNodeIds now key op =>
      simp only [nextPendingAcks, nextWaiter]
      cases FlowCache.replicate nodeId getReplicaNodeIds id now key op with
      | none => rfl
      | some message => exact InsertionMap.get?_insert_of_ne _ (Ne.symm foreign) _
  | publishReturns id => rfl
  | publishRejects id reason => rfl
  | ack ack =>
      simp only [nextPendingAcks, nextWaiter]
      by_cases same : ack.eventId = eventId
      · rw [if_pos same, same]
        cases found : pendingAcks.get? eventId with
        | none => exact found
        | some waiter =>
            simp only [Option.bind_some]
            split
            · rw [InsertionMap.get?_erase, if_pos rfl]
            · rw [InsertionMap.get?_insert_self]
      · rw [if_neg same]
        cases pendingAcks.get? ack.eventId with
        | none => rfl
        | some waiter =>
            simp only
            split
            · exact InsertionMap.get?_erase_of_ne _ (Ne.symm same)
            · exact InsertionMap.get?_insert_of_ne _ (Ne.symm same) _
  | timeout id =>
      simp only [nextPendingAcks, nextWaiter, InsertionMap.get?_erase, eq_comm]
  | dispose => rfl

end TimedEngine

/-! ## One node of a cluster -/

namespace ReplicationCluster

/-- What an action of the cluster is for one of its engines: the input it receives. -/
def inputFor (cluster : ReplicationCluster Value Store) (nodeId : String) :
    AckAction Value → Option (EngineInput Value)
  | .replicateWrite caller eventId getReplicaNodeIds now key value metadata =>
      if nodeId = caller then
        some (.replicate eventId getReplicaNodeIds now key (.put value (some metadata)))
      else
        none
  | .replicateDelete caller eventId getReplicaNodeIds now key =>
      if nodeId = caller then some (.replicate eventId getReplicaNodeIds now key .delete)
      else none
  | .publishReturns eventId => some (.publishReturns eventId)
  | .publishFails eventId reason => some (.publishRejects eventId reason)
  | .deliver receiver offset _ =>
      match cluster.topic[offset]? with
      | some (.ack ack) => if nodeId = receiver then some (.ack ack) else none
      | _ => none
  | .ackTimeout owner eventId => if nodeId = owner then some (.timeout eventId) else none
  | .dispose disposed => if nodeId = disposed then some .dispose else none

variable (cluster : ReplicationCluster Value Store) (nodeId : String)

theorem pendingAcks_withPendingAcks (owner : String)
    (pendingAcks : InsertionMap String AckWaiter) :
    ((cluster.withPendingAcks owner pendingAcks).engines nodeId).pendingAcks =
      if nodeId = owner then pendingAcks else (cluster.engines nodeId).pendingAcks := by
  simp only [withPendingAcks, withEngine]
  by_cases same : nodeId = owner
  · rw [if_pos same, same, Function.update_self]
  · rw [if_neg same, Function.update_of_ne same]

theorem pendingAcks_callReplicate (caller eventId : String)
    (getReplicaNodeIds : CacheKey → List String) (now : Millis) (key : CacheKey)
    (op : ReplicationOp Value) :
    ((cluster.callReplicate caller eventId getReplicaNodeIds now key op).engines
        nodeId).pendingAcks =
      if nodeId = caller then
        TimedEngine.nextPendingAcks nodeId (cluster.engines nodeId).pendingAcks
          (.replicate eventId getReplicaNodeIds now key op)
      else
        (cluster.engines nodeId).pendingAcks := by
  simp only [callReplicate, TimedEngine.nextPendingAcks]
  by_cases same : nodeId = caller
  · subst same
    rw [if_pos rfl]
    cases replicate nodeId getReplicaNodeIds eventId now key op with
    | none => rfl
    | some message => exact (pendingAcks_withPendingAcks ..).trans (if_pos rfl)
  · rw [if_neg same]
    cases replicate caller getReplicaNodeIds eventId now key op with
    | none => rfl
    | some message => exact (pendingAcks_withPendingAcks ..).trans (if_neg same)

theorem handleAck_of_waiter {receiver : String} {ack : ReplicationAck} {waiter : AckWaiter}
    (found : (cluster.engines receiver).pendingAcks.get? ack.eventId = some waiter) :
    cluster.handleAck receiver ack =
      if (waiter.count ack).allTargetsAcked then
        (cluster.withPendingAcks receiver
          ((cluster.engines receiver).pendingAcks.erase ack.eventId)).settleAckPromise
            ack.eventId (.resolved (waiter.count ack).ackedBy)
      else
        cluster.withPendingAcks receiver
          ((cluster.engines receiver).pendingAcks.insert ack.eventId (waiter.count ack)) := by
  rw [handleAck, found]
  rfl

theorem pendingAcks_handleAck (receiver : String) (ack : ReplicationAck) :
    ((cluster.handleAck receiver ack).engines nodeId).pendingAcks =
      if nodeId = receiver then
        TimedEngine.nextPendingAcks nodeId (cluster.engines nodeId).pendingAcks
          (.ack ack : EngineInput Value)
      else
        (cluster.engines nodeId).pendingAcks := by
  cases found : (cluster.engines receiver).pendingAcks.get? ack.eventId with
  | none =>
      simp only [handleAck, found]
      by_cases same : nodeId = receiver
      · subst same
        rw [if_pos rfl, TimedEngine.nextPendingAcks, found]
      · rw [if_neg same]
  | some waiter =>
      have after : ((cluster.handleAck receiver ack).engines nodeId).pendingAcks =
          if nodeId = receiver then
            if (waiter.count ack).allTargetsAcked then
              (cluster.engines receiver).pendingAcks.erase ack.eventId
            else
              (cluster.engines receiver).pendingAcks.insert ack.eventId (waiter.count ack)
          else
            (cluster.engines nodeId).pendingAcks := by
        rw [cluster.handleAck_of_waiter found]
        by_cases complete : (waiter.count ack).allTargetsAcked = true
        · rw [if_pos complete, if_pos complete, settleAckPromise_engines,
            pendingAcks_withPendingAcks]
        · rw [if_neg complete, if_neg complete, pendingAcks_withPendingAcks]
      rw [after]
      split
      · next same =>
          subst same
          rw [TimedEngine.nextPendingAcks, found]
      · rfl

theorem pendingAcks_ackTimeout (owner eventId : String) :
    ((cluster.ackTimeout owner eventId).engines nodeId).pendingAcks =
      if nodeId = owner then (cluster.engines nodeId).pendingAcks.erase eventId
      else (cluster.engines nodeId).pendingAcks := by
  rw [ackTimeout]
  split
  · next absent =>
      split
      · next same =>
          subst same
          exact (InsertionMap.erase_of_absent (InsertionMap.get?_eq_none_iff.mp absent)).symm
      · rfl
  · rw [settleAckPromise_engines, pendingAcks_withPendingAcks]
    split
    · next same =>
        subst same
        rfl
    · rfl

theorem rejectWaiters_engines (eventIds : List String) :
    (cluster.rejectWaiters eventIds).engines = cluster.engines := by
  induction eventIds generalizing cluster with
  | nil => rfl
  | cons eventId rest ih => rw [rejectWaiters, ih, settleAckPromise_engines]

theorem pendingAcks_handleReplicationEvent (callbacks : ApplyCallbacks Value Store)
    (receiver : String) (now : Millis) (message : EventMessage Value) :
    ((cluster.handleReplicationEvent callbacks receiver now message).engines
      nodeId).pendingAcks = (cluster.engines nodeId).pendingAcks := by
  have kept : ∀ store, (Function.update cluster.engines receiver
      { cluster.engines receiver with store := store } nodeId).pendingAcks =
        (cluster.engines nodeId).pendingAcks := by
    intro store
    by_cases same : nodeId = receiver
    · rw [same, Function.update_self]
    · rw [Function.update_of_ne same]
  rw [handleReplicationEvent]
  split
  · rfl
  · simp only
    cases ran : (applyEvent callbacks (cluster.engines receiver).store now message.event).1 with
    | false => exact kept _
    | true =>
        cases (applyEvent callbacks (cluster.engines receiver).store now message.event).2.1 with
        | none => exact kept _
        | some error => exact kept _

/-- The waiters of a node follow the inputs of its engine. -/
theorem pendingAcks_step (callbacks : String → ApplyCallbacks Value Store)
    (action : AckAction Value) :
    ((cluster.step callbacks action).engines nodeId).pendingAcks =
      ((cluster.inputFor nodeId action).toList).foldl (TimedEngine.nextPendingAcks nodeId)
        (cluster.engines nodeId).pendingAcks := by
  have listed : ∀ (condition : Prop) [Decidable condition] (input : EngineInput Value),
      (if condition then
          TimedEngine.nextPendingAcks nodeId (cluster.engines nodeId).pendingAcks input
        else (cluster.engines nodeId).pendingAcks) =
      ((if condition then some input else none).toList).foldl
        (TimedEngine.nextPendingAcks nodeId) (cluster.engines nodeId).pendingAcks := by
    intro condition _ input
    split
    · rfl
    · rfl
  cases action with
  | replicateWrite caller eventId getReplicaNodeIds now key value metadata =>
      exact (pendingAcks_callReplicate ..).trans (listed ..)
  | replicateDelete caller eventId getReplicaNodeIds now key =>
      exact (pendingAcks_callReplicate ..).trans (listed ..)
  | publishReturns eventId =>
      simp only [step, publishReturns]
      split
      · rfl
      · split
        · split
          · rfl
          · rfl
        · rfl
  | publishFails eventId reason =>
      simp only [step, publishFails]
      split
      · rfl
      · split
        · rfl
        · rfl
  | deliver receiver offset now =>
      simp only [step, inputFor]
      cases cluster.topic[offset]? with
      | none => rfl
      | some message =>
          cases message with
          | event message => exact pendingAcks_handleReplicationEvent ..
          | ack ack => exact (pendingAcks_handleAck ..).trans (listed ..)
  | ackTimeout owner eventId =>
      exact (pendingAcks_ackTimeout ..).trans (listed (nodeId = owner) (.timeout eventId))
  | dispose disposed =>
      simp only [step, dispose]
      rw [pendingAcks_withPendingAcks, rejectWaiters_engines]
      exact listed (nodeId = disposed) .dispose

/-- What reaches one engine in a run of the cluster. -/
def inputsFor (callbacks : String → ApplyCallbacks Value Store) (nodeId : String) :
    ReplicationCluster Value Store → List (AckAction Value) → List (EngineInput Value)
  | _, [] => []
  | cluster, action :: rest =>
      (cluster.inputFor nodeId action).toList ++
        inputsFor callbacks nodeId (cluster.step callbacks action) rest

theorem pendingAcks_run (callbacks : String → ApplyCallbacks Value Store)
    (actions : List (AckAction Value)) :
    ((run (step callbacks) cluster actions).engines nodeId).pendingAcks =
      (inputsFor callbacks nodeId cluster actions).foldl
        (TimedEngine.nextPendingAcks nodeId) (cluster.engines nodeId).pendingAcks := by
  induction actions generalizing cluster with
  | nil => rfl
  | cons action rest ih =>
      rw [run_cons, ih, pendingAcks_step, inputsFor, List.foldl_append]

/-- However a cluster runs, a node has the waiters of the timed engine that received the
node's inputs in the same order. -/
theorem pendingAcks_run_start (callbacks : String → ApplyCallbacks Value Store)
    (store : String → Store) (actions : List (AckAction Value)) :
    ((run (step callbacks) (start store) actions).engines nodeId).pendingAcks =
      (run TimedEngine.receive (TimedEngine.start nodeId)
        (inputsFor callbacks nodeId (start store) actions)).pendingAcks := by
  rw [pendingAcks_run, (TimedEngine.sound_start nodeId).pendingAcks_run]
  rfl

end ReplicationCluster

end FlowCache
