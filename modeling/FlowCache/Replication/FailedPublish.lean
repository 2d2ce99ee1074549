import FlowCache.Replication.TimedEngine

/-!
# Publishing that fails

`replicate` registers its waiter before it awaits `publish`.  When `publish` rejects, the
call rejects with the same error and returns no `ackPromise`, but nothing withdraws the
waiter: it and its timer are left exactly when no other input has ended the waiting by
then.
-/

namespace FlowCache

open Transition

variable {Value : Type}

/-- The input is one that the waiter of this event reacts to. -/
def EngineInput.Touches (eventId : String) : EngineInput Value → Prop
  | .ack answer => answer.eventId = eventId
  | .timeout id => id = eventId
  | .dispose => True
  | _ => False

/-- The input ends the `publish` request of this event. -/
def EngineInput.EndsPublish (eventId : String) : EngineInput Value → Prop
  | .publishReturns id => id = eventId
  | .publishRejects id _ => id = eventId
  | _ => False

/-! ## The end of the waiting -/

/-- The inputs have a successful ack of the event from this node. -/
def Acked (eventId nodeId : String) (inputs : List (EngineInput Value)) : Prop :=
  ∃ ack, .ack ack ∈ inputs ∧ ack.eventId = eventId ∧ ack.replicaNodeId = nodeId ∧
    ack.success = true

/-- The inputs have the end of the event's timer, a `dispose`, or the acks of all its
targets. -/
def EndsWaiting (eventId : String) (targetNodeIds : List String)
    (inputs : List (EngineInput Value)) : Prop :=
  .timeout eventId ∈ inputs ∨ .dispose ∈ inputs ∨
    ∀ target ∈ targetNodeIds, Acked eventId target inputs

theorem acked_cons {eventId nodeId : String} {input : EngineInput Value}
    {rest : List (EngineInput Value)} :
    Acked eventId nodeId (input :: rest) ↔
      (∃ ack, input = .ack ack ∧ ack.eventId = eventId ∧ ack.replicaNodeId = nodeId ∧
        ack.success = true) ∨ Acked eventId nodeId rest := by
  simp only [Acked, List.mem_cons, or_and_right, exists_or, eq_comm]

namespace AckWaiter

theorem count_targetNodeIds (waiter : AckWaiter) (ack : ReplicationAck) :
    (waiter.count ack).targetNodeIds = waiter.targetNodeIds := by
  rw [count]
  split
  · rfl
  · rfl

theorem mem_count_ackedBy {waiter : AckWaiter} {ack : ReplicationAck} {nodeId : String} :
    nodeId ∈ (waiter.count ack).ackedBy ↔
      ack.replicaNodeId = nodeId ∧ ack.success = true ∨ nodeId ∈ waiter.ackedBy := by
  rw [count]
  split
  · next success => simp [mem_addToSet, success, eq_comm, or_comm]
  · next failure => simp [failure]

theorem allTargetsAcked_iff {waiter : AckWaiter} :
    waiter.allTargetsAcked = true ↔ ∀ target ∈ waiter.targetNodeIds, target ∈ waiter.ackedBy := by
  simp [allTargetsAcked]

/-- What is still missing of a waiter: the inputs end its waiting, given the acks it has
counted. -/
def EndedBy (waiter : AckWaiter) (eventId : String) (inputs : List (EngineInput Value)) :
    Prop :=
  .timeout eventId ∈ inputs ∨ .dispose ∈ inputs ∨
    ∀ target ∈ waiter.targetNodeIds, target ∈ waiter.ackedBy ∨ Acked eventId target inputs

/-- An input that does not touch the waiter can be skipped. -/
theorem endedBy_cons {waiter : AckWaiter} {eventId : String} {input : EngineInput Value}
    {rest : List (EngineInput Value)} (foreign : ¬input.Touches eventId) :
    waiter.EndedBy eventId (input :: rest) ↔ waiter.EndedBy eventId rest := by
  have skipped : ∀ target, Acked eventId target (input :: rest) ↔
      Acked eventId target rest := by
    intro target
    rw [acked_cons, or_iff_right_iff_imp]
    rintro ⟨ack, rfl, same, -⟩
    exact absurd same foreign
  have notTimeout : EngineInput.timeout eventId ≠ input := by
    rintro rfl
    exact foreign rfl
  have notDispose : EngineInput.dispose ≠ input := by
    rintro rfl
    exact foreign trivial
  simp only [EndedBy, List.mem_cons, skipped, notTimeout, notDispose, false_or]

/-- An ack of the event is counted and the waiting goes on, or all targets have acked. -/
theorem endedBy_ack {waiter : AckWaiter} {ack : ReplicationAck}
    {rest : List (EngineInput Value)} :
    waiter.EndedBy ack.eventId (.ack ack :: rest) ↔
      (waiter.count ack).EndedBy ack.eventId rest := by
  have counted : ∀ target, (target ∈ waiter.ackedBy ∨
      Acked ack.eventId target (.ack ack :: rest)) ↔
        (target ∈ (waiter.count ack).ackedBy ∨ Acked ack.eventId target rest) := by
    intro target
    rw [acked_cons, mem_count_ackedBy]
    simp only [EngineInput.ack.injEq, ← or_assoc]
    constructor
    · rintro ((member | ⟨_, rfl, -, isTarget⟩) | later)
      · exact .inl (.inr member)
      · exact .inl (.inl isTarget)
      · exact .inr later
    · rintro ((isTarget | member) | later)
      · exact .inl (.inr ⟨ack, rfl, rfl, isTarget⟩)
      · exact .inl (.inl member)
      · exact .inr later
  simp only [EndedBy, List.mem_cons, counted, count_targetNodeIds, reduceCtorEq, false_or]

end AckWaiter

namespace TimedEngine

theorem foldl_nextWaiter_none (eventId : String) (inputs : List (EngineInput Value)) :
    inputs.foldl (nextWaiter eventId) none = none := by
  induction inputs with
  | nil => rfl
  | cons input rest ih =>
      have none : nextWaiter eventId none input = none := by
        cases input with
        | ack ack => simp [nextWaiter]
        | timeout id => simp [nextWaiter]
        | dispose => rfl
        | replicate id getReplicaNodeIds now key op => rfl
        | publishReturns id => rfl
        | publishRejects id reason => rfl
      rw [List.foldl_cons, none, ih]

theorem nextWaiter_of_not_touches {eventId : String} {input : EngineInput Value}
    (foreign : ¬input.Touches eventId) (waiter : Option AckWaiter) :
    nextWaiter eventId waiter input = waiter := by
  cases input with
  | ack ack => exact if_neg foreign
  | timeout id => exact if_neg foreign
  | dispose => exact absurd trivial foreign
  | replicate id getReplicaNodeIds now key op => rfl
  | publishReturns id => rfl
  | publishRejects id reason => rfl

/-- A waiter is gone after a list of inputs exactly when they end its waiting. -/
theorem foldl_nextWaiter_eq_none_iff (eventId : String) {waiter : AckWaiter}
    (missing : ¬waiter.allTargetsAcked = true) (inputs : List (EngineInput Value)) :
    inputs.foldl (nextWaiter eventId) (some waiter) = none ↔
      waiter.EndedBy eventId inputs := by
  induction inputs generalizing waiter with
  | nil =>
      rw [AckWaiter.allTargetsAcked_iff] at missing
      simp [AckWaiter.EndedBy, Acked, missing]
  | cons input rest ih =>
      rw [List.foldl_cons]
      by_cases touches : input.Touches eventId
      · cases input with
        | ack ack =>
            cases touches
            rw [AckWaiter.endedBy_ack, nextWaiter, if_pos rfl, Option.bind_some]
            by_cases complete : (waiter.count ack).allTargetsAcked = true
            · rw [if_pos complete, foldl_nextWaiter_none]
              rw [AckWaiter.allTargetsAcked_iff] at complete
              exact iff_of_true rfl (.inr (.inr fun target member =>
                .inl (complete target member)))
            · rw [if_neg complete]
              exact ih complete
        | timeout id =>
            cases touches
            rw [nextWaiter, if_pos rfl, foldl_nextWaiter_none]
            exact iff_of_true rfl (.inl List.mem_cons_self)
        | dispose =>
            rw [nextWaiter, foldl_nextWaiter_none]
            exact iff_of_true rfl (.inr (.inl List.mem_cons_self))
        | replicate id getReplicaNodeIds now key op => exact touches.elim
        | publishReturns id => exact touches.elim
        | publishRejects id reason => exact touches.elim
      · rw [nextWaiter_of_not_touches touches, ih missing, AckWaiter.endedBy_cons touches]

/-! ## Runs -/

theorem erase_foldl_nextPendingAcks {nodeId eventId : String}
    (pendingAcks : InsertionMap String AckWaiter) {inputs : List (EngineInput Value)}
    (foreign : ∀ input ∈ inputs, ¬input.IsCall eventId) :
    (inputs.foldl (nextPendingAcks nodeId) pendingAcks).erase eventId =
      inputs.foldl (nextPendingAcks nodeId) (pendingAcks.erase eventId) := by
  induction inputs generalizing pendingAcks with
  | nil => rfl
  | cons input rest ih =>
      rw [List.foldl_cons, List.foldl_cons,
        ih _ fun later member => foreign later (.tail _ member),
        erase_nextPendingAcks pendingAcks (foreign input List.mem_cons_self)]

theorem get?_foldl_nextPendingAcks {nodeId eventId : String}
    (pendingAcks : InsertionMap String AckWaiter) {inputs : List (EngineInput Value)}
    (foreign : ∀ input ∈ inputs, ¬input.IsCall eventId) :
    (inputs.foldl (nextPendingAcks nodeId) pendingAcks).get? eventId =
      inputs.foldl (nextWaiter eventId) (pendingAcks.get? eventId) := by
  induction inputs generalizing pendingAcks with
  | nil => rfl
  | cons input rest ih =>
      rw [List.foldl_cons, List.foldl_cons,
        ih _ fun later member => foreign later (.tail _ member),
        get?_nextPendingAcks pendingAcks (foreign input List.mem_cons_self)]

/-- The call of an event has been made, and its `publish` request is under way. -/
def IsPublishing (engine : TimedEngine) (eventId : String) : Prop :=
  ∃ call, engine.calls eventId = some call ∧ call.publish = .publishing

theorem IsPublishing.updateCall {engine : TimedEngine} {eventId : String}
    (publishing : engine.IsPublishing eventId) (other : String)
    {change : PendingCall → PendingCall}
    (kept : ∀ call, (change call).publish = call.publish) :
    (engine.updateCall other change).IsPublishing eventId := by
  obtain ⟨call, made, underWay⟩ := publishing
  rw [IsPublishing, updateCall_calls]
  split
  · exact ⟨change call, by rw [made]; rfl, (kept call).trans underWay⟩
  · exact ⟨call, made, underWay⟩

theorem IsPublishing.receive {engine : TimedEngine} {eventId : String}
    (publishing : engine.IsPublishing eventId) {input : EngineInput Value}
    (foreign : ¬input.IsCall eventId) (pending : ¬input.EndsPublish eventId) :
    (engine.receive input).IsPublishing eventId := by
  have other : ∀ id (change : PendingCall → PendingCall), id ≠ eventId →
      (engine.updateCall id change).IsPublishing eventId := by
    intro id change different
    rw [IsPublishing, updateCall_calls, if_neg (Ne.symm different)]
    exact publishing
  cases input with
  | replicate id getReplicaNodeIds now key op =>
      obtain ⟨call, made, underWay⟩ := publishing
      rw [TimedEngine.receive, callReplicate]
      split
      · exact ⟨call, (Function.update_of_ne (Ne.symm foreign) _ _).trans made, underWay⟩
      · exact ⟨call, (Function.update_of_ne (Ne.symm foreign) _ _).trans made, underWay⟩
  | publishReturns id => exact other id _ pending
  | publishRejects id reason => exact other id _ pending
  | ack ack =>
      rw [TimedEngine.receive, handleAck]
      split
      · exact publishing
      · simp only
        split
        · exact publishing.updateCall ack.eventId fun _ => rfl
        · exact publishing
  | timeout id =>
      rw [TimedEngine.receive, fireTimer]
      split
      · split
        · exact publishing
        · exact publishing.updateCall id fun _ => rfl
      · exact publishing
  | dispose =>
      obtain ⟨call, made, underWay⟩ := publishing
      have calls := rejectWaiters_calls engine eventId engine.pendingAcks.keys_nodup
      rw [TimedEngine.receive, TimedEngine.dispose, IsPublishing, calls]
      split
      · exact ⟨call.settle _, by rw [made]; rfl, underWay⟩
      · exact ⟨call, made, underWay⟩

/-- While a `publish` request is under way no other call gets its id. -/
theorem IsPublishing.run {engine : TimedEngine} {eventId : String}
    (publishing : engine.IsPublishing eventId) {inputs : List (EngineInput Value)}
    (unique : EveryStep TimedEngine.receive UniqueEventId engine inputs)
    (pending : ∀ input ∈ inputs, ¬input.EndsPublish eventId) :
    (∀ input ∈ inputs, ¬input.IsCall eventId) ∧
      (Transition.run TimedEngine.receive engine inputs).IsPublishing eventId := by
  induction inputs generalizing engine with
  | nil => exact ⟨fun _ member => absurd member List.not_mem_nil, publishing⟩
  | cons input rest ih =>
      have foreign : ¬input.IsCall eventId := by
        intro same
        cases input with
        | replicate id getReplicaNodeIds now key op =>
            cases same
            obtain ⟨call, made, -⟩ := publishing
            rw [unique.1] at made
            cases made
        | publishReturns id => exact same
        | publishRejects id reason => exact same
        | ack ack => exact same
        | timeout id => exact same
        | dispose => exact same
      have later := ih (publishing.receive foreign (pending input List.mem_cons_self))
        unique.2 fun later member => pending later (.tail _ member)
      refine ⟨?_, later.2⟩
      intro next member
      rcases List.mem_cons.mp member with rfl | member
      · exact foreign
      · exact later.1 next member

/-! ## After the rejection -/

/-- A call whose `publish` was rejected has left nothing behind: it rejected with the same
reason, the waiters are those of the engine that was never called, and no timer and no
promise is left for the event. -/
structure LeavesNoTrace (engine without : TimedEngine) (eventId reason : String) : Prop where
  rejects : (engine.calls eventId).bind PendingCall.returned = some (.rejected reason)
  pendingAcks : engine.pendingAcks = without.pendingAcks
  pendingAckCount : engine.getPendingAckCount = without.getPendingAckCount
  noTimer : eventId ∉ engine.timers
  noPromise : engine.dispose.calls eventId = engine.calls eventId

variable {engine without : TimedEngine} {eventId : String}

/-- The engine after the rejection, next to one that has the other waiters. -/
theorem Sound.leavesNoTrace_iff (sound : engine.Sound)
    (publishing : engine.IsPublishing eventId) (reason : String)
    (others : without.pendingAcks = engine.pendingAcks.erase eventId) :
    LeavesNoTrace (engine.updateCall eventId (·.publishRejects reason)) without eventId
        reason ↔ engine.pendingAcks.get? eventId = none := by
  rw [InsertionMap.get?_eq_none_iff]
  constructor
  · intro clean
    rw [← sound.timed]
    exact clean.noTimer
  · intro gone
    have same : engine.pendingAcks = without.pendingAcks := by
      rw [others, InsertionMap.erase_of_absent gone]
    constructor
    case rejects =>
      obtain ⟨call, made, underWay⟩ := publishing
      rw [updateCall_calls, if_pos rfl, made]
      simp [PendingCall.publishRejects, underWay]
    case pendingAcks => exact same
    case pendingAckCount => exact congrArg InsertionMap.size same
    case noTimer => exact fun set => gone ((sound.timed eventId).mp set)
    case noPromise =>
      have calls := rejectWaiters_calls
        (engine.updateCall eventId (·.publishRejects reason)) eventId
        engine.pendingAcks.keys_nodup
      rw [if_neg gone] at calls
      exact calls

/-- A call registers its waiter before it publishes. -/
theorem Sound.receive_call (sound : engine.Sound) (unused : engine.calls eventId = none)
    {getReplicaNodeIds : CacheKey → List String} {now : Millis} {key : CacheKey}
    {op : ReplicationOp Value} {message : EventMessage Value}
    (sends : FlowCache.replicate engine.nodeId getReplicaNodeIds eventId now key op =
      some message) :
    let called := engine.receive (.replicate eventId getReplicaNodeIds now key op)
    called.IsPublishing eventId ∧
      called.pendingAcks.get? eventId =
        some ⟨eventId, newSet message.targetNodeIds, []⟩ ∧
      called.pendingAcks.erase eventId = engine.pendingAcks := by
  have absent : eventId ∉ engine.pendingAcks.keys :=
    fun member => sound.called eventId member unused
  simp only [TimedEngine.receive, TimedEngine.callReplicate, sends]
  refine ⟨⟨_, Function.update_self .., rfl⟩, ?_, ?_⟩
  · exact InsertionMap.get?_insert_self ..
  · exact (InsertionMap.erase_insert_self ..).trans (InsertionMap.erase_of_absent absent)

/-- A message is sent to at least one target. -/
theorem targets_ne_nil {nodeId eventId : String} {getReplicaNodeIds : CacheKey → List String}
    {now : Millis} {key : CacheKey} {op : ReplicationOp Value} {message : EventMessage Value}
    (sends : FlowCache.replicate nodeId getReplicaNodeIds eventId now key op = some message) :
    message.targetNodeIds ≠ [] := by
  simp only [FlowCache.replicate] at sends
  split at sends
  · cases sends
  · next nonempty =>
      cases sends
      exact nonempty

/-- The call is made in some state of the engine, and inputs reach it until `publish`
rejects. -/
theorem Sound.leavesNoTrace_run_iff (sound : engine.Sound)
    {getReplicaNodeIds : CacheKey → List String} {now : Millis} {key : CacheKey}
    {op : ReplicationOp Value} {message : EventMessage Value}
    {between : List (EngineInput Value)}
    (sends : FlowCache.replicate engine.nodeId getReplicaNodeIds eventId now key op =
      some message)
    (unique : EveryStep TimedEngine.receive UniqueEventId engine
      (.replicate eventId getReplicaNodeIds now key op :: between))
    (pending : ∀ input ∈ between, ¬input.EndsPublish eventId) (reason : String) :
    LeavesNoTrace
        (Transition.run TimedEngine.receive engine
          (.replicate eventId getReplicaNodeIds now key op :: between ++
            [.publishRejects eventId reason]))
        (Transition.run TimedEngine.receive engine between) eventId reason ↔
      EndsWaiting eventId message.targetNodeIds between := by
  obtain ⟨publishing, registered, rest⟩ := sound.receive_call unique.1 sends
  have calledSound := sound.receive (.replicate eventId getReplicaNodeIds now key op)
  have named := receive_nodeId engine (.replicate eventId getReplicaNodeIds now key op)
  obtain ⟨foreign, stillPublishing⟩ := publishing.run unique.2 pending
  have others : (Transition.run TimedEngine.receive engine between).pendingAcks =
      (Transition.run TimedEngine.receive
        (engine.receive (.replicate eventId getReplicaNodeIds now key op))
        between).pendingAcks.erase eventId := by
    rw [sound.pendingAcks_run, calledSound.pendingAcks_run,
      erase_foldl_nextPendingAcks _ foreign, rest, named]
  rw [run_append]
  apply ((calledSound.run between).leavesNoTrace_iff stillPublishing reason others).trans
  rw [calledSound.pendingAcks_run, get?_foldl_nextPendingAcks _ foreign, registered,
    foldl_nextWaiter_eq_none_iff]
  · simp [AckWaiter.EndedBy, EndsWaiting, mem_newSet]
  · rw [AckWaiter.allTargetsAcked_iff]
    intro complete
    obtain ⟨target, member⟩ := List.exists_mem_of_ne_nil _ (targets_ne_nil sends)
    exact List.not_mem_nil (complete target (mem_newSet.mpr member))

/-- A call whose `publish` is rejected leaves no trace exactly when, before the rejection,
its ack timeout has passed, the engine has been disposed or all its targets have acked. -/
theorem failed_publish_leaves_no_trace_iff (nodeId : String)
    (before between : List (EngineInput Value)) (eventId : String)
    (getReplicaNodeIds : CacheKey → List String) (now : Millis) (key : CacheKey)
    (op : ReplicationOp Value) (reason : String) (message : EventMessage Value)
    (sends : FlowCache.replicate nodeId getReplicaNodeIds eventId now key op = some message)
    (unique : EveryStep receive UniqueEventId (start nodeId)
      (before ++ .replicate eventId getReplicaNodeIds now key op :: between))
    (pending : ∀ input ∈ between, ¬input.EndsPublish eventId) :
    LeavesNoTrace
        (run receive (start nodeId)
          (before ++ (.replicate eventId getReplicaNodeIds now key op :: between ++
            [.publishRejects eventId reason])))
        (run receive (start nodeId) (before ++ between)) eventId reason ↔
      EndsWaiting eventId message.targetNodeIds between := by
  have sound := (sound_start nodeId).run before
  have named : (run receive (start nodeId) before).nodeId = nodeId := by
    apply @run_invariant _ _ receive (fun engine => engine.nodeId = nodeId)
    · intro engine input same
      exact (receive_nodeId engine input).trans same
    · rfl
  rw [everyStep_append] at unique
  rw [run_append receive (start nodeId) before, run_append receive (start nodeId) before]
  exact sound.leavesNoTrace_run_iff (named.symm ▸ sends) unique.2 pending reason

/-- A deletion whose only target acks before `publish` rejects. -/
theorem failed_publish_leaves_no_trace_acked :
    LeavesNoTrace
      (run receive (start "node-1")
        ([] ++ (.replicate "repl-1" (fun _ => ["node-1", "node-2"]) 0 "user:1"
          (.delete : ReplicationOp Nat) ::
            [.ack ⟨"repl-1", "node-2", true, 1, none⟩] ++
            [.publishRejects "repl-1" "broker down"])))
      (run receive (start "node-1")
        ([] ++ [(.ack ⟨"repl-1", "node-2", true, 1, none⟩ : EngineInput Nat)]))
      "repl-1" "broker down" := by
  refine (failed_publish_leaves_no_trace_iff "node-1" []
    [.ack ⟨"repl-1", "node-2", true, 1, none⟩] "repl-1" (fun _ => ["node-1", "node-2"]) 0
    "user:1" (.delete : ReplicationOp Nat) "broker down"
    ⟨⟨"repl-1", "node-1", "user:1", .delete, 0⟩, ["node-2"]⟩ rfl
    (by decide +kernel) ?_).mpr ?_
  · intro input member
    rw [List.mem_singleton.mp member]
    exact id
  · right
    right
    intro target member
    rw [List.mem_singleton.mp member]
    exact ⟨_, List.mem_singleton_self _, rfl, rfl, rfl⟩

/-- A deletion whose `publish` rejects at once: the waiter is still counted, its timer emits
`ackTimeout`, and `dispose` rejects a promise that nobody holds. -/
theorem failed_publish_leaves_waiter :
    let failed := run receive (start "node-1")
      [.replicate "repl-1" (fun _ => ["node-1", "node-2"]) 0 "user:1"
          (.delete : ReplicationOp Nat), .publishRejects "repl-1" "broker down"]
    failed.getPendingAckCount = 1 ∧
      (failed.fireTimer "repl-1").ackTimeouts = [⟨"repl-1", [], ["node-2"]⟩] ∧
      failed.dispose.calls "repl-1" = some ⟨["node-2"], .failed,
        some (.rejected "ReplicationEngine disposed while awaiting replication acks"),
        some (.rejected "broker down")⟩ ∧
      ¬LeavesNoTrace failed (start "node-1") "repl-1" "broker down" := by
  refine ⟨by decide +kernel, by decide +kernel, by decide +kernel, ?_⟩
  intro clean
  exact absurd clean.pendingAckCount (by decide +kernel)

end TimedEngine

end FlowCache
