import FlowCache.Library.History
import FlowCache.Replication.Acks

/-!
# Safety of the ack protocol

An ack on the topic is the word of a target that has run its callback, and a waiter
only lists nodes whose acks it was handed.  So what a call resolves with lags behind
what the replicas have done, in whatever order messages and timers come.
-/

namespace FlowCache

open Transition History

variable {Value Store : Type}

/-- What the observations before it have to say for an observation to be allowed. -/
def AckObservation.Explained (earlier : List (AckObservation Value)) :
    AckObservation Value → Prop
  | .called event _ =>
      ∀ other targets, .called other targets ∈ earlier → other.eventId ≠ event.eventId
  | .applied nodeId event => ∃ targets, .called event targets ∈ earlier ∧ nodeId ∈ targets
  | .threw nodeId event => ∃ targets, .called event targets ∈ earlier ∧ nodeId ∈ targets
  | .timedOut eventId =>
      ∃ event targets, .called event targets ∈ earlier ∧ event.eventId = eventId
  | .settled eventId outcome =>
      (∀ other, .settled eventId other ∉ earlier) ∧
        ∃ event targets, .called event targets ∈ earlier ∧ event.eventId = eventId ∧
          ∀ ackedBy, outcome = .resolved ackedBy →
            ackedBy.Nodup ∧ ackedBy ⊆ targets ∧ event.sourceNodeId ∉ ackedBy ∧
              (∀ nodeId ∈ ackedBy, .applied nodeId event ∈ earlier) ∧
              (.timedOut eventId ∉ earlier → targets ⊆ ackedBy)

/-! ## Sets of node ids -/

theorem mem_addToSet {nodes : List String} {nodeId query : String} :
    query ∈ addToSet nodes nodeId ↔ query ∈ nodes ∨ query = nodeId := by
  by_cases member : nodeId ∈ nodes
  · rw [addToSet, if_pos member]
    constructor
    · exact Or.inl
    · rintro (found | rfl)
      · exact found
      · exact member
  · simp [addToSet, member]

theorem nodup_addToSet {nodes : List String} (nodup : nodes.Nodup) (nodeId : String) :
    (addToSet nodes nodeId).Nodup := by
  by_cases member : nodeId ∈ nodes
  · rwa [addToSet, if_pos member]
  · rw [addToSet, if_neg member, ← List.concat_eq_append]
    exact nodup.concat member

theorem mem_newSet {nodes : List String} {query : String} :
    query ∈ newSet nodes ↔ query ∈ nodes := by
  have general : ∀ set : List String,
      query ∈ nodes.foldl addToSet set ↔ query ∈ set ∨ query ∈ nodes := by
    induction nodes with
    | nil => simp
    | cons node rest ih =>
        intro set
        rw [List.foldl_cons, ih, mem_addToSet, List.mem_cons, or_assoc]
  simp [newSet, general]

/-! ## The invariant -/

/-- The listed nodes are targets that have applied the event. -/
def ReplicateCall.Acked (call : ReplicateCall Value) (history : List (AckObservation Value))
    (ackedBy : List String) : Prop :=
  ackedBy.Nodup ∧
    ∀ nodeId ∈ ackedBy,
      nodeId ∈ call.targetNodeIds ∧ .applied nodeId call.event ∈ history

/-- An outcome the call's promise may settle with. -/
def ReplicateCall.Permits (call : ReplicateCall Value)
    (history : List (AckObservation Value)) (outcome : AckOutcome) : Prop :=
  ∀ ackedBy, outcome = .resolved ackedBy →
    call.Acked history ackedBy ∧
      (.timedOut call.event.eventId ∉ history → call.targetNodeIds ⊆ ackedBy)

/-- The promise of the call has not settled. -/
def ReplicateCall.Open (call : ReplicateCall Value) : Prop :=
  call.publish = .publishing ∨ call.publish = .published ∧ call.ackPromise = none

/-- What the history says of a call. -/
structure ReplicateCall.Sound (call : ReplicateCall Value)
    (history : List (AckObservation Value)) (eventId : String) : Prop where
  named : call.event.eventId = eventId
  observed : .called call.event call.targetNodeIds ∈ history
  source : call.event.sourceNodeId ∉ call.targetNodeIds
  unsettled : call.Open → ∀ outcome, .settled eventId outcome ∉ history
  permitted : ∀ outcome, call.ackPromise = some outcome → call.Permits history outcome

/-- A waiter of a node belongs to a call of that node that waits for acks. -/
structure AckWaiter.Sound (waiter : AckWaiter) (call : ReplicateCall Value)
    (history : List (AckObservation Value)) (nodeId : String) : Prop where
  source : call.event.sourceNodeId = nodeId
  pending : call.ackPromise = none
  targets : ∀ target, target ∈ waiter.targetNodeIds ↔ target ∈ call.targetNodeIds
  acked : call.Acked history waiter.ackedBy

/-- A message is about a call: the event of it, or the ack of one of its targets. -/
def ReplicationTopicMessage.Sound (history : List (AckObservation Value))
    (calls : String → Option (ReplicateCall Value)) :
    ReplicationTopicMessage Value → Prop
  | .event message =>
      ∃ call, calls message.event.eventId = some call ∧ call.event = message.event ∧
        call.targetNodeIds = message.targetNodeIds
  | .ack answer =>
      ∃ call, calls answer.eventId = some call ∧
        answer.replicaNodeId ∈ call.targetNodeIds ∧
        (answer.success = true → .applied answer.replicaNodeId call.event ∈ history)

namespace ReplicationCluster

/-- The invariant of the protocol. -/
structure Sound (cluster : ReplicationCluster Value Store) : Prop where
  explained : EachExplained AckObservation.Explained cluster.history
  known : ∀ observation ∈ cluster.history, cluster.calls observation.eventId ≠ none
  calling : ∀ eventId call, cluster.calls eventId = some call →
    call.Sound cluster.history eventId
  waiting : ∀ nodeId eventId waiter,
    (cluster.engines nodeId).pendingAcks.get? eventId = some waiter →
      ∃ call, cluster.calls eventId = some call ∧
        waiter.Sound call cluster.history nodeId
  sent : ∀ message ∈ cluster.topic, message.Sound cluster.history cluster.calls

/-- No node waits for acks of the event. -/
def NoWaiter (cluster : ReplicationCluster Value Store) (eventId : String) : Prop :=
  ∀ nodeId, (cluster.engines nodeId).pendingAcks.get? eventId = none

end ReplicationCluster

/-! ## Longer histories -/

section Observed

variable {history : List (AckObservation Value)} {call : ReplicateCall Value}
variable (observation : AckObservation Value)

theorem ReplicateCall.Acked.observe {ackedBy : List String}
    (acked : call.Acked history ackedBy) :
    call.Acked (observation :: history) ackedBy := by
  refine ⟨acked.1, ?_⟩
  intro nodeId listed
  obtain ⟨target, applied⟩ := acked.2 nodeId listed
  exact ⟨target, List.mem_cons_of_mem _ applied⟩

theorem ReplicateCall.permits_rejected (reason : String) :
    call.Permits history (.rejected reason) := by
  intro ackedBy resolved
  cases resolved

theorem ReplicateCall.Permits.observe {outcome : AckOutcome}
    (permits : call.Permits history outcome) :
    call.Permits (observation :: history) outcome := by
  intro ackedBy resolved
  obtain ⟨acked, complete⟩ := permits ackedBy resolved
  refine ⟨acked.observe observation, ?_⟩
  intro running
  exact complete (fun fired => running (List.mem_cons_of_mem _ fired))

theorem ReplicateCall.Sound.observe {eventId : String} (sound : call.Sound history eventId)
    (other : call.Open → ∀ outcome, observation ≠ .settled eventId outcome) :
    call.Sound (observation :: history) eventId where
  named := sound.named
  observed := List.mem_cons_of_mem _ sound.observed
  source := sound.source
  unsettled := by
    intro still outcome member
    rcases List.mem_cons.mp member with same | member
    · exact other still outcome same.symm
    · exact sound.unsettled still outcome member
  permitted outcome promised := (sound.permitted outcome promised).observe observation

theorem AckWaiter.Sound.observe {waiter : AckWaiter} {nodeId : String}
    (sound : waiter.Sound call history nodeId) :
    waiter.Sound call (observation :: history) nodeId :=
  ⟨sound.source, sound.pending, sound.targets, sound.acked.observe observation⟩

theorem ReplicationTopicMessage.Sound.observe
    {calls : String → Option (ReplicateCall Value)}
    {message : ReplicationTopicMessage Value} (sound : message.Sound history calls) :
    message.Sound (observation :: history) calls := by
  cases message with
  | event message => exact sound
  | ack ack =>
      obtain ⟨call, found, target, applied⟩ := sound
      exact ⟨call, found, target, fun success => List.mem_cons_of_mem _ (applied success)⟩

end Observed

/-! ## Changed promises -/

section Promised

variable {history : List (AckObservation Value)} {call next : ReplicateCall Value}
variable (sameEvent : next.event = call.event)
variable (sameTargets : next.targetNodeIds = call.targetNodeIds)

include sameEvent sameTargets

theorem ReplicateCall.Sound.promise {eventId : String} (sound : call.Sound history eventId)
    (unsettled : next.Open → ∀ outcome, .settled eventId outcome ∉ history)
    (permitted : ∀ outcome, next.ackPromise = some outcome →
      next.Permits history outcome) :
    next.Sound history eventId where
  named := by
    rw [sameEvent]
    exact sound.named
  observed := by
    rw [sameEvent, sameTargets]
    exact sound.observed
  source := by
    rw [sameEvent, sameTargets]
    exact sound.source
  unsettled := unsettled
  permitted := permitted

theorem AckWaiter.Sound.promise {waiter : AckWaiter} {nodeId : String}
    (sound : waiter.Sound call history nodeId) (pending : next.ackPromise = none) :
    waiter.Sound next history nodeId where
  source := by
    rw [sameEvent]
    exact sound.source
  pending := pending
  targets := by
    rw [sameTargets]
    exact sound.targets
  acked := by
    rw [ReplicateCall.Acked, sameEvent, sameTargets]
    exact sound.acked

end Promised

/-- A message stays sound when the promises of calls change. -/
theorem ReplicationTopicMessage.Sound.update {history : List (AckObservation Value)}
    {calls later : String → Option (ReplicateCall Value)}
    {message : ReplicationTopicMessage Value} (sound : message.Sound history calls)
    (kept : ∀ eventId call, calls eventId = some call →
      ∃ next, later eventId = some next ∧ next.event = call.event ∧
        next.targetNodeIds = call.targetNodeIds) :
    message.Sound history later := by
  cases message with
  | event message =>
      obtain ⟨call, found, event, targets⟩ := sound
      obtain ⟨next, foundNext, sameEvent, sameTargets⟩ := kept _ _ found
      exact ⟨next, foundNext, sameEvent.trans event, sameTargets.trans targets⟩
  | ack ack =>
      obtain ⟨call, found, target, applied⟩ := sound
      obtain ⟨next, foundNext, sameEvent, sameTargets⟩ := kept _ _ found
      refine ⟨next, foundNext, sameTargets ▸ target, ?_⟩
      rw [sameEvent]
      exact applied

namespace ReplicationCluster

variable {cluster : ReplicationCluster Value Store} {eventId : String}
variable {call : ReplicateCall Value}

/-! ## The parts of a step -/

/-- Anything but the settling of a promise. -/
theorem Sound.observe (sound : cluster.Sound) {observation : AckObservation Value}
    (explained : observation.Explained cluster.history)
    (known : cluster.calls observation.eventId ≠ none)
    (other : ∀ eventId call, cluster.calls eventId = some call → call.Open →
      ∀ outcome, observation ≠ .settled eventId outcome) :
    (cluster.observe observation).Sound where
  explained := sound.explained.cons explained
  known := by
    intro member found
    rcases List.mem_cons.mp found with rfl | found
    · exact known
    · exact sound.known member found
  calling eventId call found :=
    (sound.calling eventId call found).observe observation (other eventId call found)
  waiting nodeId eventId waiter stored := by
    obtain ⟨call, found, waits⟩ := sound.waiting nodeId eventId waiter stored
    exact ⟨call, found, waits.observe observation⟩
  sent message member := (sound.sent message member).observe observation

theorem Sound.withPendingAcks (sound : cluster.Sound) {nodeId : String}
    {pendingAcks : InsertionMap String AckWaiter}
    (waiting : ∀ eventId waiter, pendingAcks.get? eventId = some waiter →
      ∃ call, cluster.calls eventId = some call ∧
        waiter.Sound call cluster.history nodeId) :
    (cluster.withPendingAcks nodeId pendingAcks).Sound where
  explained := sound.explained
  known := sound.known
  calling := sound.calling
  waiting := by
    intro other eventId waiter stored
    by_cases same : other = nodeId
    · subst same
      apply waiting eventId waiter
      simpa [ReplicationCluster.withPendingAcks, withEngine] using stored
    · apply sound.waiting other eventId waiter
      simpa [ReplicationCluster.withPendingAcks, withEngine, same] using stored
  sent := sound.sent

theorem Sound.send (sound : cluster.Sound) {message : ReplicationTopicMessage Value}
    (about : message.Sound cluster.history cluster.calls) :
    (cluster.send message).Sound where
  explained := sound.explained
  known := sound.known
  calling := sound.calling
  waiting := sound.waiting
  sent := by
    intro other member
    rcases List.mem_append.mp member with member | member
    · exact sound.sent other member
    · rw [List.mem_singleton] at member
      exact member ▸ about

theorem withCall_calls (cluster : ReplicationCluster Value Store) (eventId : String)
    (call : ReplicateCall Value) (query : String) :
    (cluster.withCall eventId call).calls query =
      if query = eventId then some call else cluster.calls query :=
  Function.update_apply ..

/-- The promise of a call changes; a waiter needs it to be pending. -/
theorem Sound.withCall (sound : cluster.Sound) (found : cluster.calls eventId = some call)
    (next : ReplicateCall Value) (sameEvent : next.event = call.event)
    (sameTargets : next.targetNodeIds = call.targetNodeIds)
    (unsettled : next.Open → ∀ outcome, .settled eventId outcome ∉ cluster.history)
    (permitted : ∀ outcome, next.ackPromise = some outcome →
      next.Permits cluster.history outcome)
    (pending : next.ackPromise = call.ackPromise ∨ cluster.NoWaiter eventId) :
    (cluster.withCall eventId next).Sound := by
  constructor
  case explained => exact sound.explained
  case known =>
    intro observation member
    rw [withCall_calls]
    split
    · exact Option.some_ne_none next
    · exact sound.known observation member
  case calling =>
    intro query stored foundStored
    rw [withCall_calls] at foundStored
    split at foundStored
    · rename_i same
      cases foundStored
      subst same
      exact (sound.calling query call found).promise sameEvent sameTargets unsettled
        permitted
    · exact sound.calling query stored foundStored
  case waiting =>
    intro nodeId query waiter stored
    obtain ⟨other, foundOther, waits⟩ := sound.waiting nodeId query waiter stored
    rw [withCall_calls]
    split
    · rename_i same
      subst same
      rw [found] at foundOther
      cases foundOther
      have isPending : next.ackPromise = none := by
        rcases pending with pending | noWaiter
        · exact pending.trans waits.pending
        · exact absurd ((noWaiter nodeId).symm.trans stored) (Option.some_ne_none _).symm
      exact ⟨next, rfl, waits.promise sameEvent sameTargets isPending⟩
    · exact ⟨other, foundOther, waits⟩
  case sent =>
    intro message member
    apply (sound.sent message member).update
    intro query other stored
    rw [withCall_calls]
    split
    · rename_i same
      subst same
      rw [found] at stored
      cases stored
      exact ⟨next, rfl, sameEvent, sameTargets⟩
    · exact ⟨other, stored, rfl, rfl⟩

/-- A promise that has just settled, for the first time and with a permitted outcome. -/
theorem Sound.observe_settled (sound : cluster.Sound)
    (found : cluster.calls eventId = some call) {outcome : AckOutcome}
    (closed : ¬call.Open) (permits : call.Permits cluster.history outcome)
    (first : ∀ other, .settled eventId other ∉ cluster.history) :
    (cluster.observe (.settled eventId outcome)).Sound := by
  have called := sound.calling eventId call found
  apply sound.observe
  · refine ⟨first, call.event, call.targetNodeIds, called.observed, called.named, ?_⟩
    intro ackedBy resolved
    obtain ⟨⟨nodup, acked⟩, complete⟩ := permits ackedBy resolved
    rw [called.named] at complete
    refine ⟨nodup, fun nodeId listed => (acked nodeId listed).1, ?_,
      fun nodeId listed => (acked nodeId listed).2, complete⟩
    intro listed
    exact called.source (acked _ listed).1
  · simp [AckObservation.eventId, found]
  · intro other otherCall foundOther still otherOutcome same
    cases same
    rw [found] at foundOther
    cases foundOther
    exact closed still

/-- `resolve` or `reject` on the promise of a call that no waiter can settle again. -/
theorem Sound.settleAckPromise (sound : cluster.Sound)
    (found : cluster.calls eventId = some call) (pending : call.ackPromise = none)
    (noWaiter : cluster.NoWaiter eventId) {outcome : AckOutcome}
    (permits : call.Permits cluster.history outcome) :
    (cluster.settleAckPromise eventId outcome).Sound := by
  have called := sound.calling eventId call found
  have updated : (cluster.withCall eventId
      { call with ackPromise := some outcome }).Sound := by
    apply sound.withCall found { call with ackPromise := some outcome } rfl rfl
    · rintro (publishing | ⟨-, open'⟩)
      · exact called.unsettled (.inl publishing)
      · cases open'
    · intro other promised
      cases promised
      exact permits
    · exact .inr noWaiter
  simp only [ReplicationCluster.settleAckPromise, found]
  split
  · rename_i published
    refine updated.observe_settled (Function.update_self ..) ?_ permits ?_
    · rintro (publishing | ⟨-, open'⟩)
      · have publishing : call.publish = .publishing := publishing
        rw [published] at publishing
        cases publishing
      · cases open'
    · exact called.unsettled (.inr ⟨published, pending⟩)
  · exact updated

/-- Only the source of an event waits for its acks. -/
theorem Sound.noWaiter_erase (sound : cluster.Sound) {nodeId : String} {waiter : AckWaiter}
    (stored : (cluster.engines nodeId).pendingAcks.get? eventId = some waiter) :
    (cluster.withPendingAcks nodeId
      ((cluster.engines nodeId).pendingAcks.erase eventId)).NoWaiter eventId := by
  obtain ⟨call, found, waits⟩ := sound.waiting nodeId eventId waiter stored
  intro other
  by_cases same : other = nodeId
  · subst same
    simp [ReplicationCluster.withPendingAcks, withEngine, InsertionMap.get?_erase]
  · simp only [ReplicationCluster.withPendingAcks, withEngine,
      Function.update_of_ne same]
    by_contra isStored
    obtain ⟨second, storedSecond⟩ := Option.ne_none_iff_exists'.mp isStored
    obtain ⟨otherCall, foundOther, waitsOther⟩ :=
      sound.waiting other eventId second storedSecond
    rw [found] at foundOther
    cases foundOther
    exact same (waitsOther.source.symm.trans waits.source)

/-- A node drops a waiter. -/
theorem Sound.erase_waiter (sound : cluster.Sound) (nodeId eventId : String) :
    (cluster.withPendingAcks nodeId
      ((cluster.engines nodeId).pendingAcks.erase eventId)).Sound := by
  apply sound.withPendingAcks
  intro query waiter stored
  rw [InsertionMap.get?_erase] at stored
  split at stored
  · cases stored
  · exact sound.waiting nodeId query waiter stored

/-! ## The steps -/

/-- A call is recorded under an id that no earlier call got. -/
theorem Sound.newCall (sound : cluster.Sound) (call : ReplicateCall Value)
    (fresh : cluster.calls call.event.eventId = none)
    (source : call.event.sourceNodeId ∉ call.targetNodeIds)
    (permitted : ∀ outcome, call.ackPromise = some outcome →
      call.Permits (.called call.event call.targetNodeIds :: cluster.history) outcome) :
    ((cluster.observe (.called call.event call.targetNodeIds)).withCall
      call.event.eventId call).Sound := by
  have later : ∀ eventId stored, cluster.calls eventId = some stored →
      ((cluster.observe (.called call.event call.targetNodeIds)).withCall
        call.event.eventId call).calls eventId = some stored := by
    intro eventId stored found
    rw [withCall_calls, if_neg]
    · exact found
    · rintro rfl
      rw [fresh] at found
      cases found
  have unseen : ∀ observation ∈ cluster.history,
      observation.eventId ≠ call.event.eventId := by
    intro observation member same
    apply sound.known observation member
    rw [same, fresh]
  constructor
  case explained =>
    apply sound.explained.cons
    intro other targets member
    exact unseen _ member
  case known =>
    intro observation member
    rw [withCall_calls]
    split
    · exact Option.some_ne_none call
    · rename_i other
      rcases List.mem_cons.mp member with rfl | member
      · exact absurd rfl other
      · exact sound.known observation member
  case calling =>
    intro eventId stored found
    rw [withCall_calls] at found
    split at found
    · rename_i same
      cases found
      subst same
      refine ⟨rfl, List.mem_cons_self, source, ?_, permitted⟩
      intro still outcome member
      rcases List.mem_cons.mp member with same | member
      · cases same
      · exact unseen _ member rfl
    · apply (sound.calling eventId stored found).observe
      intro _ outcome same
      cases same
  case waiting =>
    intro nodeId eventId waiter stored
    obtain ⟨other, found, waits⟩ := sound.waiting nodeId eventId waiter stored
    exact ⟨other, later eventId other found, waits.observe _⟩
  case sent =>
    intro message member
    apply ((sound.sent message member).observe _).update
    intro eventId stored found
    exact ⟨stored, later eventId stored found, rfl, rfl⟩

theorem Sound.callReplicate (sound : cluster.Sound) {nodeId : String}
    (getReplicaNodeIds : CacheKey → List String) (now : Millis) (key : CacheKey)
    (op : ReplicationOp Value) (fresh : cluster.calls eventId = none) :
    (cluster.callReplicate nodeId eventId getReplicaNodeIds now key op).Sound := by
  simp only [ReplicationCluster.callReplicate, replicate]
  by_cases noTargets : (getReplicaNodeIds key).filter (· ≠ nodeId) = []
  · simp only [if_pos noTargets]
    have recorded := sound.newCall
      ⟨⟨eventId, nodeId, key, op, now⟩, [], .published, some (.resolved [])⟩ fresh
      List.not_mem_nil
      (by
        intro outcome promised ackedBy resolved
        cases promised
        cases resolved
        exact ⟨⟨List.nodup_nil, by simp⟩, by simp⟩)
    refine recorded.observe_settled (Function.update_self ..) ?_ ?_ ?_
    · rintro (publishing | ⟨-, pending⟩)
      · cases publishing
      · cases pending
    · exact (recorded.calling eventId _ (Function.update_self ..)).permitted _ rfl
    · intro other member
      rcases List.mem_cons.mp member with same | member
      · cases same
      · exact sound.known _ member fresh
  · simp only [if_neg noTargets]
    generalize targetsEq : (getReplicaNodeIds key).filter (· ≠ nodeId) = targets
    have source : nodeId ∉ targets := by
      rw [← targetsEq]
      simp
    have recorded := sound.newCall
      ⟨⟨eventId, nodeId, key, op, now⟩, targets, .publishing, none⟩ fresh source
      (fun outcome promised => absurd promised (Option.some_ne_none outcome).symm)
    apply Sound.send
    · apply recorded.withPendingAcks
      intro query waiter stored
      rw [InsertionMap.get?_insert] at stored
      split at stored
      · rename_i same
        subst same
        cases stored
        refine ⟨_, Function.update_self .., rfl, rfl, fun target => mem_newSet, ?_⟩
        exact ⟨List.nodup_nil, fun nodeId listed => absurd listed List.not_mem_nil⟩
      · exact recorded.waiting nodeId query waiter stored
    · exact ⟨_, Function.update_self .., rfl, rfl⟩

theorem Sound.publishReturns (sound : cluster.Sound) (eventId : String) :
    (cluster.publishReturns eventId).Sound := by
  rw [ReplicationCluster.publishReturns]
  cases found : cluster.calls eventId with
  | none => exact sound
  | some call =>
      have called := sound.calling eventId call found
      by_cases publishing : call.publish = .publishing
      · have unsettled := called.unsettled (.inl publishing)
        have returned := sound.withCall found { call with publish := .published } rfl rfl
          (fun _ => unsettled) called.permitted (.inl rfl)
        simp only [if_pos publishing]
        cases promised : call.ackPromise with
        | none =>
            rw [promised] at returned
            exact returned
        | some outcome =>
            rw [promised] at returned
            refine returned.observe_settled (Function.update_self ..) ?_
              (called.permitted outcome promised) unsettled
            rintro (publishing | ⟨-, pending⟩)
            · cases publishing
            · cases pending
      · simp only [if_neg publishing]
        exact sound

theorem Sound.publishFails (sound : cluster.Sound) (eventId reason : String) :
    (cluster.publishFails eventId reason).Sound := by
  rw [ReplicationCluster.publishFails]
  cases found : cluster.calls eventId with
  | none => exact sound
  | some call =>
      have called := sound.calling eventId call found
      by_cases publishing : call.publish = .publishing
      · have unsettled := called.unsettled (.inl publishing)
        have failed := sound.withCall found { call with publish := .failed } rfl rfl
          (fun _ => unsettled) called.permitted (.inl rfl)
        simp only [if_pos publishing]
        refine failed.observe_settled (Function.update_self ..) ?_
          (ReplicateCall.permits_rejected reason) unsettled
        rintro (publishing | ⟨published, -⟩)
        · cases publishing
        · cases published
      · simp only [if_neg publishing]
        exact sound

theorem Sound.ackTimeout (sound : cluster.Sound) (nodeId eventId : String) :
    (cluster.ackTimeout nodeId eventId).Sound := by
  rw [ReplicationCluster.ackTimeout]
  cases stored : (cluster.engines nodeId).pendingAcks.get? eventId with
  | none => exact sound
  | some waiter =>
      obtain ⟨call, found, waits⟩ := sound.waiting nodeId eventId waiter stored
      have called := sound.calling eventId call found
      have fired : (cluster.observe (.timedOut eventId)).Sound := by
        apply sound.observe
        · exact ⟨call.event, call.targetNodeIds, called.observed, called.named⟩
        · simp [AckObservation.eventId, found]
        · intro _ _ _ _ outcome same
          cases same
      have erased := fired.erase_waiter nodeId eventId
      refine erased.settleAckPromise found waits.pending (fired.noWaiter_erase stored) ?_
      intro ackedBy resolved
      cases resolved
      refine ⟨waits.acked.observe _, ?_⟩
      intro running
      rw [called.named] at running
      exact absurd List.mem_cons_self running

/-- The waiter after an ack that is on the topic. -/
theorem Sound.waiter_acked (sound : cluster.Sound) {nodeId : String} {waiter : AckWaiter}
    {ack : ReplicationAck} (found : cluster.calls ack.eventId = some call)
    (waits : waiter.Sound call cluster.history nodeId)
    (sent : ReplicationTopicMessage.ack ack ∈ cluster.topic) (success : ack.success = true) :
    AckWaiter.Sound { waiter with ackedBy := addToSet waiter.ackedBy ack.replicaNodeId } call
      cluster.history nodeId := by
  obtain ⟨other, foundOther, target, applied⟩ := sound.sent _ sent
  rw [found] at foundOther
  cases foundOther
  refine ⟨waits.source, waits.pending, waits.targets, nodup_addToSet waits.acked.1 _, ?_⟩
  intro listed member
  rcases mem_addToSet.mp member with member | rfl
  · exact waits.acked.2 listed member
  · exact ⟨target, applied success⟩

theorem Sound.handleAck (sound : cluster.Sound) (nodeId : String) {ack : ReplicationAck}
    (sent : ReplicationTopicMessage.ack ack ∈ cluster.topic) :
    (cluster.handleAck nodeId ack).Sound := by
  rw [ReplicationCluster.handleAck]
  cases stored : (cluster.engines nodeId).pendingAcks.get? ack.eventId with
  | none => exact sound
  | some waiter =>
      obtain ⟨call, found, waits⟩ := sound.waiting nodeId ack.eventId waiter stored
      have updated : AckWaiter.Sound
          (if ack.success then
            { waiter with ackedBy := addToSet waiter.ackedBy ack.replicaNodeId }
          else waiter) call cluster.history nodeId := by
        split
        · rename_i success
          exact sound.waiter_acked found waits sent success
        · exact waits
      simp only
      generalize (if ack.success then
        { waiter with ackedBy := addToSet waiter.ackedBy ack.replicaNodeId }
        else waiter) = next at updated ⊢
      split
      · rename_i all
        have erased := sound.erase_waiter nodeId ack.eventId
        refine erased.settleAckPromise found updated.pending
          (sound.noWaiter_erase stored) ?_
        intro ackedBy resolved
        cases resolved
        refine ⟨updated.acked, ?_⟩
        intro _ target member
        have acked := List.all_eq_true.mp all target ((updated.targets target).mpr member)
        exact of_decide_eq_true acked
      · apply sound.withPendingAcks
        intro query other storedQuery
        rw [InsertionMap.get?_insert] at storedQuery
        split at storedQuery
        · rename_i same
          subst same
          cases storedQuery
          exact ⟨call, found, updated⟩
        · exact sound.waiting nodeId query other storedQuery

@[simp] theorem settleAckPromise_engines (cluster : ReplicationCluster Value Store)
    (eventId : String) (outcome : AckOutcome) :
    (cluster.settleAckPromise eventId outcome).engines = cluster.engines := by
  rw [ReplicationCluster.settleAckPromise]
  split
  · rfl
  · simp only
    split <;> rfl

theorem settleAckPromise_calls_of_ne (cluster : ReplicationCluster Value Store)
    {eventId other : String} (different : other ≠ eventId) (outcome : AckOutcome) :
    (cluster.settleAckPromise eventId outcome).calls other = cluster.calls other := by
  rw [ReplicationCluster.settleAckPromise]
  split
  · rfl
  · simp only
    split <;> exact Function.update_of_ne different _ _

/-- Settling a promise and dropping waiters do not meet. -/
theorem settleAckPromise_withPendingAcks (cluster : ReplicationCluster Value Store)
    (nodeId eventId : String) (outcome : AckOutcome)
    (pendingAcks : InsertionMap String AckWaiter) :
    (cluster.settleAckPromise eventId outcome).withPendingAcks nodeId pendingAcks =
      (cluster.withPendingAcks nodeId pendingAcks).settleAckPromise eventId outcome := by
  have calls : (cluster.withPendingAcks nodeId pendingAcks).calls = cluster.calls := rfl
  simp only [ReplicationCluster.settleAckPromise, calls]
  split
  · rfl
  · split <;> rfl

theorem rejectWaiters_withPendingAcks (cluster : ReplicationCluster Value Store)
    (nodeId : String) (pendingAcks : InsertionMap String AckWaiter)
    (eventIds : List String) :
    (cluster.rejectWaiters eventIds).withPendingAcks nodeId pendingAcks =
      (cluster.withPendingAcks nodeId pendingAcks).rejectWaiters eventIds := by
  induction eventIds generalizing cluster with
  | nil => rfl
  | cons eventId rest ih =>
      rw [rejectWaiters, ih, settleAckPromise_withPendingAcks, rejectWaiters]

/-- The loop of `dispose`, each of whose promises is still pending. -/
theorem Sound.rejectWaiters {eventIds : List String} (sound : cluster.Sound)
    (nodup : eventIds.Nodup)
    (pending : ∀ eventId ∈ eventIds, cluster.NoWaiter eventId ∧
      ∃ call, cluster.calls eventId = some call ∧ call.ackPromise = none) :
    (cluster.rejectWaiters eventIds).Sound := by
  induction eventIds generalizing cluster with
  | nil => exact sound
  | cons eventId rest ih =>
      obtain ⟨unique, nodupRest⟩ := List.nodup_cons.mp nodup
      obtain ⟨noWaiter, call, found, isPending⟩ := pending eventId List.mem_cons_self
      apply ih
      · exact sound.settleAckPromise found isPending noWaiter
          (ReplicateCall.permits_rejected _)
      · exact nodupRest
      · intro other member
        have different : other ≠ eventId := by
          rintro rfl
          exact unique member
        rw [NoWaiter, settleAckPromise_engines,
          settleAckPromise_calls_of_ne cluster different]
        exact pending other (List.mem_cons_of_mem _ member)

theorem Sound.dispose (sound : cluster.Sound) (nodeId : String) :
    (cluster.dispose nodeId).Sound := by
  have cleared : (cluster.withPendingAcks nodeId .empty).Sound := by
    apply sound.withPendingAcks
    intro eventId waiter stored
    cases stored
  rw [ReplicationCluster.dispose, rejectWaiters_withPendingAcks]
  apply cleared.rejectWaiters (cluster.engines nodeId).pendingAcks.keys_nodup
  intro eventId member
  obtain ⟨waiter, stored⟩ := InsertionMap.mem_keys_iff.mp member
  obtain ⟨call, found, waits⟩ := sound.waiting nodeId eventId waiter stored
  refine ⟨?_, call, found, waits.pending⟩
  intro other
  by_cases same : other = nodeId
  · subst same
    simp only [ReplicationCluster.withPendingAcks, withEngine, Function.update_self]
    rfl
  · have erased := sound.noWaiter_erase stored other
    simpa [ReplicationCluster.withPendingAcks, withEngine, same] using erased

/-- A node's data may change freely. -/
theorem Sound.withStore (sound : cluster.Sound) (nodeId : String) (store : Store) :
    (cluster.withEngine nodeId
      { cluster.engines nodeId with store := store }).Sound where
  explained := sound.explained
  known := sound.known
  calling := sound.calling
  waiting := by
    intro other eventId waiter stored
    apply sound.waiting other eventId waiter
    by_cases same : other = nodeId
    · subst same
      simpa [withEngine] using stored
    · simpa [withEngine, same] using stored
  sent := sound.sent

/-- What does not throw has run a callback. -/
theorem applyEvent_ran {callbacks : ApplyCallbacks Value Store} {store : Store}
    {now : Millis} {event : ReplicationEvent Value}
    (succeeded : (applyEvent callbacks store now event).2.1 = none) :
    (applyEvent callbacks store now event).1 = true := by
  obtain ⟨eventId, source, key, op, timestamp⟩ := event
  cases op with
  | delete => rfl
  | put value metadata =>
      cases metadata with
      | none => cases succeeded
      | some metadata => rfl

/-- The ack of a target goes out after its callback has run. -/
theorem Sound.send_ack (sound : cluster.Sound)
    (found : cluster.calls eventId = some call) {nodeId : String}
    (target : nodeId ∈ call.targetNodeIds) (now : Millis) (error : Option String)
    (applied : error = none → .applied nodeId call.event ∈ cluster.history) :
    (cluster.send (.ack ⟨eventId, nodeId, error.isNone, now, error⟩)).Sound := by
  apply sound.send
  refine ⟨call, found, target, ?_⟩
  intro success
  exact applied (Option.isNone_iff_eq_none.mp success)

/-- A target runs a callback. -/
theorem Sound.observe_callback (sound : cluster.Sound) {nodeId : String}
    {event : ReplicationEvent Value} {observation : AckObservation Value}
    (called : ∃ targets, .called event targets ∈ cluster.history ∧ nodeId ∈ targets)
    (known : cluster.calls event.eventId ≠ none)
    (isRun : observation = .applied nodeId event ∨ observation = .threw nodeId event) :
    (cluster.observe observation).Sound := by
  rcases isRun with rfl | rfl
  all_goals
    apply sound.observe
    · exact called
    · exact known
    · intro _ _ _ _ outcome same
      cases same

theorem Sound.handleReplicationEvent (sound : cluster.Sound)
    (callbacks : ApplyCallbacks Value Store) (nodeId : String) (now : Millis)
    {message : EventMessage Value}
    (sent : ReplicationTopicMessage.event message ∈ cluster.topic) :
    (cluster.handleReplicationEvent callbacks nodeId now message).Sound := by
  rw [ReplicationCluster.handleReplicationEvent]
  by_cases skipped : message.event.sourceNodeId = nodeId ∨ nodeId ∉ message.targetNodeIds
  · rwa [if_pos skipped]
  · have target : nodeId ∈ message.targetNodeIds := not_not.mp (not_or.mp skipped).2
    obtain ⟨⟨event, targets, publish, ackPromise⟩, found, sameEvent, sameTargets⟩ :=
      sound.sent _ sent
    obtain ⟨messageEvent, messageTargets⟩ := message
    cases sameEvent
    cases sameTargets
    have observed := (sound.calling _ _ found).observed
    have known : cluster.calls event.eventId ≠ none := by
      simp [found]
    rw [if_neg skipped]
    have ran := @applyEvent_ran _ _ callbacks (cluster.engines nodeId).store now event
    simp only
    generalize ReplicationCluster.applyEvent callbacks (cluster.engines nodeId).store now
      event = tried at ran
    obtain ⟨didRun, error, store⟩ := tried
    have handled := sound.withStore nodeId store
    cases didRun with
    | false =>
        apply handled.send_ack found target
        intro succeeded
        cases ran succeeded
    | true =>
        cases error with
        | none =>
            have applied := handled.observe_callback ⟨targets, observed, target⟩ known
              (.inl rfl)
            exact applied.send_ack found target now none (fun _ => List.mem_cons_self)
        | some reason =>
            have threw := handled.observe_callback ⟨targets, observed, target⟩ known
              (.inr rfl)
            apply threw.send_ack found target
            intro succeeded
            cases succeeded

/-! ## Runs -/

theorem Sound.start (store : String → Store) :
    (start store : ReplicationCluster Value Store).Sound where
  explained := eachExplained_nil
  known _ member := absurd member List.not_mem_nil
  calling _ call found := absurd found (Option.some_ne_none call).symm
  waiting _ _ waiter stored := absurd stored (Option.some_ne_none waiter).symm
  sent _ member := absurd member List.not_mem_nil

theorem Sound.step (callbacks : String → ApplyCallbacks Value Store)
    (sound : cluster.Sound) {action : AckAction Value}
    (unique : cluster.UniqueEventId action) :
    (cluster.step callbacks action).Sound := by
  cases action with
  | replicateWrite nodeId eventId getReplicaNodeIds now key value metadata =>
      exact sound.callReplicate getReplicaNodeIds now key _ unique
  | replicateDelete nodeId eventId getReplicaNodeIds now key =>
      exact sound.callReplicate getReplicaNodeIds now key _ unique
  | publishReturns eventId => exact sound.publishReturns eventId
  | publishFails eventId reason => exact sound.publishFails eventId reason
  | deliver nodeId offset now =>
      rw [ReplicationCluster.step]
      cases read : cluster.topic[offset]? with
      | none => exact sound
      | some message =>
          have sent := List.mem_of_getElem? read
          cases message with
          | event message =>
              exact sound.handleReplicationEvent (callbacks nodeId) nodeId now sent
          | ack ack => exact sound.handleAck nodeId sent
  | ackTimeout nodeId eventId => exact sound.ackTimeout nodeId eventId
  | dispose nodeId => exact sound.dispose nodeId

/-- However the steps of the nodes, the messages, the timers and `dispose` interleave:
a call's promise settles at most once, what it resolves with is a duplicate-free list of
targets without the source that have all applied the event before, and of every target
unless the ack timeout fired before, and only targets apply the event. -/
theorem ack_protocol_safety (callbacks : String → ApplyCallbacks Value Store)
    (store : String → Store) (actions : List (AckAction Value))
    (unique : EveryStep (step callbacks) UniqueEventId (start store) actions) :
    EachExplained AckObservation.Explained
      (run (step callbacks) (start store) actions).history := by
  have sound : (run (step callbacks) (start store) actions).Sound := by
    apply unique.invariant _ (Sound.start store)
    intro cluster action sound isUnique
    exact sound.step callbacks isUnique
  exact sound.explained

/-- `"a"` replicates a write to `"b"` and `"c"`.  `"b"` applies it twice, `"c"` not in
time, and a second call resolves once its only target has acked. -/
def twoReplicas : List (AckAction Nat) :=
  [.replicateWrite "a" "repl-1" (fun _ => ["b", "a", "c"]) 0 "k" 7
      ⟨1, 0, 0, 0, 0, none, 1⟩,
    .deliver "b" 0 1, .deliver "b" 0 2, .publishReturns "repl-1", .deliver "a" 2 3,
    .deliver "a" 1 3, .ackTimeout "a" "repl-1",
    .replicateDelete "b" "repl-2" (fun _ => ["a", "b"]) 4 "k", .publishReturns "repl-2",
    .deliver "a" 3 5, .deliver "c" 3 5, .deliver "c" 0 6, .deliver "b" 4 7,
    .dispose "b"]

theorem ack_protocol_safety_twoReplicas :
    let start : ReplicationCluster Nat (StorageEngine Nat FifoEvictionHook) :=
      start (fun _ => StorageEngine.create .default ⟨⟩)
    let callbacks := fun _ : String => StorageEngine.applyCallbacks
    EveryStep (step callbacks) UniqueEventId start twoReplicas ∧
      EachExplained AckObservation.Explained
        (run (step callbacks) start twoReplicas).history ∧
      AckObservation.settled "repl-1" (.resolved ["b"]) ∈
        (run (step callbacks) start twoReplicas).history ∧
      AckObservation.settled "repl-2" (.resolved ["a"]) ∈
        (run (step callbacks) start twoReplicas).history := by
  refine ⟨by decide +kernel, ?_, by decide +kernel, by decide +kernel⟩
  exact ack_protocol_safety _ _ twoReplicas (by decide +kernel)

end ReplicationCluster

end FlowCache
