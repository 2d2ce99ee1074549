import FlowCache.CacheNode.Routes
import FlowCache.Library.Transition
import FlowCache.Library.TwoWriters
import FlowCache.Replication.Engine

/-!
# Two nodes that both accept writes

After a failover and back, two nodes that hold the same key both accept client
PUTs of it and publish them to each other.  Each direction of the exchange is
first-in first-out and exactly once.  Key by key this is the exchange of two
versioned registers.
-/

namespace FlowCache

open VersionedRegister Transition

variable {Value Hook : Type}

/-- One of the two nodes. -/
inductive Side where
  | first
  | second
  deriving DecidableEq, Repr

/-- The node on the other side. -/
def Side.other : Side → Side
  | .first => .second
  | .second => .first

@[simp] theorem Side.other_other (side : Side) : side.other.other = side := by
  cases side <;> rfl

@[simp] theorem Side.other_ne (side : Side) : side.other ≠ side := by
  cases side <;> decide

@[simp] theorem Side.ne_other (side : Side) : side ≠ side.other :=
  Ne.symm side.other_ne

/-- The two nodes and where the ring places keys. -/
structure WriterPlacement where
  nodeId : Side → String
  getReplicaNodeIds : CacheKey → List String
  distinct : ∀ side, nodeId side.other ≠ nodeId side

/-- Both nodes hold the key. -/
def WriterPlacement.Shares (placement : WriterPlacement) (key : CacheKey) : Prop :=
  ∀ side, placement.nodeId side ∈ placement.getReplicaNodeIds key

private theorem forall_side_iff {property : Side → Prop} :
    property .first ∧ property .second ↔ ∀ side, property side := by
  constructor
  · intro both side
    cases side with
    | first => exact both.1
    | second => exact both.2
  · intro all
    exact ⟨all .first, all .second⟩

instance (placement : WriterPlacement) (key : CacheKey) :
    Decidable (placement.Shares key) :=
  decidable_of_iff _ forall_side_iff

/-- The storage of each node, and the messages on their way to it. -/
structure Writers (Value Hook : Type) where
  engine : Side → StorageEngine Value Hook
  inbox : Side → List (EventMessage Value)

/-- A client PUT on one node, or the delivery of the oldest message to one node.
`now` is what that node's clock shows. -/
inductive WriterAction (Value : Type) where
  | put (side : Side) (eventId : String) (now : Millis) (body : PutRequestBody Value)
  | deliver (side : Side) (now : Millis)

/-- The write of a key that a message carries. -/
def stampOf (key : CacheKey) (message : EventMessage Value) : Option (Stamped Value) :=
  if message.event.key = key then
    match message.event.op with
    | .put value (some metadata) => some ⟨metadata.version, value⟩
    | .put _ none => none
    | .delete => none
  else
    none

theorem stampOf_of_ne {key : CacheKey} {message : EventMessage Value}
    (different : message.event.key ≠ key) : stampOf key message = none := by
  rw [stampOf, if_neg different]

namespace Writers

/-- Two nodes that have not served any request yet. -/
def start (options : Side → StorageEngineOptions) (hook : Side → Hook) :
    Writers Value Hook where
  engine side := .create (options side) (hook side)
  inbox _ := []

/-- The register of a key on one node. -/
def register (state : Writers Value Hook) (side : Side) (key : CacheKey) :
    Register Value :=
  (state.engine side).register key

/-- The writes of a key on their way to one node, oldest first. -/
def waiting (state : Writers Value Hook) (side : Side) (key : CacheKey) :
    List (Stamped Value) :=
  (state.inbox side).filterMap (stampOf key)

/-- Every message has arrived. -/
def Quiescent (state : Writers Value Hook) : Prop :=
  ∀ side, state.inbox side = []

instance [DecidableEq Value] (state : Writers Value Hook) :
    Decidable state.Quiescent :=
  decidable_of_iff _ forall_side_iff

/-- The exchange of one key, seen from one node. -/
def ExchangeAt (state : Writers Value Hook) (key : CacheKey) (side : Side) : Prop :=
  Exchange (state.register side key) (state.waiting side key)
    (state.register side.other key) (state.waiting side.other key)

theorem ExchangeAt.symm {state : Writers Value Hook} {key : CacheKey} {side : Side}
    (exchange : state.ExchangeAt key side) : state.ExchangeAt key side.other := by
  rw [ExchangeAt, Side.other_other]
  exact Exchange.symm exchange

theorem ExchangeAt.both {state : Writers Value Hook} {key : CacheKey} {side : Side}
    (exchange : state.ExchangeAt key side) (query : Side) :
    state.ExchangeAt key query := by
  by_cases same : query = side
  · rw [same]
    exact exchange
  · have other : query = side.other := by
      cases query <;> cases side <;> simp_all [Side.other]
    rw [other]
    exact exchange.symm

variable (placement : WriterPlacement)

/-- A message that was sent to a node by the other one: a PUT that does not
expire. -/
structure Sent (side : Side) (message : EventMessage Value) : Prop where
  source : message.event.sourceNodeId = placement.nodeId side.other
  target : placement.nodeId side ∈ message.targetNodeIds ↔
    placement.nodeId side ∈ placement.getReplicaNodeIds message.event.key
  valid : message.event.key ≠ ""
  write : ∃ value metadata, message.event.op = .put value (some metadata) ∧
    metadata.expiresAt = none

/-- Both stores are perpetual, and every shared key is being exchanged. -/
structure Consistent (state : Writers Value Hook) : Prop where
  perpetual : ∀ side, (state.engine side).Perpetual
  sent : ∀ side, ∀ message ∈ state.inbox side, Sent placement side message
  exchange : ∀ key, placement.Shares key → ∀ side, state.ExchangeAt key side

theorem consistent_start {options : Side → StorageEngineOptions}
    (noDefault : ∀ side, (options side).defaultTtlMs = none) (hook : Side → Hook) :
    Consistent placement (start options hook : Writers Value Hook) where
  perpetual := fun side => StorageEngine.perpetual_create (noDefault side) (hook side)
  sent := by
    intro side message member
    cases member
  exchange := fun _ _ _ => Exchange.empty

/-- When everything has arrived, both nodes hold the same value of a shared key. -/
theorem Consistent.agree {placement : WriterPlacement} {state : Writers Value Hook}
    (consistent : state.Consistent placement) (quiescent : state.Quiescent)
    {key : CacheKey} (shared : placement.Shares key) :
    state.register .first key = state.register .second key := by
  have agree := (consistent.exchange key shared .first).agree
  simpa [waiting, quiescent .first, quiescent .second, Side.other] using agree

/-- What a PUT publishes is sent to the other node. -/
theorem sent_of_replicated {placement : WriterPlacement} {side : Side}
    {eventId : String} {now : Millis} {key : CacheKey} {value : Value}
    {metadata : CacheMetadata} {message : EventMessage Value} (valid : key ≠ "")
    (noDeadline : metadata.expiresAt = none)
    (published : message ∈ (replicate (placement.nodeId side) placement.getReplicaNodeIds
      eventId now key (.put value (some metadata))).toList) :
    Sent placement side.other message := by
  rcases replicate_cases (placement.distinct side) placement.getReplicaNodeIds eventId now
    key (.put value (some metadata)) with ⟨nothing, _⟩ | ⟨sent, found, event, target⟩
  · rw [nothing] at published
    cases published
  · rw [found, Option.toList_some, List.mem_singleton] at published
    subst published
    constructor
    · rw [event, Side.other_other]
    · rw [event]
      exact target
    · rw [event]
      exact valid
    · rw [event]
      exact ⟨value, metadata, rfl, noDeadline⟩

/-- A shared key waits for exactly the PUTs of it that were published. -/
theorem stamps_of_replicated {placement : WriterPlacement} {query : CacheKey}
    (shared : placement.Shares query) (side : Side) (eventId : String) (now : Millis)
    (key : CacheKey) (value : Value) (metadata : CacheMetadata) :
    (replicate (placement.nodeId side) placement.getReplicaNodeIds eventId now key
        (.put value (some metadata))).toList.filterMap (stampOf query) =
      if query = key then [⟨metadata.version, value⟩] else [] := by
  rcases replicate_cases (placement.distinct side) placement.getReplicaNodeIds eventId now
    key (.put value (some metadata)) with ⟨nothing, elsewhere⟩ | ⟨sent, found, event, _⟩
  · rw [nothing]
    split
    · next same =>
        subst same
        exact (elsewhere (shared side.other)).elim
    · rfl
  · rw [found, Option.toList_some]
    split
    · next same =>
        have stamp : stampOf query sent = some ⟨metadata.version, value⟩ := by
          rw [stampOf, event, if_pos same.symm]
        rw [List.filterMap_cons_some stamp, List.filterMap_nil]
    · next different =>
        have about : sent.event.key ≠ query := by
          rw [event]
          exact Ne.symm different
        rw [List.filterMap_cons_none (stampOf_of_ne about), List.filterMap_nil]

/-- One side changes its store and one inbox changes. -/
theorem Consistent.update {placement : WriterPlacement} {state : Writers Value Hook}
    (consistent : state.Consistent placement) {side receiver : Side}
    {engine : StorageEngine Value Hook} {messages : List (EventMessage Value)}
    (perpetual : engine.Perpetual)
    (sent : ∀ message ∈ messages, Sent placement receiver message)
    (exchange : ∀ key, placement.Shares key →
      ExchangeAt
        { engine := Function.update state.engine side engine
          inbox := Function.update state.inbox receiver messages } key side) :
    Consistent placement
      { engine := Function.update state.engine side engine
        inbox := Function.update state.inbox receiver messages } where
  perpetual := by
    intro query
    by_cases same : query = side
    · subst same
      simpa using perpetual
    · simpa [Function.update_of_ne same] using consistent.perpetual query
  sent := by
    intro query message member
    by_cases same : query = receiver
    · subst same
      simp only [Function.update_self] at member
      exact sent message member
    · simp only [Function.update_of_ne same] at member
      exact consistent.sent query message member
  exchange := by
    intro key shared
    exact (exchange key shared).both

variable [EvictionHook Hook] [SizedValue Value]

/-- One action of the two nodes. -/
def step (state : Writers Value Hook) : WriterAction Value → Writers Value Hook
  | .put side eventId now body =>
      match putRoute (state.engine side) now body with
      | .error _ => state
      | .ok (entry, next) =>
          { engine := Function.update state.engine side next
            inbox := Function.update state.inbox side.other
              (state.inbox side.other ++
                (replicate (placement.nodeId side) placement.getReplicaNodeIds eventId
                  now entry.key (.put entry.value (some entry.metadata))).toList) }
  | .deliver side now =>
      match state.inbox side with
      | [] => state
      | message :: rest =>
          { engine := Function.update state.engine side
              ((state.engine side).handleReplicationEvent (placement.nodeId side) now
                message).2
            inbox := Function.update state.inbox side rest }

/-- PUTs have no time to live, and nothing is evicted. -/
def Plain (state : Writers Value Hook) : WriterAction Value → Prop
  | .put side _ now body => body.ttlMs = .absent ∧
      ∀ key ∈ body.key, ∀ value ∈ body.value,
        ((state.engine side).writeEntry now key value ⟨none⟩).overCapacity = false
  | .deliver side now =>
      ∀ message ∈ (state.inbox side).head?,
        (state.engine side).EventFits now message.event

instance (state : Writers Value Hook) :
    (action : WriterAction Value) → Decidable (state.Plain action)
  | .put _ _ _ body => inferInstanceAs (Decidable (body.ttlMs = .absent ∧ _))
  | .deliver side _ => inferInstanceAs (Decidable (∀ message ∈ (state.inbox side).head?, _))

/-- A PUT of a shared key does not meet a waiting write of the version it is about
to take with another value. -/
def Undisputed (state : Writers Value Hook) : WriterAction Value → Prop
  | .put side _ _ body =>
      ∀ key ∈ body.key, ∀ value ∈ body.value, placement.Shares key →
        ¬Collides (state.register side key) (state.waiting side key) value
  | .deliver _ _ => True

instance [DecidableEq Value] (state : Writers Value Hook) :
    (action : WriterAction Value) → Decidable (state.Undisputed placement action)
  | .put _ _ _ body => inferInstanceAs (Decidable (∀ key ∈ body.key, _))
  | .deliver _ _ => .isTrue trivial

variable {placement}

theorem Consistent.put {state : Writers Value Hook}
    (consistent : state.Consistent placement) {side : Side} {now : Millis}
    {key : CacheKey} (valid : key ≠ "") {value : Value}
    (fits : ((state.engine side).writeEntry now key value ⟨none⟩).overCapacity = false)
    (quiet : placement.Shares key →
      ¬Collides (state.register side key) (state.waiting side key) value)
    (eventId : String) :
    Consistent placement
      { engine := Function.update state.engine side
          ((state.engine side).afterSet now key value ⟨none⟩)
        inbox := Function.update state.inbox side.other
          (state.inbox side.other ++
            (replicate (placement.nodeId side) placement.getReplicaNodeIds eventId now
              key (.put value (some ((state.engine side).nextEntry now key value
                ⟨none⟩).metadata))).toList) } := by
  have perpetual := consistent.perpetual side
  have noDeadline : ((state.engine side).nextEntry now key value
      ⟨none⟩).metadata.expiresAt = none := by
    rw [StorageEngine.nextEntry_expiresAt, Option.getD_none, perpetual.noDefault,
      Option.map_none]
  apply consistent.update (perpetual.afterSet now key value)
  · intro message member
    cases List.mem_append.mp member with
    | inl old => exact consistent.sent _ message old
    | inr new => exact sent_of_replicated valid noDeadline new
  · intro query shared
    have before := consistent.exchange query shared side
    unfold ExchangeAt register waiting
    simp only [Function.update_self, Function.update_of_ne (Side.other_ne side),
      Function.update_of_ne (Side.ne_other side), List.filterMap_append,
      StorageEngine.afterSet_register valid fits, stamps_of_replicated shared]
    by_cases same : query = key
    · subst same
      rw [if_pos rfl, if_pos rfl, StorageEngine.nextEntry_version,
        ← StorageEngine.register_level]
      exact Exchange.write before (quiet shared)
    · rw [if_neg same, if_neg same, List.append_nil]
      exact before

/-- A delivered message is applied, unless its key is not placed on the node. -/
theorem Sent.handled {side : Side} {message : EventMessage Value} {value : Value}
    {metadata : CacheMetadata} (sent : Sent placement side message)
    (op : message.event.op = .put value (some metadata))
    (engine : StorageEngine Value Hook) (now : Millis) :
    placement.nodeId side ∉ placement.getReplicaNodeIds message.event.key ∧
        (engine.handleReplicationEvent (placement.nodeId side) now message).2 = engine ∨
      (engine.handleReplicationEvent (placement.nodeId side) now message).2 =
        engine.afterRemoteWrite now message.event.key value metadata := by
  have foreign : message.event.sourceNodeId ≠ placement.nodeId side := by
    rw [sent.source]
    exact placement.distinct side
  by_cases target : placement.nodeId side ∈ message.targetNodeIds
  · right
    rw [StorageEngine.handleReplicationEvent_of_target foreign target,
      StorageEngine.afterEvent, op]
  · left
    exact ⟨fun placed => target (sent.target.mpr placed),
      StorageEngine.handleReplicationEvent_of_not_target target⟩

theorem Consistent.deliver {state : Writers Value Hook}
    (consistent : state.Consistent placement) {side : Side} {now : Millis}
    {message : EventMessage Value} {rest : List (EventMessage Value)}
    (oldest : state.inbox side = message :: rest)
    (fits : (state.engine side).EventFits now message.event) :
    Consistent placement
      { engine := Function.update state.engine side
          ((state.engine side).handleReplicationEvent (placement.nodeId side) now
            message).2
        inbox := Function.update state.inbox side rest } := by
  have perpetual := consistent.perpetual side
  have sent := consistent.sent side message (by simp [oldest])
  obtain ⟨value, metadata, op, noDeadline⟩ := sent.write
  have handled := sent.handled op (state.engine side) now
  have room : (state.engine side).RemoteWriteFits now message.event.key value
      metadata := by
    simpa [StorageEngine.EventFits, op] using fits
  apply consistent.update
  · rcases handled with ⟨_, unchanged⟩ | written
    · rw [unchanged]
      exact perpetual
    · rw [written]
      exact perpetual.afterRemoteWrite now _ value noDeadline
  · intro other member
    exact consistent.sent _ other (by simp [oldest, member])
  · intro query shared
    have before := consistent.exchange query shared side
    unfold ExchangeAt register waiting at *
    simp only [Function.update_self, Function.update_of_ne (Side.other_ne side)]
    rw [oldest] at before
    by_cases same : message.event.key = query
    · subst same
      have stamp : stampOf message.event.key message =
          some ⟨metadata.version, value⟩ := by
        rw [stampOf, if_pos rfl, op]
      rw [List.filterMap_cons_some stamp] at before
      rcases handled with ⟨elsewhere, _⟩ | written
      · exact (elsewhere (shared side)).elim
      · rw [written,
          StorageEngine.afterRemoteWrite_register perpetual sent.valid room, if_pos rfl]
        exact before.deliver
    · rw [List.filterMap_cons_none (stampOf_of_ne same)] at before
      rcases handled with ⟨_, unchanged⟩ | written
      · rw [unchanged]
        exact before
      · rw [written,
          StorageEngine.afterRemoteWrite_register perpetual sent.valid room,
          if_neg (Ne.symm same)]
        exact before

theorem Consistent.step {state : Writers Value Hook}
    (consistent : state.Consistent placement) {action : WriterAction Value}
    (plain : state.Plain action) (undisputed : state.Undisputed placement action) :
    (state.step placement action).Consistent placement := by
  cases action with
  | put side eventId now body =>
      cases accepted : putRoute (state.engine side) now body with
      | error error => simpa [Writers.step, accepted] using consistent
      | ok result =>
          obtain ⟨entry, next⟩ := result
          simp only [Writers.step, accepted]
          obtain ⟨key, value, options, keyField, valid, valueField, ttl, rfl, rfl⟩ :=
            putRoute_ok accepted
          have noTtl : options = ⟨none⟩ := by
            rw [plain.1] at ttl
            cases ttl
            rfl
          subst noTtl
          exact consistent.put valid (plain.2 key keyField value valueField)
            (undisputed key keyField value valueField) eventId
  | deliver side now =>
      cases inbox : state.inbox side with
      | nil => simpa [Writers.step, inbox] using consistent
      | cons message rest =>
          simp only [Writers.step, inbox]
          apply consistent.deliver inbox
          exact plain message (by rw [inbox]; rfl)

/-- In every run in which no PUT meets a waiting write of the version it is about
to take with another value, both nodes hold the same value of every shared key
whenever all messages have arrived. -/
theorem agree_when_quiescent {options : Side → StorageEngineOptions}
    (noDefault : ∀ side, (options side).defaultTtlMs = none) (hook : Side → Hook)
    (actions : List (WriterAction Value))
    (plain : EveryStep (step placement) Plain (start options hook) actions)
    (undisputed : EveryStep (step placement) (Undisputed placement)
      (start options hook) actions)
    {state : Writers Value Hook}
    (reached : run (step placement) (start options hook) actions = state)
    (quiescent : state.Quiescent) {key : CacheKey} (shared : placement.Shares key)
    (now : Millis) :
    ((state.engine .first).peek now key).map CacheEntry.value =
      ((state.engine .second).peek now key).map CacheEntry.value := by
  have consistent : state.Consistent placement := by
    rw [← reached]
    have both := plain.and undisputed
    exact both.invariant
      (fun _ _ consistent met => consistent.step met.1 met.2)
      (consistent_start placement noDefault hook)
  rw [(consistent.perpetual .first).peek_eq, (consistent.perpetual .second).peek_eq,
    ← StorageEngine.register_content, ← StorageEngine.register_content]
  have agree := consistent.agree quiescent shared
  rw [register, register] at agree
  rw [agree]

/-- Two nodes that hold every key. -/
def bothHold : WriterPlacement where
  nodeId
    | .first => "node-1"
    | .second => "node-2"
  getReplicaNodeIds := fun _ => ["node-1", "node-2"]
  distinct := by
    intro side
    cases side <;> decide

/-- Two nodes with the default options. -/
def freshPair : Writers Nat FifoEvictionHook :=
  start (fun _ => .default) fun _ => ⟨⟩

/-- The second node writes after it has received the first node's write. -/
def inTurn : List (WriterAction Nat) :=
  [.put .first "e1" 1 ⟨some "k", some 10, .absent⟩, .deliver .second 2,
    .put .second "e2" 3 ⟨some "k", some 20, .absent⟩, .deliver .first 4]

theorem inTurn_agrees :
    (((run (step bothHold) freshPair inTurn).engine .first).peek 5 "k").map
        CacheEntry.value = some 20 ∧
      (((run (step bothHold) freshPair inTurn).engine .first).peek 5 "k").map
          CacheEntry.value =
        (((run (step bothHold) freshPair inTurn).engine .second).peek 5 "k").map
          CacheEntry.value := by
  refine ⟨by decide +kernel, ?_⟩
  have options : ∀ side : Side,
      ((fun _ => .default : Side → StorageEngineOptions) side).defaultTtlMs = none :=
    fun _ => rfl
  have shared : bothHold.Shares "k" := by
    decide
  exact agree_when_quiescent options (fun _ => (⟨⟩ : FifoEvictionHook)) inTurn
    (by decide +kernel) (by decide +kernel) rfl (by decide +kernel) shared 5

/-- Both nodes write before either receives the other's write. -/
def concurrently : List (WriterAction Nat) :=
  [.put .first "e1" 1 ⟨some "k", some 10, .absent⟩,
    .put .second "e2" 1 ⟨some "k", some 20, .absent⟩, .deliver .second 2,
    .deliver .first 2]

/-- Both writes carry version 1, so each node drops the other's. -/
theorem concurrently_diverges :
    EveryStep (step bothHold) Plain freshPair concurrently ∧
      (run (step bothHold) freshPair concurrently).Quiescent ∧
      bothHold.Shares "k" ∧
      (((run (step bothHold) freshPair concurrently).engine .first).peek 3 "k").map
        CacheEntry.value = some 10 ∧
      (((run (step bothHold) freshPair concurrently).engine .second).peek 3 "k").map
        CacheEntry.value = some 20 := by
  decide +kernel

end Writers

end FlowCache
