import FlowCache.CacheNode.Recovery
import FlowCache.CacheNode.Routes
import FlowCache.Replication.Engine
import FlowCache.Library.Transition

/-!
# A primary and the events it publishes

One node serving clients: every accepted PUT and every DELETE of a stored key
appends one message to the node's log.  Evictions, expirations and recovery
change the storage without publishing anything.
-/

namespace FlowCache

variable {Value Hook : Type}

/-- Where the ring places keys, seen from one primary and one of its replicas. -/
structure Placement where
  primaryId : String
  replicaId : String
  getReplicaNodeIds : CacheKey → List String
  distinct : replicaId ≠ primaryId

/-- The replica is one of the nodes that hold the key. -/
def Placement.Replicates (placement : Placement) (key : CacheKey) : Prop :=
  placement.replicaId ∈ placement.getReplicaNodeIds key

instance (placement : Placement) : DecidablePred placement.Replicates :=
  fun key => inferInstanceAs
    (Decidable (placement.replicaId ∈ placement.getReplicaNodeIds key))

/-- A node that serves clients, its clock, and what it has published so far. -/
structure Primary (Value Hook : Type) where
  engine : StorageEngine Value Hook
  clock : Millis
  log : List (EventMessage Value)

/-- What can happen on a primary. `eventId` is what `generateId` returned. -/
inductive PrimaryAction (Value : Type) where
  | tick (elapsed : Nat)
  | put (eventId : String) (body : PutRequestBody Value)
  | delete (eventId : String) (key : CacheKey)
  | get (key : CacheKey)
  | has (key : CacheKey)
  | sweep
  | recover (entries : List (CacheEntry Value))

namespace Primary

/-- A node that has not served any request yet. -/
def start (options : StorageEngineOptions) (hook : Hook) (clock : Millis) :
    Primary Value Hook :=
  ⟨.create options hook, clock, []⟩

variable (placement : Placement)

/-- The log after publishing one operation. -/
def publish (primary : Primary Value Hook) (eventId : String) (key : CacheKey)
    (op : ReplicationOp Value) : List (EventMessage Value) :=
  primary.log ++ (replicate placement.primaryId placement.getReplicaNodeIds eventId
    primary.clock key op).toList

/-- What publishing one operation adds to the log. -/
theorem publish_cases (primary : Primary Value Hook) (eventId : String)
    (key : CacheKey) (op : ReplicationOp Value) :
    (primary.publish placement eventId key op = primary.log ∧
        ¬placement.Replicates key) ∨
      ∃ message, primary.publish placement eventId key op = primary.log ++ [message] ∧
        message.event = ⟨eventId, placement.primaryId, key, op, primary.clock⟩ ∧
        (placement.replicaId ∈ message.targetNodeIds ↔ placement.Replicates key) := by
  rcases replicate_cases placement.distinct placement.getReplicaNodeIds eventId
      primary.clock key op with
    ⟨nothing, elsewhere⟩ | ⟨message, published, event, target⟩
  · left
    rw [publish, nothing]
    exact ⟨List.append_nil _, elsewhere⟩
  · right
    rw [publish, published]
    exact ⟨message, rfl, event, target⟩

/-! ## Addressing -/

/-- A message of this primary that its replicas can apply. -/
structure Routed (message : EventMessage Value) : Prop where
  source : message.event.sourceNodeId = placement.primaryId
  target : placement.replicaId ∈ message.targetNodeIds ↔
    placement.Replicates message.event.key
  writes : ∀ value metadata, message.event.op = .put value metadata →
    message.event.key ≠ "" ∧ metadata.isSome

/-- Every published message is addressed to the replicas of its key. -/
def Addressed (primary : Primary Value Hook) : Prop :=
  ∀ message ∈ primary.log, Routed placement message

theorem addressed_start (options : StorageEngineOptions) (hook : Hook)
    (clock : Millis) :
    (start options hook clock : Primary Value Hook).Addressed placement := by
  intro message member
  cases member

theorem Addressed.publish {placement : Placement} {primary : Primary Value Hook}
    (addressed : primary.Addressed placement) (eventId : String) (key : CacheKey)
    (op : ReplicationOp Value)
    (writes : ∀ value metadata, op = .put value metadata →
      key ≠ "" ∧ metadata.isSome) :
    ∀ message ∈ primary.publish placement eventId key op, Routed placement message := by
  rcases primary.publish_cases placement eventId key op with
    ⟨unchanged, _⟩ | ⟨sent, published, event, target⟩
  · rw [unchanged]
    exact addressed
  · intro message member
    rw [published] at member
    rcases List.mem_append.mp member with old | new
    · exact addressed message old
    · rw [List.mem_singleton.mp new]
      exact ⟨by rw [event], by rw [event]; exact target, by rw [event]; exact writes⟩

/-! ## Steps -/

variable [EvictionHook Hook] [SizedValue Value]

/-- One action of the primary. -/
def step (primary : Primary Value Hook) : PrimaryAction Value → Primary Value Hook
  | .tick elapsed => { primary with clock := primary.clock + elapsed }
  | .put eventId body =>
      match putRoute primary.engine primary.clock body with
      | .error _ => primary
      | .ok (entry, engine) =>
          { primary with
            engine := engine
            log := primary.publish placement eventId entry.key
              (.put entry.value (some entry.metadata)) }
  | .delete eventId key =>
      let result := primary.engine.delete key
      if result.1 then
        { primary with
          engine := result.2
          log := primary.publish placement eventId key .delete }
      else
        { primary with engine := result.2 }
  | .get key => { primary with engine := (primary.engine.get primary.clock key).2 }
  | .has key => { primary with engine := (primary.engine.has primary.clock key).2 }
  | .sweep => { primary with engine := (primary.engine.sweepExpired primary.clock).2 }
  | .recover entries =>
      { primary with
        engine := (primary.engine.clear.restoreEntries primary.clock entries).2 }

/-- What an accepted PUT did: it wrote the next entry of its key and published
it. -/
theorem step_put_of_ok {primary : Primary Value Hook} (eventId : String)
    {body : PutRequestBody Value} {entry : CacheEntry Value}
    {next : StorageEngine Value Hook}
    (accepted : putRoute primary.engine primary.clock body = .ok (entry, next)) :
    ∃ key value options, body.key = some key ∧ key ≠ "" ∧ body.value = some value ∧
      body.ttlMs.setOptions = .ok options ∧
      primary.step placement (.put eventId body) =
        { primary with
          engine := primary.engine.afterSet primary.clock key value options
          log := primary.publish placement eventId key
            (.put value (some (primary.engine.nextEntry primary.clock key value
              options).metadata)) } := by
  obtain ⟨key, value, options, keyField, valid, valueField, ttl, rfl, rfl⟩ :=
    putRoute_ok accepted
  refine ⟨key, value, options, keyField, valid, valueField, ttl, ?_⟩
  simp only [step, accepted]
  rfl

/-- Publishing only ever extends the log. -/
theorem log_prefix_step (primary : Primary Value Hook) (action : PrimaryAction Value) :
    primary.log <+: (primary.step placement action).log := by
  cases action with
  | put eventId body =>
      simp only [step]
      split
      · exact List.prefix_rfl
      · exact List.prefix_append _ _
  | delete eventId key =>
      simp only [step]
      split
      · exact List.prefix_append _ _
      · exact List.prefix_rfl
  | tick elapsed => exact List.prefix_rfl
  | get key => exact List.prefix_rfl
  | has key => exact List.prefix_rfl
  | sweep => exact List.prefix_rfl
  | recover entries => exact List.prefix_rfl

theorem exists_elapsed_step (primary : Primary Value Hook)
    (action : PrimaryAction Value) :
    ∃ elapsed : Nat,
      (primary.step placement action).clock = primary.clock + elapsed := by
  cases action with
  | tick elapsed => exact ⟨elapsed, rfl⟩
  | put eventId body =>
      refine ⟨0, ?_⟩
      simp only [step]
      split <;> simp
  | delete eventId key =>
      refine ⟨0, ?_⟩
      simp only [step]
      split <;> simp
  | get key => exact ⟨0, (Int.add_zero _).symm⟩
  | has key => exact ⟨0, (Int.add_zero _).symm⟩
  | sweep => exact ⟨0, (Int.add_zero _).symm⟩
  | recover entries => exact ⟨0, (Int.add_zero _).symm⟩

theorem Addressed.step {placement : Placement}
    {primary : Primary Value Hook} (addressed : primary.Addressed placement)
    (action : PrimaryAction Value) :
    (primary.step placement action).Addressed placement := by
  cases action with
  | put eventId body =>
      cases accepted : putRoute primary.engine primary.clock body with
      | error error =>
          simpa [Primary.step, accepted] using addressed
      | ok result =>
          obtain ⟨entry, next⟩ := result
          obtain ⟨key, value, options, _, valid, _, _, stepped⟩ :=
            step_put_of_ok placement eventId accepted
          rw [stepped]
          apply addressed.publish
          rintro written metadata ⟨⟩
          exact ⟨valid, rfl⟩
  | delete eventId key =>
      simp only [Primary.step]
      split
      · apply addressed.publish
        intro value metadata impossible
        cases impossible
      · exact addressed
  | tick elapsed => exact addressed
  | get key => exact addressed
  | has key => exact addressed
  | sweep => exact addressed
  | recover entries => exact addressed

end Primary

/-- Two nodes that both hold every key. -/
def pairPlacement : Placement where
  primaryId := "node-1"
  replicaId := "node-2"
  getReplicaNodeIds := fun _ => ["node-1", "node-2"]
  distinct := by decide

/-- A PUT body without a time to live. -/
def plainPut (key : CacheKey) (value : Nat) : PutRequestBody Nat :=
  ⟨some key, some value, .absent⟩

end FlowCache
