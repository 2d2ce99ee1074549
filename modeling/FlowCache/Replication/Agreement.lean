import Mathlib.Data.List.Induction
import FlowCache.Replication.Primary

/-!
# A primary and a replica under perfect delivery

The replica handles the primary's messages exactly once and in order, and each node
reads a clock of its own.  Evictions, expirations and recovery change the primary
without any message, so agreement rests on two facts: an entry that is live on the
primary is covered by the last message about its key, and the replica holds what the
last message it handled said, unless its version check dropped that message or its
clock has run ahead of the message's deadline.
-/

namespace FlowCache

open Transition

variable {Value Hook : Type}

/-! ## The last message about a key -/

/-- The last operation a log has on a key. -/
def lastOp (log : List (EventMessage Value)) (key : CacheKey) :
    Option (ReplicationOp Value) :=
  log.foldl (fun found message =>
    if message.event.key = key then some message.event.op else found) none

/-- The value of the last PUT a log has of a key. -/
def lastPut (log : List (EventMessage Value)) (key : CacheKey) : Option Value :=
  log.foldl (fun found message =>
    match message.event.op with
    | .put value _ => if message.event.key = key then some value else found
    | .delete => found) none

theorem lastOp_append_singleton (log : List (EventMessage Value))
    (message : EventMessage Value) (key : CacheKey) :
    lastOp (log ++ [message]) key =
      if message.event.key = key then some message.event.op else lastOp log key := by
  simp [lastOp, List.foldl_append]

/-- The last operation on a key is that of a message about the key. -/
theorem exists_of_lastOp {log : List (EventMessage Value)} {key : CacheKey}
    {op : ReplicationOp Value} (last : lastOp log key = some op) :
    ∃ message ∈ log, message.event.key = key := by
  induction log using List.reverseRecOn with
  | nil => cases last
  | append_singleton log message ih =>
      rw [lastOp_append_singleton] at last
      by_cases about : message.event.key = key
      · exact ⟨message, by simp, about⟩
      · rw [if_neg about] at last
        obtain ⟨earlier, member, same⟩ := ih last
        exact ⟨earlier, List.mem_append_left _ member, same⟩

/-- If the last operation on a key is a PUT, it is the last PUT of the key. -/
theorem lastPut_of_lastOp {log : List (EventMessage Value)} {key : CacheKey}
    {value : Value} {metadata : Option CacheMetadata}
    (last : lastOp log key = some (.put value metadata)) :
    lastPut log key = some value := by
  induction log using List.reverseRecOn with
  | nil => cases last
  | append_singleton log message ih =>
      rw [lastOp_append_singleton] at last
      rw [lastPut, List.foldl_append, List.foldl_cons, List.foldl_nil]
      by_cases about : message.event.key = key
      · rw [if_pos about] at last
        cases op : message.event.op with
        | put written stamp =>
            rw [op] at last
            cases last
            simp [about]
        | delete =>
            rw [op] at last
            cases last
      · rw [if_neg about] at last
        have before := ih last
        rw [lastPut] at before
        cases op : message.event.op with
        | put written stamp => simp [about, before]
        | delete => simp [before]

/-- The last operation on a key is a PUT that expires no earlier than the given
deadline. -/
def CoveredBy (last : Option (ReplicationOp Value)) (expiresAt : Option Millis) : Prop :=
  match last with
  | some (.put _ (some metadata)) => ExpiresNoLater expiresAt metadata.expiresAt
  | some (.put _ none) => False
  | some .delete => False
  | none => False

instance (expiresAt : Option Millis) : (last : Option (ReplicationOp Value)) →
    Decidable (CoveredBy last expiresAt)
  | some (.put _ (some _)) => inferInstanceAs (Decidable (ExpiresNoLater _ _))
  | some (.put _ none) => .isFalse id
  | some .delete => .isFalse id
  | none => .isFalse id

theorem coveredBy_iff {last : Option (ReplicationOp Value)}
    {expiresAt : Option Millis} :
    CoveredBy last expiresAt ↔
      ∃ value metadata, last = some (.put value (some metadata)) ∧
        ExpiresNoLater expiresAt metadata.expiresAt := by
  constructor
  · intro covered
    match last with
    | some (.put value (some metadata)) => exact ⟨value, metadata, rfl, covered⟩
    | some (.put _ none) => exact covered.elim
    | some .delete => exact covered.elim
    | none => exact covered.elim
  · rintro ⟨value, metadata, rfl, noLater⟩
    exact noLater

/-! ## The primary -/

namespace Primary

variable (placement : Placement)

/-- Every live entry of a replicated key is covered by the last message about the
key. -/
def Covered (primary : Primary Value Hook) : Prop :=
  ∀ key entry, placement.Replicates key → primary.engine.store.get? key = some entry →
    entry.metadata.isExpired primary.clock = false →
    CoveredBy (lastOp primary.log key) entry.metadata.expiresAt

/-- A key that recovery brings back to life has a PUT that expires no earlier as its
last message. -/
def RestoresCovered (primary : Primary Value Hook) : PrimaryAction Value → Prop
  | .recover entries => ∀ entry ∈ entries, placement.Replicates entry.key →
      (∀ deadline ∈ primary.engine.remainingExpiry primary.clock entry.metadata.expiresAt,
        primary.clock < deadline) →
      CoveredBy (lastOp primary.log entry.key)
        (primary.engine.remainingExpiry primary.clock entry.metadata.expiresAt)
  | .tick _ | .put _ _ | .delete _ _ | .get _ | .has _ | .sweep => True

instance (primary : Primary Value Hook) :
    (action : PrimaryAction Value) → Decidable (primary.RestoresCovered placement action)
  | .recover entries => inferInstanceAs (Decidable (∀ entry ∈ entries, _))
  | .tick _ | .put _ _ | .delete _ _ | .get _ | .has _ | .sweep => .isTrue trivial

theorem covered_start (options : StorageEngineOptions) (hook : Hook) (clock : Millis) :
    (start options hook clock : Primary Value Hook).Covered placement := by
  intro key entry _ stored
  cases stored

variable {placement}

/-- An operation about one key leaves the last message about the others alone. -/
theorem lastOp_publish_of_ne (primary : Primary Value Hook) (eventId : String)
    {key query : CacheKey} (different : query ≠ key) (op : ReplicationOp Value) :
    lastOp (primary.publish placement eventId key op) query =
      lastOp primary.log query := by
  rcases primary.publish_cases placement eventId key op with
    ⟨unchanged, _⟩ | ⟨message, published, event, _⟩
  · rw [unchanged]
  · rw [published, lastOp_append_singleton, event, if_neg (Ne.symm different)]

/-- A published operation is the last one about a replicated key. -/
theorem lastOp_publish_self (primary : Primary Value Hook) (eventId : String)
    {key : CacheKey} (replicated : placement.Replicates key)
    (op : ReplicationOp Value) :
    lastOp (primary.publish placement eventId key op) key = some op := by
  rcases primary.publish_cases placement eventId key op with
    ⟨_, elsewhere⟩ | ⟨message, published, event, _⟩
  · exact (elsewhere replicated).elim
  · rw [published, lastOp_append_singleton, event, if_pos rfl]

/-- A step that publishes nothing and only forgets entries or touches them. -/
theorem Covered.silent {primary : Primary Value Hook}
    (covered : primary.Covered placement) {next : StorageEngine Value Hook}
    (stored : ∀ key after, next.store.get? key = some after →
      ∃ entry, primary.engine.store.get? key = some entry ∧
        after.metadata.expiresAt = entry.metadata.expiresAt) :
    Covered placement { primary with engine := next } := by
  intro key after replicated found live
  obtain ⟨entry, before, same⟩ := stored key after found
  have alive : entry.metadata.isExpired primary.clock = false := by
    rw [CacheMetadata.isExpired_eq_false_iff] at live ⊢
    rwa [same] at live
  rw [same]
  exact covered key entry replicated before alive

theorem Covered.tick {primary : Primary Value Hook}
    (covered : primary.Covered placement) (elapsed : Nat) :
    Covered placement { primary with clock := primary.clock + elapsed } := by
  intro key entry replicated stored live
  exact covered key entry replicated stored (isExpired_eq_false_of_tick live)

variable [EvictionHook Hook]

theorem Covered.delete {primary : Primary Value Hook}
    (covered : primary.Covered placement) (eventId : String) (key : CacheKey) :
    Covered placement
      { primary with
        engine := (primary.engine.delete key).2
        log := primary.publish placement eventId key .delete } := by
  intro query entry replicated stored live
  simp only [StorageEngine.delete_get?] at stored
  split at stored
  · cases stored
  · next different =>
      simp only [lastOp_publish_of_ne primary eventId different]
      exact covered query entry replicated stored live

variable [SizedValue Value]

theorem Covered.put {primary : Primary Value Hook}
    (covered : primary.Covered placement) (eventId : String) {key : CacheKey}
    (valid : key ≠ "") (value : Value) (options : SetOptions) :
    Covered placement
      { primary with
        engine := primary.engine.afterSet primary.clock key value options
        log := primary.publish placement eventId key
          (.put value (some (primary.engine.nextEntry primary.clock key value
            options).metadata)) } := by
  intro query entry replicated stored live
  rcases StorageEngine.afterSet_stored stored with ⟨_, rfl, rfl⟩ | ⟨kept, before⟩
  · simp only [lastOp_publish_self primary eventId replicated]
    exact ExpiresNoLater.refl _
  · have different : query ≠ key := kept.resolve_left valid
    simp only [lastOp_publish_of_ne primary eventId different]
    exact covered query entry replicated before live

theorem covered_of_restore {primary : Primary Value Hook}
    {entries : List (CacheEntry Value)}
    (restores : primary.RestoresCovered placement (.recover entries)) :
    (primary.step placement (.recover entries)).Covered placement := by
  intro key after replicated stored live
  obtain ⟨entry, member, rfl, -, expiresAt⟩ :=
    (StorageEngine.restoreEntries_stored _ _ _ key after stored).resolve_right
      fun impossible => by cases impossible
  rw [CacheMetadata.isExpired_eq_false_iff, expiresAt] at live
  rw [expiresAt]
  exact restores entry member replicated live

theorem Covered.step {primary : Primary Value Hook}
    (covered : primary.Covered placement) {action : PrimaryAction Value}
    (restores : primary.RestoresCovered placement action) :
    (primary.step placement action).Covered placement := by
  cases action with
  | put eventId body =>
      cases accepted : putRoute primary.engine primary.clock body with
      | error error => simpa [Primary.step, accepted] using covered
      | ok result =>
          obtain ⟨entry, next⟩ := result
          obtain ⟨key, value, options, _, valid, _, _, stepped⟩ :=
            step_put_of_ok placement eventId accepted
          rw [stepped]
          exact covered.put eventId valid value options
  | delete eventId key =>
      simp only [Primary.step]
      split
      · exact covered.delete eventId key
      · next missing =>
          rw [StorageEngine.delete_of_missing (by simpa using missing)]
          exact covered
  | tick elapsed => exact covered.tick elapsed
  | get key =>
      apply covered.silent
      intro query after stored
      obtain ⟨entry, before, same⟩ := StorageEngine.get_stored stored
      exact ⟨entry, before, same.expiresAt⟩
  | has key =>
      apply covered.silent
      intro query after stored
      exact ⟨after, StorageEngine.has_stored stored, rfl⟩
  | sweep =>
      apply covered.silent
      intro query after stored
      exact ⟨after, StorageEngine.sweepExpired_stored stored, rfl⟩
  | recover entries => exact covered_of_restore restores

end Primary

/-! ## The pair -/

/-- A primary, a replica of it with its own clock, and how many messages the replica has
handled. -/
structure Pair (Value Hook : Type) where
  primary : Primary Value Hook
  replica : StorageEngine Value Hook
  replicaClock : Millis
  handled : Nat

/-- What can happen to the pair.  The clocks of the two nodes never go back, and are
otherwise unrelated. -/
inductive PairAction (Value : Type) where
  | onPrimary (action : PrimaryAction Value)
  | deliver
  | replicaTick (elapsed : Nat)
  | replicaGet (key : CacheKey)
  | replicaHas (key : CacheKey)
  | replicaSweep

/-- A PUT that has not expired by the first clock has not expired by the second. -/
def ReplicationOp.InTime (clock replicaClock : Millis) :
    Option (ReplicationOp Value) → Prop
  | some (.put _ (some metadata)) =>
      metadata.isExpired clock = false → metadata.isExpired replicaClock = false
  | some (.put _ none) => True
  | some .delete => True
  | none => True

instance (clock replicaClock : Millis) : (op : Option (ReplicationOp Value)) →
    Decidable (ReplicationOp.InTime clock replicaClock op)
  | some (.put _ (some metadata)) =>
      inferInstanceAs (Decidable (metadata.isExpired clock = false → _))
  | some (.put _ none) => .isTrue trivial
  | some .delete => .isTrue trivial
  | none => .isTrue trivial

/-- The primary's clock going on asks for less. -/
theorem ReplicationOp.InTime.of_elapsed {clock replicaClock : Millis}
    {op : Option (ReplicationOp Value)} (inTime : InTime clock replicaClock op)
    (elapsed : Nat) : InTime (clock + elapsed) replicaClock op := by
  match op with
  | some (.put _ (some metadata)) =>
      exact fun live => inTime (isExpired_eq_false_of_tick live)
  | some (.put _ none) => trivial
  | some .delete => trivial
  | none => trivial

namespace Pair

/-- Two nodes that have not served any request yet. -/
def start (options replicaOptions : StorageEngineOptions) (hook replicaHook : Hook)
    (clock replicaClock : Millis) : Pair Value Hook :=
  ⟨.start options hook clock, .create replicaOptions replicaHook, replicaClock, 0⟩

variable (placement : Placement)

/-- The replica holds the value of the primary's last PUT of every replicated key
that is live on the primary. -/
def Agrees (pair : Pair Value Hook) : Prop :=
  ∀ key entry, placement.Replicates key →
    pair.primary.engine.peek pair.primary.clock key = some entry →
    ∃ value, lastPut pair.primary.log key = some value ∧
      (pair.replica.peek pair.replicaClock key).map CacheEntry.value = some value

/-- The last operation on a key that the replica has handled. -/
def lastHandled (pair : Pair Value Hook) (key : CacheKey) : Option (ReplicationOp Value) :=
  lastOp (pair.primary.log.take pair.handled) key

/-- The replica holds what the last message it handled about each key said, and sees it
for as long as the primary does. -/
structure Tracks (pair : Pair Value Hook) : Prop where
  within : pair.handled ≤ pair.primary.log.length
  inTime : ∀ key, placement.Replicates key →
    ReplicationOp.InTime pair.primary.clock pair.replicaClock (pair.lastHandled key)
  holds : ∀ key value metadata, placement.Replicates key →
    pair.lastHandled key = some (.put value (some metadata)) →
    metadata.isExpired pair.primary.clock = false →
    ∃ entry, pair.replica.store.get? key = some entry ∧ entry.value = value ∧
      ExpiresNoLater metadata.expiresAt entry.metadata.expiresAt

variable {placement}

/-- A handled message is the last one about its key. -/
theorem lastHandled_succ {pair : Pair Value Hook} {message : EventMessage Value}
    (found : pair.primary.log[pair.handled]? = some message)
    (replica : StorageEngine Value Hook) (key : CacheKey) :
    ({ pair with replica := replica, handled := pair.handled + 1 } :
      Pair Value Hook).lastHandled key =
        if message.event.key = key then some message.event.op
        else pair.lastHandled key := by
  simp only [lastHandled, List.take_add_one, found, Option.toList_some,
    lastOp_append_singleton]

theorem Tracks.live {pair : Pair Value Hook} (tracks : pair.Tracks placement)
    {key : CacheKey} {value : Value} {metadata : CacheMetadata}
    (replicated : placement.Replicates key)
    (last : pair.lastHandled key = some (.put value (some metadata)))
    (alive : metadata.isExpired pair.primary.clock = false) :
    metadata.isExpired pair.replicaClock = false := by
  have inTime := tracks.inTime key replicated
  rw [last] at inTime
  exact inTime alive

/-- When everything published has been handled, the two facts give agreement. -/
theorem Tracks.agrees {pair : Pair Value Hook} (tracks : pair.Tracks placement)
    (covered : pair.primary.Covered placement)
    (finished : pair.handled = pair.primary.log.length) : pair.Agrees placement := by
  intro key entry replicated live
  obtain ⟨stored, alive⟩ := StorageEngine.peek_eq_some_iff.mp live
  obtain ⟨value, metadata, last, noLater⟩ :=
    coveredBy_iff.mp (covered key entry replicated stored alive)
  refine ⟨value, lastPut_of_lastOp last, ?_⟩
  have handled : pair.lastHandled key = some (.put value (some metadata)) := by
    rw [lastHandled, finished, List.take_length, last]
  obtain ⟨held, found, same, outlives⟩ :=
    tracks.holds key value metadata replicated handled (noLater.live alive)
  have peeked : pair.replica.peek pair.replicaClock key = some held :=
    StorageEngine.peek_eq_some_iff.mpr
      ⟨found, outlives.live (tracks.live replicated handled (noLater.live alive))⟩
  rw [peeked, Option.map_some, same]

/-- A step of the replica alone that keeps live entries. -/
theorem Tracks.onReplica {pair : Pair Value Hook} (tracks : pair.Tracks placement)
    {next : StorageEngine Value Hook}
    (keeps : ∀ key entry, pair.replica.store.get? key = some entry →
      entry.metadata.isExpired pair.replicaClock = false →
      ∃ after, next.store.get? key = some after ∧ CacheEntry.SameContent after entry) :
    Tracks placement { pair with replica := next } where
  within := tracks.within
  inTime := tracks.inTime
  holds := by
    intro key value metadata replicated last live
    obtain ⟨entry, found, same, outlives⟩ :=
      tracks.holds key value metadata replicated last live
    obtain ⟨after, kept, content⟩ :=
      keeps key entry found (outlives.live (tracks.live replicated last live))
    refine ⟨after, kept, by rw [content.value, same], ?_⟩
    rw [content.expiresAt]
    exact outlives

/-- What every run keeps: addressing, coverage of the primary's live entries, and
what the replica holds. -/
structure Sound (placement : Placement) (pair : Pair Value Hook) : Prop where
  addressed : pair.primary.Addressed placement
  covered : pair.primary.Covered placement
  tracks : pair.Tracks placement

theorem sound_start (options replicaOptions : StorageEngineOptions)
    (hook replicaHook : Hook) (clock replicaClock : Millis) :
    Sound placement
      (start options replicaOptions hook replicaHook clock replicaClock :
        Pair Value Hook) where
  addressed := Primary.addressed_start placement options hook clock
  covered := Primary.covered_start placement options hook clock
  tracks := by
    refine ⟨Nat.le_refl _, fun _ _ => trivial, ?_⟩
    intro key value metadata _ impossible
    cases impossible

end Pair

/-- A PUT that meets a live entry of at least its version says what this entry says, and
one that does not expire at its origin does not expire here. -/
def StorageEngine.AcceptsEvent (engine : StorageEngine Value Hook) (now : Millis)
    (event : ReplicationEvent Value) : Prop :=
  match event.op with
  | .put value (some metadata) =>
      if engine.isStaleWrite now event.key metadata then
        engine.AlreadyHolds now event.key value metadata.expiresAt
      else
        metadata.expiresAt = none → engine.options.defaultTtlMs = none
  | .put _ none => True
  | .delete => True

instance [DecidableEq Value] (engine : StorageEngine Value Hook) (now : Millis) :
    (event : ReplicationEvent Value) → Decidable (engine.AcceptsEvent now event)
  | ⟨_, _, key, .put value (some metadata), _⟩ =>
      inferInstanceAs (Decidable (if engine.isStaleWrite now key metadata then
        engine.AlreadyHolds now key value metadata.expiresAt else _))
  | ⟨_, _, _, .put _ none, _⟩ => .isTrue trivial
  | ⟨_, _, _, .delete, _⟩ => .isTrue trivial

namespace Pair

variable (placement : Placement) [EvictionHook Hook] [SizedValue Value]

/-- One action of the pair. -/
def step (pair : Pair Value Hook) : PairAction Value → Pair Value Hook
  | .onPrimary action => { pair with primary := pair.primary.step placement action }
  | .deliver =>
      match pair.primary.log[pair.handled]? with
      | none => pair
      | some message =>
          { pair with
            replica := (pair.replica.handleReplicationEvent placement.replicaId
              pair.replicaClock message).2
            handled := pair.handled + 1 }
  | .replicaTick elapsed => { pair with replicaClock := pair.replicaClock + elapsed }
  | .replicaGet key => { pair with replica := (pair.replica.get pair.replicaClock key).2 }
  | .replicaHas key => { pair with replica := (pair.replica.has pair.replicaClock key).2 }
  | .replicaSweep =>
      { pair with replica := (pair.replica.sweepExpired pair.replicaClock).2 }

/-- The replica evicts nothing itself. -/
def Roomy (pair : Pair Value Hook) : PairAction Value → Prop
  | .deliver => ∀ message ∈ pair.primary.log[pair.handled]?,
      placement.replicaId ∈ message.targetNodeIds →
      pair.replica.EventFits pair.replicaClock message.event
  | .onPrimary _ | .replicaTick _ | .replicaGet _ | .replicaHas _ | .replicaSweep => True

/-- The replica accepts what it is delivered, recovery on the primary brings nothing back
that the log does not cover, and no PUT that the replica has handled last of its key
expires by the replica's clock before it does by the primary's. -/
def Undropped (pair : Pair Value Hook) : PairAction Value → Prop
  | .onPrimary action => pair.primary.RestoresCovered placement action
  | .deliver => ∀ message ∈ pair.primary.log[pair.handled]?,
      placement.replicaId ∈ message.targetNodeIds →
      pair.replica.AcceptsEvent pair.replicaClock message.event ∧
        ReplicationOp.InTime pair.primary.clock pair.replicaClock (some message.event.op)
  | .replicaTick elapsed => ∀ message ∈ pair.primary.log,
      placement.Replicates message.event.key →
      ReplicationOp.InTime pair.primary.clock (pair.replicaClock + elapsed)
        (pair.lastHandled message.event.key)
  | .replicaGet _ | .replicaHas _ | .replicaSweep => True

instance (pair : Pair Value Hook) :
    (action : PairAction Value) → Decidable (pair.Roomy placement action)
  | .deliver => inferInstanceAs
      (Decidable (∀ message ∈ pair.primary.log[pair.handled]?, _))
  | .onPrimary _ | .replicaTick _ | .replicaGet _ | .replicaHas _ | .replicaSweep =>
      .isTrue trivial

instance [DecidableEq Value] (pair : Pair Value Hook) :
    (action : PairAction Value) → Decidable (pair.Undropped placement action)
  | .onPrimary action => inferInstanceAs
      (Decidable (pair.primary.RestoresCovered placement action))
  | .deliver => inferInstanceAs
      (Decidable (∀ message ∈ pair.primary.log[pair.handled]?, _))
  | .replicaTick _ => inferInstanceAs (Decidable (∀ message ∈ pair.primary.log, _))
  | .replicaGet _ | .replicaHas _ | .replicaSweep => .isTrue trivial

variable {placement}

/-- What an accepted event that fits leaves on the replica. -/
theorem afterEvent_holds {replica : StorageEngine Value Hook} {now : Millis}
    {event : ReplicationEvent Value}
    (valid : ∀ value metadata, event.op = .put value metadata → event.key ≠ "")
    (fits : replica.EventFits now event) (accepts : replica.AcceptsEvent now event) :
    (∀ key, key ≠ event.key →
        (replica.afterEvent now event).store.get? key = replica.store.get? key) ∧
      ∀ value metadata, event.op = .put value (some metadata) →
        ∃ entry, (replica.afterEvent now event).store.get? event.key = some entry ∧
          entry.value = value ∧
          ExpiresNoLater metadata.expiresAt entry.metadata.expiresAt := by
  obtain ⟨eventId, source, key, op, timestamp⟩ := event
  cases op with
  | delete =>
      constructor
      · intro query different
        simp only [StorageEngine.afterEvent, StorageEngine.delete_get?]
        rw [if_neg different]
      · intro value metadata impossible
        cases impossible
  | put written stamp =>
      cases stamp with
      | none =>
          refine ⟨fun _ _ => rfl, ?_⟩
          intro value metadata impossible
          cases impossible
      | some stamp =>
          have nonempty : key ≠ "" := valid written _ rfl
          cases stale : replica.isStaleWrite now key stamp with
          | true =>
              -- The event is dropped: the entry that stops it says the same.
              have kept : replica.AlreadyHolds now key written stamp.expiresAt := by
                simpa [StorageEngine.AcceptsEvent, stale] using accepts
              obtain ⟨entry, live, same, outlives⟩ := kept
              simp only [StorageEngine.afterEvent,
                StorageEngine.afterRemoteWrite_of_stale stale]
              refine ⟨fun _ _ => trivial, ?_⟩
              rintro value metadata ⟨⟩
              exact ⟨entry, (StorageEngine.peek_eq_some_iff.mp live).1, same, outlives⟩
          | false =>
              have kept : stamp.expiresAt = none → replica.options.defaultTtlMs = none := by
                simpa [StorageEngine.AcceptsEvent, stale] using accepts
              have room := fits.resolve_left (by rw [stale]; exact Bool.false_ne_true)
              have looked := StorageEngine.afterSet_get?_of_within nonempty room
              simp only [StorageEngine.afterEvent,
                StorageEngine.afterRemoteWrite_of_fresh stale]
              constructor
              · intro query different
                rw [looked, if_neg different]
              · rintro value metadata ⟨⟩
                refine ⟨_, by rw [looked, if_pos rfl], rfl, ?_⟩
                rw [StorageEngine.nextEntry_remainingTtl]
                exact replica.expiresNoLater_remaining now kept

/-- What the primary publishes is not handled yet. -/
theorem lastHandled_onPrimary {pair : Pair Value Hook}
    (within : pair.handled ≤ pair.primary.log.length) (action : PrimaryAction Value)
    (key : CacheKey) :
    (pair.step placement (.onPrimary action)).lastHandled key = pair.lastHandled key := by
  obtain ⟨added, extended⟩ := pair.primary.log_prefix_step placement action
  simp only [lastHandled, step, ← extended, List.take_append_of_le_length within]

theorem Tracks.onPrimary {pair : Pair Value Hook} (tracks : pair.Tracks placement)
    (action : PrimaryAction Value) :
    (pair.step placement (.onPrimary action)).Tracks placement := by
  obtain ⟨added, extended⟩ := pair.primary.log_prefix_step placement action
  obtain ⟨elapsed, later⟩ := pair.primary.exists_elapsed_step placement action
  have within := tracks.within
  constructor
  case within =>
    simp only [step, ← extended, List.length_append]
    omega
  case inTime =>
    intro key replicated
    rw [lastHandled_onPrimary within]
    simp only [step, later]
    exact (tracks.inTime key replicated).of_elapsed elapsed
  case holds =>
    intro key value metadata replicated last live
    rw [lastHandled_onPrimary within] at last
    simp only [step, later] at live
    exact tracks.holds key value metadata replicated last
      (isExpired_eq_false_of_tick live)

theorem Tracks.replicaTick {pair : Pair Value Hook} (tracks : pair.Tracks placement)
    {elapsed : Nat} (undropped : pair.Undropped placement (.replicaTick elapsed)) :
    (pair.step placement (.replicaTick elapsed)).Tracks placement where
  within := tracks.within
  inTime := by
    intro key replicated
    change ReplicationOp.InTime _ _ (pair.lastHandled key)
    cases last : pair.lastHandled key with
    | none => trivial
    | some op =>
        obtain ⟨message, member, rfl⟩ := exists_of_lastOp last
        rw [← last]
        exact undropped message (List.mem_of_mem_take member) replicated
  holds := tracks.holds

theorem Tracks.deliver {pair : Pair Value Hook} (tracks : pair.Tracks placement)
    (addressed : pair.primary.Addressed placement)
    (roomy : pair.Roomy placement .deliver)
    (undropped : pair.Undropped placement .deliver) :
    (pair.step placement .deliver).Tracks placement := by
  cases found : pair.primary.log[pair.handled]? with
  | none => simpa [step, found] using tracks
  | some message =>
      have routed := addressed message (List.mem_of_getElem? found)
      have below : pair.handled < pair.primary.log.length := by
        by_contra beyond
        rw [List.getElem?_eq_none (by omega)] at found
        cases found
      simp only [step, found]
      constructor
      case within => exact below
      case inTime =>
        intro key replicated
        rw [lastHandled_succ found]
        by_cases about : message.event.key = key
        · rw [if_pos about]
          rw [← about] at replicated
          exact (undropped message found (routed.target.mpr replicated)).2
        · rw [if_neg about]
          exact tracks.inTime key replicated
      case holds =>
        intro key value metadata replicated last live
        rw [lastHandled_succ found] at last
        by_cases target : placement.replicaId ∈ message.targetNodeIds
        · have foreign : message.event.sourceNodeId ≠ placement.replicaId := by
            rw [routed.source]
            exact Ne.symm placement.distinct
          obtain ⟨others, written⟩ := afterEvent_holds
            (fun value metadata isPut => (routed.writes value metadata isPut).1)
            (roomy message found target) (undropped message found target).1
          simp only [StorageEngine.handleReplicationEvent_of_target foreign target]
          by_cases about : message.event.key = key
          · rw [if_pos about] at last
            rw [← about]
            exact written value metadata (Option.some.inj last)
          · rw [if_neg about] at last
            rw [others key (Ne.symm about)]
            exact tracks.holds key value metadata replicated last live
        · have about : message.event.key ≠ key := by
            rintro rfl
            exact target (routed.target.mpr replicated)
          rw [if_neg about] at last
          simp only [StorageEngine.handleReplicationEvent_of_not_target target]
          exact tracks.holds key value metadata replicated last live

theorem Tracks.step {pair : Pair Value Hook} (tracks : pair.Tracks placement)
    (addressed : pair.primary.Addressed placement) {action : PairAction Value}
    (roomy : pair.Roomy placement action) (undropped : pair.Undropped placement action) :
    (pair.step placement action).Tracks placement := by
  cases action with
  | onPrimary action => exact tracks.onPrimary action
  | deliver => exact tracks.deliver addressed roomy undropped
  | replicaTick elapsed => exact tracks.replicaTick undropped
  | replicaGet key =>
      apply tracks.onReplica
      intro query entry found live
      exact StorageEngine.get_keeps_live key found live
  | replicaHas key =>
      apply tracks.onReplica
      intro query entry found live
      exact ⟨entry, StorageEngine.has_keeps_live key found live, rfl, rfl, rfl, rfl⟩
  | replicaSweep =>
      apply tracks.onReplica
      intro query entry found live
      exact ⟨entry, StorageEngine.sweepExpired_keeps_live found live, rfl, rfl, rfl, rfl⟩

theorem Sound.step {pair : Pair Value Hook} (sound : Sound placement pair)
    {action : PairAction Value} (roomy : pair.Roomy placement action)
    (undropped : pair.Undropped placement action) :
    Sound placement (pair.step placement action) := by
  have tracks := sound.tracks.step sound.addressed roomy undropped
  cases action with
  | onPrimary action =>
      exact ⟨sound.addressed.step action, sound.covered.step undropped, tracks⟩
  | deliver =>
      have same : (pair.step placement .deliver).primary = pair.primary := by
        simp only [Pair.step]
        split <;> rfl
      exact ⟨by rw [same]; exact sound.addressed, by rw [same]; exact sound.covered,
        tracks⟩
  | replicaTick elapsed => exact ⟨sound.addressed, sound.covered, tracks⟩
  | replicaGet key => exact ⟨sound.addressed, sound.covered, tracks⟩
  | replicaHas key => exact ⟨sound.addressed, sound.covered, tracks⟩
  | replicaSweep => exact ⟨sound.addressed, sound.covered, tracks⟩

/-- In every run in which the replica evicts nothing, its version check drops nothing it
does not hold, its clock does not run ahead of the deadlines of what it holds, and
recovery brings back nothing the log does not cover, the replica agrees with the primary
whenever it has handled the whole log. -/
theorem agrees_when_handled (options replicaOptions : StorageEngineOptions)
    (hook replicaHook : Hook) (clock replicaClock : Millis)
    (actions : List (PairAction Value))
    (roomy : EveryStep (step placement) (Roomy placement)
      (start options replicaOptions hook replicaHook clock replicaClock) actions)
    (undropped : EveryStep (step placement) (Undropped placement)
      (start options replicaOptions hook replicaHook clock replicaClock) actions)
    {pair : Pair Value Hook}
    (reached : run (step placement)
      (start options replicaOptions hook replicaHook clock replicaClock) actions = pair)
    (finished : pair.handled = pair.primary.log.length) :
    pair.Agrees placement := by
  have sound : Sound placement pair := by
    rw [← reached]
    exact (roomy.and undropped).invariant
      (fun _ _ sound met => sound.step met.1 met.2)
      (sound_start options replicaOptions hook replicaHook clock replicaClock)
  exact sound.tracks.agrees sound.covered finished

/-- A restored entry of `"k"`. -/
def restoredK : CacheEntry Nat := ⟨"k", 5, ⟨1, 0, 0, 0, 0, some 10, 1⟩⟩

/-- Two writes with a time to live, a recovery from a snapshot taken between them,
and reads on the replica. -/
def recoveringRun : List (PairAction Nat) :=
  [.onPrimary (.put "e1" ⟨some "k", some 5, .number 10⟩), .deliver, .replicaTick 4,
    .onPrimary (.tick 3), .onPrimary (.put "e2" ⟨some "k", some 7, .number 10⟩),
    .replicaGet "k", .deliver, .onPrimary (.recover [restoredK]),
    .onPrimary (.tick 2), .replicaTick 6, .replicaSweep]

/-- The pair after that run, with the default options on both nodes; the replica's clock is
one millisecond ahead at the start and six at the end. -/
def recoveringPair : Pair Nat FifoEvictionHook :=
  run (step pairPlacement) (start .default .default ⟨⟩ ⟨⟩ 0 1) recoveringRun

theorem recoveringPair_agrees :
    recoveringPair.primary.clock = 5 ∧ recoveringPair.replicaClock = 11 ∧
      (recoveringPair.replica.peek 11 "k").map CacheEntry.value = some 7 ∧
      recoveringPair.Agrees pairPlacement := by
  have reached : run (step pairPlacement) (start .default .default
      (⟨⟩ : FifoEvictionHook) (⟨⟩ : FifoEvictionHook) 0 1) recoveringRun =
        recoveringPair := rfl
  refine ⟨by decide +kernel, by decide +kernel, by decide +kernel, ?_⟩
  exact agrees_when_handled .default .default (⟨⟩ : FifoEvictionHook)
    (⟨⟩ : FifoEvictionHook) 0 1 recoveringRun (by decide +kernel) (by decide +kernel)
    reached (by decide +kernel)

/-- The primary has room for one entry: writing `"j"` evicts `"k"`, so the next
write of `"k"` starts again at version 1. -/
def evictingRun : List (PairAction Nat) :=
  [.onPrimary (.put "e1" (plainPut "k" 1)), .onPrimary (.put "e2" (plainPut "j" 2)),
    .onPrimary (.put "e3" (plainPut "k" 3)), .deliver, .deliver, .deliver]

/-- The pair after that run; the replica has no cap. -/
def evictingPair : Pair Nat FifoEvictionHook :=
  run (step pairPlacement) (start ⟨.infinity, .finite 1, none⟩ .default ⟨⟩ ⟨⟩ 0 0)
    evictingRun

theorem evictingPair_disagrees :
    EveryStep (step pairPlacement) (Roomy pairPlacement)
        (start ⟨.infinity, .finite 1, none⟩ .default ⟨⟩ ⟨⟩ 0 0 :
          Pair Nat FifoEvictionHook) evictingRun ∧
      evictingPair.handled = evictingPair.primary.log.length ∧
      (evictingPair.primary.engine.peek 0 "k").map CacheEntry.value = some 3 ∧
      (evictingPair.replica.peek 0 "k").map CacheEntry.value = some 1 ∧
      ¬evictingPair.Agrees pairPlacement := by
  refine ⟨by decide +kernel, by decide +kernel, by decide +kernel, by decide +kernel, ?_⟩
  intro agrees
  have live : (evictingPair.primary.engine.peek evictingPair.primary.clock "k").isSome :=
    by decide +kernel
  obtain ⟨entry, peeked⟩ := Option.isSome_iff_exists.mp live
  obtain ⟨value, last, held⟩ := agrees "k" entry (by decide) peeked
  have written : lastPut evictingPair.primary.log "k" = some 3 := by
    decide +kernel
  rw [written] at last
  cases last
  revert held
  decide +kernel

end Pair

end FlowCache
