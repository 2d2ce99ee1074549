import FlowCache.CacheNode.Apply
import FlowCache.Library.Transition

/-!
# Deletions out of order

A replica receives the PUT and DELETE events of one key in any order, with repetitions
and omissions.  A DELETE event carries no version and leaves nothing behind, so the
replica cannot tell whether a write is older than a deletion it has processed, or a
deletion older than the write it holds.  Neither happens exactly along the deliveries in
which every PUT that precedes a processed DELETE is refused by its version, and every
DELETE comes before the writes that follow it.
-/

namespace FlowCache

open VersionedRegister Transition

variable {Value Hook : Type}

/-- A value with the position of the PUT event that carries it. -/
structure Positioned (Value : Type) where
  position : Nat
  value : Value
  deriving DecidableEq, Repr

/-- The position is not part of what is stored. -/
instance [SizedValue Value] : SizedValue (Positioned Value) where
  approximateSizeBytes positioned := SizedValue.approximateSizeBytes positioned.value

/-- What a primary publishes for one key. -/
inductive KeyChange (Value : Type) where
  | put (value : Value) (metadata : CacheMetadata)
  | delete
  deriving DecidableEq, Repr

/-- A write has a positive version and no time to live. -/
def KeyChange.Published : KeyChange Value → Prop
  | .put _ metadata => 0 < metadata.version ∧ metadata.expiresAt = none
  | .delete => True

instance : (change : KeyChange Value) → Decidable change.Published
  | .put _ metadata =>
      inferInstanceAs (Decidable (0 < metadata.version ∧ metadata.expiresAt = none))
  | .delete => .isTrue trivial

/-- The events a primary published for one key, in order. -/
structure KeyLog (Value : Type) where
  key : CacheKey
  validKey : key ≠ ""
  changes : List (KeyChange Value)
  published : ∀ change ∈ changes, change.Published

namespace KeyLog

/-- One delivery: which event, and the replica's clock. -/
structure Delivery (log : KeyLog Value) where
  index : Fin log.changes.length
  now : Millis

/-- A replica and what was delivered to it: the positions of the DELETE events, and since
the last of them the number of PUT events that were not refused by their version and the
position of the last one. -/
structure Replay (Value Hook : Type) where
  replica : StorageEngine (Positioned Value) Hook
  deletes : List Nat
  accepted : Nat
  last : Option Nat

/-- Start of a replay. -/
def start (replica : StorageEngine (Positioned Value) Hook) : Replay Value Hook :=
  ⟨replica, [], 0, none⟩

variable (log : KeyLog Value)

/-- The replica holds no value of a PUT that precedes a DELETE it has processed. -/
def NoResurrection (replay : Replay Value Hook) : Prop :=
  ∀ now entry, replay.replica.peek now log.key = some entry →
    ∀ delete ∈ replay.deletes, ¬entry.value.position < delete

/-- If the event is a DELETE, the replica does not hold a value of a PUT that follows
it. -/
def NoStaleDelete (replay : Replay Value Hook) (delivery : log.Delivery) : Prop :=
  match log.changes.get delivery.index with
  | .put _ _ => True
  | .delete => ∀ now entry, replay.replica.peek now log.key = some entry →
      ¬delivery.index < entry.value.position

/-- A PUT that precedes a processed DELETE carries a version that the replica has
reached since its last DELETE; the last PUT accepted when a DELETE comes does not follow
it in the log. -/
def Replay.Admits (replay : Replay Value Hook) (position : Nat) : KeyChange Value → Prop
  | .put _ metadata => (∃ delete ∈ replay.deletes, position < delete) →
      metadata.version ≤ replay.accepted
  | .delete => ∀ put ∈ replay.last, ¬position < put

instance (replay : Replay Value Hook) (position : Nat) :
    (change : KeyChange Value) → Decidable (replay.Admits position change)
  | .put _ metadata =>
      inferInstanceAs (Decidable ((∃ delete ∈ replay.deletes, position < delete) →
        metadata.version ≤ replay.accepted))
  | .delete => inferInstanceAs (Decidable (∀ put ∈ replay.last, ¬position < put))

/-- The event is admitted. -/
def InOrder (replay : Replay Value Hook) (delivery : log.Delivery) : Prop :=
  replay.Admits delivery.index (log.changes.get delivery.index)

instance (replay : Replay Value Hook) (delivery : log.Delivery) :
    Decidable (log.InOrder replay delivery) :=
  inferInstanceAs (Decidable (replay.Admits _ _))

/-- The replica holds the last PUT accepted since the last DELETE, under its own count of
them. -/
structure Linked (replay : Replay Value Hook) : Prop where
  perpetual : replay.replica.Perpetual
  register : (replay.replica.register log.key).map
      (fun held => (held.version, held.content.position)) =
    replay.last.map fun put => (replay.accepted, put)
  empty : replay.last = none → replay.accepted = 0

variable {log}

theorem linked_start {replica : StorageEngine (Positioned Value) Hook}
    (perpetual : replica.Perpetual) (absent : replica.store.get? log.key = none) :
    log.Linked (start replica) where
  perpetual := perpetual
  register := by simp [start, StorageEngine.register, absent]
  empty _ := rfl

theorem Linked.level {replay : Replay Value Hook} (linked : log.Linked replay) :
    (replay.replica.register log.key).level = replay.accepted := by
  have register := linked.register
  cases held : replay.replica.register log.key with
  | none =>
      rw [held, Option.map_none] at register
      rw [Register.level_none, linked.empty (Option.map_eq_none_iff.mp register.symm)]
  | some stamped =>
      rw [held, Option.map_some] at register
      obtain ⟨put, -, same⟩ := Option.map_eq_some_iff.mp register.symm
      rw [Register.level_some]
      exact (congrArg Prod.fst same).symm

/-- What the replica holds comes from the last PUT accepted. -/
theorem Linked.peek_position {replay : Replay Value Hook} (linked : log.Linked replay)
    (position : Nat) :
    (∃ now entry, replay.replica.peek now log.key = some entry ∧
      entry.value.position = position) ↔ replay.last = some position := by
  have held : (replay.replica.store.get? log.key).map
      (fun entry => entry.value.position) = replay.last := by
    have positions := congrArg (Option.map Prod.snd) linked.register
    simpa [StorageEngine.register, Option.map_map, Function.comp_def] using positions
  simp only [linked.perpetual.peek_eq, exists_const, ← held, Option.map_eq_some_iff]

theorem Linked.noResurrection_iff {replay : Replay Value Hook}
    (linked : log.Linked replay) :
    log.NoResurrection replay ↔
      ∀ put ∈ replay.last, ∀ delete ∈ replay.deletes, ¬put < delete := by
  constructor
  · intro none put member
    obtain ⟨now, entry, found, rfl⟩ := (linked.peek_position put).mpr member
    exact none now entry found
  · intro none now entry found
    exact none _ ((linked.peek_position _).mp ⟨now, entry, found, rfl⟩)

variable (log) [EvictionHook Hook] [SizedValue Value]

/-- Deliver one event: through `applyRemoteWrite` or `applyRemoteDelete`. -/
def deliver (replay : Replay Value Hook) (delivery : log.Delivery) : Replay Value Hook :=
  match log.changes.get delivery.index with
  | .put value metadata =>
      { replay with
        replica := replay.replica.afterRemoteWrite delivery.now log.key
          ⟨delivery.index, value⟩ metadata
        accepted := if metadata.version ≤ replay.accepted then replay.accepted
          else replay.accepted + 1
        last := if metadata.version ≤ replay.accepted then replay.last
          else some delivery.index }
  | .delete =>
      { replica := replay.replica.applyRemoteDelete log.key
        deletes := delivery.index :: replay.deletes
        accepted := 0
        last := none }

/-- The change causes no eviction. -/
def Replay.HasRoom (replay : Replay Value Hook) (now : Millis) (key : CacheKey)
    (position : Nat) : KeyChange Value → Prop
  | .put value metadata =>
      replay.replica.RemoteWriteFits now key ⟨position, value⟩ metadata
  | .delete => True

instance (replay : Replay Value Hook) (now : Millis) (key : CacheKey) (position : Nat) :
    (change : KeyChange Value) → Decidable (replay.HasRoom now key position change)
  | .put value metadata => inferInstanceAs
      (Decidable (replay.replica.RemoteWriteFits now key ⟨position, value⟩ metadata))
  | .delete => .isTrue trivial

/-- The delivery puts no capacity pressure on the replica. -/
def Fits (replay : Replay Value Hook) (delivery : log.Delivery) : Prop :=
  replay.HasRoom delivery.now log.key delivery.index (log.changes.get delivery.index)

instance (replay : Replay Value Hook) (delivery : log.Delivery) :
    Decidable (log.Fits replay delivery) :=
  inferInstanceAs (Decidable (replay.HasRoom _ _ _ _))

variable {log} {replay : Replay Value Hook} {delivery : log.Delivery}

theorem Linked.deliver (linked : log.Linked replay) (fits : log.Fits replay delivery) :
    log.Linked (log.deliver replay delivery) := by
  have published := log.published _ (List.get_mem log.changes delivery.index)
  rw [Fits] at fits
  rw [KeyLog.deliver]
  cases change : log.changes.get delivery.index with
  | delete =>
      refine ⟨linked.perpetual.delete log.key, ?_, fun _ => rfl⟩
      rw [StorageEngine.applyRemoteDelete, StorageEngine.delete_register, if_pos rfl]
      rfl
  | put value metadata =>
      rw [change] at published fits
      have offered := StorageEngine.afterRemoteWrite_register linked.perpetual log.validKey
        fits log.key
      rw [if_pos rfl] at offered
      refine ⟨linked.perpetual.afterRemoteWrite _ _ _ published.2, ?_, ?_⟩
      · simp only [offered]
        by_cases reached : metadata.version ≤ replay.accepted
        · rw [Register.offer_of_le published.1 (by rw [linked.level]; exact reached),
            if_pos reached, if_pos reached]
          exact linked.register
        · rw [Register.offer_of_lt (by rw [linked.level]; exact not_le.mp reached),
            Register.bump, linked.level, if_neg reached, if_neg reached]
          rfl
      · by_cases reached : metadata.version ≤ replay.accepted
        · simp only [reached, if_true]
          exact linked.empty
        · simp [reached]

/-- In a state without a resurrected value, exactly the events that come in order remove
no later value and resurrect none. -/
theorem Linked.inOrder_iff (linked : log.Linked replay)
    (none : log.NoResurrection replay) (fits : log.Fits replay delivery) :
    log.InOrder replay delivery ↔
      log.NoStaleDelete replay delivery ∧
        log.NoResurrection (log.deliver replay delivery) := by
  have next := (linked.deliver fits).noResurrection_iff
  rw [linked.noResurrection_iff] at none
  rw [next, InOrder, NoStaleDelete, KeyLog.deliver]
  cases change : log.changes.get delivery.index with
  | delete =>
      simp only [Replay.Admits, Option.mem_def, reduceCtorEq, false_imp_iff,
        implies_true, and_true]
      constructor
      · intro before now entry found
        exact before _ ((linked.peek_position _).mp ⟨now, entry, found, rfl⟩)
      · intro before put member
        obtain ⟨now, entry, found, rfl⟩ := (linked.peek_position put).mpr member
        exact before now entry found
  | put value metadata =>
      simp only [Replay.Admits, true_and]
      by_cases reached : metadata.version ≤ replay.accepted
      · simp only [reached, if_true, implies_true, true_iff]
        exact none
      · simp [reached]

/-- Along every sequence of deliveries without capacity pressure the replica never
removes a value by a DELETE that precedes it and never holds a value that precedes a
DELETE it has processed if and only if every event comes in order. -/
theorem no_resurrection_and_no_stale_delete_iff (log : KeyLog Value)
    (replica : StorageEngine (Positioned Value) Hook) (perpetual : replica.Perpetual)
    (absent : replica.store.get? log.key = none) (deliveries : List log.Delivery)
    (fits : EveryStep log.deliver log.Fits (start replica) deliveries) :
    EveryStep log.deliver
        (fun replay delivery => log.NoStaleDelete replay delivery ∧
          log.NoResurrection (log.deliver replay delivery))
        (start replica) deliveries ↔
      EveryStep log.deliver log.InOrder (start replica) deliveries := by
  symm
  refine @everyStep_iff _ _ log.deliver log.InOrder _ log.Fits
    (fun replay => log.Linked replay ∧ log.NoResurrection replay) _ deliveries ?_ ?_ ?_ fits
  · rintro replay delivery ⟨linked, -⟩ room ⟨-, reached⟩
    exact ⟨linked.deliver room, reached⟩
  · rintro replay delivery ⟨linked, none⟩ room
    exact linked.inOrder_iff none room
  · have linked := @linked_start _ _ log replica perpetual absent
    refine ⟨linked, linked.noResurrection_iff.mpr ?_⟩
    simp [start]

/-- Two writes, a deletion and a write, as a primary publishes them. -/
def writtenDeletedWritten : KeyLog Nat where
  key := "k"
  validKey := by decide
  changes := [.put 10 ⟨1, 0, 0, 0, 0, none, 2⟩, .put 20 ⟨2, 0, 5, 0, 0, none, 2⟩,
    .delete, .put 30 ⟨1, 9, 9, 9, 0, none, 2⟩]
  published := by decide

/-- A replica that has just been created with the default options. -/
def emptyReplica : StorageEngine (Positioned Nat) FifoEvictionHook :=
  StorageEngine.create .default ⟨⟩

/-- In-order delivery with a redelivery of the first write. -/
theorem writtenDeletedWritten_in_order :
    EveryStep writtenDeletedWritten.deliver
      (fun replay delivery => writtenDeletedWritten.NoStaleDelete replay delivery ∧
        writtenDeletedWritten.NoResurrection (writtenDeletedWritten.deliver replay delivery))
      (start emptyReplica)
      [⟨⟨0, by decide⟩, 1⟩, ⟨⟨1, by decide⟩, 6⟩, ⟨⟨0, by decide⟩, 7⟩,
        ⟨⟨2, by decide⟩, 8⟩, ⟨⟨3, by decide⟩, 10⟩] :=
  (no_resurrection_and_no_stale_delete_iff writtenDeletedWritten emptyReplica
    (StorageEngine.perpetual_create rfl _) rfl _ (by decide)).mpr (by decide)

/-- The deletion is delivered before the second write: the replica holds the deleted
value.  Delivered after the third write, it removes a value that follows it. -/
theorem writtenDeletedWritten_out_of_order :
    (EveryStep writtenDeletedWritten.deliver writtenDeletedWritten.Fits
        (start emptyReplica) [⟨⟨2, by decide⟩, 1⟩, ⟨⟨1, by decide⟩, 2⟩] ∧
      ¬writtenDeletedWritten.NoResurrection
        (run writtenDeletedWritten.deliver (start emptyReplica)
          [⟨⟨2, by decide⟩, 1⟩, ⟨⟨1, by decide⟩, 2⟩])) ∧
    EveryStep writtenDeletedWritten.deliver writtenDeletedWritten.Fits
        (start emptyReplica) [⟨⟨3, by decide⟩, 1⟩, ⟨⟨2, by decide⟩, 2⟩] ∧
      ¬writtenDeletedWritten.NoStaleDelete
        (run writtenDeletedWritten.deliver (start emptyReplica) [⟨⟨3, by decide⟩, 1⟩])
        ⟨⟨2, by decide⟩, 2⟩ := by
  refine ⟨⟨by decide, ?_⟩, by decide, ?_⟩
  · intro absent
    have held := absent 2 ⟨"k", ⟨1, 20⟩, ⟨1, 2, 2, 2, 0, none, 2⟩⟩ (by decide) 2 (by decide)
    exact held (by decide)
  · intro absent
    have held := absent 2 ⟨"k", ⟨3, 30⟩, ⟨1, 1, 1, 1, 0, none, 2⟩⟩ (by decide)
    exact held (by decide)

end KeyLog

end FlowCache
