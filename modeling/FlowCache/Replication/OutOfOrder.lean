import FlowCache.CacheNode.Apply
import FlowCache.Library.Transition

/-!
# Out-of-order delivery of one key's writes

A replica receives the PUT events of one key through `applyRemoteWrite`, in any
order, with repetitions and omissions.  The replica's own counter only counts the
writes it applied, so it can lag behind the version of the value it holds, and
the version check then lets an older write through.  The replica holds the newest
write delivered so far exactly along the deliveries that avoid this.
-/

namespace FlowCache

open VersionedRegister Transition

variable {Value Hook : Type}

/-- The PUT events a primary published for one key: versions are positive and
increase, and no write has a time to live. -/
structure PutLog (Value : Type) where
  key : CacheKey
  validKey : key ≠ ""
  writes : List (Value × CacheMetadata)
  positive : ∀ write ∈ writes, 0 < write.2.version
  increasing : writes.Pairwise fun earlier later => earlier.2.version < later.2.version
  noDeadline : ∀ write ∈ writes, write.2.expiresAt = none

namespace PutLog

/-- The log as the register of its key sees it. -/
def toIncreasing (log : PutLog Value) : IncreasingLog Value log.writes.length where
  write index := ⟨(log.writes.get index).2.version, (log.writes.get index).1⟩
  positive index := log.positive _ (List.get_mem _ _)
  increasing := by
    intro earlier later before
    exact List.pairwise_iff_getElem.mp log.increasing earlier later
      earlier.isLt later.isLt before

/-- A replica and the newest write delivered to it so far. -/
structure Replay (log : PutLog Value) (Hook : Type) where
  replica : StorageEngine Value Hook
  newest : Option (Fin log.writes.length)

/-- One delivery: which write, and the replica's clock. -/
structure Delivery (log : PutLog Value) where
  index : Fin log.writes.length
  now : Millis

variable (log : PutLog Value)

/-- The replica holds the value of the highest version delivered so far. -/
def HoldsNewest (replay : log.Replay Hook) : Prop :=
  ∀ now, (replay.replica.peek now log.key).map CacheEntry.value =
    replay.newest.map fun index => (log.writes.get index).1

/-- A write older than the newest one delivered arrives when the replica's own
version of the key has already reached its version, or carries the value that the
newest one carries. -/
def CaughtUp (replay : log.Replay Hook) (delivery : log.Delivery) : Prop :=
  ∀ newest ∈ replay.newest, delivery.index < newest →
    (log.writes.get delivery.index).2.version ≤ (replay.replica.register log.key).level ∨
      (log.writes.get delivery.index).1 = (log.writes.get newest).1

instance [DecidableEq Value] (replay : log.Replay Hook) (delivery : log.Delivery) :
    Decidable (log.CaughtUp replay delivery) :=
  inferInstanceAs (Decidable (∀ newest ∈ replay.newest, _))

/-- What every delivery preserves, whether or not the replica stays current. -/
structure Consistent (replay : log.Replay Hook) : Prop where
  perpetual : replay.replica.Perpetual
  bounded : log.toIncreasing.Bounded (replay.replica.register log.key) replay.newest

theorem holdsNewest_iff_current {replay : log.Replay Hook}
    (perpetual : replay.replica.Perpetual) :
    log.HoldsNewest replay ↔
      log.toIncreasing.Current (replay.replica.register log.key) replay.newest := by
  simp only [HoldsNewest, perpetual.peek_eq, forall_const,
    IncreasingLog.Current, StorageEngine.register_content]
  rfl

variable [EvictionHook Hook] [SizedValue Value]

/-- Deliver one write through `applyRemoteWrite`. -/
def deliver (replay : log.Replay Hook) (delivery : log.Delivery) : log.Replay Hook where
  replica := replay.replica.afterRemoteWrite delivery.now log.key
    (log.writes.get delivery.index).1 (log.writes.get delivery.index).2
  newest := some (IncreasingLog.newest replay.newest delivery.index)

/-- The delivery puts no capacity pressure on the replica. -/
def Fits (replay : log.Replay Hook) (delivery : log.Delivery) : Prop :=
  replay.replica.RemoteWriteFits delivery.now log.key
    (log.writes.get delivery.index).1 (log.writes.get delivery.index).2

instance (replay : log.Replay Hook) (delivery : log.Delivery) :
    Decidable (log.Fits replay delivery) :=
  inferInstanceAs (Decidable (StorageEngine.RemoteWriteFits _ _ _ _ _))

theorem deliver_register {replay : log.Replay Hook} {delivery : log.Delivery}
    (perpetual : replay.replica.Perpetual) (fits : log.Fits replay delivery) :
    (log.deliver replay delivery).replica.register log.key =
      (replay.replica.register log.key).offer
        (log.toIncreasing.write delivery.index) := by
  rw [deliver, StorageEngine.afterRemoteWrite_register perpetual log.validKey fits]
  simp [toIncreasing]

theorem Consistent.deliver {replay : log.Replay Hook} {delivery : log.Delivery}
    (consistent : log.Consistent replay) (fits : log.Fits replay delivery) :
    log.Consistent (log.deliver replay delivery) where
  perpetual := consistent.perpetual.afterRemoteWrite _ _ _
    (log.noDeadline _ (List.get_mem _ _))
  bounded := by
    rw [log.deliver_register consistent.perpetual fits]
    exact consistent.bounded.offer _ delivery.index

/-- In a consistent state that holds the newest write, exactly the deliveries
that find the replica caught up lead to a state that holds the newest write. -/
theorem caughtUp_iff_holdsNewest {replay : log.Replay Hook} {delivery : log.Delivery}
    (consistent : log.Consistent replay) (holds : log.HoldsNewest replay)
    (fits : log.Fits replay delivery) :
    log.CaughtUp replay delivery ↔ log.HoldsNewest (log.deliver replay delivery) := by
  have current := (log.holdsNewest_iff_current consistent.perpetual).mp holds
  have next := Consistent.deliver log consistent fits
  rw [log.holdsNewest_iff_current next.perpetual,
    log.deliver_register consistent.perpetual fits]
  have safe := log.toIncreasing.current_offer_iff consistent.bounded current
    delivery.index
  rw [deliver, ← safe]
  simp [CaughtUp, IncreasingLog.Safe, toIncreasing, Option.mem_def]

/-- Start of a replay: the replica does not have the key yet. -/
def start (replica : StorageEngine Value Hook) : log.Replay Hook := ⟨replica, none⟩

/-- Along every sequence of deliveries without capacity pressure, the replica
holds the value of the highest version delivered so far after each of them if and
only if each delivery of an older write finds the replica caught up with it. -/
theorem holdsNewest_after_each_iff (replica : StorageEngine Value Hook)
    (perpetual : replica.Perpetual) (absent : replica.store.get? log.key = none)
    (deliveries : List log.Delivery)
    (fits : EveryStep log.deliver log.Fits (log.start replica) deliveries) :
    EveryStep log.deliver
        (fun replay delivery => log.HoldsNewest (log.deliver replay delivery))
        (log.start replica) deliveries ↔
      EveryStep log.deliver log.CaughtUp (log.start replica) deliveries := by
  have consistent : log.Consistent (log.start replica) :=
    ⟨perpetual, by simp [start, IncreasingLog.Bounded, StorageEngine.register, absent]⟩
  have holds : log.HoldsNewest (log.start replica) := by
    intro now
    simp [start, StorageEngine.peek, absent]
  have along := everyStep_iff_goal
    (fun _ _ consistent _ fits _ => Consistent.deliver log consistent fits)
    (fun _ _ => log.caughtUp_iff_holdsNewest) consistent holds fits
  exact along.symm

theorem validKey_k : "k" ≠ "" := by decide

/-- Three writes of one key, as a fresh primary publishes them. -/
def threeWrites : PutLog Nat where
  key := "k"
  validKey := validKey_k
  writes := [(10, ⟨1, 0, 0, 0, 0, none, 2⟩), (20, ⟨2, 0, 5, 0, 0, none, 2⟩),
    (30, ⟨3, 0, 9, 0, 0, none, 2⟩)]
  positive := by decide
  increasing := by decide
  noDeadline := by decide

/-- A replica that has just been created with the default options. -/
def freshReplica : StorageEngine Nat FifoEvictionHook :=
  StorageEngine.create .default ⟨⟩

/-- In-order delivery with a redelivery of an old write keeps the newest value. -/
theorem threeWrites_in_order :
    EveryStep threeWrites.deliver
      (fun replay delivery =>
        threeWrites.HoldsNewest (threeWrites.deliver replay delivery))
      (threeWrites.start freshReplica)
        [⟨⟨0, by decide⟩, 1⟩, ⟨⟨1, by decide⟩, 6⟩, ⟨⟨0, by decide⟩, 7⟩,
          ⟨⟨2, by decide⟩, 10⟩] :=
  (threeWrites.holdsNewest_after_each_iff freshReplica
    (StorageEngine.perpetual_create rfl _) rfl _ (by decide)).mpr (by decide)

/-- The third write followed by the second one. -/
def newestFirst : List threeWrites.Delivery :=
  [⟨⟨2, by decide⟩, 10⟩, ⟨⟨1, by decide⟩, 11⟩]

/-- The third write is delivered first and the second one after it: the replica's
own version is 1, so the older write is applied over the newer one. -/
theorem threeWrites_clobbered :
    EveryStep threeWrites.deliver threeWrites.Fits
        (threeWrites.start freshReplica) newestFirst ∧
      ¬EveryStep threeWrites.deliver
        (fun replay delivery =>
          threeWrites.HoldsNewest (threeWrites.deliver replay delivery))
        (threeWrites.start freshReplica) newestFirst := by
  refine ⟨by decide, ?_⟩
  intro holds
  have held := holds.2.1 11
  revert held
  decide

end PutLog

end FlowCache
