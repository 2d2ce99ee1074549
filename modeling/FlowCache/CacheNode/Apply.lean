import FlowCache.Storage.Spec
import FlowCache.Library.VersionedRegister

/-!
# Applying replicated and restored entries

`applyRemoteWrite`, `applyRemoteDelete` and `applyRestoredEntry` of
`CacheNodeServer`.  A store in which nothing expires is a family of versioned
registers, one per key: a local write is `Register.bump`, a replicated write is
`Register.offer`, a deletion empties the register.
-/

namespace FlowCache

open VersionedRegister

/-! ## Deadlines -/

/-- The first deadline does not come after the second; `none` never comes. -/
def ExpiresNoLater (early late : Option Millis) : Prop :=
  ∀ deadline ∈ late, ∃ sooner ∈ early, sooner ≤ deadline

instance (early late : Option Millis) : Decidable (ExpiresNoLater early late) :=
  inferInstanceAs (Decidable (∀ deadline ∈ late, ∃ sooner ∈ early, sooner ≤ deadline))

theorem ExpiresNoLater.refl (expiresAt : Option Millis) :
    ExpiresNoLater expiresAt expiresAt :=
  fun deadline member => ⟨deadline, member, Int.le_refl _⟩

theorem CacheMetadata.isExpired_eq_false_iff {metadata : CacheMetadata} {now : Millis} :
    metadata.isExpired now = false ↔ ∀ deadline ∈ metadata.expiresAt, now < deadline := by
  cases deadline : metadata.expiresAt <;> simp [isExpired, deadline]

/-- What expires no earlier is live for as long. -/
theorem ExpiresNoLater.live {early late : CacheMetadata} {now : Millis}
    (noLater : ExpiresNoLater early.expiresAt late.expiresAt)
    (live : early.isExpired now = false) : late.isExpired now = false := by
  rw [CacheMetadata.isExpired_eq_false_iff] at live ⊢
  intro deadline member
  obtain ⟨sooner, found, le⟩ := noLater deadline member
  exact Int.lt_of_lt_of_le (live sooner found) le

theorem isExpired_eq_false_of_tick {metadata : CacheMetadata} {now : Millis}
    {elapsed : Nat} (live : metadata.isExpired (now + elapsed) = false) :
    metadata.isExpired now = false := by
  have later : now ≤ now + elapsed :=
    Int.le_add_of_nonneg_right (Int.natCast_nonneg elapsed)
  by_contra expired
  rw [Bool.not_eq_false] at expired
  rw [CacheMetadata.isExpired_of_le later expired] at live
  cases live

/-! ## Replicated and restored entries -/

/-- The options a replicated or restored entry is stored with: what is left of
its time to live, or the node's default when it has none. -/
def remainingTtl (now : Millis) (expiresAt : Option Millis) : SetOptions where
  ttlMs := expiresAt.map fun deadline => some (max 0 (deadline - now))

namespace StorageEngine

variable {Value Hook : Type}

/-- The version check of `applyRemoteWrite`. -/
def isStaleWrite (engine : StorageEngine Value Hook) (now : Millis) (key : CacheKey)
    (metadata : CacheMetadata) : Bool :=
  match engine.peek now key with
  | some existing => existing.metadata.version ≥ metadata.version
  | none => false

/-- When an entry that is stored with what is left of its time to live will expire. -/
def remainingExpiry (engine : StorageEngine Value Hook) (now : Millis)
    (expiresAt : Option Millis) : Option Millis :=
  ((remainingTtl now expiresAt).ttlMs.getD engine.options.defaultTtlMs).map (now + ·)

/-- What is left of a time to live ends no earlier than it did at the origin. -/
theorem expiresNoLater_remaining (engine : StorageEngine Value Hook) (now : Millis)
    {expiresAt : Option Millis}
    (kept : expiresAt = none → engine.options.defaultTtlMs = none) :
    ExpiresNoLater expiresAt (engine.remainingExpiry now expiresAt) := by
  cases expiresAt with
  | none => simp [ExpiresNoLater, remainingExpiry, remainingTtl, kept rfl]
  | some deadline =>
      have later : deadline ≤ now + max 0 (deadline - now) := by
        have bound : deadline - now ≤ max 0 (deadline - now) := Int.le_max_right _ _
        calc
          deadline = now + (deadline - now) := by
            rw [Int.add_comm, Int.sub_add_cancel]
          _ ≤ now + max 0 (deadline - now) := Int.add_le_add_left bound now
      simpa [ExpiresNoLater, remainingExpiry, remainingTtl] using later

/-- The live entry of a key has a value and expires no earlier than a deadline. -/
def AlreadyHolds (engine : StorageEngine Value Hook)
    (now : Millis) (key : CacheKey) (value : Value) (expiresAt : Option Millis) : Prop :=
  ∃ entry ∈ engine.peek now key,
    entry.value = value ∧ ExpiresNoLater expiresAt entry.metadata.expiresAt

instance [DecidableEq Value] (engine : StorageEngine Value Hook) (now : Millis)
    (key : CacheKey) (value : Value) (expiresAt : Option Millis) :
    Decidable (engine.AlreadyHolds now key value expiresAt) :=
  inferInstanceAs (Decidable (∃ entry ∈ engine.peek now key, _))

/-! ## Stores in which nothing expires -/

/-- Neither a stored entry nor a future write without its own time to live
expires. -/
structure Perpetual (engine : StorageEngine Value Hook) : Prop where
  noDefault : engine.options.defaultTtlMs = none
  noDeadline : ∀ key entry, engine.store.get? key = some entry →
    entry.metadata.expiresAt = none

/-- The versioned register that a key of the store is. -/
def register (engine : StorageEngine Value Hook) (key : CacheKey) : Register Value :=
  (engine.store.get? key).map fun entry => ⟨entry.metadata.version, entry.value⟩

theorem register_content (engine : StorageEngine Value Hook) (key : CacheKey) :
    (engine.register key).map Stamped.content =
      (engine.store.get? key).map CacheEntry.value := by
  simp [register, Function.comp_def]

theorem register_level (engine : StorageEngine Value Hook) (key : CacheKey) :
    (engine.register key).level =
      ((engine.store.get? key).map fun entry => entry.metadata.version).getD 0 := by
  simp [register, Register.level, Function.comp_def]

/-- Entries that come and go with their content leave every register alone. -/
theorem register_eq_of_sameContent {engine next : StorageEngine Value Hook}
    {key : CacheKey}
    (kept : ∀ entry, engine.store.get? key = some entry →
      ∃ after, next.store.get? key = some after ∧ CacheEntry.SameContent after entry)
    (stored : ∀ after, next.store.get? key = some after →
      ∃ entry, engine.store.get? key = some entry) :
    next.register key = engine.register key := by
  cases found : engine.store.get? key with
  | none =>
      cases present : next.store.get? key with
      | none => simp [register, found, present]
      | some after =>
          obtain ⟨entry, before⟩ := stored after present
          rw [found] at before
          cases before
  | some entry =>
      obtain ⟨after, present, same⟩ := kept entry found
      simp [register, found, present, same.value, same.version]

theorem perpetual_create {options : StorageEngineOptions}
    (noDefault : options.defaultTtlMs = none) (hook : Hook) :
    Perpetual (create options hook : StorageEngine Value Hook) where
  noDefault := noDefault
  noDeadline := by simp

namespace Perpetual

variable {engine : StorageEngine Value Hook}

theorem isExpired_eq_false (perpetual : engine.Perpetual) {key : CacheKey}
    {entry : CacheEntry Value} (stored : engine.store.get? key = some entry)
    (now : Millis) : entry.metadata.isExpired now = false := by
  simp [CacheMetadata.isExpired, perpetual.noDeadline key entry stored]

theorem peek_eq (perpetual : engine.Perpetual) (now : Millis) (key : CacheKey) :
    engine.peek now key = engine.store.get? key := by
  cases stored : engine.store.get? key with
  | none => simp [peek, stored]
  | some entry => simp [peek, stored, perpetual.isExpired_eq_false stored now]

theorem isStaleWrite_eq (perpetual : engine.Perpetual) (now : Millis)
    (key : CacheKey) (value : Value) (metadata : CacheMetadata) :
    engine.isStaleWrite now key metadata =
      (engine.register key).refuses ⟨metadata.version, value⟩ := by
  rw [isStaleWrite, perpetual.peek_eq]
  cases stored : engine.store.get? key <;> simp [register, stored, Register.refuses]

/-- Dropping entries, or writing one without a deadline, keeps a store perpetual. -/
theorem of_stored (perpetual : engine.Perpetual) {next : StorageEngine Value Hook}
    (options : next.options = engine.options)
    (stored : ∀ key entry, next.store.get? key = some entry →
      entry.metadata.expiresAt = none ∨ engine.store.get? key = some entry) :
    next.Perpetual where
  noDefault := by rw [options, perpetual.noDefault]
  noDeadline := by
    intro key entry found
    rcases stored key entry found with written | kept
    · exact written
    · exact perpetual.noDeadline key entry kept

end Perpetual

variable [EvictionHook Hook]

/-- `applyRemoteDelete(key)`. -/
def applyRemoteDelete (engine : StorageEngine Value Hook) (key : CacheKey) :
    StorageEngine Value Hook :=
  (engine.delete key).2

theorem Perpetual.delete {engine : StorageEngine Value Hook}
    (perpetual : engine.Perpetual) (key : CacheKey) :
    (engine.delete key).2.Perpetual := by
  apply perpetual.of_stored (delete_options _ _)
  intro query entry stored
  rw [delete_get?] at stored
  split at stored
  · cases stored
  · exact .inr stored

/-- A deletion empties its key's register. -/
theorem delete_register (engine : StorageEngine Value Hook) (key query : CacheKey) :
    (engine.delete key).2.register query =
      if query = key then none else engine.register query := by
  simp only [register, delete_get?]
  by_cases same : query = key <;> simp [same]

namespace Perpetual

variable {engine : StorageEngine Value Hook}

theorem get (perpetual : engine.Perpetual) (now : Millis) (key : CacheKey) :
    (engine.get now key).2.Perpetual := by
  apply perpetual.of_stored (get_options _ _ _)
  intro query entry stored
  obtain ⟨before, found, same⟩ := get_stored stored
  left
  rw [same.expiresAt, perpetual.noDeadline query before found]

theorem has (perpetual : engine.Perpetual) (now : Millis) (key : CacheKey) :
    (engine.has now key).2.Perpetual := by
  apply perpetual.of_stored (has_options _ _ _)
  intro query entry stored
  exact .inr (has_stored stored)

theorem sweepExpired (perpetual : engine.Perpetual) (now : Millis) :
    (engine.sweepExpired now).2.Perpetual := by
  apply perpetual.of_stored (sweepExpired_options _ _)
  intro query entry stored
  exact .inr (sweepExpired_stored stored)

theorem get_register (perpetual : engine.Perpetual) (now : Millis)
    (key query : CacheKey) :
    (engine.get now key).2.register query = engine.register query := by
  apply register_eq_of_sameContent
  · intro entry found
    exact get_keeps_live key found (perpetual.isExpired_eq_false found now)
  · intro after stored
    obtain ⟨entry, found, _⟩ := get_stored stored
    exact ⟨entry, found⟩

theorem has_register (perpetual : engine.Perpetual) (now : Millis)
    (key query : CacheKey) :
    (engine.has now key).2.register query = engine.register query := by
  apply register_eq_of_sameContent
  · intro entry found
    exact ⟨entry, has_keeps_live key found (perpetual.isExpired_eq_false found now),
      rfl, rfl, rfl, rfl⟩
  · intro after stored
    exact ⟨after, has_stored stored⟩

theorem sweepExpired_register (perpetual : engine.Perpetual) (now : Millis)
    (query : CacheKey) :
    (engine.sweepExpired now).2.register query = engine.register query := by
  apply register_eq_of_sameContent
  · intro entry found
    exact ⟨entry,
      sweepExpired_keeps_live found (perpetual.isExpired_eq_false found now),
      rfl, rfl, rfl, rfl⟩
  · intro after stored
    exact ⟨after, sweepExpired_stored stored⟩

end Perpetual

variable [SizedValue Value]

omit [EvictionHook Hook] in
theorem nextEntry_remainingTtl (engine : StorageEngine Value Hook) (now : Millis)
    (key : CacheKey) (value : Value) (expiresAt : Option Millis) :
    (engine.nextEntry now key value (remainingTtl now expiresAt)).metadata.expiresAt =
      engine.remainingExpiry now expiresAt :=
  nextEntry_expiresAt ..

/-- `applyRemoteWrite(key, value, metadata)`. -/
def applyRemoteWrite (engine : StorageEngine Value Hook) (now : Millis)
    (key : CacheKey) (value : Value) (metadata : CacheMetadata) :
    Except FlowCacheError (StorageEngine Value Hook) :=
  if engine.isStaleWrite now key metadata then
    .ok engine
  else
    (engine.set now key value (remainingTtl now metadata.expiresAt)).map Prod.snd

/-- `applyRestoredEntry(entry)`. -/
def applyRestoredEntry (engine : StorageEngine Value Hook) (now : Millis)
    (entry : CacheEntry Value) : Except FlowCacheError (StorageEngine Value Hook) :=
  (engine.set now entry.key entry.value
    (remainingTtl now entry.metadata.expiresAt)).map Prod.snd

/-- The engine after a call of `applyRemoteWrite`. -/
def afterRemoteWrite (engine : StorageEngine Value Hook) (now : Millis)
    (key : CacheKey) (value : Value) (metadata : CacheMetadata) :
    StorageEngine Value Hook :=
  match engine.applyRemoteWrite now key value metadata with
  | .ok next => next
  | .error _ => engine

/-- A replicated write causes no eviction: it is dropped by the version check, or
there is room for it. -/
def RemoteWriteFits (engine : StorageEngine Value Hook) (now : Millis)
    (key : CacheKey) (value : Value) (metadata : CacheMetadata) : Prop :=
  engine.isStaleWrite now key metadata = true ∨
    (engine.writeEntry now key value
      (remainingTtl now metadata.expiresAt)).overCapacity = false

instance (engine : StorageEngine Value Hook) (now : Millis) (key : CacheKey)
    (value : Value) (metadata : CacheMetadata) :
    Decidable (engine.RemoteWriteFits now key value metadata) :=
  inferInstanceAs (Decidable (_ ∨ _))

theorem afterRemoteWrite_of_stale {engine : StorageEngine Value Hook} {now : Millis}
    {key : CacheKey} {metadata : CacheMetadata}
    (stale : engine.isStaleWrite now key metadata = true) (value : Value) :
    engine.afterRemoteWrite now key value metadata = engine := by
  simp [afterRemoteWrite, applyRemoteWrite, stale]

theorem afterRemoteWrite_of_fresh {engine : StorageEngine Value Hook} {now : Millis}
    {key : CacheKey} {metadata : CacheMetadata}
    (fresh : engine.isStaleWrite now key metadata = false) (value : Value) :
    engine.afterRemoteWrite now key value metadata =
      engine.afterSet now key value (remainingTtl now metadata.expiresAt) := by
  rw [afterRemoteWrite, applyRemoteWrite, fresh, if_neg Bool.false_ne_true, afterSet]
  cases engine.set now key value (remainingTtl now metadata.expiresAt) <;> rfl

/-! ## Writes to stores in which nothing expires -/

namespace Perpetual

variable {engine : StorageEngine Value Hook}

theorem afterSet (perpetual : engine.Perpetual) (now : Millis) (key : CacheKey)
    (value : Value) : (engine.afterSet now key value ⟨none⟩).Perpetual := by
  apply perpetual.of_stored (afterSet_options _ _ _ _ _)
  intro query entry stored
  rcases afterSet_stored stored with ⟨_, _, rfl⟩ | ⟨_, kept⟩
  · left
    simp [perpetual.noDefault]
  · exact .inr kept

theorem afterRemoteWrite (perpetual : engine.Perpetual) (now : Millis)
    (key : CacheKey) (value : Value) {metadata : CacheMetadata}
    (noDeadline : metadata.expiresAt = none) :
    (engine.afterRemoteWrite now key value metadata).Perpetual := by
  cases stale : engine.isStaleWrite now key metadata with
  | true => rwa [afterRemoteWrite_of_stale stale]
  | false =>
      rw [afterRemoteWrite_of_fresh stale, remainingTtl, noDeadline]
      exact perpetual.afterSet now key value

end Perpetual

/-- A local write that fits is a bump of its key's register. -/
theorem afterSet_register {engine : StorageEngine Value Hook} {now : Millis}
    {key : CacheKey} {value : Value} {options : SetOptions} (valid : key ≠ "")
    (fits : (engine.writeEntry now key value options).overCapacity = false)
    (query : CacheKey) :
    (engine.afterSet now key value options).register query =
      if query = key then (engine.register key).bump value
      else engine.register query := by
  simp only [register, afterSet_get?_of_within valid fits]
  by_cases same : query = key
  · simp [same, nextEntry_version, Register.bump, Register.level, Option.map_map,
      Function.comp_def]
  · simp [same]

/-- A replicated write that fits is offered to its key's register. -/
theorem afterRemoteWrite_register {engine : StorageEngine Value Hook}
    (perpetual : engine.Perpetual) {now : Millis} {key : CacheKey} {value : Value}
    {metadata : CacheMetadata} (valid : key ≠ "")
    (fits : engine.RemoteWriteFits now key value metadata) (query : CacheKey) :
    (engine.afterRemoteWrite now key value metadata).register query =
      if query = key then (engine.register key).offer ⟨metadata.version, value⟩
      else engine.register query := by
  have check := perpetual.isStaleWrite_eq now key value metadata
  cases stale : engine.isStaleWrite now key metadata with
  | true =>
      rw [stale] at check
      rw [afterRemoteWrite_of_stale stale]
      by_cases same : query = key
      · subst same
        simp [Register.offer, ← check]
      · simp [same]
  | false =>
      rw [stale] at check
      have room : (engine.writeEntry now key value
          (remainingTtl now metadata.expiresAt)).overCapacity = false := by
        rcases fits with dropped | room
        · simp [stale] at dropped
        · exact room
      rw [afterRemoteWrite_of_fresh stale, afterSet_register valid room]
      simp [Register.offer, ← check]

end StorageEngine

end FlowCache
