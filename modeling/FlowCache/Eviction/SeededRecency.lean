import FlowCache.Eviction.StoredRecency
import FlowCache.Eviction.TouchOrder
import FlowCache.Storage.Expiration

/-!
# Seeding an LRU policy from a store

`seed` orders the entries of a store by `lastAccessedAt`; a policy that was the hook of
the engine all along orders them by the calls it received.  A read and a first write set
`lastAccessedAt` and call the hook, so both orders move alike.  An overwrite calls the
hook only: the policy moves the key to the end, the metadata leaves it where it was.
-/

namespace FlowCache

open Transition

variable {Value : Type}

namespace StorageEngine

/-- `lastAccessedAt` of the entry under a key. -/
def accessedAt (engine : StorageEngine Value LruEvictionPolicy) (key : CacheKey) : Millis :=
  ((engine.store.get? key).map fun entry => entry.metadata.lastAccessedAt).getD 0

/-- A fresh policy, seeded from the entries of the store. -/
def seeded (engine : StorageEngine Value LruEvictionPolicy) : LruEvictionPolicy :=
  LruEvictionPolicy.create.seed engine.entries

/-- The seeded policy has the order of the one that was there all along, and so the same
victim for all candidates. -/
def SeedAgrees (engine : StorageEngine Value LruEvictionPolicy) : Prop :=
  engine.seeded.recency = engine.hook.recency ∧
    ∀ candidateKeys, engine.seeded.selectVictim candidateKeys =
      engine.hook.selectVictim candidateKeys

theorem seedAgrees_iff (engine : StorageEngine Value LruEvictionPolicy) :
    engine.SeedAgrees ↔ engine.seeded.recency = engine.recency := by
  constructor
  · intro agrees
    exact agrees.1
  · intro same
    refine ⟨same, ?_⟩
    intro candidateKeys
    rw [LruEvictionPolicy.selectVictim_eq, LruEvictionPolicy.selectVictim_eq, same]
    rfl

/-- What a run without deadlines and evictions leaves in the store: the times of the last
accesses are past and belong to one key each. -/
structure Accessed (engine : StorageEngine Value LruEvictionPolicy) (clock : Millis) : Prop
    extends engine.TracksLive where
  keyed : engine.Keyed
  past : ∀ key ∈ engine.store.keys, engine.accessedAt key ≤ clock
  apart : ∀ key ∈ engine.store.keys, ∀ other ∈ engine.store.keys,
    engine.accessedAt key = engine.accessedAt other → key = other

namespace Accessed

variable {engine : StorageEngine Value LruEvictionPolicy} {clock : Millis}

/-- The seeded order has the stored keys by the time of their last access. -/
theorem seeded_recency (accessed : engine.Accessed clock) :
    engine.seeded.recency.Perm engine.store.keys ∧
      engine.seeded.recency.Pairwise fun first second =>
        engine.accessedAt first < engine.accessedAt second := by
  have sorted := List.perm_insertionSort (fun first second : CacheEntry Value =>
    first.metadata.lastAccessedAt ≤ second.metadata.lastAccessedAt) engine.entries
  have keys := sorted.map CacheEntry.key
  rw [accessed.keyed.map_key_entries] at keys
  have recency : engine.seeded.recency = (engine.entries.insertionSort fun first second =>
      first.metadata.lastAccessedAt ≤ second.metadata.lastAccessedAt).map CacheEntry.key := by
    rw [seeded, LruEvictionPolicy.recency_seed, List.dedup_eq_self]
    exact keys.nodup_iff.mpr engine.store.keys_nodup
  rw [recency]
  refine ⟨keys, ?_⟩
  have stored : ∀ entry ∈ engine.entries, engine.store.get? entry.key = some entry := by
    intro entry member
    obtain ⟨key, found⟩ := InsertionMap.mem_values_iff.mp member
    rw [accessed.keyed key entry found, found]
  have times : ∀ entry ∈ engine.entries,
      engine.accessedAt entry.key = entry.metadata.lastAccessedAt := by
    intro entry member
    rw [accessedAt, stored entry member]
    rfl
  have distinct : ((engine.entries.insertionSort fun first second =>
      first.metadata.lastAccessedAt ≤ second.metadata.lastAccessedAt).map
        CacheEntry.key).Pairwise (· ≠ ·) :=
    keys.nodup_iff.mpr engine.store.keys_nodup
  rw [List.pairwise_map] at distinct ⊢
  have ascending := List.pairwise_insertionSort (fun first second : CacheEntry Value =>
    first.metadata.lastAccessedAt ≤ second.metadata.lastAccessedAt) engine.entries
  apply (ascending.and distinct).imp_of_mem
  intro first second firstMember secondMember ⟨le, different⟩
  have firstStored := sorted.mem_iff.mp firstMember
  have secondStored := sorted.mem_iff.mp secondMember
  apply lt_of_le_of_ne
  · rw [times first firstStored, times second secondStored]
    exact le
  · intro same
    exact different (accessed.apart _ (InsertionMap.mem_keys_of_get? (stored _ firstStored)) _
      (InsertionMap.mem_keys_of_get? (stored _ secondStored)) same)

/-- The seed agrees exactly when the policy has the keys in the order of their last
accesses. -/
theorem seedAgrees_iff_pairwise (accessed : engine.Accessed clock) :
    engine.SeedAgrees ↔ engine.recency.Pairwise fun first second =>
      engine.accessedAt first < engine.accessedAt second := by
  obtain ⟨keys, ascending⟩ := accessed.seeded_recency
  rw [seedAgrees_iff]
  constructor
  · intro same
    rwa [same] at ascending
  · intro ordered
    apply (keys.trans accessed.perm_keys.symm).eq_of_pairwise _ ascending ordered
    intro first second _ _ before after
    exact absurd after before.not_gt

/-- The stored keys that are left keep their times. -/
theorem of_kept (accessed : engine.Accessed clock) {now : Millis} (later : clock < now)
    {next : StorageEngine Value LruEvictionPolicy} (live : next.TracksLive)
    (keyed : next.Keyed)
    (kept : ∀ key ∈ next.store.keys,
      key ∈ engine.store.keys ∧ next.accessedAt key = engine.accessedAt key) :
    next.Accessed now where
  toTracksLive := live
  keyed := keyed
  past := by
    intro key stored
    rw [(kept key stored).2]
    exact (accessed.past key (kept key stored).1).trans later.le
  apart := by
    intro key stored other otherStored same
    rw [(kept key stored).2, (kept other otherStored).2] at same
    exact accessed.apart key (kept key stored).1 other (kept other otherStored).1 same

/-- One key is accessed now, the others keep their times. -/
theorem of_touched (accessed : engine.Accessed clock) {now : Millis} (later : clock < now)
    {next : StorageEngine Value LruEvictionPolicy} {key : CacheKey} (live : next.TracksLive)
    (keyed : next.Keyed)
    (stored : ∀ query ∈ next.store.keys, query ≠ key → query ∈ engine.store.keys)
    (times : next.accessedAt = Function.update engine.accessedAt key now) :
    next.Accessed now where
  toTracksLive := live
  keyed := keyed
  past := by
    intro query member
    rw [times]
    by_cases same : query = key
    · rw [same, Function.update_self]
    · rw [Function.update_of_ne same]
      exact (accessed.past query (stored query member same)).trans later.le
  apart := by
    have earlier : ∀ query ∈ next.store.keys, query ≠ key → engine.accessedAt query < now :=
      fun query member different =>
        (accessed.past query (stored query member different)).trans_lt later
    intro query member other otherMember
    rw [times]
    by_cases same : query = key
    · by_cases otherSame : other = key
      · exact fun _ => same.trans otherSame.symm
      · rw [same, Function.update_self, Function.update_of_ne otherSame]
        intro equal
        exact absurd equal (earlier other otherMember otherSame).ne'
    · rw [Function.update_of_ne same]
      by_cases otherSame : other = key
      · rw [otherSame, Function.update_self]
        intro equal
        exact absurd equal (earlier query member same).ne
      · rw [Function.update_of_ne otherSame]
        exact accessed.apart query (stored query member same) other
          (stored other otherMember otherSame)

/-- A touch at a new time keeps the policy in the order of the times. -/
theorem seedAgrees_of_touched (accessed : engine.Accessed clock)
    (agrees : engine.SeedAgrees) {now : Millis} (later : clock < now)
    {next : StorageEngine Value LruEvictionPolicy} {key : CacheKey}
    (after : next.Accessed now) (order : next.recency = RecencyOrder.touch engine.recency key)
    (times : next.accessedAt = Function.update engine.accessedAt key now) :
    next.SeedAgrees := by
  rw [after.seedAgrees_iff_pairwise, order, times]
  apply RecencyOrder.pairwise_touch_latest (accessed.seedAgrees_iff_pairwise.mp agrees)
    engine.nodup_recency
  intro other member
  exact (accessed.past other ((accessed.tracked other).mp member)).trans_lt later

end Accessed

/-! ## The operations -/

section Operations

variable {engine : StorageEngine Value LruEvictionPolicy} {clock now : Millis}

/-- A hit sets the time of its key. -/
theorem accessedAt_get (live : engine.TracksLive) {key : CacheKey}
    (stored : key ∈ engine.store.keys) :
    (engine.get now key).2.accessedAt = Function.update engine.accessedAt key now := by
  obtain ⟨entry, found⟩ := InsertionMap.mem_keys_iff.mp stored
  funext query
  rw [accessedAt, get_get?]
  by_cases same : query = key
  · rw [if_pos same, same, Function.update_self, live.peek_eq, found]
    rfl
  · rw [if_neg same, Function.update_of_ne same]
    rfl

/-- A miss changes no entry. -/
theorem get?_get_of_absent (live : engine.TracksLive) {key : CacheKey}
    (absent : key ∉ engine.store.keys) (query : CacheKey) :
    (engine.get now key).2.store.get? query = engine.store.get? query := by
  rw [get_get?]
  split
  · next same =>
      rw [live.peek_eq, same, InsertionMap.get?_eq_none_iff.mpr absent]
      rfl
  · rfl

theorem accessed_get (accessed : engine.Accessed clock) (later : clock < now)
    (key : CacheKey) : (engine.get now key).2.Accessed now := by
  have live := accessed.toTracksLive.afterGet now key
  have keyed : (engine.get now key).2.Keyed :=
    accessed.keyed.of_stored fun _ _ found => get_stored found
  have keys := accessed.toTracksLive.keys_get now key
  by_cases stored : key ∈ engine.store.keys
  · apply accessed.of_touched later live keyed _ (accessedAt_get accessed.toTracksLive stored)
    intro query member _
    rwa [keys] at member
  · apply accessed.of_kept later live keyed
    intro query member
    rw [keys] at member
    refine ⟨member, ?_⟩
    rw [accessedAt, get?_get_of_absent accessed.toTracksLive stored]
    rfl

theorem seedAgrees_get (accessed : engine.Accessed clock) (agrees : engine.SeedAgrees)
    (later : clock < now) (key : CacheKey) : (engine.get now key).2.SeedAgrees := by
  have after := accessed_get accessed later key
  have order := accessed.toTracksLive.recency_get now key
  by_cases stored : key ∈ engine.store.keys
  · rw [RecencyOrder.hit, if_pos ((accessed.tracked key).mpr stored)] at order
    exact accessed.seedAgrees_of_touched agrees later after order
      (accessedAt_get accessed.toTracksLive stored)
  · rw [RecencyOrder.hit, if_neg (fun member => stored ((accessed.tracked key).mp member))]
      at order
    have times : (engine.get now key).2.accessedAt = engine.accessedAt := by
      funext query
      rw [accessedAt, get?_get_of_absent accessed.toTracksLive stored]
      rfl
    rw [after.seedAgrees_iff_pairwise, order, times]
    exact accessed.seedAgrees_iff_pairwise.mp agrees

theorem mem_keys_delete {key query : CacheKey}
    (member : query ∈ (engine.delete key).2.store.keys) :
    query ≠ key ∧ query ∈ engine.store.keys := by
  obtain ⟨entry, found⟩ := InsertionMap.mem_keys_iff.mp member
  rw [delete_get?] at found
  split at found
  · cases found
  · next different => exact ⟨different, InsertionMap.mem_keys_of_get? found⟩

theorem accessedAt_delete {key query : CacheKey} (different : query ≠ key) :
    (engine.delete key).2.accessedAt query = engine.accessedAt query := by
  rw [accessedAt, delete_get?, if_neg different]
  rfl

theorem accessed_delete (accessed : engine.Accessed clock) (later : clock < now)
    (key : CacheKey) : (engine.delete key).2.Accessed now := by
  apply accessed.of_kept later (accessed.toTracksLive.afterDelete key)
  · intro query entry found
    rw [delete_get?] at found
    split at found
    · cases found
    · exact accessed.keyed query entry found
  · intro query member
    obtain ⟨different, stored⟩ := mem_keys_delete member
    exact ⟨stored, accessedAt_delete different⟩

theorem seedAgrees_delete (accessed : engine.Accessed clock) (agrees : engine.SeedAgrees)
    (later : clock < now) (key : CacheKey) : (engine.delete key).2.SeedAgrees := by
  rw [(accessed_delete accessed later key).seedAgrees_iff_pairwise,
    accessed.toTracksLive.recency_delete]
  have ordered := accessed.seedAgrees_iff_pairwise.mp agrees
  apply (ordered.sublist List.erase_sublist).imp_of_mem
  intro first second firstMember secondMember before
  rwa [accessedAt_delete (engine.nodup_recency.mem_erase_iff.mp firstMember).1,
    accessedAt_delete (engine.nodup_recency.mem_erase_iff.mp secondMember).1]

variable [SizedValue Value]

theorem keyed_writeEntry (keyed : engine.Keyed) (key : CacheKey) (value : Value)
    (options : SetOptions) : (engine.writeEntry now key value options).Keyed := by
  intro query entry found
  rw [writeEntry_store, InsertionMap.get?_insert] at found
  split at found
  · next same =>
      cases found
      exact same.symm
  · exact keyed query entry found

/-- A first write sets the time of its key. -/
theorem accessedAt_writeEntry_fresh {key : CacheKey} (fresh : key ∉ engine.store.keys)
    (value : Value) (options : SetOptions) :
    (engine.writeEntry now key value options).accessedAt =
      Function.update engine.accessedAt key now := by
  funext query
  rw [accessedAt, writeEntry_store, InsertionMap.get?_insert]
  by_cases same : query = key
  · rw [if_pos same, same, Function.update_self, nextEntry,
      InsertionMap.get?_eq_none_iff.mpr fresh]
    rfl
  · rw [if_neg same, Function.update_of_ne same]
    rfl

/-- An overwrite leaves the time of its key as it was. -/
theorem accessedAt_writeEntry_stored {key : CacheKey} (stored : key ∈ engine.store.keys)
    (value : Value) (options : SetOptions) :
    (engine.writeEntry now key value options).accessedAt = engine.accessedAt := by
  obtain ⟨entry, found⟩ := InsertionMap.mem_keys_iff.mp stored
  funext query
  rw [accessedAt, writeEntry_store, InsertionMap.get?_insert]
  by_cases same : query = key
  · rw [if_pos same, same, nextEntry, found, accessedAt, found]
    rfl
  · rw [if_neg same]
    rfl

theorem accessed_writeEntry (accessed : engine.Accessed clock) (later : clock < now)
    (key : CacheKey) (value : Value) {options : SetOptions}
    (withoutTtl : options.ttlMs.getD engine.options.defaultTtlMs = none) :
    (engine.writeEntry now key value options).Accessed now := by
  have live := accessed.toTracksLive.afterWriteEntry now key value withoutTtl
  have keyed : (engine.writeEntry now key value options).Keyed :=
    keyed_writeEntry accessed.keyed key value options
  by_cases stored : key ∈ engine.store.keys
  · apply accessed.of_kept later live keyed
    intro query member
    rw [writeEntry_store, InsertionMap.mem_keys_insert] at member
    rw [accessedAt_writeEntry_stored stored]
    rcases member with same | member
    · exact ⟨same ▸ stored, rfl⟩
    · exact ⟨member, rfl⟩
  · apply accessed.of_touched later live keyed _
      (accessedAt_writeEntry_fresh stored value options)
    intro query member different
    rw [writeEntry_store, InsertionMap.mem_keys_insert] at member
    exact member.resolve_left different

/-- After a write that evicts nothing the seed agrees exactly when the key is new or was
the last one touched. -/
theorem seedAgrees_writeEntry_iff (accessed : engine.Accessed clock)
    (agrees : engine.SeedAgrees) (later : clock < now) (key : CacheKey) (value : Value)
    {options : SetOptions}
    (withoutTtl : options.ttlMs.getD engine.options.defaultTtlMs = none) :
    (engine.writeEntry now key value options).SeedAgrees ↔
      (key ∈ engine.store.keys → engine.recency.getLast? = some key) := by
  have after := accessed_writeEntry accessed later key value withoutTtl
  have order := TracksLive.recency_writeEntry engine now key value options
  by_cases stored : key ∈ engine.store.keys
  · rw [after.seedAgrees_iff_pairwise, order, accessedAt_writeEntry_stored stored,
      RecencyOrder.pairwise_touch_iff (accessed.seedAgrees_iff_pairwise.mp agrees)
        engine.nodup_recency ((accessed.tracked key).mpr stored)]
    exact (imp_iff_right stored).symm
  · apply iff_of_true _ fun member => absurd member stored
    exact accessed.seedAgrees_of_touched agrees later after order
      (accessedAt_writeEntry_fresh stored value options)

end Operations

/-- A fresh engine with a fresh hook. -/
theorem accessed_create (options : StorageEngineOptions) (clock : Millis) :
    (create options .create : StorageEngine Value LruEvictionPolicy).Accessed clock where
  toTracksLive := tracksLive_create options
  keyed := keyed_create options LruEvictionPolicy.create
  past := by
    intro key member
    cases member
  apart := by
    intro key member
    cases member

end StorageEngine

/-! ## Runs -/

namespace ClockedEngine

/-- The call is `set` without a TTL, `get` or `delete`, at a later time than the call
before it, and evicts nothing. -/
def PlainCall [SizedValue Value] (state : ClockedEngine Value LruEvictionPolicy)
    (call : EntryCall Value) : Prop :=
  state.clock < call.now ∧ state.WithoutPressure call ∧
    match call.operation with
    | .set _ _ options => options.ttlMs.getD state.engine.options.defaultTtlMs = none
    | .get _ => True
    | .delete _ => True
    | _ => False

/-- A `set` of a stored key is of the key that was touched last. -/
def OverwritesNewest (state : ClockedEngine Value LruEvictionPolicy)
    (call : EntryCall Value) : Prop :=
  match call.operation with
  | .set key _ _ =>
      key ∈ state.engine.store.keys → state.engine.recency.getLast? = some key
  | _ => True

instance [SizedValue Value] (state : ClockedEngine Value LruEvictionPolicy) :
    (call : EntryCall Value) → Decidable (state.PlainCall call)
  | ⟨now, .set key value options⟩ => inferInstanceAs (Decidable (state.clock < now ∧
      state.WithoutPressure ⟨now, .set key value options⟩ ∧
        options.ttlMs.getD state.engine.options.defaultTtlMs = none))
  | ⟨now, .get key⟩ => inferInstanceAs (Decidable (state.clock < now ∧
      state.WithoutPressure ⟨now, .get key⟩ ∧ True))
  | ⟨now, .delete key⟩ => inferInstanceAs (Decidable (state.clock < now ∧
      state.WithoutPressure ⟨now, .delete key⟩ ∧ True))
  | ⟨_, .peek _⟩ => isFalse fun plain => plain.2.2
  | ⟨_, .has _⟩ => isFalse fun plain => plain.2.2
  | ⟨_, .sweepExpired⟩ => isFalse fun plain => plain.2.2
  | ⟨_, .clear⟩ => isFalse fun plain => plain.2.2

instance (state : ClockedEngine Value LruEvictionPolicy) :
    (call : EntryCall Value) → Decidable (state.OverwritesNewest call)
  | ⟨_, .set key _ _⟩ => inferInstanceAs (Decidable
      (key ∈ state.engine.store.keys → state.engine.recency.getLast? = some key))
  | ⟨_, .get _⟩ => isTrue trivial
  | ⟨_, .peek _⟩ => isTrue trivial
  | ⟨_, .has _⟩ => isTrue trivial
  | ⟨_, .delete _⟩ => isTrue trivial
  | ⟨_, .sweepExpired⟩ => isTrue trivial
  | ⟨_, .clear⟩ => isTrue trivial

variable [SizedValue Value] {state : ClockedEngine Value LruEvictionPolicy}
  {call : EntryCall Value}

/-- One call keeps the times of the last accesses past and apart, and the seed still
agrees after it exactly when it does not overwrite an older key. -/
theorem receive_seedAgrees_iff (accessed : state.engine.Accessed state.clock)
    (written : state.engine.Written) (agrees : state.engine.SeedAgrees)
    (plain : state.PlainCall call) :
    (state.receive call).engine.Accessed (state.receive call).clock ∧
      (state.OverwritesNewest call ↔ (state.receive call).engine.SeedAgrees) := by
  obtain ⟨now, operation⟩ := call
  obtain ⟨later, within, allowed⟩ := plain
  cases operation with
  | get key =>
      exact ⟨StorageEngine.accessed_get accessed later key,
        iff_of_true trivial (StorageEngine.seedAgrees_get accessed agrees later key)⟩
  | delete key =>
      exact ⟨StorageEngine.accessed_delete accessed later key,
        iff_of_true trivial (StorageEngine.seedAgrees_delete accessed agrees later key)⟩
  | set key value options =>
      by_cases empty : key = ""
      · subst empty
        have same : (state.receive ⟨now, .set "" value options⟩).engine = state.engine :=
          StorageEngine.afterSet_of_empty state.engine now value options
        rw [same]
        constructor
        · exact accessed.of_kept later accessed.toTracksLive accessed.keyed
            fun key member => ⟨member, rfl⟩
        · apply iff_of_true _ agrees
          intro member
          obtain ⟨entry, found⟩ := InsertionMap.mem_keys_iff.mp member
          exact absurd rfl (written "" entry found).1
      · have same : (state.receive ⟨now, .set key value options⟩).engine =
            state.engine.writeEntry now key value options := by
          rw [receive, StorageEngine.performAt, StorageEngine.afterSet_of_valid _ _ empty,
            StorageEngine.enforceCapacity_of_within (within empty)]
        rw [same]
        exact ⟨StorageEngine.accessed_writeEntry accessed later key value allowed,
          (StorageEngine.seedAgrees_writeEntry_iff accessed agrees later key value
            allowed).symm⟩
  | peek key => exact allowed.elim
  | has key => exact allowed.elim
  | sweepExpired => exact allowed.elim
  | clear => exact allowed.elim

/-- In every run of `set`, `get` and `delete` at increasing times, without TTL and
eviction, a policy seeded from the store agrees with the hook after each call exactly as
long as every overwrite is of the key touched last. -/
theorem seed_matches_tracking_iff (options : StorageEngineOptions) (opened : Millis)
    (calls : List (EntryCall Value))
    (plain : EveryStep receive PlainCall (start options LruEvictionPolicy.create opened)
      calls) :
    EveryStep receive (fun state call => (state.receive call).engine.SeedAgrees)
        (start options LruEvictionPolicy.create opened) calls ↔
      EveryStep receive OverwritesNewest (start options LruEvictionPolicy.create opened)
        calls := by
  symm
  refine @everyStep_iff_goal _ _ receive OverwritesNewest PlainCall
    (fun state => state.engine.Accessed state.clock ∧ state.engine.Written)
    (fun state => state.engine.SeedAgrees) _ calls ?_ ?_ ?_ ?_ plain
  · rintro state call ⟨accessed, written⟩ agrees plain -
    exact ⟨(receive_seedAgrees_iff accessed written agrees plain).1,
      written.performAt call.now call.operation⟩
  · rintro state call ⟨accessed, written⟩ agrees plain
    exact (receive_seedAgrees_iff accessed written agrees plain).2
  · exact ⟨StorageEngine.accessed_create options opened,
      StorageEngine.written_create options LruEvictionPolicy.create⟩
  · rw [StorageEngine.seedAgrees_iff]
    rfl

/-- Two writes, an overwrite of the newer key, a read of the older one and its deletion:
the seed agrees all along. -/
theorem seed_matches_tracking_newest :
    EveryStep receive (fun state call => (state.receive call).engine.SeedAgrees)
      (start .default LruEvictionPolicy.create 0 : ClockedEngine Nat LruEvictionPolicy)
      [⟨1, .set "a" 10 ⟨none⟩⟩, ⟨2, .set "b" 20 ⟨none⟩⟩, ⟨3, .set "b" 30 ⟨none⟩⟩,
        ⟨4, .get "a"⟩, ⟨5, .delete "a"⟩] :=
  (seed_matches_tracking_iff .default 0 _ (by decide +kernel)).mpr (by decide +kernel)

/-- Two writes and an overwrite of the older key: the hook would evict `"b"` next, a
policy seeded from the store evicts `"a"`. -/
theorem seed_misses_overwrite :
    EveryStep receive PlainCall
        (start .default LruEvictionPolicy.create 0 : ClockedEngine Nat LruEvictionPolicy)
        [⟨1, .set "a" 10 ⟨none⟩⟩, ⟨2, .set "b" 20 ⟨none⟩⟩, ⟨3, .set "a" 30 ⟨none⟩⟩] ∧
      let reached := (run receive
        (start .default LruEvictionPolicy.create 0 : ClockedEngine Nat LruEvictionPolicy)
        [⟨1, .set "a" 10 ⟨none⟩⟩, ⟨2, .set "b" 20 ⟨none⟩⟩, ⟨3, .set "a" 30 ⟨none⟩⟩]).engine
      reached.hook.recency = ["b", "a"] ∧ reached.seeded.recency = ["a", "b"] ∧
        reached.hook.selectVictim ["a", "b"] = some "b" ∧
        reached.seeded.selectVictim ["a", "b"] = some "a" ∧ ¬reached.SeedAgrees := by
  refine ⟨by decide +kernel, by decide +kernel, by decide +kernel, by decide +kernel,
    by decide +kernel, ?_⟩
  intro agrees
  exact absurd agrees.1 (by decide +kernel)

end ClockedEngine

end FlowCache
