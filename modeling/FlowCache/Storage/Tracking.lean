import FlowCache.Storage.Spec

/-!
# Hooks that track the stored keys

What the eviction loop relies on: a hook only names keys it was offered, and it names
one whenever it tracks one of them.  A hook starts to track a key when the key is
written and may forget it only when it is removed, so along every run of the engine
it tracks at least the stored keys.

A hook that is one of several behaves as that one does.
-/

namespace FlowCache

/-- A hook with the keys it is able to find again. -/
class TrackingHook (Hook : Type) [EvictionHook Hook] where
  Tracks : Hook → CacheKey → Prop
  mem_of_selectVictim : ∀ (hook : Hook) {candidateKeys : List CacheKey}
    {victim : CacheKey},
    EvictionHook.selectVictim hook candidateKeys = some victim → victim ∈ candidateKeys
  selectVictim_isSome : ∀ (hook : Hook) {candidateKeys : List CacheKey} {key : CacheKey},
    Tracks hook key → key ∈ candidateKeys →
      (EvictionHook.selectVictim hook candidateKeys).isSome
  tracks_recordWrite : ∀ (hook : Hook) (key : CacheKey),
    Tracks (EvictionHook.recordWrite hook key) key
  recordWrite_keeps : ∀ (hook : Hook) (key : CacheKey) {query : CacheKey},
    Tracks hook query → Tracks (EvictionHook.recordWrite hook key) query
  recordAccess_keeps : ∀ (hook : Hook) (key : CacheKey) {query : CacheKey},
    Tracks hook query → Tracks (EvictionHook.recordAccess hook key) query
  recordRemoval_keeps : ∀ (hook : Hook) {key query : CacheKey}, query ≠ key →
    Tracks hook query → Tracks (EvictionHook.recordRemoval hook key) query
  onStorageEvent_keeps : ∀ (hook : Hook) (event : StorageEngineEvent) (key : CacheKey)
    {query : CacheKey},
    Tracks hook query → Tracks (EvictionHook.onStorageEvent hook event key) query

/-- The default hook finds every key it is offered. -/
instance : TrackingHook FifoEvictionHook where
  Tracks _ _ := True
  mem_of_selectVictim _ := List.mem_of_head?
  selectVictim_isSome := by
    intro hook candidateKeys key _ member
    exact List.isSome_head?.mpr (List.ne_nil_of_mem member)
  tracks_recordWrite _ _ := trivial
  recordWrite_keeps _ _ := id
  recordAccess_keeps _ _ := id
  recordRemoval_keeps _ := fun _ => id
  onStorageEvent_keeps _ _ _ := id

section OneOfTwo

variable {Left Right : Type} [EvictionHook Left] [EvictionHook Right]

/-- One of two hooks. -/
instance : EvictionHook (Left ⊕ Right) where
  recordAccess
    | .inl hook, key => .inl (EvictionHook.recordAccess hook key)
    | .inr hook, key => .inr (EvictionHook.recordAccess hook key)
  recordWrite
    | .inl hook, key => .inl (EvictionHook.recordWrite hook key)
    | .inr hook, key => .inr (EvictionHook.recordWrite hook key)
  recordRemoval
    | .inl hook, key => .inl (EvictionHook.recordRemoval hook key)
    | .inr hook, key => .inr (EvictionHook.recordRemoval hook key)
  selectVictim
    | .inl hook, candidateKeys => EvictionHook.selectVictim hook candidateKeys
    | .inr hook, candidateKeys => EvictionHook.selectVictim hook candidateKeys
  onStorageEvent
    | .inl hook, event, key => .inl (EvictionHook.onStorageEvent hook event key)
    | .inr hook, event, key => .inr (EvictionHook.onStorageEvent hook event key)

variable [TrackingHook Left] [TrackingHook Right]

instance : TrackingHook (Left ⊕ Right) where
  Tracks
    | .inl hook, key => TrackingHook.Tracks hook key
    | .inr hook, key => TrackingHook.Tracks hook key
  mem_of_selectVictim
    | .inl hook => TrackingHook.mem_of_selectVictim hook
    | .inr hook => TrackingHook.mem_of_selectVictim hook
  selectVictim_isSome
    | .inl hook => TrackingHook.selectVictim_isSome hook
    | .inr hook => TrackingHook.selectVictim_isSome hook
  tracks_recordWrite
    | .inl hook => TrackingHook.tracks_recordWrite hook
    | .inr hook => TrackingHook.tracks_recordWrite hook
  recordWrite_keeps
    | .inl hook => TrackingHook.recordWrite_keeps hook
    | .inr hook => TrackingHook.recordWrite_keeps hook
  recordAccess_keeps
    | .inl hook => TrackingHook.recordAccess_keeps hook
    | .inr hook => TrackingHook.recordAccess_keeps hook
  recordRemoval_keeps
    | .inl hook => TrackingHook.recordRemoval_keeps hook
    | .inr hook => TrackingHook.recordRemoval_keeps hook
  onStorageEvent_keeps
    | .inl hook => TrackingHook.onStorageEvent_keeps hook
    | .inr hook => TrackingHook.onStorageEvent_keeps hook

end OneOfTwo

end FlowCache
