import Mathlib.Data.List.Sort
import FlowCache.Library.LinkedOrder
import FlowCache.Storage.Tracking

/-!
# Least recently used

`LruEvictionPolicy`: a doubly linked list of the tracked keys, the most recently used
one at its head, and a walk from the tail that collects candidates.  A policy carries
the proof that its pointers form one chain through all its nodes.
-/

namespace FlowCache

variable {Value : Type}

/-- `LruEvictionPolicy`. -/
structure LruEvictionPolicy where
  list : LinkedOrder CacheKey
  linked : ∃ order, list.Represents order

namespace LruEvictionPolicy

/-- `new LruEvictionPolicy()`. -/
def create : LruEvictionPolicy := ⟨.empty, [], LinkedOrder.represents_empty⟩

/-- `touch(key)`. -/
def touch (policy : LruEvictionPolicy) (key : CacheKey) : LruEvictionPolicy where
  list := policy.list.touch key
  linked := policy.linked.elim fun _ represents => ⟨_, represents.touch key⟩

/-- `recordAccess(key)`. -/
def recordAccess (policy : LruEvictionPolicy) (key : CacheKey) : LruEvictionPolicy :=
  policy.touch key

/-- `recordWrite(key)`. -/
def recordWrite (policy : LruEvictionPolicy) (key : CacheKey) : LruEvictionPolicy :=
  policy.touch key

/-- `recordRemoval(key)`. -/
def recordRemoval (policy : LruEvictionPolicy) (key : CacheKey) : LruEvictionPolicy where
  list := policy.list.remove key
  linked := policy.linked.elim fun _ represents => ⟨_, represents.remove key⟩

/-- The loop of `leastRecentlyUsedCandidates`. -/
def collectCandidates (policy : LruEvictionPolicy) (candidateKeys : List CacheKey)
    (limit : Nat) : (guard : Nat) → Option CacheKey → List CacheKey → List CacheKey
  | 0, _, result => result
  | _ + 1, none, result => result
  | guard + 1, some key, result =>
      if result.length < limit then
        policy.collectCandidates candidateKeys limit guard
          ((policy.list.nodes.get? key).bind LinkedNode.prev)
          (if key ∈ candidateKeys then result ++ [key] else result)
      else
        result

/-- `leastRecentlyUsedCandidates(candidateKeys, limit)`. -/
def leastRecentlyUsedCandidates (policy : LruEvictionPolicy)
    (candidateKeys : List CacheKey) (limit : Nat) : List CacheKey :=
  if limit = 0 then
    []
  else
    policy.collectCandidates candidateKeys limit (policy.list.nodes.size + 1)
      policy.list.tail []

/-- `selectVictim(candidateKeys)`. -/
def selectVictim (policy : LruEvictionPolicy) (candidateKeys : List CacheKey) :
    Option CacheKey :=
  (policy.leastRecentlyUsedCandidates candidateKeys 1).head?

/-- `reset()`. -/
def reset (_ : LruEvictionPolicy) : LruEvictionPolicy := create

/-- `seed(entries)`: the entries are touched in the order of their last access. -/
def seed (policy : LruEvictionPolicy) (entries : List (CacheEntry Value)) :
    LruEvictionPolicy :=
  (entries.insertionSort fun first second =>
    first.metadata.lastAccessedAt ≤ second.metadata.lastAccessedAt).foldl
      (fun current entry => current.touch entry.key) policy.reset

instance : EvictionHook LruEvictionPolicy where
  recordAccess := recordAccess
  recordWrite := recordWrite
  recordRemoval := recordRemoval
  selectVictim := selectVictim
  onStorageEvent policy _ _ := policy

/-! ## The recency order -/

/-- The tracked keys from the least to the most recently used one. -/
def recency (policy : LruEvictionPolicy) : List CacheKey :=
  policy.list.walk LinkedNode.prev policy.list.nodes.size policy.list.tail

theorem represents_recency (policy : LruEvictionPolicy) :
    policy.list.Represents policy.recency.reverse := by
  obtain ⟨order, represents⟩ := policy.linked
  rw [recency, represents.walk_tail (Nat.le_refl _), List.reverse_reverse]
  exact represents

theorem recency_eq_of_represents {policy : LruEvictionPolicy} {order : List CacheKey}
    (represents : policy.list.Represents order) : policy.recency = order.reverse :=
  represents.walk_tail (Nat.le_refl _)

/-- Read from its head, the list has the same keys from the most to the least recently
used one, and both ends are `null` exactly when no key is tracked. -/
theorem head_and_tail (policy : LruEvictionPolicy) :
    policy.list.walk LinkedNode.next policy.list.nodes.size policy.list.head =
        policy.recency.reverse ∧
      (policy.list.head = none ↔ policy.list.nodes.keys = []) ∧
      (policy.list.tail = none ↔ policy.list.nodes.keys = []) :=
  ⟨policy.represents_recency.walk_head (Nat.le_refl _),
    policy.represents_recency.ends_none_iff⟩

theorem recency_nodup (policy : LruEvictionPolicy) : policy.recency.Nodup :=
  List.nodup_reverse.mp policy.represents_recency.nodup

private theorem reverse_erase_reverse {keys : List CacheKey} (nodup : keys.Nodup)
    (key : CacheKey) : (keys.reverse.erase key).reverse = keys.erase key := by
  rw [(List.nodup_reverse.mpr nodup).erase_eq_filter, nodup.erase_eq_filter,
    List.filter_reverse, List.reverse_reverse]

/-- A touched key becomes the most recently used one. -/
theorem recency_touch (policy : LruEvictionPolicy) (key : CacheKey) :
    (policy.touch key).recency = policy.recency.erase key ++ [key] := by
  have touched : (policy.touch key).list.Represents _ :=
    policy.represents_recency.touch key
  rw [recency_eq_of_represents touched, List.reverse_cons,
    reverse_erase_reverse policy.recency_nodup]

/-- A removed key leaves the order of the others alone. -/
theorem recency_recordRemoval (policy : LruEvictionPolicy) (key : CacheKey) :
    (policy.recordRemoval key).recency = policy.recency.erase key := by
  have removed : (policy.recordRemoval key).list.Represents _ :=
    policy.represents_recency.remove key
  rw [recency_eq_of_represents removed, reverse_erase_reverse policy.recency_nodup]

theorem mem_recency_touch {policy : LruEvictionPolicy} {key query : CacheKey} :
    query ∈ (policy.touch key).recency ↔ query = key ∨ query ∈ policy.recency := by
  rw [recency_touch, List.mem_append, List.mem_singleton,
    policy.recency_nodup.mem_erase_iff]
  tauto

theorem collectCandidates_eq (policy : LruEvictionPolicy) (candidateKeys : List CacheKey)
    (limit guard : Nat) (pointer : Option CacheKey) (result : List CacheKey) :
    policy.collectCandidates candidateKeys limit guard pointer result =
      result ++ ((policy.list.walk LinkedNode.prev guard pointer).filter
        (· ∈ candidateKeys)).take (limit - result.length) := by
  induction guard generalizing pointer result with
  | zero => simp [collectCandidates, LinkedOrder.walk]
  | succ guard ih =>
      cases pointer with
      | none => simp [collectCandidates, LinkedOrder.walk]
      | some key =>
          simp only [collectCandidates, LinkedOrder.walk]
          split
          · next room =>
              rw [ih]
              split
              · next candidate =>
                  obtain ⟨left, remaining⟩ : ∃ left, limit - result.length = left + 1 :=
                    ⟨limit - result.length - 1, by omega⟩
                  have fewer : limit - (result ++ [key]).length = left := by
                    simp only [List.length_append, List.length_singleton]
                    omega
                  rw [fewer, remaining, List.filter_cons_of_pos (by simpa using candidate),
                    List.take_succ_cons, List.append_assoc, List.singleton_append]
              · next other => simp [other]
          · next full =>
              have none : limit - result.length = 0 := by omega
              simp [none]

/-- The walk collects the least recently used candidates; its guard never cuts it
short. -/
theorem leastRecentlyUsedCandidates_eq (policy : LruEvictionPolicy)
    (candidateKeys : List CacheKey) (limit : Nat) :
    policy.leastRecentlyUsedCandidates candidateKeys limit =
      (policy.recency.filter (· ∈ candidateKeys)).take limit := by
  unfold leastRecentlyUsedCandidates
  split
  · next none => simp [none]
  · rw [collectCandidates_eq, List.nil_append, List.length_nil, Nat.sub_zero,
      policy.represents_recency.walk_tail (Nat.le_succ _), List.reverse_reverse]

/-- The victim is the least recently used candidate. -/
theorem selectVictim_eq (policy : LruEvictionPolicy) (candidateKeys : List CacheKey) :
    policy.selectVictim candidateKeys =
      (policy.recency.filter (· ∈ candidateKeys)).head? := by
  rw [selectVictim, leastRecentlyUsedCandidates_eq]
  cases policy.recency.filter (· ∈ candidateKeys) <;> rfl

/-- A tracked key stays tracked while others are touched and removed. -/
instance : TrackingHook LruEvictionPolicy where
  Tracks policy key := key ∈ policy.recency
  mem_of_selectVictim := by
    intro policy candidateKeys victim selected
    have found : (policy.recency.filter (· ∈ candidateKeys)).head? = some victim := by
      rw [← selectVictim_eq]
      exact selected
    simpa using (List.mem_filter.mp (List.mem_of_head? found)).2
  selectVictim_isSome := by
    intro policy candidateKeys key tracked member
    have found : key ∈ policy.recency.filter (· ∈ candidateKeys) :=
      List.mem_filter.mpr ⟨tracked, by simpa using member⟩
    change (policy.selectVictim candidateKeys).isSome
    rw [selectVictim_eq]
    exact List.isSome_head?.mpr (List.ne_nil_of_mem found)
  tracks_recordWrite _ _ := mem_recency_touch.mpr (.inl rfl)
  recordWrite_keeps _ _ := fun tracked => mem_recency_touch.mpr (.inr tracked)
  recordAccess_keeps _ _ := fun tracked => mem_recency_touch.mpr (.inr tracked)
  recordRemoval_keeps := by
    intro policy key query different tracked
    have kept : query ∈ policy.recency.erase key :=
      (List.mem_erase_of_ne different).mpr tracked
    rwa [← recency_recordRemoval] at kept
  onStorageEvent_keeps _ _ _ := id

/-- A seeded policy tracks the entries it was seeded with and no others. -/
theorem mem_recency_seed {policy : LruEvictionPolicy} {entries : List (CacheEntry Value)}
    {key : CacheKey} :
    key ∈ (policy.seed entries).recency ↔ key ∈ entries.map CacheEntry.key := by
  have touched : ∀ (remaining : List (CacheEntry Value)) (current : LruEvictionPolicy),
      key ∈ (remaining.foldl (fun current entry => current.touch entry.key)
        current).recency ↔
      key ∈ current.recency ∨ key ∈ remaining.map CacheEntry.key := by
    intro remaining
    induction remaining with
    | nil => simp
    | cons next rest ih =>
        intro current
        rw [List.foldl_cons, ih, mem_recency_touch, List.map_cons, List.mem_cons]
        tauto
  have nothing : policy.reset.recency = [] := rfl
  rw [seed, touched, nothing, ((List.perm_insertionSort _ entries).map _).mem_iff]
  simp

/-- A seeded policy tracks every entry it was seeded with. -/
theorem tracks_seed {policy : LruEvictionPolicy} {entries : List (CacheEntry Value)}
    {entry : CacheEntry Value} (member : entry ∈ entries) :
    entry.key ∈ (policy.seed entries).recency :=
  mem_recency_seed.mpr (List.mem_map.mpr ⟨entry, member, rfl⟩)

theorem mem_nodes_iff {policy : LruEvictionPolicy} {key : CacheKey} :
    key ∈ policy.list.nodes.keys ↔ key ∈ policy.recency := by
  rw [policy.represents_recency.tracked, List.mem_reverse]

end LruEvictionPolicy

end FlowCache
