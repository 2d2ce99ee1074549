import FlowCache.Eviction.SketchBounds
import FlowCache.Eviction.TinyLFU

/-!
# What a seeded sketch remembers

`seed` replays up to 32 increments for every entry through the counter that also ages the
sketch.  As long as the replayed increments stay below the threshold nothing is halved and
every entry keeps its count.  The increment that reaches the threshold halves what was
replayed so far, and its own key then has less than was replayed for it, unless the
counters it shares with other keys make up for the loss in every row.
-/

namespace FlowCache

open Transition

variable {Value : Type}

namespace CountMinSketch

/-- Increments for a list of keys, in order. -/
def incrementAll (sketch : CountMinSketch) (keys : List String) : CountMinSketch :=
  keys.foldl increment sketch

/-- A key shares its counter of a row with no other key of the list. -/
def Alone (sketch : CountMinSketch) (keys : List String) (key : String) (row : Nat) : Prop :=
  ∀ other ∈ keys, other ≠ key → sketch.indexFor other row ≠ sketch.indexFor key row

instance (sketch : CountMinSketch) (keys : List String) (key : String) (row : Nat) :
    Decidable (sketch.Alone keys key row) :=
  inferInstanceAs (Decidable (∀ other ∈ keys, _ → _))

theorem increment_dimensions (sketch : CountMinSketch) (key : String) :
    (sketch.increment key).width = sketch.width ∧
      (sketch.increment key).depth = sketch.depth ∧
      (sketch.increment key).agingThreshold = sketch.agingThreshold := by
  obtain ⟨width, depth, threshold, -⟩ :=
    incrementRows_dimensions key (List.range sketch.depth) sketch
  rw [increment_eq]
  split
  · exact ⟨width, depth, threshold⟩
  · exact ⟨width, depth, threshold⟩

theorem incrementAll_dimensions (keys : List String) (sketch : CountMinSketch) :
    (sketch.incrementAll keys).width = sketch.width ∧
      (sketch.incrementAll keys).depth = sketch.depth ∧
      (sketch.incrementAll keys).agingThreshold = sketch.agingThreshold := by
  induction keys generalizing sketch with
  | nil => exact ⟨rfl, rfl, rfl⟩
  | cons key rest ih =>
      obtain ⟨width, depth, threshold⟩ := sketch.increment_dimensions key
      obtain ⟨restWidth, restDepth, restThreshold⟩ := ih (sketch.increment key)
      exact ⟨restWidth.trans width, restDepth.trans depth, restThreshold.trans threshold⟩

/-- An increment that ages nothing is one more addition. -/
theorem increment_of_quiet {sketch : CountMinSketch}
    (quiet : sketch.additionsSinceAging + 1 < sketch.agingThreshold) (key : String) :
    sketch.increment key = sketch.counted key ∧
      (sketch.increment key).additionsSinceAging = sketch.additionsSinceAging + 1 := by
  have calm : ¬sketch.AgesNext := Nat.not_le.mpr quiet
  have counted : sketch.increment key = sketch.counted key := by
    rw [increment_eq, if_neg calm]
  refine ⟨counted, ?_⟩
  rw [counted]
  exact congrArg (· + 1)
    (incrementRows_dimensions key (List.range sketch.depth) sketch).2.2.2

theorem additions_incrementAll {keys : List String} {sketch : CountMinSketch}
    (quiet : sketch.additionsSinceAging + keys.length < sketch.agingThreshold) :
    (sketch.incrementAll keys).additionsSinceAging =
      sketch.additionsSinceAging + keys.length := by
  induction keys generalizing sketch with
  | nil => rfl
  | cons key rest ih =>
      rw [List.length_cons] at quiet ⊢
      have calm : sketch.additionsSinceAging + 1 < sketch.agingThreshold := by omega
      obtain ⟨-, additions⟩ := increment_of_quiet calm key
      have later := @ih (sketch.increment key) (by
        rw [additions, (sketch.increment_dimensions key).2.2]
        omega)
      rw [additions] at later
      exact later.trans (by omega)

/-! ## A quiet replay -/

/-- Without aging every key is counted as often as it occurs. -/
theorem Covers.incrementAll {keys : List String} {sketch : CountMinSketch}
    {shadow : String → Nat} (covers : sketch.Covers shadow)
    (quiet : sketch.additionsSinceAging + keys.length < sketch.agingThreshold)
    (room : ∀ key, shadow key + keys.count key ≤ maxCounter) :
    (sketch.incrementAll keys).Covers fun key => shadow key + keys.count key := by
  induction keys generalizing sketch shadow with
  | nil => simpa [CountMinSketch.incrementAll] using covers
  | cons key rest ih =>
      rw [List.length_cons] at quiet
      have calm : sketch.additionsSinceAging + 1 < sketch.agingThreshold := by omega
      obtain ⟨counted, additions⟩ := increment_of_quiet calm key
      have bumped : Function.update shadow key (countUp (shadow key)) =
          fun query => shadow query + [key].count query := by
        funext query
        rw [Function.update_apply]
        split
        · next same =>
            subst same
            have below : shadow query < maxCounter := by
              have bound := room query
              rw [List.count_cons_self] at bound
              omega
            rw [countUp, if_pos below, List.count_singleton_self]
        · next different => simp [Ne.symm different]
      have stepped := covers.counted key
      rw [bumped, ← counted] at stepped
      have whole : ∀ query, shadow query + [key].count query + rest.count query =
          shadow query + (key :: rest).count query := by
        intro query
        rw [Nat.add_assoc, ← List.count_append, List.singleton_append]
      have later := @ih (sketch.increment key) _ stepped
        (by rw [additions, (sketch.increment_dimensions key).2.2]; omega)
        (fun query => (whole query).trans_le (room query))
      simp only [whole] at later
      exact later

/-! ## A replay that reaches the threshold -/

theorem countUp_le_succ (count : Nat) : countUp count ≤ count + 1 := by
  unfold countUp
  split
  · exact Nat.le_refl _
  · exact Nat.le_succ _

/-- A counter that a key has for itself goes up by at most one, and only for that key. -/
theorem counter_increment_le {sketch : CountMinSketch} {key query : String} {row : Nat}
    (inside : row < sketch.depth)
    (alone : key ≠ query → sketch.indexFor key row ≠ sketch.indexFor query row) :
    (sketch.increment key).counter query row ≤
      sketch.counter query row + [key].count query := by
  have counted : (sketch.counted key).counter query row ≤
      sketch.counter query row + [key].count query := by
    rw [counter_counted sketch key query inside]
    by_cases same : key = query
    · subst same
      rw [if_pos rfl, List.count_singleton_self]
      exact countUp_le_succ _
    · rw [if_neg (alone same)]
      exact Nat.le_add_right _ _
  rw [increment_eq]
  split
  · rw [counter_age _ _ (by rwa [counted_depth])]
    exact (Nat.div_le_self _ 2).trans counted
  · exact counted

theorem counter_incrementAll_le {keys : List String} {sketch : CountMinSketch}
    {query : String} {row : Nat} (inside : row < sketch.depth)
    (alone : sketch.Alone keys query row) :
    (sketch.incrementAll keys).counter query row ≤
      sketch.counter query row + keys.count query := by
  induction keys generalizing sketch with
  | nil => exact Nat.le_refl _
  | cons key rest ih =>
      obtain ⟨width, depth, -⟩ := sketch.increment_dimensions key
      have first := counter_increment_le inside (alone key List.mem_cons_self)
      have restAlone : (sketch.increment key).Alone rest query row := by
        intro other member different
        simp only [indexFor, width]
        exact alone other (List.mem_cons_of_mem key member) different
      have later := @ih (sketch.increment key) (by rwa [depth]) restAlone
      rw [← List.singleton_append, List.count_append]
      exact later.trans (by omega)

/-- The increment of a key that ages the sketch costs that key at least one count. -/
theorem counter_of_aged {before after : List String} {sketch : CountMinSketch}
    {key : String} {row : Nat} (inside : row < sketch.depth)
    (alone : sketch.Alone (before ++ key :: after) key row)
    (ages : (sketch.incrementAll before).AgesNext) :
    (sketch.incrementAll (before ++ key :: after)).counter key row + 1 ≤
      sketch.counter key row + (before ++ key :: after).count key := by
  obtain ⟨width, depth, -⟩ := incrementAll_dimensions before sketch
  have first : (sketch.incrementAll before).counter key row ≤
      sketch.counter key row + before.count key := by
    apply counter_incrementAll_le inside
    intro other member different
    exact alone other (List.mem_append_left _ member) different
  have halved : ((sketch.incrementAll before).increment key).counter key row ≤
      (sketch.incrementAll before).counter key row := by
    have within : row < (sketch.incrementAll before).depth := by rwa [depth]
    have up := countUp_le_succ ((sketch.incrementAll before).counter key row)
    rw [increment_eq, if_pos ages, counter_age _ _ (by rwa [counted_depth]),
      counter_counted _ _ _ within, if_pos rfl]
    omega
  obtain ⟨nextWidth, nextDepth, -⟩ := (sketch.incrementAll before).increment_dimensions key
  have last : (((sketch.incrementAll before).increment key).incrementAll after).counter key
      row ≤ ((sketch.incrementAll before).increment key).counter key row + after.count key := by
    apply counter_incrementAll_le (by rwa [nextDepth, depth])
    intro other member different
    simp only [indexFor, nextWidth, width]
    exact alone other (List.mem_append_right _ (List.mem_cons_of_mem key member)) different
  have split : sketch.incrementAll (before ++ key :: after) =
      ((sketch.incrementAll before).increment key).incrementAll after := by
    simp only [CountMinSketch.incrementAll, List.foldl_append, List.foldl_cons]
  rw [split, List.count_append, List.count_cons_self]
  omega

end CountMinSketch

/-! ## The replay of a seed -/

/-- `replayCount`. -/
def CacheEntry.replayCount (entry : CacheEntry Value) : Nat :=
  min (max 1 entry.metadata.frequency) 32

/-- The keys of the replayed increments, in order. -/
def replayedKeys (entries : List (CacheEntry Value)) : List CacheKey :=
  entries.flatMap fun entry => List.replicate entry.replayCount entry.key

theorem length_replayedKeys (entries : List (CacheEntry Value)) :
    (replayedKeys entries).length = (entries.map CacheEntry.replayCount).sum := by
  simp [replayedKeys, List.length_flatMap]

theorem exists_of_mem_replayedKeys {entries : List (CacheEntry Value)} {key : CacheKey}
    (member : key ∈ replayedKeys entries) : ∃ entry ∈ entries, entry.key = key := by
  obtain ⟨entry, inside, replayed⟩ := List.mem_flatMap.mp member
  exact ⟨entry, inside, (List.eq_of_mem_replicate replayed).symm⟩

/-- With distinct keys, a key is replayed for its own entry only. -/
theorem count_replayedKeys {entries : List (CacheEntry Value)}
    (distinct : (entries.map CacheEntry.key).Nodup) {entry : CacheEntry Value}
    (member : entry ∈ entries) :
    (replayedKeys entries).count entry.key = entry.replayCount := by
  induction entries with
  | nil => cases member
  | cons first rest ih =>
      obtain ⟨fresh, restDistinct⟩ := List.nodup_cons.mp distinct
      rw [replayedKeys, List.flatMap_cons, List.count_append, ← replayedKeys]
      rcases List.mem_cons.mp member with rfl | later
      · have absent : entry.key ∉ replayedKeys rest := by
          intro replayed
          obtain ⟨other, inside, same⟩ := exists_of_mem_replayedKeys replayed
          exact fresh (List.mem_map.mpr ⟨other, inside, same⟩)
        rw [List.count_replicate_self, List.count_eq_zero_of_not_mem absent, Nat.add_zero]
      · have different : entry.key ∉ List.replicate first.replayCount first.key := by
          intro replayed
          exact fresh (List.mem_map.mpr ⟨entry, later, List.eq_of_mem_replicate replayed⟩)
        rw [List.count_eq_zero_of_not_mem different, Nat.zero_add, ih restDistinct later]

theorem count_replayedKeys_le {entries : List (CacheEntry Value)}
    (distinct : (entries.map CacheEntry.key).Nodup) (key : CacheKey) :
    (replayedKeys entries).count key ≤ 32 := by
  by_cases member : key ∈ replayedKeys entries
  · obtain ⟨entry, inside, rfl⟩ := exists_of_mem_replayedKeys member
    rw [count_replayedKeys distinct inside]
    exact min_le_right _ _
  · rw [List.count_eq_zero_of_not_mem member]
    exact Nat.zero_le _

namespace TinyLfuEvictionPolicy

/-- `seed` increments the replayed keys on an empty sketch. -/
theorem seed_sketch (policy : TinyLfuEvictionPolicy) (entries : List (CacheEntry Value)) :
    (policy.seed entries).sketch = policy.sketch.reset.incrementAll (replayedKeys entries) := by
  have replayed : ∀ sketch : CountMinSketch,
      entries.foldl
        (fun sketch entry =>
          let replayCount := min (max 1 entry.metadata.frequency) 32
          Nat.iterate (fun current => current.increment entry.key) replayCount sketch)
        sketch =
      sketch.incrementAll (replayedKeys entries) := by
    induction entries with
    | nil => intro sketch; rfl
    | cons entry rest ih =>
        intro sketch
        have own : ∀ (count : Nat) (current : CountMinSketch),
            Nat.iterate (fun current => current.increment entry.key) count current =
              current.incrementAll (List.replicate count entry.key) := by
          intro count
          induction count with
          | zero => intro current; rfl
          | succ count step => intro current; exact step (current.increment entry.key)
        have keys : replayedKeys (entry :: rest) =
            List.replicate entry.replayCount entry.key ++ replayedKeys rest := rfl
        rw [List.foldl_cons, ih, own, keys]
        exact List.foldl_append.symm
  exact replayed policy.sketch.reset

/-- Every entry has at least the estimate that was replayed for it. -/
def CarriesFrequencies (policy : TinyLfuEvictionPolicy) (entries : List (CacheEntry Value)) :
    Prop :=
  ∀ entry ∈ entries,
    min (max 1 entry.metadata.frequency) 32 ≤ (policy.seed entries).sketch.estimate entry.key

instance (policy : TinyLfuEvictionPolicy) (entries : List (CacheEntry Value)) :
    Decidable (policy.CarriesFrequencies entries) :=
  inferInstanceAs (Decidable (∀ entry ∈ entries, _ ≤ _))

/-- The replayed increments do not reach the aging threshold. -/
def ReplaysBelowThreshold (policy : TinyLfuEvictionPolicy)
    (entries : List (CacheEntry Value)) : Prop :=
  (entries.map CacheEntry.replayCount).sum < max 1 policy.sketch.agingThreshold

instance (policy : TinyLfuEvictionPolicy) (entries : List (CacheEntry Value)) :
    Decidable (policy.ReplaysBelowThreshold entries) :=
  inferInstanceAs (Decidable (_ < _))

/-- Every entry has in some row a counter that no other entry uses. -/
def HaveOwnCounters (policy : TinyLfuEvictionPolicy) (entries : List (CacheEntry Value)) :
    Prop :=
  ∀ entry ∈ entries, ∃ row < policy.sketch.depth,
    policy.sketch.Alone (entries.map CacheEntry.key) entry.key row

instance (policy : TinyLfuEvictionPolicy) (entries : List (CacheEntry Value)) :
    Decidable (policy.HaveOwnCounters entries) :=
  inferInstanceAs (Decidable (∀ entry ∈ entries, ∃ row < policy.sketch.depth, _))

theorem carries_of_below {policy : TinyLfuEvictionPolicy} {entries : List (CacheEntry Value)}
    (distinct : (entries.map CacheEntry.key).Nodup)
    (below : policy.ReplaysBelowThreshold entries) : policy.CarriesFrequencies entries := by
  intro entry member
  have replayed : entry.replayCount ≤ (replayedKeys entries).length := by
    rw [← count_replayedKeys distinct member]
    exact List.count_le_length
  have some : 1 ≤ entry.replayCount := le_min (le_max_left _ _) (by decide)
  have quiet : policy.sketch.reset.additionsSinceAging + (replayedKeys entries).length <
      policy.sketch.reset.agingThreshold := by
    change 0 + (replayedKeys entries).length < policy.sketch.agingThreshold
    rw [ReplaysBelowThreshold, ← length_replayedKeys] at below
    omega
  have covers := (CountMinSketch.Covers.zero policy.sketch.reset).incrementAll quiet
    fun key => (Nat.zero_add _).trans_le
      ((count_replayedKeys_le distinct key).trans (by decide))
  rw [seed_sketch, CountMinSketch.le_estimate_iff]
  refine ⟨(min_le_right _ _).trans (by decide), ?_⟩
  intro row inside
  have bound := covers.counter entry.key row inside
  rw [Nat.zero_add, count_replayedKeys distinct member] at bound
  exact bound

/-- The replayed increment that reaches the threshold first. -/
theorem exists_aging_increment {policy : TinyLfuEvictionPolicy}
    {entries : List (CacheEntry Value)} (reached : ¬policy.ReplaysBelowThreshold entries) :
    ∃ before key after, replayedKeys entries = before ++ key :: after ∧
      (policy.sketch.reset.incrementAll before).AgesNext := by
  rw [ReplaysBelowThreshold, ← length_replayedKeys, not_lt] at reached
  obtain ⟨before, key, after, split, length⟩ : ∃ before key after,
      replayedKeys entries = before ++ key :: after ∧
      before.length = max 1 policy.sketch.agingThreshold - 1 := by
    have inside : max 1 policy.sketch.agingThreshold - 1 < (replayedKeys entries).length := by
      omega
    refine ⟨(replayedKeys entries).take (max 1 policy.sketch.agingThreshold - 1),
      (replayedKeys entries)[max 1 policy.sketch.agingThreshold - 1],
      (replayedKeys entries).drop (max 1 policy.sketch.agingThreshold - 1 + 1), ?_, ?_⟩
    · rw [List.cons_getElem_drop_succ, List.take_append_drop]
    · rw [List.length_take]
      omega
  refine ⟨before, key, after, split, ?_⟩
  rw [CountMinSketch.AgesNext, (CountMinSketch.incrementAll_dimensions before _).2.2]
  change policy.sketch.agingThreshold ≤ _
  by_cases tiny : policy.sketch.agingThreshold ≤ 1
  · exact tiny.trans (Nat.le_add_left _ _)
  · have quiet : policy.sketch.reset.additionsSinceAging + before.length <
        policy.sketch.reset.agingThreshold := by
      change 0 + before.length < policy.sketch.agingThreshold
      omega
    rw [CountMinSketch.additions_incrementAll quiet]
    change _ ≤ 0 + before.length + 1
    omega

theorem below_of_carries {policy : TinyLfuEvictionPolicy} {entries : List (CacheEntry Value)}
    (distinct : (entries.map CacheEntry.key).Nodup) (own : policy.HaveOwnCounters entries)
    (carries : policy.CarriesFrequencies entries) : policy.ReplaysBelowThreshold entries := by
  by_contra reached
  obtain ⟨before, key, after, split, ages⟩ := exists_aging_increment reached
  obtain ⟨entry, member, rfl⟩ := exists_of_mem_replayedKeys
    (split ▸ List.mem_append_right before List.mem_cons_self)
  obtain ⟨row, inside, alone⟩ := own entry member
  have replayedAlone : policy.sketch.reset.Alone (replayedKeys entries) entry.key row := by
    intro other replayed different
    obtain ⟨otherEntry, otherMember, rfl⟩ := exists_of_mem_replayedKeys replayed
    exact alone _ (List.mem_map.mpr ⟨otherEntry, otherMember, rfl⟩) different
  have resetInside : row < policy.sketch.reset.depth := inside
  have lost := CountMinSketch.counter_of_aged resetInside (split ▸ replayedAlone) ages
  rw [← split, count_replayedKeys distinct member,
    CountMinSketch.counter_reset _ _ inside] at lost
  have kept := carries entry member
  rw [seed_sketch, CountMinSketch.le_estimate_iff] at kept
  have least := kept.2 row (by
    rw [(CountMinSketch.incrementAll_dimensions _ _).2.1]
    exact inside)
  rw [CacheEntry.replayCount] at lost
  omega

/-- A seed whose replay stays below the aging threshold carries over every frequency.  One
that reaches the threshold does not, if no entry owes its estimate to counters it shares
with others. -/
theorem seed_carries_frequencies (policy : TinyLfuEvictionPolicy)
    {entries : List (CacheEntry Value)} (distinct : (entries.map CacheEntry.key).Nodup) :
    (policy.ReplaysBelowThreshold entries → policy.CarriesFrequencies entries) ∧
      (policy.HaveOwnCounters entries →
        (policy.CarriesFrequencies entries ↔ policy.ReplaysBelowThreshold entries)) :=
  ⟨carries_of_below distinct,
    fun own => ⟨below_of_carries distinct own, carries_of_below distinct⟩⟩

/-- The policy of a small sketch that ages at every third increment. -/
def ageingEarly : TinyLfuEvictionPolicy :=
  create 5
    { width := 16
      depth := 1
      agingThreshold := 3
      table := Array.replicate (16 * 1) 0
      additionsSinceAging := 0
      width_pos := by decide
      depth_pos := by decide
      table_size := Array.size_replicate }

/-- Two entries with counters of their own, whose replay stays below the threshold. -/
theorem ageingEarly_carries :
    let entries : List (CacheEntry Nat) := [⟨"a", 0, ⟨1, 0, 0, 0, 1, none, 1⟩⟩,
      ⟨"b", 0, ⟨1, 0, 0, 0, 0, none, 1⟩⟩]
    ageingEarly.HaveOwnCounters entries ∧ ageingEarly.CarriesFrequencies entries := by
  intro entries
  have own : ageingEarly.HaveOwnCounters entries := by decide +kernel
  have below : ageingEarly.ReplaysBelowThreshold entries := by decide +kernel
  have distinct : (entries.map CacheEntry.key).Nodup := by decide
  exact ⟨own, ((seed_carries_frequencies ageingEarly distinct).2 own).mpr below⟩

/-- An entry that was read twice is estimated at one when another entry follows it. -/
theorem ageingEarly_forgets :
    let entries : List (CacheEntry Nat) := [⟨"a", 0, ⟨1, 0, 0, 0, 2, none, 1⟩⟩,
      ⟨"b", 0, ⟨1, 0, 0, 0, 0, none, 1⟩⟩]
    (entries.map CacheEntry.key).Nodup ∧
      (ageingEarly.seed entries).sketch.estimate "a" = 1 ∧
      ¬ageingEarly.CarriesFrequencies entries := by
  decide +kernel

end TinyLfuEvictionPolicy

end FlowCache
