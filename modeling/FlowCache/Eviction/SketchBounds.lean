import Mathlib.Data.List.Nodup
import FlowCache.Library.Transition
import FlowCache.Eviction.CountMinSketch

/-!
# The sketch never counts too little

What an increment does to the counters of a key: in each row it counts the one counter of
its own key, which lies in that row, and leaves the others of the row alone.  So the
counters of a key stay at or above a count that is kept for that key alone, saturates as
they do and is halved whenever the sketch ages.
-/

namespace FlowCache

open Transition

/-- Count once more, up to `MAX_COUNTER`. -/
def countUp (count : Nat) : Nat := if count < maxCounter then count + 1 else count

theorem countUp_mono {small large : Nat} (le : small ≤ large) :
    countUp small ≤ countUp large := by
  unfold countUp
  split
  · split
    · omega
    · omega
  · split
    · omega
    · omega

theorem le_countUp (count : Nat) : count ≤ countUp count := by
  unfold countUp
  split
  · exact Nat.le_succ count
  · exact Nat.le_refl count

theorem countUp_le {count : Nat} (within : count ≤ maxCounter) :
    countUp count ≤ maxCounter := by
  unfold countUp
  split
  · next below => exact below
  · exact within

namespace CountMinSketch

/-- The counter of a key in a row. -/
def counter (sketch : CountMinSketch) (key : String) (row : Nat) : Nat :=
  sketch.table.getD (sketch.indexFor key row) maxCounter

/-- The next increment is followed by `age()`. -/
def AgesNext (sketch : CountMinSketch) : Prop :=
  sketch.agingThreshold ≤ sketch.additionsSinceAging + 1

instance (sketch : CountMinSketch) : Decidable sketch.AgesNext :=
  inferInstanceAs (Decidable (_ ≤ _))

/-! ## Places in the table -/

/-- An index lies in its own row. -/
theorem indexFor_in_row (sketch : CountMinSketch) (key : String) (row : Nat) :
    row * sketch.width ≤ sketch.indexFor key row ∧
      sketch.indexFor key row < (row + 1) * sketch.width := by
  have inside := Nat.mod_lt (fnv1aWithSeed key row) sketch.width_pos
  rw [indexFor, Nat.succ_mul]
  exact ⟨Nat.le_add_right _ _, Nat.add_lt_add_left inside _⟩

theorem indexFor_lt (sketch : CountMinSketch) (key : String) {row : Nat}
    (inside : row < sketch.depth) : sketch.indexFor key row < sketch.table.size := by
  rw [sketch.table_size, Nat.mul_comm]
  exact (sketch.indexFor_in_row key row).2.trans_le
    (Nat.mul_le_mul_right sketch.width inside)

/-- Different rows have different places. -/
theorem indexFor_ne (sketch : CountMinSketch) (key query : String) {row other : Nat}
    (different : row ≠ other) : sketch.indexFor key row ≠ sketch.indexFor query other := by
  intro same
  obtain ⟨low, high⟩ := sketch.indexFor_in_row key row
  obtain ⟨otherLow, otherHigh⟩ := sketch.indexFor_in_row query other
  rcases Nat.lt_or_gt_of_ne different with before | after
  · have apart := Nat.mul_le_mul_right sketch.width (Nat.succ_le_of_lt before)
    rw [Nat.succ_eq_add_one] at apart
    omega
  · have apart := Nat.mul_le_mul_right sketch.width (Nat.succ_le_of_lt after)
    rw [Nat.succ_eq_add_one] at apart
    omega

/-! ## Increments -/

theorem counter_incrementRow (sketch : CountMinSketch) (key query : String) (row : Nat)
    {other : Nat} (inside : other < sketch.depth) :
    (sketch.incrementRow key row).counter query other =
      if sketch.indexFor key row = sketch.indexFor query other then
        countUp (sketch.counter query other)
      else
        sketch.counter query other := by
  have within := sketch.indexFor_lt query inside
  change (sketch.table.modify (sketch.indexFor key row) countUp).getD
    (sketch.indexFor query other) maxCounter = _
  rw [Array.getD_eq_getD_getElem?, Array.getElem?_modify, counter,
    Array.getD_eq_getD_getElem?, Array.getElem?_eq_getElem within]
  split
  · rfl
  · rfl

/-- The rows of an increment. -/
def incrementRows (sketch : CountMinSketch) (key : String) (rows : List Nat) :
    CountMinSketch :=
  rows.foldl (fun current row => current.incrementRow key row) sketch

theorem incrementRows_dimensions (key : String) (rows : List Nat) (sketch : CountMinSketch) :
    (sketch.incrementRows key rows).width = sketch.width ∧
      (sketch.incrementRows key rows).depth = sketch.depth ∧
      (sketch.incrementRows key rows).agingThreshold = sketch.agingThreshold ∧
      (sketch.incrementRows key rows).additionsSinceAging = sketch.additionsSinceAging := by
  induction rows generalizing sketch with
  | nil => exact ⟨rfl, rfl, rfl, rfl⟩
  | cons row rest ih => exact ih (sketch.incrementRow key row)

theorem counter_incrementRows (key query : String) {rows : List Nat} (nodup : rows.Nodup)
    (sketch : CountMinSketch) {row : Nat} (inside : row < sketch.depth) :
    (sketch.incrementRows key rows).counter query row =
      if row ∈ rows ∧ sketch.indexFor key row = sketch.indexFor query row then
        countUp (sketch.counter query row)
      else
        sketch.counter query row := by
  induction rows generalizing sketch with
  | nil => simp [incrementRows]
  | cons first rest ih =>
      obtain ⟨fresh, restNodup⟩ := List.nodup_cons.mp nodup
      have later := ih restNodup (sketch.incrementRow key first) inside
      rw [counter_incrementRow sketch key query first inside] at later
      change ((sketch.incrementRow key first).incrementRows key rest).counter query row = _
      rw [later]
      change (if row ∈ rest ∧ sketch.indexFor key row = sketch.indexFor query row then _
        else _) = _
      by_cases same : first = row
      · subst same
        simp [fresh]
      · simp [Ne.symm same, sketch.indexFor_ne key query same]

/-- `increment` without the halving that may follow it. -/
def counted (sketch : CountMinSketch) (key : String) : CountMinSketch :=
  { sketch.incrementRows key (List.range sketch.depth) with
    additionsSinceAging :=
      (sketch.incrementRows key (List.range sketch.depth)).additionsSinceAging + 1 }

theorem counted_depth (sketch : CountMinSketch) (key : String) :
    (sketch.counted key).depth = sketch.depth :=
  (incrementRows_dimensions key _ sketch).2.1

theorem increment_eq (sketch : CountMinSketch) (key : String) :
    sketch.increment key =
      if sketch.AgesNext then (sketch.counted key).age else sketch.counted key := by
  obtain ⟨-, -, threshold, additions⟩ :=
    incrementRows_dimensions key (List.range sketch.depth) sketch
  have condition : (sketch.counted key).agingThreshold ≤
      (sketch.counted key).additionsSinceAging ↔ sketch.AgesNext := by
    simp only [counted, threshold, additions, AgesNext]
  change (if (sketch.counted key).agingThreshold ≤ (sketch.counted key).additionsSinceAging
    then (sketch.counted key).age else sketch.counted key) = _
  simp only [condition]

/-- An increment counts the counters that its key shares. -/
theorem counter_counted (sketch : CountMinSketch) (key query : String) {row : Nat}
    (inside : row < sketch.depth) :
    (sketch.counted key).counter query row =
      if sketch.indexFor key row = sketch.indexFor query row then
        countUp (sketch.counter query row)
      else
        sketch.counter query row := by
  have rows := counter_incrementRows key query (@List.nodup_range sketch.depth) sketch inside
  simp only [List.mem_range.mpr inside, true_and] at rows
  exact rows

theorem counter_age (sketch : CountMinSketch) (query : String) {row : Nat}
    (inside : row < sketch.depth) :
    sketch.age.counter query row = sketch.counter query row / 2 := by
  have within := sketch.indexFor_lt query inside
  change (sketch.table.map (· >>> 1)).getD (sketch.indexFor query row) maxCounter = _
  rw [Array.getD_eq_getD_getElem?, Array.getElem?_map, counter,
    Array.getD_eq_getD_getElem?, Array.getElem?_eq_getElem within]
  exact Nat.shiftRight_one _

theorem counter_reset (sketch : CountMinSketch) (query : String) {row : Nat}
    (inside : row < sketch.depth) : sketch.reset.counter query row = 0 := by
  have within := sketch.indexFor_lt query inside
  rw [sketch.table_size] at within
  change (Array.replicate (sketch.width * sketch.depth) 0).getD
    (sketch.indexFor query row) maxCounter = 0
  rw [Array.getD_eq_getD_getElem?, Array.getElem?_replicate, if_pos within]
  rfl

/-! ## Estimates -/

/-- The estimate of a key is its lowest counter. -/
theorem le_estimate_iff (sketch : CountMinSketch) (key : String) {bound : Nat} :
    bound ≤ sketch.estimate key ↔
      bound ≤ maxCounter ∧ ∀ row < sketch.depth, bound ≤ sketch.counter key row := by
  have folded : ∀ (rows : List Nat) (start : Nat),
      bound ≤ rows.foldl (fun least row => min least (sketch.counter key row)) start ↔
        bound ≤ start ∧ ∀ row ∈ rows, bound ≤ sketch.counter key row := by
    intro rows
    induction rows with
    | nil => simp
    | cons row rest ih =>
        intro start
        rw [List.foldl_cons, ih, le_min_iff, List.forall_mem_cons, and_assoc]
  have scanned := folded (List.range sketch.depth) maxCounter
  simp only [List.mem_range] at scanned
  exact scanned

end CountMinSketch

/-! ## The count of each key alone -/

/-- A call of a sketch. -/
inductive SketchCall where
  | increment (key : String)
  | age
  | reset
  deriving DecidableEq, Repr

/-- A sketch, and beside it the exact count of every key. -/
structure ShadowedSketch where
  sketch : CountMinSketch
  shadow : String → Nat

namespace ShadowedSketch

/-- The sketch and the counts after a call.  An increment counts its key, and the counts
are halved when the sketch ages, be it by a call or at the end of an increment. -/
def step (state : ShadowedSketch) : SketchCall → ShadowedSketch
  | .increment key =>
      let counts := Function.update state.shadow key (countUp (state.shadow key))
      { sketch := state.sketch.increment key
        shadow := if state.sketch.AgesNext then fun query => counts query / 2 else counts }
  | .age => { sketch := state.sketch.age, shadow := fun query => state.shadow query / 2 }
  | .reset => { sketch := state.sketch.reset, shadow := fun _ => 0 }

end ShadowedSketch

namespace CountMinSketch

/-- Every counter of a key is at least its count. -/
structure Covers (sketch : CountMinSketch) (shadow : String → Nat) : Prop where
  within : ∀ key, shadow key ≤ maxCounter
  counter : ∀ key, ∀ row < sketch.depth, shadow key ≤ sketch.counter key row

namespace Covers

variable {sketch : CountMinSketch} {shadow : String → Nat}

theorem zero (sketch : CountMinSketch) : sketch.Covers fun _ => 0 where
  within _ := Nat.zero_le _
  counter _ _ _ := Nat.zero_le _

theorem age (covers : sketch.Covers shadow) :
    sketch.age.Covers fun query => shadow query / 2 where
  within key := (Nat.div_le_self _ 2).trans (covers.within key)
  counter key row inside := by
    rw [counter_age sketch key inside]
    exact Nat.div_le_div_right (covers.counter key row inside)

theorem counted (covers : sketch.Covers shadow) (key : String) :
    (sketch.counted key).Covers (Function.update shadow key (countUp (shadow key))) where
  within query := by
    rw [Function.update_apply]
    split
    · exact countUp_le (covers.within key)
    · exact covers.within query
  counter query row inside := by
    rw [counted_depth] at inside
    have bound := covers.counter query row inside
    rw [counter_counted sketch key query inside, Function.update_apply]
    by_cases same : query = key
    · subst same
      simpa using countUp_mono bound
    · rw [if_neg same]
      split
      · exact bound.trans (le_countUp _)
      · exact bound

theorem step {state : ShadowedSketch} (covers : state.sketch.Covers state.shadow)
    (call : SketchCall) : (state.step call).sketch.Covers (state.step call).shadow := by
  cases call with
  | increment key =>
      simp only [ShadowedSketch.step, increment_eq]
      split
      · exact (covers.counted key).age
      · exact covers.counted key
  | age => exact covers.age
  | reset => exact zero state.sketch.reset

end Covers

theorem step_dimensions (state : ShadowedSketch) (call : SketchCall) :
    (state.step call).sketch.width = state.sketch.width ∧
      (state.step call).sketch.depth = state.sketch.depth := by
  cases call with
  | increment key =>
      obtain ⟨width, depth, -, -⟩ :=
        incrementRows_dimensions key (List.range state.sketch.depth) state.sketch
      simp only [ShadowedSketch.step, increment_eq]
      split
      · exact ⟨width, depth⟩
      · exact ⟨width, depth⟩
  | age => exact ⟨rfl, rfl⟩
  | reset => exact ⟨rfl, rfl⟩

theorem run_dimensions (state : ShadowedSketch) (calls : List SketchCall) :
    (run ShadowedSketch.step state calls).sketch.width = state.sketch.width ∧
      (run ShadowedSketch.step state calls).sketch.depth = state.sketch.depth := by
  induction calls generalizing state with
  | nil => exact ⟨rfl, rfl⟩
  | cons call rest ih =>
      obtain ⟨width, depth⟩ := step_dimensions state call
      exact ⟨(ih (state.step call)).1.trans width, (ih (state.step call)).2.trans depth⟩

/-- Every sketch with positive dimensions can be made, and after any calls no estimate is
below the count of its key; every place that a key has in the table lies in its own row. -/
theorem never_counts_too_little {width depth : Nat} (widthPositive : 1 ≤ width)
    (depthPositive : 1 ≤ depth) (agingThreshold : Nat) :
    ∃ sketch, create width depth agingThreshold = .ok sketch ∧
      ∀ (calls : List SketchCall) (key : String),
        let state := run ShadowedSketch.step ⟨sketch, fun _ => 0⟩ calls
        state.shadow key ≤ state.sketch.estimate key ∧
          ∀ row < depth, row * width ≤ state.sketch.indexFor key row ∧
            state.sketch.indexFor key row < (row + 1) * width ∧
            state.sketch.indexFor key row < state.sketch.table.size := by
  have positive : 0 < width ∧ 0 < depth := ⟨widthPositive, depthPositive⟩
  refine ⟨_, dif_pos positive, ?_⟩
  intro calls key state
  have dimensions : state.sketch.width = width ∧ state.sketch.depth = depth :=
    run_dimensions _ calls
  have covers : state.sketch.Covers state.shadow :=
    @run_invariant _ _ ShadowedSketch.step (fun state => state.sketch.Covers state.shadow) _
      (fun _ call covers => covers.step call) (.zero _) calls
  constructor
  · rw [le_estimate_iff]
    exact ⟨covers.within key, covers.counter key⟩
  · intro row inside
    have inRow := state.sketch.indexFor_in_row key row
    rw [dimensions.1] at inRow
    exact ⟨inRow.1, inRow.2, state.sketch.indexFor_lt key (dimensions.2.symm ▸ inside)⟩

/-- The third increment of four ages a small sketch: the count of a key that was
incremented three times is two, and its estimate is not below that. -/
theorem never_counts_too_little_aged :
    ∃ sketch, create 2 1 3 = .ok sketch ∧
      let state := run ShadowedSketch.step ⟨sketch, fun _ => 0⟩
        [.increment "a", .increment "b", .increment "a", .increment "a"]
      state.shadow "a" = 2 ∧ 2 ≤ state.sketch.estimate "a" := by
  obtain ⟨sketch, created, bounds⟩ :=
    never_counts_too_little (by decide : 1 ≤ 2) (by decide : 1 ≤ 1) 3
  refine ⟨sketch, created, ?_⟩
  intro state
  have count : state.shadow "a" = 2 := by
    cases created
    decide +kernel
  exact ⟨count, count ▸ (bounds _ "a").1⟩

end CountMinSketch

end FlowCache
