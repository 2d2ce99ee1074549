import FlowCache.Benchmark.Workloads
import Mathlib.Data.List.GetD

/-!
# What the workloads draw

A Zipf distribution whose weights add up to a finite number has finite entries, and the
cumulative shares never decrease although every sum rounds, because a sum with a share
that is not negative never rounds below the number it started from.  Only the last entry,
which is set to 1, may be smaller than the one before it; a random value is less than 1,
so the search does not notice.
-/

namespace FlowCache

open BinaryFloat LowerBound

/-! ## Finite numbers -/

namespace JsNumber

theorem isNonneg_ofRat {value : Rat} (nonneg : 0 ≤ value) : (ofRat value).IsNonneg := by
  unfold ofRat
  split
  · exact decide_eq_false (not_lt.mpr nonneg)
  · exact ⟨float_nonneg nonneg, float_float nonneg⟩

theorem isNonneg_one_div {number : JsNumber} (nonneg : number.IsNonneg) :
    ((finite 1).div number).IsNonneg := by
  cases number with
  | nan => exact nonneg.elim
  | infinity negative => exact ⟨le_rfl, float_zero⟩
  | finite value =>
      simp only [div]
      split
      · rw [if_neg one_ne_zero]
        exact decide_eq_false (not_lt.mpr zero_le_one)
      · exact isNonneg_ofRat (one_div_nonneg.mpr nonneg.1)

/-- A finite result is the rounded one. -/
theorem eq_float_of_ofRat {value result : Rat} (same : ofRat value = .finite result) :
    result = float value := by
  unfold ofRat at same
  split at same
  · cases same
  · cases same
    rfl

/-- Nothing up to `2 ^ 53 + 1` overflows. -/
theorem ofRat_eq_finite {value : Rat} (nonneg : 0 ≤ value) (small : value ≤ 2 ^ 53 + 1) :
    ofRat value = .finite (float value) := by
  have fits : ¬binary64.Overflows value := by
    rw [BinaryFormat.Overflows, not_le]
    calc |binary64.nearest value| = float value := abs_of_nonneg (float_nonneg nonneg)
      _ ≤ 2 ^ 53 := float_le_two_pow nonneg small
      _ < 2 ^ binary64.overflow := pow_lt_pow_right₀ one_lt_two (by decide)
  exact if_neg fits

end JsNumber

/-! ## The cumulative distribution -/

section Total

variable {weights : List JsNumber} {start total : Rat} {values : List Rat}

theorem foldl_add_infinity (nonneg : ∀ weight ∈ weights, weight.IsNonneg) :
    weights.foldl JsNumber.add (.infinity false) = .infinity false := by
  induction weights with
  | nil => rfl
  | cons weight rest ih =>
      have later := ih fun other member => nonneg other (List.mem_cons_of_mem _ member)
      have first := nonneg weight List.mem_cons_self
      cases weight with
      | nan => exact first.elim
      | infinity negative =>
          cases first
          exact later
      | finite value => exact later

/-- Numbers that are not negative have a finite sum only if all of them are finite. -/
theorem exists_values (nonneg : ∀ weight ∈ weights, weight.IsNonneg) (positive : 0 ≤ start)
    (sum : weights.foldl JsNumber.add (.finite start) = .finite total) :
    ∃ values : List Rat, weights = values.map .finite ∧
      total = values.foldl (fun total value => float (total + value)) start := by
  induction weights generalizing start with
  | nil =>
      cases sum
      exact ⟨[], rfl, rfl⟩
  | cons weight rest ih =>
      have others := fun other member => nonneg other (List.mem_cons_of_mem weight member)
      have first := nonneg weight List.mem_cons_self
      rw [List.foldl_cons] at sum
      cases weight with
      | nan => exact first.elim
      | infinity negative =>
          cases first
          rw [JsNumber.add, foldl_add_infinity others] at sum
          cases sum
      | finite value =>
          have added := add_nonneg positive first.1
          rw [JsNumber.add] at sum
          cases next : JsNumber.ofRat (start + value) with
          | nan =>
              have impossible := JsNumber.isNonneg_ofRat added
              rw [next] at impossible
              exact impossible.elim
          | infinity negative =>
              have isPositive := JsNumber.isNonneg_ofRat added
              rw [next] at isPositive sum
              cases isPositive
              rw [foldl_add_infinity others] at sum
              cases sum
          | finite reached =>
              rw [next] at sum
              obtain rfl := JsNumber.eq_float_of_ofRat next
              obtain ⟨values, rfl, same⟩ := ih others (float_nonneg added) sum
              exact ⟨value :: values, rfl, same⟩

/-- A sum is at least what it starts from and each number added. -/
theorem le_foldl_total (nonneg : ∀ value ∈ values, 0 ≤ value ∧ float value = value)
    (positive : 0 ≤ start) (number : float start = start) :
    start ≤ values.foldl (fun total value => float (total + value)) start ∧
      ∀ value ∈ values,
        value ≤ values.foldl (fun total value => float (total + value)) start := by
  induction values generalizing start with
  | nil => exact ⟨le_rfl, fun _ impossible => by cases impossible⟩
  | cons value rest ih =>
      obtain ⟨first, exact_first⟩ := nonneg value List.mem_cons_self
      have added := add_nonneg positive first
      obtain ⟨grows, others⟩ := ih (fun other member => nonneg other (by simp [member]))
        (float_nonneg added) (float_float added)
      have fromStart : start ≤ float (start + value) := by
        calc start = float start := number.symm
          _ ≤ float (start + value) := float_mono positive (le_add_of_nonneg_right first)
      have fromValue : value ≤ float (start + value) := by
        calc value = float value := exact_first.symm
          _ ≤ float (start + value) := float_mono first (le_add_of_nonneg_left positive)
      refine ⟨fromStart.trans grows, ?_⟩
      intro other member
      rcases List.mem_cons.mp member with rfl | later
      · exact fromValue.trans grows
      · exact others other later

end Total

section Shares

/-- The cumulative shares of finite weights. -/
def finiteShares (total : Rat) : Rat → List Rat → List Rat
  | _, [] => []
  | cumulative, value :: rest =>
      let next := float (cumulative + float (value / total))
      next :: finiteShares total next rest

variable {total cumulative : Rat} {values : List Rat}

theorem length_cumulativeShares (total cumulative : JsNumber) (weights : List JsNumber) :
    (cumulativeShares total cumulative weights).length = weights.length := by
  induction weights generalizing cumulative with
  | nil => rfl
  | cons weight rest ih => exact congrArg (· + 1) (ih _)

/-- A share of the total rounds to at most 1. -/
theorem share_le_one {value : Rat} (positive : 0 < total) (nonneg : 0 ≤ value)
    (part : value ≤ total) : float (value / total) ≤ 1 := by
  calc float (value / total) ≤ float 1 :=
        float_mono (div_nonneg nonneg positive.le) ((div_le_one positive).mpr part)
    _ = 1 := float_one

/-- The shares of finite weights are finite, because a sum of shares stops growing at
`2 ^ 53` at the latest. -/
theorem cumulativeShares_finite (positive : 0 < total)
    (parts : ∀ value ∈ values, 0 ≤ value ∧ value ≤ total) (start : 0 ≤ cumulative)
    (small : cumulative ≤ 2 ^ 53) :
    cumulativeShares (.finite total) (.finite cumulative) (values.map .finite) =
      (finiteShares total cumulative values).map .finite := by
  induction values generalizing cumulative with
  | nil => rfl
  | cons value rest ih =>
      obtain ⟨nonneg, part⟩ := parts value List.mem_cons_self
      have others := fun other member => parts other (List.mem_cons_of_mem value member)
      have quotient := div_nonneg nonneg positive.le
      have share := share_le_one positive nonneg part
      have sum := add_nonneg start (float_nonneg quotient)
      have divided : (JsNumber.finite value).div (.finite total) =
          .finite (float (value / total)) := by
        rw [JsNumber.div, if_neg positive.ne']
        exact JsNumber.ofRat_eq_finite quotient
          (((div_le_one positive).mpr part).trans (by norm_num))
      have added : (JsNumber.finite cumulative).add (.finite (float (value / total))) =
          .finite (float (cumulative + float (value / total))) :=
        JsNumber.ofRat_eq_finite sum (add_le_add small share)
      have bounded := float_le_two_pow sum (add_le_add small share)
      rw [List.map_cons, cumulativeShares, divided, added, finiteShares, List.map_cons,
        ih others (float_nonneg sum) bounded]

/-- Shares that are not negative add up to an ascending list. -/
theorem pairwise_finiteShares (positive : 0 ≤ total)
    (nonneg : ∀ value ∈ values, 0 ≤ value) (start : 0 ≤ cumulative)
    (number : float cumulative = cumulative) :
    (finiteShares total cumulative values).Pairwise (· ≤ ·) ∧
      ∀ share ∈ finiteShares total cumulative values, cumulative ≤ share := by
  induction values generalizing cumulative with
  | nil => exact ⟨.nil, fun _ impossible => by cases impossible⟩
  | cons value rest ih =>
      have share : 0 ≤ float (value / total) :=
        float_nonneg (div_nonneg (nonneg value List.mem_cons_self) positive)
      have grows : cumulative ≤ float (cumulative + float (value / total)) := by
        calc cumulative = float cumulative := number.symm
          _ ≤ float (cumulative + float (value / total)) :=
            float_mono start (le_add_of_nonneg_right share)
      have sum := add_nonneg start share
      obtain ⟨ascending, above⟩ := ih (fun other member => nonneg other (by simp [member]))
        (float_nonneg sum) (float_float sum)
      rw [finiteShares]
      refine ⟨List.pairwise_cons.mpr ⟨above, ascending⟩, ?_⟩
      intro entry member
      rcases List.mem_cons.mp member with rfl | later
      · exact grows
      · exact grows.trans (above entry later)

end Shares

section Zipfian

variable (power : PowerFunction) (n : Nat) (skew : Rat)

theorem isNonneg_zipfianWeights : ∀ weight ∈ zipfianWeights power n skew, weight.IsNonneg := by
  intro weight member
  obtain ⟨index, -, rfl⟩ := List.mem_map.mp member
  exact JsNumber.isNonneg_one_div (power.nonneg index skew)

@[simp] theorem length_buildZipfianCdf : (buildZipfianCdf power n skew).length = n := by
  simp [buildZipfianCdf, length_cumulativeShares, zipfianWeights]

/-- The weights of the ranks add up to a finite number: none of the powers is rounded to 0,
and the sum is not too large. -/
def FiniteTotal : Prop :=
  ∃ total, totalWeight (zipfianWeights power n skew) = .finite total

variable {power n skew}

/-- Such weights are finite, and the total is positive because the first one is 1. -/
theorem FiniteTotal.exists_weights (finite : FiniteTotal power n skew) (positive : 0 < n) :
    ∃ (total : Rat) (values : List Rat), 0 < total ∧ values.length = n ∧
      totalWeight (zipfianWeights power n skew) = .finite total ∧
      zipfianWeights power n skew = values.map .finite ∧
      ∀ value ∈ values, 0 ≤ value ∧ value ≤ total := by
  obtain ⟨total, sum⟩ := finite
  have nonneg := isNonneg_zipfianWeights power n skew
  obtain ⟨values, weights, same⟩ := exists_values nonneg le_rfl sum
  have numbers : ∀ value ∈ values, 0 ≤ value ∧ float value = value := by
    intro value member
    exact nonneg (.finite value) (weights ▸ List.mem_map_of_mem member)
  obtain ⟨-, parts⟩ := le_foldl_total numbers le_rfl float_zero
  rw [← same] at parts
  have one : (1 : Rat) ∈ values := by
    have first : JsNumber.finite 1 ∈ zipfianWeights power n skew := by
      refine List.mem_map.mpr ⟨0, List.mem_range.mpr positive, ?_⟩
      rw [power.one, JsNumber.div, if_neg one_ne_zero, div_one,
        JsNumber.ofRat_eq_finite zero_le_one (by norm_num), float_one]
    rw [weights] at first
    obtain ⟨value, member, equal⟩ := List.mem_map.mp first
    cases equal
    exact member
  refine ⟨total, values, zero_lt_one.trans_le (parts 1 one), ?_, sum, weights,
    fun value member => ⟨(numbers value member).1, parts value member⟩⟩
  have lengths := congrArg List.length weights
  rw [List.length_map, zipfianWeights, List.length_map, List.length_range] at lengths
  exact lengths.symm

/-- The entries are finite, the last one is 1, and they ascend before it. -/
theorem FiniteTotal.exists_entries (finite : FiniteTotal power n skew) (positive : 0 < n) :
    ∃ entries : List Rat, buildZipfianCdf power n skew = entries.map .finite ∧
      entries.length = n ∧ entries.getD (n - 1) 0 = 1 ∧
      ∀ first second, first ≤ second → second < n - 1 →
        entries.getD first 0 ≤ entries.getD second 0 := by
  obtain ⟨total, values, totalPositive, length, sum, weights, parts⟩ :=
    finite.exists_weights positive
  have shares := cumulativeShares_finite totalPositive parts le_rfl (by norm_num)
  have ascending := (pairwise_finiteShares totalPositive.le
    (fun value member => (parts value member).1) le_rfl float_zero).1
  have shareLength : (finiteShares total 0 values).length = n := by
    have lengths := congrArg List.length shares
    rw [length_cumulativeShares, List.length_map, List.length_map, length] at lengths
    exact lengths.symm
  refine ⟨(finiteShares total 0 values).set (n - 1) 1, ?_, ?_, ?_, ?_⟩
  · rw [buildZipfianCdf, sum, weights]
    simp only [shares, List.map_set]
  · rw [List.length_set, shareLength]
  · rw [List.getD_eq_getElem _ _ (by rw [List.length_set]; omega)]
    exact List.getElem_set_self _
  · intro first second order inside
    rw [List.getD_eq_getElem _ _ (by rw [List.length_set]; omega),
      List.getD_eq_getElem _ _ (by rw [List.length_set]; omega),
      List.getElem_set_ne (by omega), List.getElem_set_ne (by omega)]
    rcases order.lt_or_eq with before | rfl
    · exact List.pairwise_iff_getElem.mp ascending first second _ _ before
    · exact le_rfl

end Zipfian

/-- The entries of the distribution are finite and end in 1, and a rank is drawn by the
interval of them that the random value is in. -/
def SamplesByInterval (cdf : List JsNumber) (n : Nat) : Prop :=
  ∃ entries : List Rat, cdf = entries.map .finite ∧ entries.length = n ∧
    entries.getD (n - 1) 0 = 1 ∧
    ∀ (random : RandomValue) (rank : Nat), sampleRank cdf random.value = rank ↔
      rank < n ∧ (∀ earlier < rank, entries.getD earlier 0 < random.value) ∧
        random.value ≤ entries.getD rank 0

theorem RandomValue.lt_one (random : RandomValue) : random.value < 1 := by
  have gap : (0 : Rat) < 1 / 2 ^ 53 := by positivity
  linarith [random.below]

/-- Entries of a finite table compare as their values do. -/
theorem getD_finite_lt {entries : List Rat} {mid : Nat} (inside : mid < entries.length)
    (value : Rat) :
    ((entries.map JsNumber.finite).getD mid .nan).lt (.finite value) =
      decide (entries.getD mid 0 < value) := by
  rw [List.getD_eq_getElem _ _ (by rw [List.length_map]; exact inside),
    List.getD_eq_getElem _ _ inside, List.getElem_map]
  rfl

/-- In a finite table that ascends before its last entry, the search finds the first entry
that is not below the value, if the last one is not. -/
theorem sampleRank_finite_eq_iff {entries : List Rat} {value : Rat}
    (positive : 0 < entries.length)
    (ascending : ∀ first second, first ≤ second → second < entries.length - 1 →
      entries.getD first 0 ≤ entries.getD second 0)
    (last : value ≤ entries.getD (entries.length - 1) 0) (rank : Nat) :
    sampleRank (entries.map .finite) value = rank ↔
      rank < entries.length ∧ (∀ earlier < rank, entries.getD earlier 0 < value) ∧
        value ≤ entries.getD rank 0 := by
  have downward : Downward (fun mid => ((entries.map JsNumber.finite).getD mid .nan).lt
      (.finite value)) 0 (entries.length - 1) := by
    intro first second _ order inside below
    simp only at below ⊢
    rw [getD_finite_lt (by omega), decide_eq_true_eq] at below ⊢
    exact (ascending first second order inside).trans_lt below
  have found := isLowerBound_search (Nat.zero_le _) downward
  rw [sampleRank, List.length_map]
  constructor
  · rintro rfl
    have high := found.high
    refine ⟨by omega, ?_, ?_⟩
    · intro earlier before
      have isBelow := found.earlier earlier (Nat.zero_le _) before
      rw [getD_finite_lt (by omega)] at isBelow
      exact of_decide_eq_true isBelow
    · rcases high.lt_or_eq with inside | atLast
      · have reached := found.change inside
        rw [getD_finite_lt (by omega)] at reached
        exact not_lt.mp (of_decide_eq_false reached)
      · rw [atLast]
        exact last
  · rintro ⟨inside, below, reached⟩
    apply found.unique
    constructor
    case low => exact Nat.zero_le _
    case high => omega
    case earlier =>
      intro other _ before
      rw [getD_finite_lt (by omega)]
      exact decide_eq_true (below other before)
    case change =>
      intro _
      rw [getD_finite_lt inside]
      exact decide_eq_false (not_lt.mpr reached)

/-- However the sums round, each rank of a Zipfian workload is drawn for exactly the random
values in its own interval of the distribution, if the weights have a finite sum. -/
theorem zipfian_samples_by_interval {power : PowerFunction} {n : Nat} {skew : Rat}
    (positive : 0 < n) (finite : FiniteTotal power n skew) :
    SamplesByInterval (buildZipfianCdf power n skew) n := by
  obtain ⟨entries, same, rfl, last, ascending⟩ := finite.exists_entries positive
  refine ⟨entries, same, rfl, last, ?_⟩
  intro random rank
  rw [same]
  apply sampleRank_finite_eq_iff positive ascending
  rw [last]
  exact random.lt_one.le

/-- Weights `1 / rank`. -/
def harmonic : PowerFunction where
  pow := fun rank _ => .ofRat rank
  nonneg := fun rank _ => JsNumber.isNonneg_ofRat (by positivity)
  one := fun _ => by
    rw [JsNumber.ofRat_eq_finite (by norm_num) (by norm_num), Nat.cast_one, float_one]

theorem zipfian_samples_by_interval_harmonic :
    SamplesByInterval (buildZipfianCdf harmonic 3 1) 3 :=
  zipfian_samples_by_interval (by decide)
    ⟨float (float (1 + float (1 / 2)) + float (1 / 3)), by decide +kernel⟩

/-! ## Keys -/

/-- The operation is a GET of an index below the size, or a PUT of its own value. -/
def InKeyspace (keyspaceSize : Nat) (keyPrefix : String) (operation : BenchmarkOperation) :
    Prop :=
  ∃ index < keyspaceSize, operation.key = workloadKey keyPrefix index ∧
    ((operation.op = .get ∧ operation.value = none) ∨
      (operation.op = .put ∧ ∃ payload, operation.value = some ⟨index, payload⟩))

/-- A generator over this keyspace. -/
def SimpleWorkload.Over (keyspaceSize : Nat) (keyPrefix : String) : SimpleWorkload → Prop
  | .uniformRandom size _ own => size = keyspaceSize ∧ own = keyPrefix
  | .zipfian cdf _ own => cdf.length = keyspaceSize ∧ own = keyPrefix
  | .sequentialScan size own _ cursor =>
      size = keyspaceSize ∧ own = keyPrefix ∧ cursor < keyspaceSize

/-- All components are. -/
def Workload.Over (keyspaceSize : Nat) (keyPrefix : String) : Workload → Prop
  | .simple workload => workload.Over keyspaceSize keyPrefix
  | .mixed components _ =>
      ∀ component ∈ components, component.2.Over keyspaceSize keyPrefix

section Keys

variable {keyspaceSize : Nat} {keyPrefix : String}

theorem inKeyspace_putOperation {index : Nat} (inside : index < keyspaceSize)
    (source : RandomSource) :
    InKeyspace keyspaceSize keyPrefix (putOperation keyPrefix index source).1 :=
  ⟨index, inside, rfl, .inr ⟨rfl, _, rfl⟩⟩

theorem inKeyspace_readOrWrite {index : Nat} (inside : index < keyspaceSize) (readRatio : Rat)
    (source : RandomSource) :
    InKeyspace keyspaceSize keyPrefix (readOrWrite keyPrefix readRatio index source).1 := by
  unfold readOrWrite
  simp only
  split
  · exact ⟨index, inside, rfl, .inl ⟨rfl, rfl⟩⟩
  · exact inKeyspace_putOperation inside _

/-- The product with the size rounds to less than the size. -/
theorem uniformIndex_lt (positive : 0 < keyspaceSize) (fits : keyspaceSize < 2 ^ 53)
    (random : RandomValue) : ⌊float (random.value * keyspaceSize)⌋.toNat < keyspaceSize := by
  have below : float (random.value * keyspaceSize) < keyspaceSize :=
    BinaryFormat.nearest_mul_natCast_lt positive fits (by decide) random.nonneg random.below
  have floor : ⌊float (random.value * keyspaceSize)⌋ < keyspaceSize :=
    Int.floor_lt.mpr (by exact_mod_cast below)
  omega

theorem SimpleWorkload.over_nextOperation {workload : SimpleWorkload}
    (positive : 0 < keyspaceSize) (fits : keyspaceSize < 2 ^ 53)
    (keyspace : workload.Over keyspaceSize keyPrefix) (source : RandomSource) :
    InKeyspace keyspaceSize keyPrefix (workload.nextOperation source).1 ∧
      (workload.nextOperation source).2.2.Over keyspaceSize keyPrefix := by
  cases workload with
  | uniformRandom size readRatio own =>
      obtain ⟨rfl, rfl⟩ := keyspace
      exact ⟨inKeyspace_readOrWrite (uniformIndex_lt positive fits _) _ _, rfl, rfl⟩
  | zipfian cdf readRatio own =>
      obtain ⟨rfl, rfl⟩ := keyspace
      have sampled := search_mem
        (fun mid => (cdf.getD mid .nan).lt (.finite source.next.1.value))
        (Nat.zero_le (cdf.length - 1))
      refine ⟨inKeyspace_readOrWrite ?_ _ _, rfl, rfl⟩
      exact sampled.2.trans_lt (Nat.sub_lt positive Nat.one_pos)
  | sequentialScan size own op cursor =>
      obtain ⟨rfl, rfl, inside⟩ := keyspace
      refine ⟨?_, rfl, rfl, Nat.mod_lt _ positive⟩
      by_cases isGet : op = .get
      · simp only [nextOperation, if_pos isGet]
        exact ⟨cursor, inside, rfl, .inl ⟨rfl, rfl⟩⟩
      · simp only [nextOperation, if_neg isGet]
        exact inKeyspace_putOperation inside _

namespace Workload

theorem over_nextOperation {workload : Workload} (positive : 0 < keyspaceSize)
    (fits : keyspaceSize < 2 ^ 53) (keyspace : workload.Over keyspaceSize keyPrefix)
    (source : RandomSource) :
    InKeyspace keyspaceSize keyPrefix (workload.nextOperation source).1 ∧
      (workload.nextOperation source).2.2.Over keyspaceSize keyPrefix := by
  cases workload with
  | simple inner => exact inner.over_nextOperation positive fits keyspace source
  | mixed components nonempty =>
      have picked := keyspace _ (List.get_mem components
        ⟨_, pickComponent_lt nonempty source.next.1⟩)
      obtain ⟨inside, next⟩ :=
        SimpleWorkload.over_nextOperation positive fits picked source.next.2
      refine ⟨inside, ?_⟩
      intro component member
      rcases List.mem_or_eq_of_mem_set member with kept | rfl
      · exact keyspace component kept
      · exact next

theorem over_nextBatch {workload : Workload} (positive : 0 < keyspaceSize)
    (fits : keyspaceSize < 2 ^ 53) (keyspace : workload.Over keyspaceSize keyPrefix)
    (source : RandomSource) (count : Nat) :
    (workload.nextBatch source count).1.length = count ∧
      (∀ operation ∈ (workload.nextBatch source count).1,
        InKeyspace keyspaceSize keyPrefix operation) ∧
      (workload.nextBatch source count).2.2.Over keyspaceSize keyPrefix := by
  induction count generalizing workload source with
  | zero => exact ⟨rfl, fun _ impossible => (List.not_mem_nil impossible).elim, keyspace⟩
  | succ count ih =>
      obtain ⟨inside, next⟩ := over_nextOperation positive fits keyspace source
      obtain ⟨length, others, last⟩ := ih next (workload.nextOperation source).2.1
      rw [nextBatch]
      refine ⟨congrArg (· + 1) length, ?_, last⟩
      intro operation member
      rcases List.mem_cons.mp member with rfl | later
      · exact inside
      · exact others operation later

theorem over_createWorkload (power : PowerFunction) {definition : WorkloadDefinition}
    (positive : 0 < definition.keyspaceSize) :
    (definition.createWorkload power).Over definition.keyspaceSize definition.keys := by
  unfold WorkloadDefinition.createWorkload
  cases definition.type with
  | uniformRandom => exact ⟨rfl, rfl⟩
  | zipfian => exact ⟨length_buildZipfianCdf _ _ _, rfl⟩
  | readHeavy => exact ⟨length_buildZipfianCdf _ _ _, rfl⟩
  | writeHeavy => exact ⟨rfl, rfl⟩
  | sequentialScan => exact ⟨rfl, rfl, positive⟩
  | mixed =>
      intro component member
      simp only [List.mem_cons, List.not_mem_nil, or_false] at member
      rcases member with rfl | rfl | rfl
      · exact ⟨rfl, rfl⟩
      · exact ⟨length_buildZipfianCdf _ _ _, rfl⟩
      · exact ⟨rfl, rfl, positive⟩

end Workload

/-- Each batch has the length asked for, and all its operations are in the keyspace. -/
structure DrawsFromKeyspace (definition : WorkloadDefinition) (counts : List Nat)
    (batches : List (List BenchmarkOperation)) : Prop where
  lengths : batches.map List.length = counts
  inside : ∀ batch ∈ batches, ∀ operation ∈ batch,
    InKeyspace definition.keyspaceSize definition.keys operation

/-- Every workload type stays in its keyspace, in every batch of every run and for all
random values, although products with the size of the keyspace round. -/
theorem workloads_stay_in_keyspace (power : PowerFunction) (definition : WorkloadDefinition)
    (positive : 0 < definition.keyspaceSize) (fits : definition.keyspaceSize < 2 ^ 53)
    (source : RandomSource) (counts : List Nat) :
    DrawsFromKeyspace definition counts
      ((definition.createWorkload power).nextBatches source counts) := by
  have keyspace := Workload.over_createWorkload power positive
  generalize definition.createWorkload power = workload at keyspace
  induction counts generalizing workload source with
  | nil => exact ⟨rfl, fun _ impossible => (List.not_mem_nil impossible).elim⟩
  | cons count counts ih =>
      obtain ⟨length, inside, next⟩ := Workload.over_nextBatch positive fits keyspace source count
      have rest := ih (workload.nextBatch source count).2.1 _ next
      constructor
      case lengths =>
        rw [Workload.nextBatches, List.map_cons, length]
        exact congrArg (count :: ·) rest.lengths
      case inside =>
        intro batch member
        rcases List.mem_cons.mp member with rfl | later
        · exact inside
        · exact rest.inside batch later

theorem workloads_stay_in_keyspace_mixed :
    DrawsFromKeyspace ⟨.mixed, 10, none, none, none⟩ [2, 3]
      (((⟨.mixed, 10, none, none, none⟩ : WorkloadDefinition).createWorkload
        harmonic).nextBatches ⟨fun _ => ⟨1 / 2, by norm_num, by norm_num⟩, 0⟩ [2, 3]) :=
  workloads_stay_in_keyspace harmonic _ (by decide) (by decide) _ _

end Keys

end FlowCache
