import FlowCache.Library.LowerBound
import FlowCache.Shared.Float
import FlowCache.Shared.Numbers

/-!
# Workloads

The generators of `packages/benchmark`.  Numbers are those of binary floating point, and
every operation on them rounds.  `Math.random()` is a stream of values, and
`Math.pow` a function of which only its value at 1 and its sign are known.  A power may be
too small or too large for a number, so the cumulative distribution is one of numbers with
infinities and `NaN`.

The scan of the cumulative distribution is a binary search, so a rank is drawn by the
interval in which the random value falls.
-/

namespace FlowCache

/-! ## Random values -/

/-- A value of `Math.random()`: a number that is less than 1. -/
structure RandomValue where
  value : Rat
  nonneg : 0 ≤ value
  below : value ≤ 1 - 1 / 2 ^ 53

/-- The values of `Math.random()` and how many of them were used. -/
structure RandomSource where
  values : Nat → RandomValue
  used : Nat

namespace RandomSource

/-- `Math.random()`. -/
def next (source : RandomSource) : RandomValue × RandomSource :=
  (source.values source.used, { source with used := source.used + 1 })

end RandomSource

/-- A number that is not negative, finite or not. -/
def JsNumber.IsNonneg : JsNumber → Prop
  | .nan => False
  | .infinity negative => negative = false
  | .finite value => 0 ≤ value ∧ float value = value

/-- `Math.pow(rank, skew)` for ranks from 1 on: 0 if it is too small and infinite if it is
too large. -/
structure PowerFunction where
  pow : Nat → Rat → JsNumber
  nonneg : ∀ rank skew, (pow (rank + 1) skew).IsNonneg
  one : ∀ skew, pow 1 skew = .finite 1

/-! ## Operations -/

/-- The kinds of operations. -/
inductive OperationKind where
  | get
  | put
  | delete
  deriving DecidableEq, Repr

/-- `syntheticValue(seed)`: the seed and the random value its payload is the text of. -/
structure SyntheticValue where
  seed : Nat
  payload : RandomValue

/-- `BenchmarkOperation`. -/
structure BenchmarkOperation where
  op : OperationKind
  key : String
  value : Option SyntheticValue

/-- The key of an index. -/
def workloadKey (keyPrefix : String) (index : Nat) : String :=
  keyPrefix ++ ":" ++ toString index

/-- A PUT of the index, whose payload takes a random value. -/
def putOperation (keyPrefix : String) (index : Nat) (source : RandomSource) :
    BenchmarkOperation × RandomSource :=
  let (payload, later) := source.next
  (⟨.put, workloadKey keyPrefix index, some ⟨index, payload⟩⟩, later)

/-- A GET or a PUT of the index: a random value is compared with the ratio. -/
def readOrWrite (keyPrefix : String) (readRatio : Rat) (index : Nat) (source : RandomSource) :
    BenchmarkOperation × RandomSource :=
  let (coin, later) := source.next
  if coin.value < readRatio then (⟨.get, workloadKey keyPrefix index, none⟩, later)
  else putOperation keyPrefix index later

/-! ## The Zipf distribution -/

/-- The loop over the weights in `buildZipfianCdf`. -/
def totalWeight (weights : List JsNumber) : JsNumber :=
  weights.foldl JsNumber.add (.finite 0)

/-- The loop that accumulates the shares. -/
def cumulativeShares (total : JsNumber) : JsNumber → List JsNumber → List JsNumber
  | _, [] => []
  | cumulative, weight :: rest =>
      let next := cumulative.add (weight.div total)
      next :: cumulativeShares total next rest

/-- The weights of the ranks from 1 on. -/
def zipfianWeights (power : PowerFunction) (n : Nat) (skew : Rat) : List JsNumber :=
  (List.range n).map fun index => (JsNumber.finite 1).div (power.pow (index + 1) skew)

/-- `buildZipfianCdf(n, skew)`: the last entry is set to 1. -/
def buildZipfianCdf (power : PowerFunction) (n : Nat) (skew : Rat) : List JsNumber :=
  let weights := zipfianWeights power n skew
  (cumulativeShares (totalWeight weights) (.finite 0) weights).set (n - 1) (.finite 1)

/-- `sampleRank(cdf)` for a random value. -/
def sampleRank (cdf : List JsNumber) (random : Rat) : Nat :=
  LowerBound.search (fun mid => (cdf.getD mid .nan).lt (.finite random)) 0 (cdf.length - 1)

/-! ## Generators -/

/-- The workloads that draw from a keyspace. -/
inductive SimpleWorkload where
  | uniformRandom (keyspaceSize : Nat) (readRatio : Rat) (keyPrefix : String)
  | zipfian (cdf : List JsNumber) (readRatio : Rat) (keyPrefix : String)
  | sequentialScan (keyspaceSize : Nat) (keyPrefix : String) (op : OperationKind)
      (cursor : Nat)

namespace SimpleWorkload

/-- One round of the loop of `nextBatch(count)`. -/
def nextOperation (workload : SimpleWorkload) (source : RandomSource) :
    BenchmarkOperation × RandomSource × SimpleWorkload :=
  match workload with
  | .uniformRandom keyspaceSize readRatio keyPrefix =>
      let (random, later) := source.next
      let index := ⌊float (random.value * keyspaceSize)⌋.toNat
      let (operation, last) := readOrWrite keyPrefix readRatio index later
      (operation, last, workload)
  | .zipfian cdf readRatio keyPrefix =>
      let (random, later) := source.next
      let (operation, last) := readOrWrite keyPrefix readRatio (sampleRank cdf random.value) later
      (operation, last, workload)
  | .sequentialScan keyspaceSize keyPrefix op cursor =>
      let (operation, later) :=
        if op = .get then (⟨.get, workloadKey keyPrefix cursor, none⟩, source)
        else putOperation keyPrefix cursor source
      (operation, later,
        .sequentialScan keyspaceSize keyPrefix op ((cursor + 1) % keyspaceSize))

end SimpleWorkload

/-- The loop of `pickComponent()` over the components that are left. -/
def pickFrom : Rat → List Rat → Nat
  | _, [] => 0
  | _, [_] => 0
  | random, weight :: rest =>
      if random < weight then 0 else pickFrom (float (random - weight)) rest + 1

theorem pickFrom_lt {weights : List Rat} (nonempty : weights ≠ []) (random : Rat) :
    pickFrom random weights < weights.length := by
  fun_induction pickFrom random weights with
  | case1 => exact absurd rfl nonempty
  | case2 => exact Nat.zero_lt_one
  | case3 => exact Nat.succ_pos _
  | case4 random weight rest many above ih =>
      rw [List.length_cons]
      exact Nat.succ_lt_succ (ih many)

/-- A `WorkloadGenerator`.  A `MixedWorkload` has at least one component; each comes with
its weight. -/
inductive Workload where
  | simple (workload : SimpleWorkload)
  | mixed (components : List (Rat × SimpleWorkload)) (nonempty : components ≠ [])

namespace Workload

/-- `pickComponent()`. -/
def pickComponent (components : List (Rat × SimpleWorkload)) (random : RandomValue) : Nat :=
  let totalWeight := components.foldl (fun sum component => float (sum + component.1)) 0
  pickFrom (float (random.value * totalWeight)) (components.map Prod.fst)

theorem pickComponent_lt {components : List (Rat × SimpleWorkload)}
    (nonempty : components ≠ []) (random : RandomValue) :
    pickComponent components random < components.length := by
  have someWeight : components.map Prod.fst ≠ [] := by simpa using nonempty
  exact (pickFrom_lt someWeight _).trans_eq (List.length_map _)

/-- One round of the loop of `nextBatch(count)`. -/
def nextOperation (workload : Workload) (source : RandomSource) :
    BenchmarkOperation × RandomSource × Workload :=
  match workload with
  | .simple inner =>
      let (operation, later, next) := inner.nextOperation source
      (operation, later, .simple next)
  | .mixed components nonempty =>
      let (random, later) := source.next
      let index := pickComponent components random
      let picked := components.get ⟨index, pickComponent_lt nonempty random⟩
      let (operation, last, next) := picked.2.nextOperation later
      (operation, last, .mixed (components.set index (picked.1, next)) (by simpa using nonempty))

/-- `nextBatch(count)`. -/
def nextBatch (workload : Workload) (source : RandomSource) :
    Nat → List BenchmarkOperation × RandomSource × Workload
  | 0 => ([], source, workload)
  | count + 1 =>
      let (operation, later, next) := workload.nextOperation source
      let (rest, last, final) := next.nextBatch later count
      (operation :: rest, last, final)

/-- The batches of a run. -/
def nextBatches (workload : Workload) (source : RandomSource) :
    List Nat → List (List BenchmarkOperation)
  | [] => []
  | count :: counts =>
      let (batch, later, next) := workload.nextBatch source count
      batch :: next.nextBatches later counts

end Workload

/-! ## Workload types -/

/-- `WorkloadType`. -/
inductive WorkloadType where
  | uniformRandom
  | zipfian
  | readHeavy
  | writeHeavy
  | mixed
  | sequentialScan
  deriving DecidableEq, Repr

/-- `WorkloadDefinition`. -/
structure WorkloadDefinition where
  type : WorkloadType
  keyspaceSize : Nat
  readRatio : Option Rat
  zipfianSkew : Option Rat
  keyPrefix : Option String

namespace WorkloadDefinition

/-- `definition.keyPrefix ?? 'key'`. -/
def keys (definition : WorkloadDefinition) : String := definition.keyPrefix.getD "key"

/-- `createWorkload(definition)`. -/
def createWorkload (power : PowerFunction) (definition : WorkloadDefinition) : Workload :=
  let keyPrefix := definition.keys
  let keyspaceSize := definition.keyspaceSize
  match definition.type with
  | .uniformRandom =>
      .simple (.uniformRandom keyspaceSize (definition.readRatio.getD (float (4 / 5))) keyPrefix)
  | .zipfian =>
      .simple (.zipfian
        (buildZipfianCdf power keyspaceSize (definition.zipfianSkew.getD (float (107 / 100))))
        (definition.readRatio.getD (float (4 / 5))) keyPrefix)
  | .readHeavy =>
      .simple (.zipfian
        (buildZipfianCdf power keyspaceSize (definition.zipfianSkew.getD (float (6 / 5))))
        (definition.readRatio.getD (float (19 / 20))) keyPrefix)
  | .writeHeavy =>
      .simple (.uniformRandom keyspaceSize (definition.readRatio.getD (float (1 / 10))) keyPrefix)
  | .sequentialScan => .simple (.sequentialScan keyspaceSize keyPrefix .get 0)
  | .mixed =>
      .mixed [(1, .uniformRandom keyspaceSize (float (4 / 5)) keyPrefix),
        (1, .zipfian (buildZipfianCdf power keyspaceSize (float (11 / 10)))
          (float (9 / 10)) keyPrefix),
        (1 / 2, .sequentialScan keyspaceSize keyPrefix .get 0)] (by simp)

end WorkloadDefinition

end FlowCache
