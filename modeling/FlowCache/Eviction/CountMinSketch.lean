import FlowCache.Shared.Types
import FlowCache.Shared.Utils

/-!
# Count-Min sketch

`CountMinSketch`: `depth` rows of `width` saturating 16-bit counters, one counter per
row and key chosen by a salted FNV-1a hash over the key's UTF-16 code units, halved
after every `agingThreshold` increments.  A sketch carries the proof that its table
has its dimensions.
-/

namespace FlowCache

/-- `fnv1aWithSeed(key, seed)`. -/
def fnv1aWithSeed (key : String) (seed : Nat) : Nat :=
  ((key.toList.flatMap utf16Units).foldl
    (fun hash unit => (hash ^^^ unit) * 0x01000193) (0x811c9dc5 ^^^ seed.toUInt32)).toNat

/-- `MAX_COUNTER`. -/
def maxCounter : Nat := 65535

/-- `CountMinSketch`; the constructor throws unless both dimensions are positive. -/
structure CountMinSketch where
  width : Nat
  depth : Nat
  agingThreshold : Nat
  table : Array Nat
  additionsSinceAging : Nat
  width_pos : 0 < width
  depth_pos : 0 < depth
  table_size : table.size = width * depth

namespace CountMinSketch

/-- `new CountMinSketch(width, depth, agingThreshold)`. -/
def create (width depth agingThreshold : Nat) : Except FlowCacheError CountMinSketch :=
  if positive : 0 < width ∧ 0 < depth then
    .ok
      { width := width
        depth := depth
        agingThreshold := agingThreshold
        table := Array.replicate (width * depth) 0
        additionsSinceAging := 0
        width_pos := positive.1
        depth_pos := positive.2
        table_size := Array.size_replicate }
  else
    .error (.otherError "CountMinSketch width and depth must be positive")

/-- `new CountMinSketch()`. -/
def default : CountMinSketch where
  width := 2048
  depth := 4
  agingThreshold := 50000
  table := Array.replicate (2048 * 4) 0
  additionsSinceAging := 0
  width_pos := by decide
  depth_pos := by decide
  table_size := Array.size_replicate

/-- `indexFor(key, row)`. -/
def indexFor (sketch : CountMinSketch) (key : String) (row : Nat) : Nat :=
  row * sketch.width + fnv1aWithSeed key row % sketch.width

/-- Count one row of an increment. -/
def incrementRow (sketch : CountMinSketch) (key : String) (row : Nat) :
    CountMinSketch :=
  { sketch with
    table := sketch.table.modify (sketch.indexFor key row) fun count =>
      if count < maxCounter then count + 1 else count
    table_size := by simpa using sketch.table_size }

/-- `age()`. -/
def age (sketch : CountMinSketch) : CountMinSketch :=
  { sketch with
    table := sketch.table.map (· >>> 1)
    additionsSinceAging := 0
    table_size := by simpa using sketch.table_size }

/-- `increment(key)`. -/
def increment (sketch : CountMinSketch) (key : String) : CountMinSketch :=
  let counted := (List.range sketch.depth).foldl
    (fun current row => current.incrementRow key row) sketch
  let added := { counted with additionsSinceAging := counted.additionsSinceAging + 1 }
  if added.agingThreshold ≤ added.additionsSinceAging then added.age else added

/-- `estimate(key)`. -/
def estimate (sketch : CountMinSketch) (key : String) : Nat :=
  (List.range sketch.depth).foldl
    (fun least row => min least (sketch.table.getD (sketch.indexFor key row) maxCounter))
    maxCounter

/-- `reset()`. -/
def reset (sketch : CountMinSketch) : CountMinSketch :=
  { sketch with
    table := Array.replicate (sketch.width * sketch.depth) 0
    additionsSinceAging := 0
    table_size := Array.size_replicate }

end CountMinSketch

end FlowCache
