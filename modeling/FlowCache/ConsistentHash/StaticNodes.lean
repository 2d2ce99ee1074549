import FlowCache.ConsistentHash.Membership
import FlowCache.Library.SeparatedItems
import FlowCache.Shared.Config

/-!
# Nodes from the configuration

`STATIC_NODES` holds `id:host:port` or `id:host:port:weight` for each node.  What the
parser takes for a weight reaches `virtualNodeCountFor` and the loop of `addNode`, whose
index is a number of the language: it stops growing at `2^53`.
-/

namespace FlowCache

open BinaryFloat SeparatedItems

/-! ## The loop over virtual nodes -/

/-- `i++`. -/
def incremented (i : Nat) : Nat := ⌊binary64.nearest (i + 1 : Nat)⌋.toNat

/-- The loop of `addNode`, or `none` when it has not ended after some rounds. -/
def virtualNodeLoop (nodeId : String) (virtualCount : JsNumber) :
    Nat → Nat → List RingPoint → Option (List RingPoint)
  | 0, _, _ => none
  | rounds + 1, i, added =>
      if (JsNumber.finite i).lt virtualCount then
        virtualNodeLoop nodeId virtualCount rounds (incremented i)
          (added ++ [virtualNode nodeId i])
      else
        some added

/-- `addNode` ends and adds a point. -/
def StaticNodeEntry.ContributesPoints (baseVirtualNodeCount : JsNumber)
    (entry : StaticNodeEntry) : Prop :=
  ∃ rounds points, virtualNodeLoop entry.nodeId
    (virtualNodeCountFor baseVirtualNodeCount entry.weight) rounds 0 [] = some points ∧
      points ≠ []

theorem incremented_of_lt {i : Nat} (small : i < 2 ^ 53) : incremented i = i + 1 := by
  have exact : binary64.nearest (i + 1 : Nat) = (i + 1 : Nat) := by
    rcases Nat.lt_or_eq_of_le (Nat.succ_le_of_lt small) with fits | last
    · exact BinaryFormat.nearest_natCast fits
    · rw [Nat.succ_eq_add_one] at last
      rw [last]
      exact BinaryFormat.nearest_two_pow
  rw [incremented, exact, Int.floor_natCast, Int.toNat_natCast]

theorem incremented_limit : incremented (2 ^ 53) = 2 ^ 53 := by
  have stuck : binary64.nearest (2 ^ 53 + 1 : Nat) = (2 ^ 53 : Nat) :=
    BinaryFormat.nearest_two_pow_succ
  rw [incremented, stuck, Int.floor_natCast, Int.toNat_natCast]

theorem incremented_le {i : Nat} (bounded : i ≤ 2 ^ 53) : incremented i ≤ 2 ^ 53 := by
  rcases Nat.lt_or_eq_of_le bounded with small | last
  · rw [incremented_of_lt small]
    exact small
  · rw [last, incremented_limit]

variable {nodeId : String} {virtualCount : JsNumber} {added : List RingPoint}

/-- A count the index can reach. -/
theorem virtualNodeLoop_ends {i remaining : Nat} (reachable : i + remaining ≤ 2 ^ 53) :
    virtualNodeLoop nodeId (.finite (i + remaining : Nat)) (remaining + 1) i added =
      some (added ++ (List.range' i remaining).map (virtualNode nodeId)) := by
  induction remaining generalizing i added with
  | zero => simp [virtualNodeLoop, JsNumber.lt]
  | succ remaining ih =>
      have running : (JsNumber.finite i).lt (.finite (i + (remaining + 1) : Nat)) = true := by
        simp only [JsNumber.lt, decide_eq_true_eq, Nat.cast_lt]
        omega
      rw [virtualNodeLoop, if_pos running, incremented_of_lt (by omega),
        show i + (remaining + 1) = i + 1 + remaining by omega,
        ih (show i + 1 + remaining ≤ 2 ^ 53 by omega), List.range'_succ, List.map_cons,
        List.append_assoc, List.singleton_append]

/-- A count above every index. -/
theorem virtualNodeLoop_endless
    (above : ∀ i : Nat, i ≤ 2 ^ 53 → (JsNumber.finite i).lt virtualCount = true)
    (rounds : Nat) {i : Nat} (bounded : i ≤ 2 ^ 53) :
    virtualNodeLoop nodeId virtualCount rounds i added = none := by
  induction rounds generalizing i added with
  | zero => rfl
  | succ rounds ih =>
      rw [virtualNodeLoop, if_pos (above i bounded)]
      exact ih (incremented_le bounded)

/-- The product of the base count and a weight is one the index of the loop can reach. -/
def JsNumber.FitsLoop : JsNumber → Prop
  | .nan => False
  | .infinity negative => negative = true
  | .finite value => value < 2 ^ 53 + 1 / 2

theorem virtualNodeLoop_from_zero {count : Nat} (reachable : count ≤ 2 ^ 53) :
    virtualNodeLoop nodeId (.finite count) (count + 1) 0 [] =
      some ((List.range count).map (virtualNode nodeId)) := by
  have ends : virtualNodeLoop nodeId (.finite (0 + count : Nat)) (count + 1) 0 [] = _ :=
    virtualNodeLoop_ends (by omega)
  rwa [Nat.zero_add, List.nil_append, ← List.range_eq_range'] at ends

/-- A product that fits leads to a count the index can reach. -/
theorem JsNumber.FitsLoop.count {baseVirtualNodeCount weight : JsNumber}
    (fits : (baseVirtualNodeCount.mul weight).FitsLoop) :
    ∃ count : Nat, 0 < count ∧ count ≤ 2 ^ 53 ∧
      virtualNodeCountFor baseVirtualNodeCount weight = .finite count := by
  cases multiplied : baseVirtualNodeCount.mul weight with
  | nan =>
      rw [multiplied] at fits
      exact fits.elim
  | infinity negative =>
      rw [multiplied] at fits
      cases show negative = true from fits
      refine ⟨1, one_pos, by norm_num, ?_⟩
      rw [virtualNodeCountFor, multiplied]
      rfl
  | finite product =>
      rw [multiplied] at fits
      refine ⟨_, ?_, ?_, virtualNodeCountFor_finite multiplied⟩
      · have := le_max_left 1 (mathRound product)
        omega
      · have small : product < 2 ^ 53 + 1 / 2 := fits
        have below : mathRound product < 2 ^ 53 + 1 := by
          rw [mathRound, Int.floor_lt]
          push_cast
          linarith
        omega

/-- Where the loop ends it makes the points of the ring. -/
theorem virtualNodeLoop_eq_virtualNodes (options : ConsistentHashRingOptions)
    (node : NodeInfo)
    (fits : ((JsNumber.finite options.baseVirtualNodeCount).mul
      (.finite node.weight)).FitsLoop) :
    ∃ rounds, virtualNodeLoop node.nodeId
      (virtualNodeCountFor (.finite options.baseVirtualNodeCount) (.finite node.weight))
      rounds 0 [] = some (options.virtualNodes node) := by
  obtain ⟨count, -, reachable, counted⟩ := fits.count
  refine ⟨count + 1, ?_⟩
  rw [ConsistentHashRingOptions.virtualNodes, counted, JsNumber.rounds_natCast]
  exact virtualNodeLoop_from_zero reachable

namespace StaticNodeEntry

variable {baseVirtualNodeCount : JsNumber} {entry : StaticNodeEntry}

theorem contributesPoints_of_count {count : Nat} (positive : 0 < count)
    (reachable : count ≤ 2 ^ 53)
    (counted : virtualNodeCountFor baseVirtualNodeCount entry.weight = .finite count) :
    entry.ContributesPoints baseVirtualNodeCount := by
  refine ⟨count + 1, _, counted ▸ virtualNodeLoop_from_zero reachable, ?_⟩
  rw [Ne, List.map_eq_nil_iff, List.range_eq_nil]
  exact positive.ne'

theorem not_contributesPoints_of_above
    (above : ∀ i : Nat, i ≤ 2 ^ 53 → (JsNumber.finite i).lt
      (virtualNodeCountFor baseVirtualNodeCount entry.weight) = true) :
    ¬entry.ContributesPoints baseVirtualNodeCount := by
  rintro ⟨rounds, points, ended, -⟩
  rw [virtualNodeLoop_endless above rounds (Nat.zero_le _)] at ended
  cases ended

/-- A count that is not a number adds nothing. -/
theorem not_contributesPoints_of_nan
    (counted : virtualNodeCountFor baseVirtualNodeCount entry.weight = .nan) :
    ¬entry.ContributesPoints baseVirtualNodeCount := by
  rintro ⟨rounds, points, ended, nonempty⟩
  rw [counted] at ended
  cases rounds with
  | zero => cases ended
  | succ rounds =>
      cases ended
      exact nonempty rfl

theorem contributesPoints_iff :
    entry.ContributesPoints baseVirtualNodeCount ↔
      (baseVirtualNodeCount.mul entry.weight).FitsLoop := by
  constructor
  · intro contributes
    by_contra unfit
    cases multiplied : baseVirtualNodeCount.mul entry.weight with
    | nan =>
        refine not_contributesPoints_of_nan ?_ contributes
        rw [virtualNodeCountFor, multiplied]
        rfl
    | infinity negative =>
        rw [multiplied] at unfit
        cases negative with
        | true => exact unfit rfl
        | false =>
            refine not_contributesPoints_of_above (fun i _ => ?_) contributes
            rw [virtualNodeCountFor, multiplied]
            rfl
    | finite product =>
        rw [multiplied] at unfit
        have large : ¬product < 2 ^ 53 + 1 / 2 := unfit
        refine not_contributesPoints_of_above (fun i bounded => ?_) contributes
        have above : 2 ^ 53 + 1 ≤ mathRound product := by
          rw [mathRound, Int.le_floor]
          push_cast
          linarith
        rw [virtualNodeCountFor_finite multiplied, JsNumber.lt, decide_eq_true_eq,
          Nat.cast_lt]
        omega
  · intro fits
    obtain ⟨count, positive, reachable, counted⟩ := fits.count
    exact contributesPoints_of_count positive reachable counted

end StaticNodeEntry

/-! ## The format -/

/-- A non-empty text between two colons. -/
structure IsPart (text : String) : Prop where
  nonempty : text ≠ ""
  noColon : ':' ∉ text.toList

/-- An item of `STATIC_NODES` and the node it stands for. -/
inductive StaticNodeItem : String → StaticNodeEntry → Prop where
  | unweighted {nodeId host port : String} (nodeIdPart : IsPart nodeId)
      (hostPart : IsPart host) (portPart : IsPart port) (numeric : jsNumber port ≠ .nan) :
      StaticNodeItem (nodeId ++ ":" ++ host ++ ":" ++ port)
        ⟨nodeId, host, jsNumber port, .finite 1⟩
  | weighted {nodeId host port weight : String} (nodeIdPart : IsPart nodeId)
      (hostPart : IsPart host) (portPart : IsPart port) (numeric : jsNumber port ≠ .nan)
      (weightPart : IsPart weight) {value : Rat} (finite : jsNumber weight = .finite value)
      (positive : 0 < value) :
      StaticNodeItem (nodeId ++ ":" ++ host ++ ":" ++ port ++ ":" ++ weight)
        ⟨nodeId, host, jsNumber port, .finite value⟩

/-- `parseStaticNodes` returns the nodes of every text in the format and throws on every
other text, and each node that it returns gets ring points. -/
structure AcceptsFormat (baseVirtualNodeCount : JsNumber) (raw : String) : Prop where
  returns : ∀ entries, parseStaticNodes raw = .ok entries ↔
    List.Forall₂ StaticNodeItem (listItems raw) entries
  throws : (¬∃ entries, List.Forall₂ StaticNodeItem (listItems raw) entries) →
    ∃ error : ConfigurationError, parseStaticNodes raw = .error error
  points : ∀ entries, parseStaticNodes raw = .ok entries →
    ∀ entry ∈ entries, entry.ContributesPoints baseVirtualNodeCount

/-- `entry.split(':')`. -/
def itemParts (item : String) : List String := (item.toList.splitOn ':').map String.ofList

/-- A part of an item, empty when it is missing. -/
def itemPart (item : String) (index : Nat) : String := ((itemParts item)[index]?).getD ""

/-- The weight that an item is given. -/
def itemWeight (item : String) : JsNumber :=
  if itemPart item 3 = "" then .finite 1 else jsNumber (itemPart item 3)

/-- An item that `parseStaticNodes` throws on. -/
def LacksPart (item : String) : Prop :=
  itemPart item 0 = "" ∨ itemPart item 1 = "" ∨ itemPart item 2 = ""

instance : DecidablePred LacksPart := fun item =>
  inferInstanceAs (Decidable
    (itemPart item 0 = "" ∨ itemPart item 1 = "" ∨ itemPart item 2 = ""))

/-- What no check of `parseStaticNodes` looks at: a fifth part, a port that is no number, a
fourth part that is no positive finite number, or a weight that is too large for the
loop. -/
inductive SlipsThrough (baseVirtualNodeCount : JsNumber) (item : String) : Prop where
  | extraPart (long : 4 < (itemParts item).length)
  | port (isNaN : jsNumber (itemPart item 2) = .nan)
  | weight (four : (itemParts item).length = 4)
      (invalid : ∀ value, jsNumber (itemPart item 3) = .finite value → value ≤ 0)
  | points (count : ¬(baseVirtualNodeCount.mul (itemWeight item)).FitsLoop)

variable {item : String} {entry : StaticNodeEntry} {baseVirtualNodeCount : JsNumber}

theorem parseStaticNode_eq (item : String) :
    parseStaticNode item =
      if LacksPart item then
        .error ⟨"Malformed STATIC_NODES entry: \"" ++ item ++ "\""⟩
      else
        .ok ⟨itemPart item 0, itemPart item 1, jsNumber (itemPart item 2), itemWeight item⟩ :=
  rfl

theorem parseStaticNode_eq_ok_iff :
    parseStaticNode item = .ok entry ↔ ¬LacksPart item ∧
      entry = ⟨itemPart item 0, itemPart item 1, jsNumber (itemPart item 2),
        itemWeight item⟩ := by
  rw [parseStaticNode_eq]
  split
  · next lacks => exact iff_of_false nofun fun kept => kept.1 lacks
  · next kept =>
      exact ⟨fun same => ⟨kept, (Except.ok.inj same).symm⟩,
        fun same => congrArg _ same.2.symm⟩

/-- The parts of an item are the only ones without a colon that make it up. -/
theorem itemParts_eq_iff {parts : List String} (nonempty : parts ≠ []) :
    itemParts item = parts ↔
      item.toList = [':'].intercalate (parts.map String.toList) ∧
        ∀ part ∈ parts, ':' ∉ part.toList := by
  have texts : itemParts item = parts ↔
      item.toList.splitOn ':' = parts.map String.toList := by
    constructor
    · rintro rfl
      rw [itemParts, List.map_map]
      exact (List.map_id'' (fun text => String.toList_ofList) _).symm
    · intro split
      rw [itemParts, split, List.map_map]
      exact List.map_id'' (fun text => String.ofList_toList) _
  rw [texts, splitOn_eq_iff (mt List.map_eq_nil_iff.mp nonempty), List.forall_mem_map]

theorem itemParts_three {nodeId host port : String} :
    itemParts item = [nodeId, host, port] ↔
      item = nodeId ++ ":" ++ host ++ ":" ++ port ∧
        ':' ∉ nodeId.toList ∧ ':' ∉ host.toList ∧ ':' ∉ port.toList := by
  rw [itemParts_eq_iff (List.cons_ne_nil _ _), ← String.toList_inj]
  simp [List.intercalate]

theorem itemParts_four {nodeId host port weight : String} :
    itemParts item = [nodeId, host, port, weight] ↔
      item = nodeId ++ ":" ++ host ++ ":" ++ port ++ ":" ++ weight ∧
        ':' ∉ nodeId.toList ∧ ':' ∉ host.toList ∧ ':' ∉ port.toList ∧
          ':' ∉ weight.toList := by
  rw [itemParts_eq_iff (List.cons_ne_nil _ _), ← String.toList_inj]
  simp [List.intercalate]

/-! ## What the parser does with an item -/

/-- An item in the format is parsed as the format says. -/
theorem StaticNodeItem.parsed (inFormat : StaticNodeItem item entry) :
    parseStaticNode item = .ok entry := by
  rw [parseStaticNode_eq_ok_iff]
  cases inFormat with
  | unweighted nodeIdPart hostPart portPart numeric =>
      have parts := itemParts_three.mpr
        ⟨rfl, nodeIdPart.noColon, hostPart.noColon, portPart.noColon⟩
      simp [LacksPart, itemWeight, itemPart, parts, nodeIdPart.nonempty, hostPart.nonempty,
        portPart.nonempty]
  | weighted nodeIdPart hostPart portPart numeric weightPart finite positive =>
      have parts := itemParts_four.mpr
        ⟨rfl, nodeIdPart.noColon, hostPart.noColon, portPart.noColon, weightPart.noColon⟩
      simp [LacksPart, itemWeight, itemPart, parts, nodeIdPart.nonempty, hostPart.nonempty,
        portPart.nonempty, weightPart.nonempty, finite]

/-- The parts of an item in the format. -/
theorem StaticNodeItem.strict (inFormat : StaticNodeItem item entry) :
    jsNumber (itemPart item 2) ≠ .nan ∧
      ((itemParts item).length = 3 ∨ (itemParts item).length = 4 ∧
        ∃ value, jsNumber (itemPart item 3) = .finite value ∧ 0 < value) := by
  cases inFormat with
  | unweighted nodeIdPart hostPart portPart numeric =>
      have parts := itemParts_three.mpr
        ⟨rfl, nodeIdPart.noColon, hostPart.noColon, portPart.noColon⟩
      simpa [itemPart, parts] using numeric
  | weighted nodeIdPart hostPart portPart numeric weightPart finite positive =>
      have parts := itemParts_four.mpr
        ⟨rfl, nodeIdPart.noColon, hostPart.noColon, portPart.noColon, weightPart.noColon⟩
      simpa [itemPart, parts, finite] using ⟨numeric, positive⟩

/-- Nothing of an item in the format slips through, unless its weight is too large. -/
theorem StaticNodeItem.not_slipsThrough (inFormat : StaticNodeItem item entry)
    (contributes : entry.ContributesPoints baseVirtualNodeCount) :
    ¬SlipsThrough baseVirtualNodeCount item := by
  obtain ⟨numeric, lengths⟩ := inFormat.strict
  intro slips
  cases slips with
  | extraPart long => omega
  | port isNaN => exact numeric isNaN
  | weight four invalid =>
      rcases lengths with three | ⟨-, value, finite, positive⟩
      · omega
      · exact absurd positive (not_lt.mpr (invalid value finite))
  | points count =>
      obtain ⟨-, rfl⟩ := parseStaticNode_eq_ok_iff.mp inFormat.parsed
      rw [StaticNodeEntry.contributesPoints_iff] at contributes
      exact count contributes

/-- What is parsed is in the format when nothing slips through. -/
theorem staticNodeItem_of_parsed (parsed : parseStaticNode item = .ok entry)
    (strict : ¬SlipsThrough baseVirtualNodeCount item) : StaticNodeItem item entry := by
  obtain ⟨kept, rfl⟩ := parseStaticNode_eq_ok_iff.mp parsed
  have numeric : jsNumber (itemPart item 2) ≠ .nan := fun isNaN => strict (.port isNaN)
  match parts : itemParts item with
  | [] | [_] | [_, _] => simp [LacksPart, itemPart, parts] at kept
  | [nodeId, host, port] =>
      obtain ⟨rfl, nodeIdColon, hostColon, portColon⟩ := itemParts_three.mp parts
      have nonempty : nodeId ≠ "" ∧ host ≠ "" ∧ port ≠ "" := by
        simpa [LacksPart, itemPart, parts] using kept
      have built := StaticNodeItem.unweighted ⟨nonempty.1, nodeIdColon⟩
        ⟨nonempty.2.1, hostColon⟩ ⟨nonempty.2.2, portColon⟩
        (by simpa [itemPart, parts] using numeric)
      simpa [itemWeight, itemPart, parts] using built
  | [nodeId, host, port, weight] =>
      obtain ⟨rfl, nodeIdColon, hostColon, portColon, weightColon⟩ := itemParts_four.mp parts
      have nonempty : nodeId ≠ "" ∧ host ≠ "" ∧ port ≠ "" := by
        simpa [LacksPart, itemPart, parts] using kept
      have valid : ∃ value, jsNumber weight = .finite value ∧ 0 < value := by
        by_contra none
        refine strict (.weight (by simp [parts]) fun value finite => ?_)
        exact not_lt.mp fun positive =>
          none ⟨value, by simpa [itemPart, parts] using finite, positive⟩
      obtain ⟨value, finite, positive⟩ := valid
      -- an empty text is the number zero
      have weighted : weight ≠ "" := by
        rintro rfl
        cases (show jsNumber "" = .finite 0 from rfl).symm.trans finite
        exact lt_irrefl _ positive
      have built := StaticNodeItem.weighted ⟨nonempty.1, nodeIdColon⟩
        ⟨nonempty.2.1, hostColon⟩ ⟨nonempty.2.2, portColon⟩
        (by simpa [itemPart, parts] using numeric) ⟨weighted, weightColon⟩ finite positive
      simpa [itemWeight, itemPart, parts, weighted, finite] using built
  | _ :: _ :: _ :: _ :: _ :: _ =>
      exact absurd (.extraPart (by simp [parts])) strict

theorem contributesPoints_of_parsed (parsed : parseStaticNode item = .ok entry)
    (strict : ¬SlipsThrough baseVirtualNodeCount item) :
    entry.ContributesPoints baseVirtualNodeCount := by
  obtain ⟨-, rfl⟩ := parseStaticNode_eq_ok_iff.mp parsed
  rw [StaticNodeEntry.contributesPoints_iff]
  exact not_not.mp fun count => strict (.points count)

/-! ## The whole text -/

theorem exists_parseStaticNodes_iff {raw : String} :
    (∃ entries, parseStaticNodes raw = .ok entries) ↔
      ∀ item ∈ listItems raw, ¬LacksPart item := by
  simp only [parseStaticNodes, mapM_eq_ok_iff, exists_forall₂_iff, parseStaticNode_eq_ok_iff,
    exists_and_left, exists_eq, and_true]

/-- A text in the format is parsed as the format says. -/
theorem parseStaticNodes_of_format {raw : String} {entries : List StaticNodeEntry}
    (inFormat : List.Forall₂ StaticNodeItem (listItems raw) entries) :
    parseStaticNodes raw = .ok entries :=
  mapM_eq_ok_iff.mpr (inFormat.imp fun _ _ => StaticNodeItem.parsed)

theorem parseStaticNodes_throws {raw : String}
    (refused : ¬∃ entries, parseStaticNodes raw = .ok entries) :
    ∃ error, parseStaticNodes raw = .error error := by
  cases parsed : parseStaticNodes raw with
  | error error => exact ⟨error, rfl⟩
  | ok entries => exact absurd ⟨entries, parsed⟩ refused

end FlowCache
