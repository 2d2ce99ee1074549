import FlowCache.Library.InsertedSteps
import FlowCache.Storage.Accounting

/-!
# Expired and absent entries

An entry whose time has passed stays in the map until a read or a sweep removes it.
The reads treat it as absent.  `set` and `delete` look it up in the raw map: `set`
continues its metadata and `delete` reports that it existed.  A run therefore returns
the same with and without further sweeps exactly if none of its writes and deletions
meets an expired entry under its own key.
-/

namespace FlowCache

open Transition

/-- What the caller of an operation learns of an entry. -/
structure ReturnedEntry (Value : Type) where
  value : Value
  version : Nat
  createdAt : Millis
  frequency : Nat
  deriving DecidableEq, Repr

/-- The returned part of an entry. -/
def CacheEntry.returned {Value : Type} (entry : CacheEntry Value) :
    ReturnedEntry Value where
  value := entry.value
  version := entry.metadata.version
  createdAt := entry.metadata.createdAt
  frequency := entry.metadata.frequency

/-- What an operation returns: an entry or `undefined`, a boolean, or an error. -/
inductive OperationResult (Value : Type) where
  | entry (returned : Option (ReturnedEntry Value))
  | existed (answer : Bool)
  | thrown (error : FlowCacheError)
  deriving DecidableEq, Repr

/-- The calls that read, change or empty an engine. -/
inductive EntryOperation (Value : Type) where
  | get (key : CacheKey)
  | peek (key : CacheKey)
  | has (key : CacheKey)
  | set (key : CacheKey) (value : Value) (options : SetOptions)
  | delete (key : CacheKey)
  | sweepExpired
  | clear

/-- A call and the time the clock shows while it runs. -/
structure EntryCall (Value : Type) where
  now : Millis
  operation : EntryOperation Value

namespace StorageEngine

variable {Value Hook : Type}

/-- The raw map still holds an expired entry under the key. -/
def holdsExpired (engine : StorageEngine Value Hook) (now : Millis) (key : CacheKey) :
    Bool :=
  match engine.store.get? key with
  | some entry => entry.metadata.isExpired now
  | none => false

theorem peek_of_holdsExpired {engine : StorageEngine Value Hook} {now : Millis}
    {key : CacheKey} (expired : engine.holdsExpired now key = true) :
    engine.peek now key = none := by
  unfold holdsExpired at expired
  unfold peek
  cases found : engine.store.get? key with
  | none => rfl
  | some entry =>
      rw [found] at expired
      exact if_pos expired

theorem peek_of_fresh {engine : StorageEngine Value Hook} {now : Millis}
    {key : CacheKey} (fresh : engine.holdsExpired now key = false) :
    engine.peek now key = engine.store.get? key := by
  unfold holdsExpired at fresh
  unfold peek
  cases found : engine.store.get? key with
  | none => rfl
  | some entry =>
      simp only [found] at fresh
      simp [fresh]

/-- Neither a write nor a deletion meets an expired entry under its key. -/
def MeetsNoExpired (engine : StorageEngine Value Hook) (now : Millis) :
    EntryOperation Value → Prop
  | .set key _ _ => engine.holdsExpired now key = false
  | .delete key => engine.holdsExpired now key = false
  | _ => True

instance (engine : StorageEngine Value Hook) (now : Millis) :
    (operation : EntryOperation Value) → Decidable (engine.MeetsNoExpired now operation)
  | .set key _ _ => inferInstanceAs (Decidable (engine.holdsExpired now key = false))
  | .delete key => inferInstanceAs (Decidable (engine.holdsExpired now key = false))
  | .get _ => isTrue trivial
  | .peek _ => isTrue trivial
  | .has _ => isTrue trivial
  | .sweepExpired => isTrue trivial
  | .clear => isTrue trivial

/-- What `set` stored: under a key it accepts, with a version that counts from one. -/
def Written (engine : StorageEngine Value Hook) : Prop :=
  ∀ key entry, engine.store.get? key = some entry →
    key ≠ "" ∧ 1 ≤ entry.metadata.version

theorem written_create (options : StorageEngineOptions) (hook : Hook) :
    (create options hook : StorageEngine Value Hook).Written := by
  intro key entry impossible
  cases impossible

/-! ## Engines that differ by expired entries -/

/-- The second engine stores what the first one does, except for entries that had
expired when the clock showed `clock`. -/
structure DropsExpired (clock : Millis) (plain swept : StorageEngine Value Hook) :
    Prop where
  options : swept.options = plain.options
  stored : ∀ key entry, swept.store.get? key = some entry →
    plain.store.get? key = some entry
  live : ∀ key entry, plain.store.get? key = some entry →
    entry.metadata.isExpired clock = false → swept.store.get? key = some entry
  plainAccounted : plain.Accounted
  sweptAccounted : swept.Accounted

namespace DropsExpired

variable {clock now : Millis} {plain swept : StorageEngine Value Hook}

theorem refl (accounted : plain.Accounted) : DropsExpired clock plain plain where
  options := rfl
  stored _ _ found := found
  live _ _ found _ := found
  plainAccounted := accounted
  sweptAccounted := accounted

theorem live_at (drops : DropsExpired clock plain swept) (later : clock ≤ now)
    {key : CacheKey} {entry : CacheEntry Value}
    (found : plain.store.get? key = some entry)
    (live : entry.metadata.isExpired now = false) :
    swept.store.get? key = some entry := by
  apply drops.live key entry found
  rw [← Bool.not_eq_true] at live ⊢
  intro expired
  exact live (CacheMetadata.isExpired_of_le later expired)

theorem peek_eq (drops : DropsExpired clock plain swept) (later : clock ≤ now)
    (key : CacheKey) : swept.peek now key = plain.peek now key := by
  apply Option.ext
  intro entry
  rw [peek_eq_some_iff, peek_eq_some_iff]
  constructor
  · intro shown
    exact ⟨drops.stored key entry shown.1, shown.2⟩
  · intro shown
    exact ⟨drops.live_at later shown.1 shown.2, shown.2⟩

theorem get?_eq_of_fresh (drops : DropsExpired clock plain swept) (later : clock ≤ now)
    {key : CacheKey} (fresh : plain.holdsExpired now key = false) :
    swept.store.get? key = plain.store.get? key := by
  cases found : plain.store.get? key with
  | none =>
      cases kept : swept.store.get? key with
      | none => rfl
      | some entry =>
          rw [drops.stored key entry kept] at found
          cases found
  | some entry =>
      simp only [holdsExpired, found] at fresh
      exact drops.live_at later found fresh

/-- Both engines treat one key alike and leave the others as they are. -/
theorem of_one_key (drops : DropsExpired clock plain swept) (later : clock ≤ now)
    {nextPlain nextSwept : StorageEngine Value Hook} (key : CacheKey)
    (options : nextSwept.options = nextPlain.options)
    (same : nextSwept.store.get? key = nextPlain.store.get? key)
    (plainOthers : ∀ query, query ≠ key →
      nextPlain.store.get? query = plain.store.get? query)
    (sweptOthers : ∀ query, query ≠ key →
      nextSwept.store.get? query = swept.store.get? query)
    (plainAccounted : nextPlain.Accounted) (sweptAccounted : nextSwept.Accounted) :
    DropsExpired now nextPlain nextSwept where
  options := options
  stored := by
    intro query entry found
    by_cases here : query = key
    · rw [here, ← same, ← here]
      exact found
    · rw [sweptOthers query here] at found
      rw [plainOthers query here]
      exact drops.stored query entry found
  live := by
    intro query entry found alive
    by_cases here : query = key
    · rw [here, same, ← here]
      exact found
    · rw [plainOthers query here] at found
      rw [sweptOthers query here]
      exact drops.live_at later found alive
  plainAccounted := plainAccounted
  sweptAccounted := sweptAccounted

/-- The engine that stores less is within its caps whenever the other one is. -/
theorem overCapacity_eq_false (drops : DropsExpired clock plain swept)
    (within : plain.overCapacity = false) : swept.overCapacity = false := by
  rw [overCapacity, Bool.or_eq_false_iff] at within ⊢
  rw [drops.options, drops.sweptAccounted]
  rw [drops.plainAccounted] at within
  constructor
  · apply Limit.exceededBy_anti _ within.1
    exact_mod_cast InsertionMap.size_le_of_stored drops.stored
  · apply Limit.exceededBy_anti _ within.2
    exact_mod_cast InsertionMap.total_le_of_stored _ drops.stored

end DropsExpired

variable [EvictionHook Hook]

theorem delete_after_sweep_iff (engine : StorageEngine Value Hook) (now : Millis)
    (key : CacheKey) :
    (engine.delete key).1 = ((engine.sweepExpired now).2.delete key).1 ↔
      engine.holdsExpired now key = false := by
  rw [delete_fst, delete_fst, InsertionMap.contains, InsertionMap.contains,
    sweepExpired_get?_eq_peek]
  cases held : engine.holdsExpired now key with
  | false => simp [peek_of_fresh held]
  | true =>
      rw [peek_of_holdsExpired held]
      cases found : engine.store.get? key with
      | none => simp [holdsExpired, found] at held
      | some entry => simp

namespace DropsExpired

variable {clock now : Millis} {plain swept : StorageEngine Value Hook}

/-- A sweep of the second engine alone. -/
theorem sweepExpired (drops : DropsExpired clock plain swept) (later : clock ≤ now) :
    DropsExpired now plain (swept.sweepExpired now).2 where
  options := (sweepExpired_options swept now).trans drops.options
  stored key entry found := drops.stored key entry (sweepExpired_stored found)
  live _ _ found alive :=
    sweepExpired_keeps_live (drops.live_at later found alive) alive
  plainAccounted := drops.plainAccounted
  sweptAccounted := kept_accounted.afterSweepExpired drops.sweptAccounted now

theorem sweepBoth (drops : DropsExpired clock plain swept) (later : clock ≤ now) :
    DropsExpired now (plain.sweepExpired now).2 (swept.sweepExpired now).2 where
  options := by rw [sweepExpired_options, sweepExpired_options, drops.options]
  stored := by
    intro key entry found
    rw [sweepExpired_get?_eq_peek, ← drops.peek_eq later, ← sweepExpired_get?_eq_peek]
    exact found
  live := by
    intro key entry found _
    rw [sweepExpired_get?_eq_peek, drops.peek_eq later, ← sweepExpired_get?_eq_peek]
    exact found
  plainAccounted := kept_accounted.afterSweepExpired drops.plainAccounted now
  sweptAccounted := kept_accounted.afterSweepExpired drops.sweptAccounted now

end DropsExpired

/-! ## Calls and what they return -/

variable [SizedValue Value]

/-- The engine after an operation at a time. -/
def performAt (engine : StorageEngine Value Hook) (now : Millis) :
    EntryOperation Value → StorageEngine Value Hook
  | .get key => (engine.get now key).2
  | .peek _ => engine
  | .has key => (engine.has now key).2
  | .set key value options => engine.afterSet now key value options
  | .delete key => (engine.delete key).2
  | .sweepExpired => (engine.sweepExpired now).2
  | .clear => engine.clear

/-- What the caller of `set` sees. -/
def setResult (engine : StorageEngine Value Hook) (now : Millis) (key : CacheKey)
    (value : Value) (options : SetOptions) : OperationResult Value :=
  match engine.set now key value options with
  | .ok (entry, _) => .entry (some entry.returned)
  | .error error => .thrown error

/-- What an operation at a time returns; the number of swept entries and `clear` are
not results of the five operations on keys. -/
def result (engine : StorageEngine Value Hook) (now : Millis) :
    EntryOperation Value → Option (OperationResult Value)
  | .get key => some (.entry ((engine.get now key).1.map CacheEntry.returned))
  | .peek key => some (.entry ((engine.peek now key).map CacheEntry.returned))
  | .has key => some (.existed (engine.has now key).1)
  | .set key value options => some (engine.setResult now key value options)
  | .delete key => some (.existed (engine.delete key).1)
  | .sweepExpired => none
  | .clear => none

/-- A write stays within the caps, so nothing is evicted. -/
def WithoutPressure (engine : StorageEngine Value Hook) (now : Millis) :
    EntryOperation Value → Prop
  | .set key value options =>
      key ≠ "" → (engine.writeEntry now key value options).overCapacity = false
  | _ => True

instance (engine : StorageEngine Value Hook) (now : Millis) :
    (operation : EntryOperation Value) → Decidable (engine.WithoutPressure now operation)
  | .set key value options => inferInstanceAs (Decidable
      (key ≠ "" → (engine.writeEntry now key value options).overCapacity = false))
  | .get _ => isTrue trivial
  | .peek _ => isTrue trivial
  | .has _ => isTrue trivial
  | .delete _ => isTrue trivial
  | .sweepExpired => isTrue trivial
  | .clear => isTrue trivial

theorem setResult_of_valid (engine : StorageEngine Value Hook) (now : Millis)
    {key : CacheKey} (valid : key ≠ "") (value : Value) (options : SetOptions) :
    engine.setResult now key value options =
      .entry (some (engine.nextEntry now key value options).returned) := by
  simp [setResult, set, valid]

theorem setResult_congr {engine other : StorageEngine Value Hook} {key : CacheKey}
    (options : other.options = engine.options)
    (lookup : other.store.get? key = engine.store.get? key)
    (now : Millis) (value : Value) (setOptions : SetOptions) :
    other.setResult now key value setOptions =
      engine.setResult now key value setOptions := by
  by_cases empty : key = ""
  · simp [setResult, set, empty]
  · rw [setResult_of_valid _ _ empty, setResult_of_valid _ _ empty,
      nextEntry_congr options lookup]

/-! ## One operation after a sweep -/

theorem Written.performAt {engine : StorageEngine Value Hook} (written : engine.Written)
    (now : Millis) (operation : EntryOperation Value) :
    (engine.performAt now operation).Written := by
  intro query entry stored
  cases operation with
  | get key =>
      obtain ⟨before, found, same⟩ := get_stored stored
      rw [same.version]
      exact written query before found
  | peek key => exact written query entry stored
  | has key => exact written query entry (has_stored stored)
  | set key value options =>
      rcases afterSet_stored stored with ⟨valid, rfl, rfl⟩ | ⟨_, kept⟩
      · refine ⟨valid, ?_⟩
        rw [nextEntry_version]
        exact Nat.le_add_left 1 _
      · exact written query entry kept
  | delete key =>
      rw [StorageEngine.performAt, delete_get?] at stored
      split at stored
      · cases stored
      · exact written query entry stored
  | sweepExpired => exact written query entry (sweepExpired_stored stored)
  | clear => cases stored

theorem setResult_after_sweep_iff {engine : StorageEngine Value Hook}
    (written : engine.Written) (now : Millis) (key : CacheKey) (value : Value)
    (options : SetOptions) :
    engine.setResult now key value options =
        (engine.sweepExpired now).2.setResult now key value options ↔
      engine.holdsExpired now key = false := by
  cases held : engine.holdsExpired now key with
  | false =>
      apply iff_of_true _ rfl
      apply (setResult_congr (sweepExpired_options engine now) _ now value options).symm
      rw [sweepExpired_get?_eq_peek, peek_of_fresh held]
  | true =>
      apply iff_of_false _ Bool.noConfusion
      intro same
      have swept := peek_of_holdsExpired held
      rw [← sweepExpired_get?_eq_peek] at swept
      cases found : engine.store.get? key with
      | none => simp [holdsExpired, found] at held
      | some entry =>
          obtain ⟨valid, counted⟩ := written key entry found
          rw [setResult_of_valid _ _ valid, setResult_of_valid _ _ valid] at same
          have versions := congrArg ReturnedEntry.version
            (Option.some.inj (OperationResult.entry.inj same))
          simp only [CacheEntry.returned, nextEntry_version, found, swept, Option.map_some,
            Option.map_none, Option.getD_some, Option.getD_none] at versions
          omega

/-- An operation returns after a sweep what it would have returned before it exactly if
it is not a write or a deletion that meets an expired entry. -/
theorem Written.result_after_sweep_iff {engine : StorageEngine Value Hook}
    (written : engine.Written) (now : Millis) (operation : EntryOperation Value) :
    engine.result now operation = (engine.sweepExpired now).2.result now operation ↔
      engine.MeetsNoExpired now operation := by
  cases operation with
  | get key => simp [result, MeetsNoExpired, get_fst, peek_sweepExpired]
  | peek key => simp [result, MeetsNoExpired, peek_sweepExpired]
  | has key => simp [result, MeetsNoExpired, has_fst, peek_sweepExpired]
  | set key value options =>
      rw [result, result, Option.some.injEq, MeetsNoExpired]
      exact setResult_after_sweep_iff written now key value options
  | delete key =>
      rw [result, result, Option.some.injEq, OperationResult.existed.injEq, MeetsNoExpired]
      exact delete_after_sweep_iff engine now key
  | sweepExpired => simp [result, MeetsNoExpired]
  | clear => simp [result, MeetsNoExpired]

/-! ## A run beside the same run with further sweeps -/

namespace DropsExpired

variable {clock now : Millis} {plain swept : StorageEngine Value Hook}

theorem writeEntry (drops : DropsExpired clock plain swept) (later : clock ≤ now)
    {key : CacheKey} (fresh : plain.holdsExpired now key = false) (value : Value)
    (options : SetOptions) :
    DropsExpired now (plain.writeEntry now key value options)
      (swept.writeEntry now key value options) := by
  apply drops.of_one_key later key
  · exact drops.options
  · rw [writeEntry_store, writeEntry_store, InsertionMap.get?_insert_self,
      InsertionMap.get?_insert_self,
      nextEntry_congr drops.options (drops.get?_eq_of_fresh later fresh)]
  · intro query different
    exact InsertionMap.get?_insert_of_ne _ different _
  · intro query different
    exact InsertionMap.get?_insert_of_ne _ different _
  · exact drops.plainAccounted.writeEntry now key value options
  · exact drops.sweptAccounted.writeEntry now key value options

theorem afterSet (drops : DropsExpired clock plain swept) (later : clock ≤ now)
    {key : CacheKey} {value : Value} {options : SetOptions}
    (fresh : plain.holdsExpired now key = false)
    (within : plain.WithoutPressure now (.set key value options)) :
    DropsExpired now (plain.afterSet now key value options)
      (swept.afterSet now key value options) := by
  by_cases empty : key = ""
  · subst empty
    rw [afterSet_of_empty, afterSet_of_empty]
    exact drops.of_one_key later "" drops.options (drops.get?_eq_of_fresh later fresh)
      (fun _ _ => rfl) (fun _ _ => rfl) drops.plainAccounted drops.sweptAccounted
  · have written := drops.writeEntry later fresh value options
    have plainFits := within empty
    rw [afterSet_of_valid _ _ empty, afterSet_of_valid _ _ empty,
      enforceCapacity_of_within plainFits,
      enforceCapacity_of_within (written.overCapacity_eq_false plainFits)]
    exact written

/-- An operation that meets no expired entry and fits into the caps keeps the engines
related. -/
theorem performAt (drops : DropsExpired clock plain swept) (later : clock ≤ now)
    {operation : EntryOperation Value} (meets : plain.MeetsNoExpired now operation)
    (within : plain.WithoutPressure now operation) :
    DropsExpired now (plain.performAt now operation) (swept.performAt now operation) := by
  cases operation with
  | get key =>
      apply drops.of_one_key later key
      · rw [StorageEngine.performAt, get_options, StorageEngine.performAt, get_options,
          drops.options]
      · rw [StorageEngine.performAt, get_get?, StorageEngine.performAt, get_get?,
          drops.peek_eq later]
        simp
      · intro query different
        rw [StorageEngine.performAt, get_get?, if_neg different]
      · intro query different
        rw [StorageEngine.performAt, get_get?, if_neg different]
      · exact kept_accounted.afterGet drops.plainAccounted now key
      · exact kept_accounted.afterGet drops.sweptAccounted now key
  | peek key =>
      refine ⟨drops.options, drops.stored, ?_, drops.plainAccounted, drops.sweptAccounted⟩
      exact fun _ _ found alive => drops.live_at later found alive
  | has key =>
      apply drops.of_one_key later key
      · rw [StorageEngine.performAt, has_options, StorageEngine.performAt, has_options,
          drops.options]
      · rw [StorageEngine.performAt, has_get?, StorageEngine.performAt, has_get?,
          drops.peek_eq later]
        simp
      · intro query different
        rw [StorageEngine.performAt, has_get?, if_neg different]
      · intro query different
        rw [StorageEngine.performAt, has_get?, if_neg different]
      · exact kept_accounted.afterHas drops.plainAccounted now key
      · exact kept_accounted.afterHas drops.sweptAccounted now key
  | set key value options => exact drops.afterSet later meets within
  | delete key =>
      apply drops.of_one_key later key
      · rw [StorageEngine.performAt, delete_options, StorageEngine.performAt,
          delete_options, drops.options]
      · rw [StorageEngine.performAt, delete_get?, StorageEngine.performAt, delete_get?]
        simp
      · intro query different
        rw [StorageEngine.performAt, delete_get?, if_neg different]
      · intro query different
        rw [StorageEngine.performAt, delete_get?, if_neg different]
      · exact kept_accounted.afterDelete drops.plainAccounted key
      · exact kept_accounted.afterDelete drops.sweptAccounted key
  | sweepExpired => exact drops.sweepBoth later
  | clear =>
      refine ⟨drops.options, ?_, ?_, rfl, rfl⟩
      · exact fun _ _ found => found
      · exact fun _ _ found _ => found

theorem result_eq (drops : DropsExpired clock plain swept) (later : clock ≤ now)
    {operation : EntryOperation Value} (meets : plain.MeetsNoExpired now operation) :
    swept.result now operation = plain.result now operation := by
  cases operation with
  | get key => rw [result, result, get_fst, get_fst, drops.peek_eq later]
  | peek key => rw [result, result, drops.peek_eq later]
  | has key => rw [result, result, has_fst, has_fst, drops.peek_eq later]
  | set key value options =>
      rw [result, result,
        setResult_congr drops.options (drops.get?_eq_of_fresh later meets)]
  | delete key =>
      rw [result, result, delete_fst, delete_fst, InsertionMap.contains,
        InsertionMap.contains, drops.get?_eq_of_fresh later meets]
  | sweepExpired => rfl
  | clear => rfl

end DropsExpired

end StorageEngine

/-- An engine and the time of the last call it received. -/
structure ClockedEngine (Value Hook : Type) where
  engine : StorageEngine Value Hook
  clock : Millis

namespace ClockedEngine

variable {Value Hook : Type}

/-- A fresh engine. -/
def start (options : StorageEngineOptions) (hook : Hook) (now : Millis) :
    ClockedEngine Value Hook :=
  ⟨.create options hook, now⟩

/-- The clock does not go back. -/
def OnTime (state : ClockedEngine Value Hook) (call : EntryCall Value) : Prop :=
  state.clock ≤ call.now

/-- The call is `sweepExpired()`. -/
def IsSweep (_ : ClockedEngine Value Hook) (call : EntryCall Value) : Prop :=
  call.operation = .sweepExpired

/-- The call is not a write or a deletion that meets an expired entry under its key. -/
def MeetsNoExpired (state : ClockedEngine Value Hook) (call : EntryCall Value) : Prop :=
  state.engine.MeetsNoExpired call.now call.operation

instance (state : ClockedEngine Value Hook) (call : EntryCall Value) :
    Decidable (state.OnTime call) :=
  inferInstanceAs (Decidable (state.clock ≤ call.now))

instance (state : ClockedEngine Value Hook) (call : EntryCall Value) :
    Decidable (state.MeetsNoExpired call) :=
  inferInstanceAs (Decidable (state.engine.MeetsNoExpired call.now call.operation))

variable [EvictionHook Hook] [SizedValue Value]

/-- One call. -/
def receive (state : ClockedEngine Value Hook) (call : EntryCall Value) :
    ClockedEngine Value Hook :=
  ⟨state.engine.performAt call.now call.operation, call.now⟩

/-- What one call returns. -/
def answer (state : ClockedEngine Value Hook) (call : EntryCall Value) :
    Option (OperationResult Value) :=
  state.engine.result call.now call.operation

/-- The call evicts nothing. -/
def WithoutPressure (state : ClockedEngine Value Hook) (call : EntryCall Value) : Prop :=
  state.engine.WithoutPressure call.now call.operation

instance (state : ClockedEngine Value Hook) (call : EntryCall Value) :
    Decidable (state.WithoutPressure call) :=
  inferInstanceAs (Decidable (state.engine.WithoutPressure call.now call.operation))

/-- Whether a run is on time depends on its first clock alone. -/
theorem onTime_of_clock_eq (state other : ClockedEngine Value Hook)
    (same : other.clock = state.clock) {calls : List (EntryCall Value)}
    (ordered : EveryStep receive OnTime state calls) :
    EveryStep receive OnTime other calls := by
  induction calls generalizing state other with
  | nil => trivial
  | cons call rest ih =>
      refine ⟨?_, ih (state.receive call) (other.receive call) rfl ordered.2⟩
      rw [OnTime, same]
      exact ordered.1

theorem written_run (options : StorageEngineOptions) (hook : Hook) (opened : Millis)
    (calls : List (EntryCall Value)) :
    (run receive (start options hook opened) calls).engine.Written := by
  apply @run_invariant _ _ receive (fun state => state.engine.Written)
  · intro state call written
    exact written.performAt call.now call.operation
  · exact StorageEngine.written_create options hook

/-- A write or deletion that returns the same after a sweep meets no expired entry. -/
theorem meetsNoExpired_of_trace_eq {state : ClockedEngine Value Hook}
    (written : state.engine.Written) (call : EntryCall Value)
    (rest : List (EntryCall Value))
    (same : trace receive answer (state.receive ⟨call.now, .sweepExpired⟩) (call :: rest) =
      trace receive answer state (call :: rest)) : state.MeetsNoExpired call := by
  have exact_result := written.result_after_sweep_iff call.now call.operation
  obtain ⟨now, operation⟩ := call
  cases operation with
  | set key value options =>
      rw [trace_cons_of_some rfl, trace_cons_of_some rfl, List.cons.injEq] at same
      exact exact_result.mp (congrArg some same.1.symm)
  | delete key =>
      rw [trace_cons_of_some rfl, trace_cons_of_some rfl, List.cons.injEq] at same
      exact exact_result.mp (congrArg some same.1.symm)
  | get key => trivial
  | peek key => trivial
  | has key => trivial
  | sweepExpired => trivial
  | clear => trivial

theorem everyStep_meetsNoExpired {state : ClockedEngine Value Hook}
    (written : state.engine.Written) {calls : List (EntryCall Value)}
    (ordered : EveryStep receive OnTime state calls)
    (same : ∀ swept, Inserted receive IsSweep state calls swept →
      EveryStep receive OnTime state swept →
      trace receive answer state swept = trace receive answer state calls) :
    EveryStep receive MeetsNoExpired state calls := by
  induction calls generalizing state with
  | nil => trivial
  | cons call rest ih =>
      constructor
      · apply meetsNoExpired_of_trace_eq written call rest
        have late : state.OnTime ⟨call.now, .sweepExpired⟩ := ordered.1
        have after : (state.receive ⟨call.now, .sweepExpired⟩).OnTime call :=
          Int.le_refl call.now
        have afterBoth := onTime_of_clock_eq (state.receive call)
          ((state.receive ⟨call.now, .sweepExpired⟩).receive call) rfl ordered.2
        have swept := same (⟨call.now, .sweepExpired⟩ :: call :: rest)
          (.insert rfl (Inserted.refl _ _))
          ⟨late, after, afterBoth⟩
        rw [trace_cons_of_none rfl] at swept
        exact swept
      · apply ih (written.performAt call.now call.operation) ordered.2
        intro swept inserted late
        exact (trace_cons_eq_iff rfl).mp (same (call :: swept) (.keep call inserted)
          ⟨ordered.1, late⟩)

theorem trace_eq_of_meetsNoExpired {state : ClockedEngine Value Hook}
    (accounted : state.engine.Accounted) {calls swept : List (EntryCall Value)}
    (within : EveryStep receive WithoutPressure state calls)
    (meets : EveryStep receive MeetsNoExpired state calls)
    (inserted : Inserted receive IsSweep state calls swept)
    (late : EveryStep receive OnTime state swept) :
    trace receive answer state swept = trace receive answer state calls := by
  refine @Inserted.trace_eq _ _ _ receive answer IsSweep
    (fun left right => StorageEngine.DropsExpired right.clock left.engine right.engine)
    _ _ _ _ _ _ ?_ ?_ inserted ?_ (meets.and within) late
  · intro left right call drops both onTime
    exact ⟨drops.result_eq onTime both.1, drops.performAt onTime both.1 both.2⟩
  · intro left right call drops sweep onTime
    obtain ⟨now, operation⟩ := call
    cases sweep
    exact ⟨rfl, drops.sweepExpired onTime⟩
  · exact .refl accounted

/-- Expired is the same as absent up to writes and deletions that meet an expired entry
under their own key.  In every reachable state, an operation returns after a sweep what
it would have returned before it exactly if it is not such a one.  And a run within the
caps returns the same however many sweeps are put into it exactly if none of its calls
is such a one. -/
theorem expired_same_as_absent_iff (options : StorageEngineOptions) (hook : Hook)
    (opened : Millis) (calls : List (EntryCall Value))
    (ordered : EveryStep receive OnTime (start options hook opened) calls)
    (within : EveryStep receive WithoutPressure (start options hook opened) calls) :
    (∀ now operation,
      (run receive (start options hook opened) calls).engine.result now operation =
          ((run receive (start options hook opened) calls).engine.sweepExpired
            now).2.result now operation ↔
        (run receive (start options hook opened) calls).engine.MeetsNoExpired
          now operation) ∧
      ((∀ swept, Inserted receive IsSweep (start options hook opened) calls swept →
          EveryStep receive OnTime (start options hook opened) swept →
          trace receive answer (start options hook opened) swept =
            trace receive answer (start options hook opened) calls) ↔
        EveryStep receive MeetsNoExpired (start options hook opened) calls) := by
  constructor
  · intro now operation
    exact (written_run options hook opened calls).result_after_sweep_iff now operation
  · constructor
    · exact everyStep_meetsNoExpired (StorageEngine.written_create options hook) ordered
    · intro meets swept inserted late
      have accounted : (start options hook opened :
          ClockedEngine Value Hook).engine.Accounted := rfl
      exact trace_eq_of_meetsNoExpired accounted within meets inserted late

/-- A key is written with a short life and read while it lives; afterwards another key
is written and the first one is read again. -/
theorem expired_same_as_absent_short_life :
    trace receive answer
        (start ⟨.finite 2, .infinity, none⟩ (⟨⟩ : FifoEvictionHook) 0)
        [⟨0, .set "a" 1 ⟨some (some 5)⟩⟩, ⟨4, .get "a"⟩, ⟨6, .sweepExpired⟩,
          ⟨7, .set "b" 2 ⟨none⟩⟩, ⟨8, .has "a"⟩] =
      trace receive answer
        (start ⟨.finite 2, .infinity, none⟩ (⟨⟩ : FifoEvictionHook) 0)
        [⟨0, .set "a" 1 ⟨some (some 5)⟩⟩, ⟨4, .get "a"⟩, ⟨7, .set "b" 2 ⟨none⟩⟩,
          ⟨8, .has "a"⟩] := by
  apply (expired_same_as_absent_iff ⟨.finite 2, .infinity, none⟩ (⟨⟩ : FifoEvictionHook) 0
    [⟨0, .set "a" 1 ⟨some (some 5)⟩⟩, ⟨4, .get "a"⟩, ⟨7, .set "b" 2 ⟨none⟩⟩,
      ⟨8, .has "a"⟩] (by decide +kernel) (by decide +kernel)).2.mpr
  · decide +kernel
  · exact .keep _ (.keep _ (.insert rfl (.keep _ (.keep _ (.nil _)))))
  · decide +kernel

/-- A key is overwritten, or deleted, five milliseconds after it expired: the write
continues the version of the expired entry and the deletion reports that it existed,
unless a sweep came first. -/
theorem expired_differs_from_absent :
    (run receive (start ⟨.infinity, .infinity, none⟩ (⟨⟩ : FifoEvictionHook) 0)
        [⟨0, .set "a" 1 ⟨some (some 5)⟩⟩]).engine.result 10 (.set "a" 2 ⟨none⟩) =
        some (.entry (some ⟨2, 2, 0, 0⟩)) ∧
      ((run receive (start ⟨.infinity, .infinity, none⟩ (⟨⟩ : FifoEvictionHook) 0)
        [⟨0, .set "a" 1 ⟨some (some 5)⟩⟩]).engine.sweepExpired 10).2.result 10
          (.set "a" 2 ⟨none⟩) = some (.entry (some ⟨2, 1, 10, 0⟩)) ∧
      ¬ ∀ swept, Inserted receive IsSweep
          (start ⟨.infinity, .infinity, none⟩ (⟨⟩ : FifoEvictionHook) 0)
          [⟨0, .set "a" 1 ⟨some (some 5)⟩⟩, ⟨10, .delete "a"⟩] swept →
        EveryStep receive OnTime
          (start ⟨.infinity, .infinity, none⟩ (⟨⟩ : FifoEvictionHook) 0) swept →
        trace receive answer
            (start ⟨.infinity, .infinity, none⟩ (⟨⟩ : FifoEvictionHook) 0) swept =
          trace receive answer
            (start ⟨.infinity, .infinity, none⟩ (⟨⟩ : FifoEvictionHook) 0)
            [⟨0, .set "a" 1 ⟨some (some 5)⟩⟩, ⟨10, .delete "a"⟩] := by
  refine ⟨by decide +kernel, by decide +kernel, ?_⟩
  intro same
  have swept := same
    [⟨0, .set "a" 1 ⟨some (some 5)⟩⟩, ⟨10, .sweepExpired⟩, ⟨10, .delete "a"⟩]
    (.keep _ (.insert rfl (.keep _ (.nil _)))) (by decide +kernel)
  exact absurd swept (by decide +kernel)

end ClockedEngine

end FlowCache
