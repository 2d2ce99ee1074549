import Mathlib.Data.List.Induction
import FlowCache.CacheNode.Durability
import FlowCache.Snapshot.CrashSafety

/-!
# A node across crashes

A node serves, takes snapshots into files and stops at any moment: it crashes, or its
`stop()` is through, or `start()` has thrown and is tried again.  The next server recovers
from the files it finds.  What it comes up with is the store as it was when some earlier
call of `takeSnapshot()` captured it, as long as no write of the pointer was cut off.
-/

namespace FlowCache

open Transition

variable {Value Hook Bytes : Type}

/-- What every server of a node is built from. -/
structure DurableSetup (Value Hook Bytes : Type) where
  codec : FileCodec Value Bytes
  config : SnapshotConfig
  order : DirectoryOrder Bytes
  options : StorageEngineOptions
  hook : Hook

/-- The storage of a server that has recovered, its waiting sweeps, and whether `start()`
has returned. -/
structure RunningServer (Value Hook : Type) where
  engine : StorageEngine Value Hook
  sweeps : List (List CacheKey)
  started : Bool

/-- A node: its server, if one runs, and its snapshots with the clock. -/
structure DurableNode (Value Hook Bytes : Type) where
  server : Option (RunningServer Value Hook)
  process : SnapshotProcess Value Bytes

/-- What can happen on a node.  `failed` tells which read of the recovery fails, and
`reachable` whether what `start()` does after the recovery succeeds.  A call of the file
system that rejects leaves what a crash would, but the server goes on. -/
inductive DurableAction (Value Hook Bytes : Type) where
  | tick (elapsed : Nat)
  | startUp (failed : FailedRead) (reachable : Bool)
  | work (action : CleaningAction Value)
  | changePolicy (hook : Hook)
  | takeSnapshot
  | advance (snapshotId : String)
  | rejectCall (cut : Cut Bytes)
  | crash (cut : Cut Bytes)

namespace DurableNode

/-- A node that has never run. -/
def start (clock : Millis) : DurableNode Value Hook Bytes :=
  ⟨none, .start clock⟩

/-- What an action means for the snapshot files. -/
def processAction (node : DurableNode Value Hook Bytes) :
    DurableAction Value Hook Bytes → Option (ProcessAction Value Bytes)
  | .tick elapsed => some (.tick elapsed)
  | .takeSnapshot => node.server.map fun server => .takeSnapshot server.engine.entries
  | .advance snapshotId => some (.advance snapshotId)
  | .rejectCall cut => some (.reject cut)
  | .crash cut => some (.crash cut)
  | .startUp _ _ | .work _ | .changePolicy _ => none

/-- A call of `takeSnapshot()` starts later than those whose files are on disk. -/
def ClockMoved (node : DurableNode Value Hook Bytes)
    (action : DurableAction Value Hook Bytes) : Prop :=
  ∀ taken ∈ node.processAction action, node.process.ClockMoved taken

/-- `generateId` returns an id that has no files. -/
def FreshFiles (node : DurableNode Value Hook Bytes)
    (action : DurableAction Value Hook Bytes) : Prop :=
  ∀ taken ∈ node.processAction action, node.process.FreshFiles taken

instance (node : DurableNode Value Hook Bytes) (action : DurableAction Value Hook Bytes) :
    Decidable (node.ClockMoved action) :=
  inferInstanceAs (Decidable (∀ taken ∈ node.processAction action, _))

instance (node : DurableNode Value Hook Bytes) (action : DurableAction Value Hook Bytes) :
    Decidable (node.FreshFiles action) :=
  inferInstanceAs (Decidable (∀ taken ∈ node.processAction action, _))

variable [EvictionHook Hook] [SizedValue Value] (setup : DurableSetup Value Hook Bytes)

/-- `recover()` of a new server. -/
def recovered (node : DurableNode Value Hook Bytes) (failed : FailedRead) :
    RecoveryReport × StorageEngine Value Hook :=
  (StorageEngine.create setup.options setup.hook).recover setup.config.nodeId
    node.process.clock
    (node.process.files.restoreReading setup.codec setup.config.nodeId failed)

/-- `start()`.  If it throws, the server is still there for its `stop()`. -/
def startUp (node : DurableNode Value Hook Bytes) (failed : FailedRead) (reachable : Bool) :
    RunningServer Value Hook :=
  let recovery := node.recovered setup failed
  ⟨recovery.2, [], recovery.1.integrityVerified && reachable⟩

/-- Requests, replicated events, cleanup, and the steps of an injected restart. -/
def work (node : DurableNode Value Hook Bytes) (server : RunningServer Value Hook)
    (action : CleaningAction Value) : RunningServer Value Hook :=
  let worked := CleaningNode.step
    ⟨⟨setup.config.nodeId, server.engine, node.process.clock⟩, server.sweeps⟩ action
  { server with
    engine := worked.node.engine
    sweeps := worked.sweeps }

/-- The server after an action. -/
def nextServer (node : DurableNode Value Hook Bytes) :
    DurableAction Value Hook Bytes → Option (RunningServer Value Hook)
  | .startUp failed reachable =>
      some (node.server.getD (node.startUp setup failed reachable))
  | .work action => node.server.map fun server => node.work setup server action
  | .changePolicy hook => node.server.map fun server =>
      { server with engine := { server.engine with hook := hook } }
  | .crash _ => none
  | .tick _ | .takeSnapshot | .advance _ | .rejectCall _ => node.server

/-- The snapshot files after an action. -/
def nextProcess (node : DurableNode Value Hook Bytes)
    (action : DurableAction Value Hook Bytes) : SnapshotProcess Value Bytes :=
  match node.processAction action with
  | some taken => node.process.step setup.codec setup.config setup.order taken
  | none => node.process

/-- One action. -/
def step (node : DurableNode Value Hook Bytes) (action : DurableAction Value Hook Bytes) :
    DurableNode Value Hook Bytes :=
  ⟨node.nextServer setup action, node.nextProcess setup action⟩

end DurableNode

/-! ## What the files hold -/

/-- The time at which the entries of a call were captured, and the entries, until the
pointer has been written. -/
def FileProgress.captured : FileProgress Value → Option (Millis × List (CacheEntry Value))
  | .serializing startedAt entries => some (startedAt, entries)
  | .writingData metadata entries | .writingMetadata metadata entries
  | .pointing metadata entries => some (metadata.createdAt, entries)
  | .listing | .deleting _ => none

/-- The same of the snapshot that the pointer names. -/
def Recoverable.captured :
    Recoverable Value Bytes → Option (Millis × List (CacheEntry Value))
  | .snapshot metadata entries => some (metadata.createdAt, entries)
  | .nothing | .cutOff _ => none

namespace SnapshotProcess

/-- Entries that were captured and can still be recovered one day. -/
def Holds (process : SnapshotProcess Value Bytes)
    (captured : Millis × List (CacheEntry Value)) : Prop :=
  process.pointed.captured = some captured ∨
    process.progress.bind FileProgress.captured = some captured

variable {codec : FileCodec Value Bytes} {config : SnapshotConfig}
variable {order : DirectoryOrder Bytes} {process : SnapshotProcess Value Bytes}
variable {captured : Millis × List (CacheEntry Value)}

theorem holds_advance {snapshotId : String}
    (holds : (process.advance codec config order snapshotId).Holds captured) :
    process.Holds captured := by
  unfold SnapshotProcess.advance at holds
  cases waiting : process.progress with
  | none =>
      rw [waiting] at holds
      exact holds
  | some progress =>
      rw [waiting] at holds
      cases progress with
      | serializing startedAt entries =>
          rcases holds with before | next
          · exact .inl before
          · right
            rw [waiting]
            simp only at next
            split at next
            · exact next
            · cases next
      | writingData metadata entries =>
          rcases holds with before | next
          · exact .inl before
          · exact .inr (by rw [waiting]; exact next)
      | writingMetadata metadata entries =>
          rcases holds with before | next
          · exact .inl before
          · exact .inr (by rw [waiting]; exact next)
      | pointing metadata entries =>
          rcases holds with next | ended
          · exact .inr (by rw [waiting]; exact next)
          · cases ended
      | listing =>
          simp only at holds
          split at holds
          · rcases holds with before | ended
            · exact .inl before
            · cases ended
          · rcases holds with before | next
            · exact .inl before
            · simp only at next
              split at next
              · cases next
              · cases next
      | deleting remaining =>
          cases remaining with
          | nil =>
              rcases holds with before | ended
              · exact .inl before
              · cases ended
          | cons old rest =>
              simp only at holds
              split at holds
              · rcases holds with before | ended
                · exact .inl before
                · cases ended
              · rcases holds with before | ended
                · exact .inl before
                · cases ended

variable (codec config order) in
/-- A crash leaves the pointer as it was, cut off, or as the call under way writes it. -/
theorem pointed_crash (process : SnapshotProcess Value Bytes) (cut : Cut Bytes) :
    (process.crash codec config order cut).pointed = process.pointed ∨
      (process.crash codec config order cut).pointed =
        (process.advance codec config order "").pointed ∨
      ∃ text, cut = .torn text ∧
        (process.crash codec config order cut).pointed = .cutOff text := by
  cases cut with
  | undone => exact .inl rfl
  | whole => exact .inr (.inl rfl)
  | torn left =>
      cases waiting : process.progress with
      | none => exact .inl (by simp [SnapshotProcess.crash, waiting])
      | some progress =>
          cases progress with
          | pointing metadata entries =>
              exact .inr (.inr ⟨left, rfl, by simp [SnapshotProcess.crash, waiting]⟩)
          | serializing | writingData | writingMetadata | listing | deleting =>
              exact .inl (by simp [SnapshotProcess.crash, waiting])
  | unlinked data metadata =>
      left
      simp only [SnapshotProcess.crash]
      split <;> rfl

theorem holds_of_pointed_crash {cut : Cut Bytes}
    (named : (process.crash codec config order cut).pointed.captured = some captured) :
    process.Holds captured := by
  rcases pointed_crash codec config order process cut with same | same | ⟨text, -, same⟩
  · exact .inl (same ▸ named)
  · exact holds_advance (.inl (same ▸ named))
  · rw [same] at named
    cases named

theorem progress_crash (process : SnapshotProcess Value Bytes) (cut : Cut Bytes) :
    (process.crash codec config order cut).progress = none := by
  cases cut with
  | undone => rfl
  | whole => rfl
  | torn left =>
      simp only [SnapshotProcess.crash]
      split <;> rfl
  | unlinked data metadata =>
      simp only [SnapshotProcess.crash]
      split <;> rfl

/-- After a rejection nothing is held any more that the call had captured. -/
theorem captured_afterRejection (progress : FileProgress Value) :
    (afterRejection progress).bind FileProgress.captured = none := by
  cases progress with
  | deleting remaining =>
      cases remaining with
      | nil => rfl
      | cons next rest =>
          rw [afterRejection]
          split <;> rfl
  | serializing | writingData | writingMetadata | pointing | listing => rfl

theorem holds_crash {cut : Cut Bytes}
    (holds : (process.crash codec config order cut).Holds captured) :
    process.Holds captured := by
  rcases holds with named | running
  · exact holds_of_pointed_crash named
  · rw [progress_crash] at running
    cases running

theorem holds_reject {cut : Cut Bytes}
    (holds : (process.reject codec config order cut).Holds captured) :
    process.Holds captured := by
  rcases holds with named | running
  · exact holds_of_pointed_crash named
  · simp only [SnapshotProcess.reject] at running
    cases waiting : process.progress with
    | none =>
        rw [waiting] at running
        cases running
    | some progress =>
        rw [waiting, Option.bind_some, captured_afterRejection] at running
        cases running

/-- What is held after an action was held before, or is captured by it. -/
theorem holds_step {action : ProcessAction Value Bytes}
    (holds : (process.step codec config order action).Holds captured) :
    process.Holds captured ∨
      captured.1 = process.clock ∧ action = .takeSnapshot captured.2 := by
  cases action with
  | tick elapsed => exact .inl holds
  | advance snapshotId => exact .inl (holds_advance holds)
  | crash cut => exact .inl (holds_crash holds)
  | reject cut => exact .inl (holds_reject holds)
  | takeSnapshot entries =>
      simp only [SnapshotProcess.step, beginSnapshot] at holds
      cases waiting : process.progress with
      | some progress =>
          rw [waiting] at holds
          exact .inl holds
      | none =>
          rw [waiting] at holds
          rcases holds with before | next
          · exact .inl (.inl before)
          · cases next
            exact .inr ⟨rfl, rfl⟩

theorem pointed_advance_cutOff {snapshotId : String} {text : Bytes}
    (torn : (process.advance codec config order snapshotId).pointed = .cutOff text) :
    process.pointed = .cutOff text := by
  unfold SnapshotProcess.advance at torn
  split at torn
  · exact torn
  · exact torn
  · exact torn
  · exact torn
  · cases torn
  · split at torn <;> exact torn
  · exact torn
  · split at torn <;> exact torn

/-- Only a call that was cut off leaves the pointer cut off. -/
theorem pointed_crash_cutOff {text : Bytes} (cut : Cut Bytes)
    (torn : (process.crash codec config order cut).pointed = .cutOff text) :
    process.pointed = .cutOff text ∨ cut = .torn text := by
  rcases pointed_crash codec config order process cut with same | same | ⟨left, cutOff, same⟩
  · exact .inl (same ▸ torn)
  · exact .inl (pointed_advance_cutOff (same ▸ torn))
  · rw [same] at torn
    cases torn
    exact .inr cutOff

theorem pointed_step_cutOff {action : ProcessAction Value Bytes} {text : Bytes}
    (torn : (process.step codec config order action).pointed = .cutOff text) :
    process.pointed = .cutOff text ∨ action = .crash (.torn text) ∨
      action = .reject (.torn text) := by
  cases action with
  | tick elapsed => exact .inl torn
  | takeSnapshot entries =>
      left
      simp only [SnapshotProcess.step, beginSnapshot] at torn
      split at torn <;> exact torn
  | advance snapshotId => exact .inl (pointed_advance_cutOff torn)
  | crash cut =>
      rcases pointed_crash_cutOff cut torn with before | rfl
      · exact .inl before
      · exact .inr (.inl rfl)
  | reject cut =>
      rcases pointed_crash_cutOff cut torn with before | rfl
      · exact .inl before
      · exact .inr (.inr rfl)

end SnapshotProcess

/-! ## Restored entries -/

namespace StorageEngine

variable [EvictionHook Hook] [SizedValue Value] {options : StorageEngineOptions}

/-- A restore stops only at an empty key. -/
theorem restoreEntries_succeeds (now : Millis) {entries : List (CacheEntry Value)}
    (keys : ∀ entry ∈ entries, entry.key ≠ "") (engine : StorageEngine Value Hook) :
    (engine.restoreEntries now entries).1 = none := by
  induction entries generalizing engine with
  | nil => rfl
  | cons entry rest ih =>
      simp only [restoreEntries, applyRestoredEntry, set,
        if_neg (keys entry List.mem_cons_self), Except.map]
      exact ih (fun other member => keys other (List.mem_cons_of_mem _ member)) _

theorem Restorable.recover_verified {engine : StorageEngine Value Hook}
    (restorable : engine.Restorable options) (later : StorageEngine Value Hook)
    (nodeId : String) (now : Millis) (metadata : SnapshotMetadata) :
    (later.recover nodeId now
      (.ok (some ⟨metadata, engine.entries⟩))).1.integrityVerified = true := by
  have keys : ∀ entry ∈ engine.entries, entry.key ≠ "" := by
    intro entry member
    obtain ⟨key, stored⟩ := InsertionMap.mem_values_iff.mp member
    exact (restorable.written key entry stored).key
  have succeeds := restoreEntries_succeeds now keys later.clear
  simp only [StorageEngine.recover, finishRecovery]
  split
  · rfl
  · next failed =>
      rw [failed] at succeeds
      cases succeeds

theorem restorable_recover (later : StorageEngine Value Hook)
    (restorable : later.Restorable options) (nodeId : String) (now : Millis)
    (restored : Except FlowCacheError (Option (SnapshotPayload Value))) :
    (later.recover nodeId now restored).2.Restorable options := by
  rw [recover_engine]
  split
  · exact restorable.clear.restoreEntries now _
  · exact restorable.clear
  · exact restorable.clear

/-- A recovery from a snapshot of such a store shows nothing else, whatever is evicted. -/
theorem Restorable.recover_shows {engine later : StorageEngine Value Hook}
    (restorable : engine.Restorable options) (unchanged : later.options = options)
    (nodeId : String) (now : Millis) (metadata : SnapshotMetadata) {key : CacheKey}
    {content : Value × Option Millis}
    (shown : ((later.recover nodeId now
      (.ok (some ⟨metadata, engine.entries⟩))).2.peek now key).map CacheEntry.content =
        some content) :
    (engine.peek now key).map CacheEntry.content = some content := by
  have traced : let reached := (later.clear.restoreEntries now engine.entries).2
      reached.options = options ∧ ∀ query after, reached.store.get? query = some after →
        ∃ entry, engine.store.get? query = some entry ∧
          after.liveContent now = entry.liveContent now := by
    refine restoreEntries_induction (fun reached => reached.options = options ∧
      ∀ query after, reached.store.get? query = some after →
        ∃ entry, engine.store.get? query = some entry ∧
          after.liveContent now = entry.liveContent now) ?_ ?_
    · intro reached entry member ⟨sameOptions, before⟩
      refine ⟨(afterSet_options _ _ _ _ _).trans sameOptions, ?_⟩
      intro query after stored
      obtain ⟨key, own⟩ := InsertionMap.mem_values_iff.mp member
      have written := restorable.written key entry own
      obtain rfl := restorable.keyed key entry own
      rcases afterSet_stored stored with ⟨_, rfl, rfl⟩ | ⟨_, kept⟩
      · exact ⟨entry, own, nextEntry_liveContent (sameOptions ▸ written) now⟩
      · exact before query after kept
    · exact ⟨unchanged, fun query after impossible => by cases impossible⟩
  rw [recover_engine, peek_map_content] at shown
  rw [peek_map_content]
  obtain ⟨after, stored, live⟩ := Option.bind_eq_some_iff.mp shown
  obtain ⟨entry, found, same⟩ := traced.2 key after stored
  rw [found, Option.bind_some, ← same]
  exact live

end StorageEngine

/-! ## Whole runs -/

namespace DurableNode

variable [EvictionHook Hook] [SizedValue Value]

/-- A call of `takeSnapshot()` in the run captured this store at this time. -/
def CapturedStore (setup : DurableSetup Value Hook Bytes)
    (origin : DurableNode Value Hook Bytes) (actions : List (DurableAction Value Hook Bytes))
    (capturedAt : Millis) (engine : StorageEngine Value Hook) : Prop :=
  ∃ earlier later server, actions = earlier ++ .takeSnapshot :: later ∧
    (run (step setup) origin earlier).server = some server ∧ server.engine = engine ∧
    (run (step setup) origin earlier).process.clock = capturedAt

/-- A call of the run was cut off and left this text. -/
def TornIn (actions : List (DurableAction Value Hook Bytes)) (text : Bytes) : Prop :=
  .rejectCall (.torn text) ∈ actions ∨ .crash (.torn text) ∈ actions

/-- What every run keeps. -/
structure Durable (setup : DurableSetup Value Hook Bytes)
    (origin : DurableNode Value Hook Bytes) (actions : List (DurableAction Value Hook Bytes)) :
    Prop where
  sound : (run (step setup) origin actions).process.Sound setup.codec setup.config
  restorable : ∀ server ∈ (run (step setup) origin actions).server,
    server.engine.Restorable setup.options
  captured : ∀ captured, (run (step setup) origin actions).process.Holds captured →
    ∃ engine, CapturedStore setup origin actions captured.1 engine ∧
      engine.entries = captured.2 ∧ engine.Restorable setup.options
  torn : ∀ text, (run (step setup) origin actions).process.pointed = .cutOff text →
    TornIn actions text

section Step

variable {setup : DurableSetup Value Hook Bytes} {origin node : DurableNode Value Hook Bytes}
variable {actions : List (DurableAction Value Hook Bytes)}
variable {action : DurableAction Value Hook Bytes}

omit [EvictionHook Hook] [SizedValue Value] in
theorem of_processAction_takeSnapshot {entries : List (CacheEntry Value)}
    (taken : node.processAction action = some (.takeSnapshot entries)) :
    action = .takeSnapshot ∧
      ∃ server, node.server = some server ∧ server.engine.entries = entries := by
  cases action with
  | takeSnapshot =>
      obtain ⟨server, running, same⟩ := Option.map_eq_some_iff.mp taken
      cases same
      exact ⟨rfl, server, running, rfl⟩
  | tick | advance | rejectCall | crash | startUp | work | changePolicy => cases taken

omit [EvictionHook Hook] [SizedValue Value] in
theorem of_processAction_torn {text : Bytes} {taken : ProcessAction Value Bytes}
    (asked : node.processAction action = some taken)
    (torn : taken = .crash (.torn text) ∨ taken = .reject (.torn text)) :
    action = .rejectCall (.torn text) ∨ action = .crash (.torn text) := by
  cases action with
  | rejectCall cut =>
      cases asked
      rcases torn with impossible | same
      · cases impossible
      · cases same
        exact .inl rfl
  | crash cut =>
      cases asked
      rcases torn with same | impossible
      · cases same
        exact .inr rfl
      · cases impossible
  | takeSnapshot =>
      obtain ⟨server, -, rfl⟩ := Option.map_eq_some_iff.mp asked
      rcases torn with impossible | impossible <;> cases impossible
  | tick | advance =>
      cases asked
      rcases torn with impossible | impossible <;> cases impossible
  | startUp | work | changePolicy => cases asked

theorem restorable_recovered (setup : DurableSetup Value Hook Bytes)
    (node : DurableNode Value Hook Bytes) (failed : FailedRead) :
    (node.recovered setup failed).2.Restorable setup.options :=
  StorageEngine.restorable_recover _ (StorageEngine.restorable_create _ _) _ _ _

theorem restorable_nextServer
    (restorable : ∀ server ∈ node.server, server.engine.Restorable setup.options)
    (action : DurableAction Value Hook Bytes) :
    ∀ server ∈ node.nextServer setup action, server.engine.Restorable setup.options := by
  intro server member
  cases action with
  | startUp failed reachable =>
      cases member
      cases running : node.server with
      | none => exact restorable_recovered setup node failed
      | some server => exact restorable server running
  | work action =>
      obtain ⟨before, running, rfl⟩ := Option.map_eq_some_iff.mp member
      exact CleaningNode.restorable_step (restorable before running) action
  | changePolicy hook =>
      obtain ⟨before, running, rfl⟩ := Option.map_eq_some_iff.mp member
      exact (restorable before running).of_bookkeeping _ hook
  | crash cut => cases member
  | tick | takeSnapshot | advance | rejectCall => exact restorable server member

theorem CapturedStore.later {capturedAt : Millis} {engine : StorageEngine Value Hook}
    (captured : CapturedStore setup origin actions capturedAt engine)
    (action : DurableAction Value Hook Bytes) :
    CapturedStore setup origin (actions ++ [action]) capturedAt engine := by
  obtain ⟨earlier, later, server, rfl, known⟩ := captured
  exact ⟨earlier, later ++ [action], server, by simp, known⟩

theorem Durable.step (durable : Durable setup origin actions)
    (positive : 0 < setup.config.maxRetained)
    (moved : (run (DurableNode.step setup) origin actions).ClockMoved action)
    (fresh : (run (DurableNode.step setup) origin actions).FreshFiles action) :
    Durable setup origin (actions ++ [action]) := by
  obtain ⟨node, reached⟩ : ∃ node, node = run (DurableNode.step setup) origin actions :=
    ⟨_, rfl⟩
  have stepRun : run (DurableNode.step setup) origin (actions ++ [action]) =
      node.step setup action := by
    rw [run_append, run_cons, run_nil, reached]
  have sound := durable.sound
  have captured := durable.captured
  have torn := durable.torn
  rw [← reached] at moved fresh sound captured torn
  have restorable := restorable_nextServer (reached ▸ durable.restorable) action
  cases taken : node.processAction action with
  | none =>
      have same : node.nextProcess setup action = node.process := by
        rw [nextProcess, taken]
      refine ⟨?_, ?_, ?_, ?_⟩
      · rw [stepRun, DurableNode.step, same]
        exact sound
      · rw [stepRun]
        exact restorable
      · rw [stepRun, DurableNode.step, same]
        intro held holds
        obtain ⟨engine, before, known⟩ := captured held holds
        exact ⟨engine, before.later action, known⟩
      · rw [stepRun, DurableNode.step, same]
        intro text isTorn
        exact (torn text isTorn).imp (List.mem_append_left _) (List.mem_append_left _)
  | some processAction =>
      have next : node.nextProcess setup action =
          node.process.step setup.codec setup.config setup.order processAction := by
        rw [nextProcess, taken]
      refine ⟨?_, ?_, ?_, ?_⟩
      · rw [stepRun, DurableNode.step, next]
        exact sound.step positive (moved processAction taken) (fresh processAction taken)
      · rw [stepRun]
        exact restorable
      · rw [stepRun, DurableNode.step, next]
        intro held holds
        rcases SnapshotProcess.holds_step holds with before | ⟨now, rfl⟩
        · obtain ⟨engine, capture, known⟩ := captured held before
          exact ⟨engine, capture.later action, known⟩
        · obtain ⟨rfl, server, running, entries⟩ := of_processAction_takeSnapshot taken
          refine ⟨server.engine, ⟨actions, [], server, rfl, ?_, rfl, ?_⟩, entries, ?_⟩
          · rw [← reached, running]
          · rw [← reached, now]
          · exact durable.restorable server (by rw [← reached]; exact running)
      · rw [stepRun, DurableNode.step, next]
        intro text isTorn
        rcases SnapshotProcess.pointed_step_cutOff isTorn with before | cut
        · exact (torn text before).imp (List.mem_append_left _) (List.mem_append_left _)
        · rcases of_processAction_torn taken cut with rfl | rfl
          · exact .inl (List.mem_append_right _ (List.mem_singleton_self _))
          · exact .inr (List.mem_append_right _ (List.mem_singleton_self _))

end Step

/-- What a server that starts now and can read its files comes up with: nothing, if no
snapshot was ever pointed to; an error, if the last write of the pointer was cut off; else
a store that a call of `takeSnapshot()` captured, as that store would be now, if it was
within its caps.  What has to be evicted is the only difference otherwise. -/
def ComesBack (setup : DurableSetup Value Hook Bytes) (origin : DurableNode Value Hook Bytes)
    (actions : List (DurableAction Value Hook Bytes)) : Prop :=
  let node := run (step setup) origin actions
  let recovery := node.recovered setup .none
  let shows := fun (engine : StorageEngine Value Hook) key =>
    (engine.peek node.process.clock key).map CacheEntry.content
  match node.process.pointed with
  | .nothing => recovery.1.integrityVerified = true ∧ ∀ key, shows recovery.2 key = none
  | .cutOff text => recovery.1.errors = [(setup.codec.syntaxError text).message] ∧
      recovery.1.integrityVerified = false ∧ (∀ key, shows recovery.2 key = none) ∧
      TornIn actions text
  | .snapshot metadata _ => recovery.1.integrityVerified = true ∧
      ∃ engine, CapturedStore setup origin actions metadata.createdAt engine ∧
        (∀ key content, shows recovery.2 key = some content →
          shows engine key = some content) ∧
        (engine.WithinCaps → recovery.2.stats.evictions = 0 ∧
          ∀ key, shows recovery.2 key = shows engine key)

theorem Durable.comesBack {setup : DurableSetup Value Hook Bytes}
    {origin : DurableNode Value Hook Bytes}
    {actions : List (DurableAction Value Hook Bytes)}
    (durable : Durable setup origin actions) : ComesBack setup origin actions := by
  have restored := SnapshotProcess.restoreLatest_of_pointed setup.codec
    durable.sound.pointed setup.config.nodeId
  unfold ComesBack
  simp only [recovered, SnapshotDirectory.restoreReading, restored]
  cases pointed : (run (DurableNode.step setup) origin actions).process.pointed with
  | nothing => exact ⟨rfl, fun _ => rfl⟩
  | cutOff text => exact ⟨rfl, rfl, fun _ => rfl, durable.torn text pointed⟩
  | snapshot metadata entries =>
      obtain ⟨engine, captured, rfl, restorable⟩ :=
        durable.captured (metadata.createdAt, entries) (.inl (by rw [pointed]; rfl))
      refine ⟨restorable.recover_verified _ _ _ metadata, engine, captured, ?_, ?_⟩
      · intro key content shown
        exact restorable.recover_shows rfl _ _ metadata shown
      · intro within
        exact (restorable.recover within rfl _ _ metadata).2

/-- A node with ten bytes and entries as their own files. -/
def tenBytesOnDisk : DurableSetup Nat FifoEvictionHook (List (CacheEntry Nat)) where
  codec := SnapshotProcess.entryFiles
  config := ⟨"node-1", false, 1, .insertion⟩
  order := SnapshotProcess.inOrder
  options := ⟨.infinity, .finite 10, none⟩
  hook := ⟨⟩

/-- A first snapshot is complete.  The second one replaces it, although one of the first
one's files cannot be deleted, and a third one is cut off. -/
def crashesAfterWrites :
    List (DurableAction Nat FifoEvictionHook (List (CacheEntry Nat))) :=
  [.startUp .none true, .work (.serve (.put ⟨some "a", some 7, .absent⟩)), .takeSnapshot,
    .advance "first", .advance "", .advance "", .advance "", .advance "",
    .tick 1, .work (.serve (.put ⟨some "b", some 12, .absent⟩)), .takeSnapshot,
    .advance "second", .advance "", .advance "", .advance "", .advance "",
    .rejectCall (.unlinked true false), .advance "",
    .tick 1, .work (.serve (.delete "a")), .takeSnapshot,
    .advance "third", .advance "", .crash (.torn [])]

end DurableNode

end FlowCache
