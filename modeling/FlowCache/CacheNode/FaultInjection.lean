import Mathlib.Data.Rat.Defs
import Mathlib.Algebra.Order.Ring.Rat
import FlowCache.CacheNode.Recovery
import FlowCache.CacheNode.Requests
import FlowCache.Library.Transition
import FlowCache.Snapshot.Store

/-!
# Fault injection

`FaultInjector`, the kill switch and the `POST /internal/fault-injection` handler.  A
RESTART lifts the kill switch when the command is applied; only then does its handler
recover, and several handlers may be waiting for a snapshot at once.  The faults are
reset when the recovery verifies; when it does not, the handler answers with an error.
-/

namespace FlowCache

open Transition

/-- `FaultInjectionCommand.type`. -/
inductive FaultType where
  | kill
  | restart
  | delayReplication
  | dropMessages
  deriving DecidableEq, Repr

/-- The member of `VALID_FAULT_TYPES` with this name. -/
def FaultType.parse : String → Option FaultType
  | "KILL" => some .kill
  | "RESTART" => some .restart
  | "DELAY_REPLICATION" => some .delayReplication
  | "DROP_MESSAGES" => some .dropMessages
  | _ => none

/-- A parsed request body; a field is `none` when it is missing. -/
structure FaultInjectionBody where
  type : Option String
  durationMs : Option Millis
  dropRate : Option Rat
  deriving DecidableEq, Repr

/-- `FaultState`. -/
structure FaultState where
  killed : Bool
  replicationDelayMs : Millis
  dropRate : Rat
  deriving DecidableEq, Repr

/-- `clamp01(value)`. -/
def clamp01 (value : Rat) : Rat := min 1 (max 0 value)

namespace FaultState

/-- No fault is injected; this is also what `reset()` sets. -/
def healthy : FaultState := ⟨false, 0, 0⟩

/-- `apply(command)`. -/
def apply (faults : FaultState) (type : FaultType) (body : FaultInjectionBody) :
    FaultState :=
  match type with
  | .kill => { faults with killed := true }
  | .restart => { faults with killed := false }
  | .delayReplication =>
      { faults with replicationDelayMs := body.durationMs.getD 2000 }
  | .dropMessages => { faults with dropRate := clamp01 (body.dropRate.getD (1 / 2)) }

/-- `killSwitchMiddleware` lets a client's request through. -/
def passesKillSwitch (faults : FaultState) : Bool := !faults.killed

end FaultState

/-- The command a body is accepted as. -/
def FaultInjectionBody.command (body : FaultInjectionBody) :
    Except FlowCacheError FaultType :=
  match body.type.bind FaultType.parse with
  | some type => .ok type
  | none => .error (.validationError
      "\"type\" must be one of: KILL, RESTART, DELAY_REPLICATION, DROP_MESSAGES")

/-- Where the handler of an accepted RESTART stands: the command is applied, the storage
is cleared and the snapshot awaited, or the recovery has reported. -/
inductive RestartStage where
  | applied
  | restoring (startedAt : Millis)
  | finished (report : RecoveryReport)
  deriving DecidableEq, Repr

/-- An accepted RESTART, and whether it found the node killed. -/
structure AcceptedRestart where
  wasKilled : Bool
  stage : RestartStage
  deriving DecidableEq, Repr

namespace AcceptedRestart

/-- The command is applied and the storage not yet cleared. -/
def isApplied (restart : AcceptedRestart) : Bool :=
  match restart.stage with
  | .applied => true
  | .restoring _ | .finished _ => false

/-- The storage is cleared and the snapshot awaited. -/
def isRestoring (restart : AcceptedRestart) : Bool :=
  match restart.stage with
  | .restoring _ => true
  | .applied | .finished _ => false

/-- The recovery it triggered has not finished. -/
def pending (restart : AcceptedRestart) : Bool :=
  restart.isApplied || restart.isRestoring

/-- The recovery it triggered has finished and verified. -/
def verified (restart : AcceptedRestart) : Bool :=
  match restart.stage with
  | .finished report => report.integrityVerified
  | .applied | .restoring _ => false

/-- The recovery it triggered has finished and did not verify. -/
def failed (restart : AcceptedRestart) : Bool :=
  match restart.stage with
  | .finished report => !report.integrityVerified
  | .applied | .restoring _ => false

end AcceptedRestart

/-- `handleRestart()` once `recover()` has reported: the faults it leaves, or the error
it throws. -/
def finishRestart (report : RecoveryReport) : Except FlowCacheError FaultState :=
  match assertHealthy report with
  | .ok () => .ok .healthy
  | .error error => .error error

/-- Requests that pass the kill switch of a killed node. -/
def Request.reachesKilled {Value : Type} : Request Value → Bool
  | .tick _ | .replicated _ => true
  | .put _ | .delete _ | .get _ | .has _ => false

/-- A node with its injected faults and the RESTART commands it accepted, in order. -/
structure FaultyNode (Value Hook : Type) where
  node : Node Value Hook
  faults : FaultState
  restarts : List AcceptedRestart

/-- What can happen on the node.  `snapshots` is what the snapshot store holds when the
recovery reads it. -/
inductive FaultAction (Value Bytes : Type) where
  | post (body : FaultInjectionBody)
  | callRecover (index : Nat)
  | finishRecover (index : Nat) (snapshots : SnapshotStore Bytes)
  | serve (request : Request Value)

namespace FaultyNode

variable {Value Bytes Hook : Type}

/-- A node that has not accepted any RESTART. -/
def start (node : Node Value Hook) (faults : FaultState) : FaultyNode Value Hook :=
  ⟨node, faults, []⟩

/-- Clients are served only if the recovery of the last RESTART has finished and
verified; if it failed, a node that was killed still is. -/
def ServesOnlyRecovered (state : FaultyNode Value Hook) : Prop :=
  ∀ restart ∈ state.restarts.getLast?,
    (state.faults.passesKillSwitch = true → restart.verified = true) ∧
      (restart.wasKilled = true → restart.failed = true → state.faults.killed = true)

variable [EvictionHook Hook] [SizedValue Value] (codec : SnapshotCodec Value Bytes)

/-- One action. -/
def step (state : FaultyNode Value Hook) :
    FaultAction Value Bytes → FaultyNode Value Hook
  | .post body =>
      match body.command with
      | .error _ => state
      | .ok type =>
          { state with
            faults := state.faults.apply type body
            restarts :=
              match type with
              | .restart => state.restarts ++ [⟨state.faults.killed, .applied⟩]
              | .kill | .delayReplication | .dropMessages => state.restarts }
  | .callRecover index =>
      match state.restarts[index]? with
      | some ⟨wasKilled, .applied⟩ =>
          { state with
            node := { state.node with engine := state.node.engine.clear }
            restarts := state.restarts.set index
              ⟨wasKilled, .restoring state.node.clock⟩ }
      | some ⟨_, .restoring _⟩ | some ⟨_, .finished _⟩ | none => state
  | .finishRecover index snapshots =>
      match state.restarts[index]? with
      | some ⟨wasKilled, .restoring startedAt⟩ =>
          let result := state.node.engine.finishRecovery state.node.nodeId startedAt
            state.node.clock (snapshots.restoreLatest codec state.node.nodeId)
          { node := { state.node with engine := result.2 }
            faults :=
              match finishRestart result.1 with
              | .ok faults => faults
              | .error _ => state.faults
            restarts := state.restarts.set index ⟨wasKilled, .finished result.1⟩ }
      | some ⟨_, .applied⟩ | some ⟨_, .finished _⟩ | none => state
  | .serve request =>
      if state.faults.passesKillSwitch || request.reachesKilled then
        { state with node := state.node.serve request }
      else
        state

/-- The action posts a body that is accepted as this command. -/
def Posts (type : FaultType) : FaultAction Value Bytes → Prop
  | .post body => body.command = .ok type
  | .callRecover _ | .finishRecover _ _ | .serve _ => False

/-- Nothing but a KILL closes the kill switch. -/
theorem passesKillSwitch_step {state : FaultyNode Value Hook}
    (passes : state.faults.passesKillSwitch = true) {action : FaultAction Value Bytes}
    (noKill : ¬ Posts .kill action) :
    (state.step codec action).faults.passesKillSwitch = true := by
  cases action with
  | post body =>
      simp only [step]
      split
      · exact passes
      · next type accepted =>
          cases type with
          | kill => exact (noKill accepted).elim
          | restart => rfl
          | delayReplication => exact passes
          | dropMessages => exact passes
  | callRecover index =>
      simp only [step]
      split <;> exact passes
  | finishRecover index snapshots =>
      simp only [step]
      split
      · simp only [finishRestart]
        split
        · next outcome =>
            split at outcome
            · cases outcome
              rfl
            · cases outcome
        · exact passes
      all_goals exact passes
  | serve request =>
      simp only [step]
      split <;> exact passes

theorem step_of_restart (state : FaultyNode Value Hook) {action : FaultAction Value Bytes}
    (restart : Posts .restart action) :
    (state.step codec action).faults.passesKillSwitch = true ∧
      (state.step codec action).restarts =
        state.restarts ++ [⟨state.faults.killed, .applied⟩] := by
  cases action with
  | post body =>
      have accepted : body.command = .ok .restart := restart
      simp [step, accepted, FaultState.apply, FaultState.passesKillSwitch]
  | callRecover index => exact restart.elim
  | finishRecover index snapshots => exact restart.elim
  | serve request => exact restart.elim

/-- From an accepted RESTART on, clients are served until the next KILL, whatever becomes
of the recovery. -/
theorem passesKillSwitch_after_restart (state : FaultyNode Value Hook)
    {restart : FaultAction Value Bytes} (accepted : Posts .restart restart)
    {actions : List (FaultAction Value Bytes)}
    (noKill : ∀ action ∈ actions, ¬ Posts .kill action) :
    (run (step codec) (state.step codec restart) actions).faults.passesKillSwitch =
      true := by
  have passes := (step_of_restart codec state accepted).1
  generalize state.step codec restart = restarted at passes
  induction actions generalizing restarted with
  | nil => exact passes
  | cons action rest ih =>
      apply ih
      · exact fun other member => noKill other (by simp [member])
      · exact passesKillSwitch_step codec passes (noKill action (by simp))

/-- Without a RESTART there is nothing to wait for. -/
theorem restarts_step_of_empty {state : FaultyNode Value Hook}
    (noneAccepted : state.restarts = []) {action : FaultAction Value Bytes}
    (noRestart : ¬ Posts .restart action) : (state.step codec action).restarts = [] := by
  cases action with
  | post body =>
      simp only [step]
      split
      · exact noneAccepted
      · next type accepted =>
          cases type with
          | kill => exact noneAccepted
          | restart => exact (noRestart accepted).elim
          | delayReplication => exact noneAccepted
          | dropMessages => exact noneAccepted
  | callRecover index => simp [step, noneAccepted]
  | finishRecover index snapshots => simp [step, noneAccepted]
  | serve request =>
      simp only [step]
      split <;> exact noneAccepted

theorem not_servesOnlyRecovered_of_restart (state : FaultyNode Value Hook)
    {action : FaultAction Value Bytes} (restart : Posts .restart action) :
    ¬ (state.step codec action).ServesOnlyRecovered := by
  obtain ⟨passes, restarts⟩ := step_of_restart codec state restart
  intro serves
  have pending := (serves ⟨state.faults.killed, .applied⟩ (by simp [restarts])).1 passes
  cases pending

/-- Whatever the node, its faults and its snapshot store: clients are served only after
a clean recovery in every state of a run exactly when the run accepts no RESTART. -/
theorem servesOnlyRecovered_iff (node : Node Value Hook) (faults : FaultState)
    (actions : List (FaultAction Value Bytes)) :
    EveryStep (step codec)
        (fun state action => (state.step codec action).ServesOnlyRecovered)
        (start node faults) actions ↔
      ∀ action ∈ actions, ¬ Posts .restart action := by
  have noneAccepted : (start node faults).restarts = [] := rfl
  generalize start node faults = state at noneAccepted
  induction actions generalizing state with
  | nil => simp
  | cons action rest ih =>
      rw [everyStep_cons, List.forall_mem_cons]
      constructor
      · rintro ⟨serves, later⟩
        have noRestart : ¬ Posts .restart action :=
          fun restart => not_servesOnlyRecovered_of_restart codec state restart serves
        have still := restarts_step_of_empty codec noneAccepted noRestart
        exact ⟨noRestart, (ih _ still).mp later⟩
      · rintro ⟨noRestart, later⟩
        have still := restarts_step_of_empty codec noneAccepted noRestart
        refine ⟨?_, (ih _ still).mpr later⟩
        intro restart last
        rw [still] at last
        cases last

/-- A latest snapshot whose bytes have been lost. -/
def damagedStore : SnapshotStore (List (CacheEntry Nat)) :=
  let metadata : SnapshotMetadata := ⟨"snap_1", "node-1", 0, 1, 1, 0, "1", false⟩
  ⟨InsertionMap.empty.insert "snap_1" ⟨metadata, []⟩, some metadata⟩

/-- A node that was killed is restarted while its latest snapshot is damaged: clients are
served during the recovery and after it has failed. -/
theorem killedNode_serves_after_failed_recovery :
    let node : FaultyNode Nat FifoEvictionHook :=
      start (.start "node-1" .default ⟨⟩ 0) .healthy
    let kill : FaultAction Nat (List (CacheEntry Nat)) := .post ⟨some "KILL", none, none⟩
    let restart : FaultAction Nat (List (CacheEntry Nat)) :=
      .post ⟨some "RESTART", none, none⟩
    let recovering := run (step entryCodec) node [kill, restart, .callRecover 0]
    let recovered := recovering.step entryCodec (.finishRecover 0 damagedStore)
    (node.step entryCodec kill).faults.passesKillSwitch = false ∧
      recovering.faults.passesKillSwitch = true ∧
      recovering.restarts.getLast? = some ⟨true, .restoring 0⟩ ∧
      recovered.faults.passesKillSwitch = true ∧
      recovered.restarts.getLast?.map AcceptedRestart.failed = some true ∧
      ¬ EveryStep (step entryCodec)
        (fun state action => (state.step entryCodec action).ServesOnlyRecovered) node
        [kill, restart, .callRecover 0, .finishRecover 0 damagedStore] := by
  refine ⟨by decide +kernel, by decide +kernel, by decide +kernel, by decide +kernel,
    by decide +kernel, ?_⟩
  rintro ⟨_, serves, _⟩
  have restart : Posts .restart (.post ⟨some "RESTART", none, none⟩ :
      FaultAction Nat (List (CacheEntry Nat))) := rfl
  exact not_servesOnlyRecovered_of_restart entryCodec _ restart serves

end FaultyNode

end FlowCache
