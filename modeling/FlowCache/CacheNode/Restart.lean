import FlowCache.CacheNode.FaultInjection

/-!
# Acknowledged writes across restarts

While a RESTART is handled the node goes on serving: before its storage is cleared,
while it waits for the latest snapshot, and beside the handlers of other RESTARTs.
`acked` remembers for each accepted RESTART and each key written since the command was
received, and not deleted or evicted since, what the last acknowledged write says.
-/

namespace FlowCache

open Transition

variable {Value Bytes Hook : Type}

/-- The value a key is live with. -/
def Node.liveValue (node : Node Value Hook) (key : CacheKey) : Option Value :=
  (node.engine.peek node.clock key).map CacheEntry.value

/-- A node that can be restarted, and the acknowledged writes it must not lose, by the
index of the RESTART and the key. -/
structure RestartingNode (Value Hook : Type) where
  faulty : FaultyNode Value Hook
  acked : Nat → CacheKey → Option (CacheEntry Value)

namespace RestartingNode

/-- A node that has not accepted any RESTART. -/
def start (nodeId : String) (options : StorageEngineOptions) (hook : Hook)
    (clock : Millis) : RestartingNode Value Hook :=
  ⟨.start (.start nodeId options hook clock) .healthy, fun _ _ => none⟩

/-- Every acknowledged write that has not expired is live with its value. -/
def HoldsAcked (node : Node Value Hook) (acked : CacheKey → Option (CacheEntry Value)) :
    Prop :=
  ∀ key, ∀ entry ∈ acked key, entry.metadata.isExpired node.clock = false →
    node.liveValue key = some entry.value

/-- A live key that is not stored any more after a write has been evicted: it is not owed
any more. -/
def stillOwed (acked : CacheKey → Option (CacheEntry Value)) (before after : Node Value Hook)
    (key : CacheKey) : Option (CacheEntry Value) :=
  if (before.liveValue key).isSome ∧ after.engine.store.get? key = none then none
  else acked key

/-- The acknowledged writes that a pending recovery must not lose. -/
def owed (state : RestartingNode Value Hook) (key : CacheKey) : List (CacheEntry Value) :=
  state.faulty.restarts.zipIdx.flatMap fun restart =>
    if restart.1.pending then
      ((state.acked restart.2 key).filter fun entry =>
        !entry.metadata.isExpired state.faulty.node.clock).toList
    else
      []

variable [EvictionHook Hook] [SizedValue Value]

/-- The acknowledged writes after one request. -/
def acknowledge (acked : CacheKey → Option (CacheEntry Value)) (node : Node Value Hook)
    (request : Request Value) (key : CacheKey) : Option (CacheEntry Value) :=
  if node.deleted request = some key then
    none
  else
    match node.acknowledged request with
    | some entry =>
        if entry.key = key then
          -- A write that needs too much room can be evicted by its own `set`.
          ((node.serve request).engine.store.get? key).map fun _ => entry
        else
          stillOwed acked node (node.serve request) key
    | none => acked key

variable (codec : SnapshotCodec Value Bytes)

/-- The acknowledged writes after one action. -/
def nextAcked (state : RestartingNode Value Hook) (action : FaultAction Value Bytes) :
    Nat → CacheKey → Option (CacheEntry Value) :=
  match action with
  | .post body =>
      match body.command with
      | .ok .restart =>
          Function.update state.acked state.faulty.restarts.length fun _ => none
      | .ok .kill | .ok .delayReplication | .ok .dropMessages | .error _ => state.acked
  | .callRecover _ => state.acked
  | .finishRecover _ _ => fun index =>
      stillOwed (state.acked index) state.faulty.node (state.faulty.step codec action).node
  | .serve request =>
      if state.faulty.faults.passesKillSwitch || request.reachesKilled then
        fun index => acknowledge (state.acked index) state.faulty.node request
      else
        state.acked

/-- One action. -/
def step (state : RestartingNode Value Hook) (action : FaultAction Value Bytes) :
    RestartingNode Value Hook :=
  ⟨state.faulty.step codec action, state.nextAcked codec action⟩

/-- The writes acknowledged since its RESTART was received are there when a recovery
finishes. -/
def KeepsAcked (state : RestartingNode Value Hook) : FaultAction Value Bytes → Prop
  | .finishRecover index snapshots =>
      match state.faulty.restarts[index]? with
      | some ⟨_, .restoring _⟩ =>
          let next := state.step codec (.finishRecover index snapshots)
          HoldsAcked next.faulty.node (next.acked index)
      | some ⟨_, .applied⟩ | some ⟨_, .finished _⟩ | none => True
  | .post _ | .callRecover _ | .serve _ => True

/-- An acknowledged write is not dropped by the version check, unless the live entry has
its value and expires no earlier. -/
def NotDropped (node : Node Value Hook) (request : Request Value) : Prop :=
  node.dropsStale request = true → ∀ entry ∈ node.acknowledged request,
    entry.metadata.isExpired node.clock = false →
    node.engine.AlreadyHolds node.clock entry.key entry.value entry.metadata.expiresAt

/-- The entries that a recovery applies. -/
def latestEntries (nodeId : String) (snapshots : SnapshotStore Bytes) :
    List (CacheEntry Value) :=
  match snapshots.restoreLatest codec nodeId with
  | .ok (some payload) => payload.entries
  | .ok none | .error _ => []

/-- No write is owed when a recovery clears the storage, none is dropped while a recovery
is pending, and no entry of a snapshot that is applied has another value for a key that
is owed or would expire earlier. -/
def Separate (state : RestartingNode Value Hook) : FaultAction Value Bytes → Prop
  | .post _ => True
  | .callRecover index =>
      state.faulty.restarts[index]?.any AcceptedRestart.isApplied = true →
        ∀ key ∈ state.faulty.node.engine.store.keys, (state.owed key).length = 0
  | .finishRecover index snapshots =>
      state.faulty.restarts[index]?.any AcceptedRestart.isRestoring = true →
        ∀ entry ∈ latestEntries codec state.faulty.node.nodeId snapshots,
        ∀ kept ∈ state.owed entry.key,
          entry.value = kept.value ∧ ExpiresNoLater kept.metadata.expiresAt
            (state.faulty.node.engine.remainingExpiry state.faulty.node.clock
              entry.metadata.expiresAt)
  | .serve request =>
      state.faulty.restarts.any AcceptedRestart.pending = true →
        NotDropped state.faulty.node request

/-! ## What a node keeps -/

omit [EvictionHook Hook] [SizedValue Value] in
theorem liveValue_eq_some_iff {node : Node Value Hook} {key : CacheKey} {value : Value} :
    node.liveValue key = some value ↔
      ∃ entry, node.engine.store.get? key = some entry ∧
        entry.metadata.isExpired node.clock = false ∧ entry.value = value := by
  simp only [Node.liveValue, Option.map_eq_some_iff, StorageEngine.peek_eq_some_iff,
    and_assoc]

/-- Every acknowledged write that has not expired is stored and expires no earlier. -/
def Secures (node : Node Value Hook) (acked : CacheKey → Option (CacheEntry Value)) :
    Prop :=
  ∀ key, ∀ entry ∈ acked key, entry.metadata.isExpired node.clock = false →
    ∃ held, node.engine.store.get? key = some held ∧ held.value = entry.value ∧
      ExpiresNoLater entry.metadata.expiresAt held.metadata.expiresAt

variable {node : Node Value Hook} {acked : CacheKey → Option (CacheEntry Value)}

omit [EvictionHook Hook] [SizedValue Value] in
theorem Secures.holdsAcked (secures : Secures node acked) : HoldsAcked node acked := by
  intro key entry owed due
  obtain ⟨held, stored, same, outlives⟩ := secures key entry owed due
  exact liveValue_eq_some_iff.mpr ⟨held, stored, outlives.live due, same⟩

omit [EvictionHook Hook] [SizedValue Value] in
theorem stillOwed_eq_some {before after : Node Value Hook} {key : CacheKey}
    {entry : CacheEntry Value} (owed : stillOwed acked before after key = some entry) :
    acked key = some entry ∧ ((before.liveValue key).isSome →
      ∃ held, after.engine.store.get? key = some held) := by
  rw [stillOwed] at owed
  split at owed
  · cases owed
  · next kept =>
      refine ⟨owed, fun live => Option.ne_none_iff_exists'.mp fun lost => ?_⟩
      exact kept ⟨live, lost⟩

/-- What a write of another key does not evict is still secured. -/
theorem Secures.of_stillOwed {request : Request Value} (secures : Secures node acked)
    {key : CacheKey} (other : ∀ entry ∈ node.acknowledged request, entry.key ≠ key)
    {entry : CacheEntry Value}
    (owed : stillOwed acked node (node.serve request) key = some entry)
    (due : entry.metadata.isExpired node.clock = false) :
    ∃ held, (node.serve request).engine.store.get? key = some held ∧
      held.value = entry.value ∧
      ExpiresNoLater entry.metadata.expiresAt held.metadata.expiresAt := by
  obtain ⟨before, survives⟩ := stillOwed_eq_some owed
  obtain ⟨held, stored, same, outlives⟩ := secures key entry before due
  have live := liveValue_eq_some_iff.mpr ⟨held, stored, outlives.live due, rfl⟩
  obtain ⟨after, kept⟩ := survives (by rw [live]; rfl)
  refine ⟨after, kept, ?_⟩
  rcases Node.stems_of_serve kept with ⟨wrote, own⟩ | ⟨old, found, content⟩
  · exact (other after (Node.acknowledged_of_written wrote) own).elim
  · rw [stored] at found
    cases found
    rw [content.value, content.expiresAt]
    exact ⟨same, outlives⟩

/-- Serving a request secures what was owed and what it acknowledges. -/
theorem Secures.serve {request : Request Value} (secures : Secures node acked)
    (notDropped : NotDropped node request) :
    Secures (node.serve request) (acknowledge acked node request) := by
  intro key entry owed later
  have due : entry.metadata.isExpired node.clock = false := by
    obtain ⟨elapsed, clock⟩ := node.exists_elapsed_serve request
    rw [clock] at later
    exact isExpired_eq_false_of_tick later
  rw [Option.mem_def, acknowledge] at owed
  split at owed
  · cases owed
  · next undeleted =>
      cases acknowledged : node.acknowledged request with
      | none =>
          simp only [acknowledged] at owed
          obtain ⟨held, stored, same, outlives⟩ := secures key entry owed due
          obtain ⟨after, kept, content⟩ :=
            Node.serve_keeps_live acknowledged undeleted stored (outlives.live due)
          refine ⟨after, kept, ?_⟩
          rw [content.value, content.expiresAt]
          exact ⟨same, outlives⟩
      | some wrote =>
          simp only [acknowledged] at owed
          split at owed
          · next own =>
              subst own
              obtain ⟨after, kept, rfl⟩ := Option.map_eq_some_iff.mp owed
              cases stale : node.dropsStale request with
              | true =>
                  obtain ⟨held, live, same, outlives⟩ :=
                    notDropped stale wrote acknowledged due
                  rw [Node.serve_of_dropsStale stale]
                  exact ⟨held, (StorageEngine.peek_eq_some_iff.mp live).1, same, outlives⟩
              | false =>
                  have written : wrote ∈ node.written request := by
                    rw [Node.written, stale, acknowledged]
                    rfl
                  rw [Node.eq_of_written written kept] at kept
                  exact ⟨wrote, kept, rfl, ExpiresNoLater.refl _⟩
          · next different =>
              refine secures.of_stillOwed (fun other member => ?_) owed due
              rw [acknowledged] at member
              cases member
              exact different

/-- Applying a snapshot keeps what is owed if its entries say the same. -/
theorem Secures.restore (secures : Secures node acked) {entries : List (CacheEntry Value)}
    (separate : ∀ restored ∈ entries, ∀ entry ∈ acked restored.key,
      entry.metadata.isExpired node.clock = false →
        restored.value = entry.value ∧ ExpiresNoLater entry.metadata.expiresAt
          (node.engine.remainingExpiry node.clock restored.metadata.expiresAt)) :
    let next := { node with engine := (node.engine.restoreEntries node.clock entries).2 }
    Secures next (stillOwed acked node next) := by
  intro next key entry owed due
  obtain ⟨before, survives⟩ := stillOwed_eq_some owed
  obtain ⟨held, stored, same, outlives⟩ := secures key entry before due
  have live := liveValue_eq_some_iff.mpr ⟨held, stored, outlives.live due, rfl⟩
  obtain ⟨after, kept⟩ := survives (by rw [live]; rfl)
  refine ⟨after, kept, ?_⟩
  rcases StorageEngine.restoreEntries_stored _ _ _ key after kept with
    ⟨restored, member, rfl, value, expiresAt⟩ | found
  · rw [value, expiresAt]
    exact separate restored member entry before due
  · rw [stored] at found
    cases found
    exact ⟨same, outlives⟩

omit [EvictionHook Hook] [SizedValue Value] in
/-- A node that stays as it is keeps what is owed. -/
theorem Secures.unchanged (secures : Secures node acked) :
    Secures node (stillOwed acked node node) :=
  fun key entry owed due => secures key entry (stillOwed_eq_some owed).1 due

/-! ## Steps -/

variable {codec} {state : RestartingNode Value Hook}

omit [EvictionHook Hook] [SizedValue Value] in
theorem mem_owed {index : Nat} {restart : AcceptedRestart} {key : CacheKey}
    {entry : CacheEntry Value} (accepted : state.faulty.restarts[index]? = some restart)
    (pending : restart.pending = true) (acked : entry ∈ state.acked index key)
    (due : entry.metadata.isExpired state.faulty.node.clock = false) :
    entry ∈ state.owed key := by
  rw [owed, List.mem_flatMap]
  refine ⟨(restart, index), List.mem_zipIdx_iff_getElem?.mpr accepted, ?_⟩
  simp only [pending, if_true, Option.mem_toList, Option.filter_eq_some_iff]
  exact ⟨acked, by simp [due]⟩

/-- Every pending recovery has what it must not lose. -/
def Owes (state : RestartingNode Value Hook) : Prop :=
  ∀ (index : Nat) (restart : AcceptedRestart),
    state.faulty.restarts[index]? = some restart → restart.pending = true →
    Secures state.faulty.node (state.acked index)

theorem Owes.post (owes : state.Owes) (body : FaultInjectionBody) :
    (state.step codec (.post body)).Owes := by
  intro index restart accepted pending
  simp only [RestartingNode.step, FaultyNode.step, nextAcked] at accepted ⊢
  cases command : body.command with
  | error error =>
      simp only [command] at accepted ⊢
      exact owes index restart accepted pending
  | ok type =>
      cases type with
      | restart =>
          simp only [command] at accepted ⊢
          by_cases new : index = state.faulty.restarts.length
          · subst new
            rw [Function.update_self]
            exact fun key entry impossible => by cases impossible
          · rw [Function.update_of_ne new]
            rcases Nat.lt_or_gt_of_ne new with old | beyond
            · rw [List.getElem?_append_left old] at accepted
              exact owes index restart accepted pending
            · rw [List.getElem?_eq_none (by simp; omega)] at accepted
              cases accepted
      | kill =>
          simp only [command] at accepted ⊢
          exact owes index restart accepted pending
      | delayReplication =>
          simp only [command] at accepted ⊢
          exact owes index restart accepted pending
      | dropMessages =>
          simp only [command] at accepted ⊢
          exact owes index restart accepted pending

/-- A RESTART that was pending and still is, or has gone on, was pending. -/
theorem exists_pending_of_set {restarts : List AcceptedRestart} {changed index : Nat}
    {old new restart : AcceptedRestart} (known : restarts[changed]? = some old)
    (wasPending : old.pending = true)
    (accepted : (restarts.set changed new)[index]? = some restart)
    (pending : restart.pending = true) :
    ∃ before, restarts[index]? = some before ∧ before.pending = true := by
  by_cases same : changed = index
  · exact ⟨old, same ▸ known, wasPending⟩
  · rw [List.getElem?_set_ne same] at accepted
    exact ⟨restart, accepted, pending⟩

theorem Owes.callRecover (owes : state.Owes) {called : Nat}
    (separate : state.Separate codec (.callRecover called)) :
    (state.step codec (.callRecover called)).Owes := by
  cases known : state.faulty.restarts[called]? with
  | none =>
      have same : state.step codec (.callRecover called) = state := by
        simp only [RestartingNode.step, FaultyNode.step, nextAcked, known]
      rwa [same]
  | some old =>
      obtain ⟨wasKilled, stage⟩ := old
      cases stage with
      | restoring startedAt =>
          have same : state.step codec (.callRecover called) = state := by
            simp only [RestartingNode.step, FaultyNode.step, nextAcked, known]
          rwa [same]
      | finished report =>
          have same : state.step codec (.callRecover called) = state := by
            simp only [RestartingNode.step, FaultyNode.step, nextAcked, known]
          rwa [same]
      | applied =>
          have quiet := separate (by rw [known]; rfl)
          intro index restart accepted pending
          simp only [RestartingNode.step, FaultyNode.step, nextAcked, known] at accepted ⊢
          obtain ⟨before, wasThere, wasPending⟩ :=
            exists_pending_of_set known rfl accepted pending
          -- What was owed would have been stored, and nothing stored was owed.
          intro key entry acked due
          obtain ⟨held, stored, -⟩ := owes index before wasThere wasPending key entry acked due
          have isKey : key ∈ state.faulty.node.engine.store.keys :=
            InsertionMap.mem_keys_iff.mpr ⟨held, stored⟩
          have member := mem_owed wasThere wasPending acked due
          rw [List.eq_nil_of_length_eq_zero (quiet key isKey)] at member
          cases member

/-- The end of a recovery keeps what it and the other pending recoveries must not lose. -/
theorem Owes.secures_finish (owes : state.Owes) {called : Nat}
    {snapshots : SnapshotStore Bytes} {wasKilled : Bool} {startedAt : Millis}
    (known : state.faulty.restarts[called]? = some ⟨wasKilled, .restoring startedAt⟩)
    (separate : state.Separate codec (.finishRecover called snapshots))
    {index : Nat} {restart : AcceptedRestart}
    (accepted : state.faulty.restarts[index]? = some restart)
    (pending : restart.pending = true) :
    Secures (state.step codec (.finishRecover called snapshots)).faulty.node
      ((state.step codec (.finishRecover called snapshots)).acked index) := by
  have secures := owes index restart accepted pending
  simp only [RestartingNode.step, FaultyNode.step, nextAcked, known,
    StorageEngine.finishRecovery_engine]
  cases restored : snapshots.restoreLatest codec state.faulty.node.nodeId with
  | error error => exact secures.unchanged
  | ok found =>
      cases found with
      | none => exact secures.unchanged
      | some payload =>
          have applied := separate (by rw [known]; rfl)
          apply secures.restore
          intro entry member kept acked due
          apply applied entry _ kept (mem_owed accepted pending acked due)
          rw [latestEntries, restored]
          exact member

theorem Owes.finishRecover (owes : state.Owes) {called : Nat}
    {snapshots : SnapshotStore Bytes}
    (separate : state.Separate codec (.finishRecover called snapshots)) :
    (state.step codec (.finishRecover called snapshots)).Owes := by
  have ignored : state.faulty.step codec (.finishRecover called snapshots) = state.faulty →
      (state.step codec (.finishRecover called snapshots)).Owes := by
    intro same index restart accepted pending
    simp only [RestartingNode.step, same, nextAcked] at accepted ⊢
    exact (owes index restart accepted pending).unchanged
  cases known : state.faulty.restarts[called]? with
  | none => exact ignored (by simp only [FaultyNode.step, known])
  | some old =>
      obtain ⟨wasKilled, stage⟩ := old
      cases stage with
      | applied => exact ignored (by simp only [FaultyNode.step, known])
      | finished report => exact ignored (by simp only [FaultyNode.step, known])
      | restoring startedAt =>
          intro index restart accepted pending
          have stillThere : (state.faulty.step codec
              (.finishRecover called snapshots)).restarts[index]? = some restart := accepted
          simp only [FaultyNode.step, known] at stillThere
          obtain ⟨before, wasThere, wasPending⟩ :=
            exists_pending_of_set known rfl stillThere pending
          exact owes.secures_finish known separate wasThere wasPending

theorem Owes.serve (owes : state.Owes) {request : Request Value}
    (separate : state.Separate codec (.serve request)) :
    (state.step codec (.serve request)).Owes := by
  intro index restart accepted pending
  simp only [RestartingNode.step, FaultyNode.step, nextAcked] at accepted ⊢
  split at accepted
  · next served =>
      rw [if_pos served, if_pos served]
      apply (owes index restart accepted pending).serve
      exact separate (List.any_eq_true.mpr ⟨restart, List.mem_of_getElem? accepted, pending⟩)
  · next refused =>
      rw [if_neg refused, if_neg refused]
      exact owes index restart accepted pending

theorem Owes.step (owes : state.Owes) {action : FaultAction Value Bytes}
    (separate : state.Separate codec action) : (state.step codec action).Owes := by
  cases action with
  | post body => exact owes.post body
  | callRecover called => exact owes.callRecover separate
  | finishRecover called snapshots => exact owes.finishRecover separate
  | serve request => exact owes.serve separate

theorem Owes.keepsAcked (owes : state.Owes) {action : FaultAction Value Bytes}
    (separate : state.Separate codec action) : state.KeepsAcked codec action := by
  cases action with
  | post body => trivial
  | callRecover called => trivial
  | serve request => trivial
  | finishRecover called snapshots =>
      simp only [KeepsAcked]
      split
      · next known => exact (owes.secures_finish known separate known rfl).holdsAcked
      all_goals trivial

/-- In every run in which no write is owed when a recovery clears the storage, none is
dropped as stale while a recovery is pending, and no snapshot that is applied has another
value for a key that is owed, every recovery finishes with the last acknowledged write of
each key that is still owed. -/
theorem recovery_keeps_acknowledged (codec : SnapshotCodec Value Bytes) (nodeId : String)
    (options : StorageEngineOptions) (hook : Hook) (clock : Millis)
    (actions : List (FaultAction Value Bytes))
    (separate : EveryStep (step codec) (Separate codec) (start nodeId options hook clock)
      actions) :
    EveryStep (step codec) (KeepsAcked codec)
      (start nodeId options hook clock : RestartingNode Value Hook) actions := by
  have initial : (start nodeId options hook clock : RestartingNode Value Hook).Owes :=
    fun index restart accepted => by cases accepted
  exact separate.of_invariant
    (fun _ _ owes met => Owes.step owes met)
    (fun _ _ owes met => Owes.keepsAcked owes met)
    initial

/-! ## Runs -/

instance [DecidableEq Value] (node : Node Value Hook) (request : Request Value) :
    Decidable (NotDropped node request) :=
  inferInstanceAs (Decidable (node.dropsStale request = true → _))

instance [DecidableEq Value] (state : RestartingNode Value Hook) :
    (action : FaultAction Value Bytes) → Decidable (state.Separate codec action)
  | .post _ => .isTrue trivial
  | .callRecover _ => inferInstanceAs (Decidable (_ = true → ∀ key ∈ _, _))
  | .finishRecover _ _ => inferInstanceAs (Decidable (_ = true → ∀ entry ∈ _, _))
  | .serve request =>
      inferInstanceAs (Decidable (_ = true → NotDropped state.faulty.node request))

/-- A store whose latest snapshot holds `"k"`. -/
def storeOfK : SnapshotStore (List (CacheEntry Nat)) :=
  let entries : List (CacheEntry Nat) := [⟨"k", 1, ⟨1, 0, 0, 0, 0, none, 1⟩⟩]
  let metadata : SnapshotMetadata := ⟨"snap_1", "node-1", 0, 1, 1, 0, "1", false⟩
  ⟨InsertionMap.empty.insert "snap_1" ⟨metadata, entries⟩, some metadata⟩

/-- A body that is accepted as RESTART. -/
def restartBody : FaultInjectionBody := ⟨some "RESTART", none, none⟩

/-- Two RESTARTs overlap; another key than the snapshot's is written while both wait for
it. -/
def separateRestarts : List (FaultAction Nat (List (CacheEntry Nat))) :=
  [.post ⟨some "KILL", none, none⟩, .post restartBody, .callRecover 0, .post restartBody,
    .callRecover 1, .serve (.put ⟨some "j", some 2, .number 100⟩), .serve (.tick 5),
    .finishRecover 0 storeOfK, .serve (.get "k"), .finishRecover 1 storeOfK]

theorem separateRestarts_keep :
    (run (step entryCodec) (start "node-1" .default (⟨⟩ : FifoEvictionHook) 0)
        separateRestarts).faulty.node.liveValue "j" = some 2 ∧
      EveryStep (step entryCodec) (KeepsAcked entryCodec)
        (start "node-1" .default (⟨⟩ : FifoEvictionHook) 0) separateRestarts := by
  refine ⟨by decide +kernel, ?_⟩
  exact recovery_keeps_acknowledged entryCodec "node-1" .default (⟨⟩ : FifoEvictionHook) 0
    separateRestarts (by decide +kernel)

/-- A PUT of `"k"` is acknowledged while the node waits for the snapshot. -/
def racedRestart : List (FaultAction Nat (List (CacheEntry Nat))) :=
  [.post restartBody, .callRecover 0, .serve (.put ⟨some "k", some 2, .absent⟩)]

/-- The node when the snapshot arrives. -/
def waitingNode : RestartingNode Nat FifoEvictionHook :=
  run (step entryCodec) (start "node-1" .default ⟨⟩ 0) racedRestart

/-- The node after the recovery. -/
def recoveredNode : RestartingNode Nat FifoEvictionHook :=
  waitingNode.step entryCodec (.finishRecover 0 storeOfK)

theorem racedRestart_loses :
    (recoveredNode.acked 0 "k").map CacheEntry.value = some 2 ∧
      recoveredNode.faulty.node.liveValue "k" = some 1 ∧
      ¬EveryStep (step entryCodec) (KeepsAcked entryCodec)
        (start "node-1" .default (⟨⟩ : FifoEvictionHook) 0)
        (racedRestart ++ [.finishRecover 0 storeOfK]) := by
  have lost : recoveredNode.faulty.node.liveValue "k" = some 1 := by
    decide +kernel
  have owed : (recoveredNode.acked 0 "k").map
      (fun entry => (entry.value, entry.metadata.isExpired recoveredNode.faulty.node.clock)) =
        some (2, false) := by
    decide +kernel
  obtain ⟨entry, acked, same⟩ := Option.map_eq_some_iff.mp owed
  obtain ⟨value, due⟩ := Prod.mk.inj same
  refine ⟨by rw [acked, Option.map_some, value], lost, ?_⟩
  intro every
  have last : waitingNode.KeepsAcked entryCodec (.finishRecover 0 storeOfK) :=
    ((everyStep_append _ racedRestart _).mp every).2.1
  have stage : waitingNode.faulty.restarts[0]? = some ⟨false, .restoring 0⟩ := by
    decide +kernel
  simp only [KeepsAcked, stage] at last
  have held : recoveredNode.faulty.node.liveValue "k" = some entry.value :=
    last "k" entry acked due
  rw [lost, value] at held
  cases held

end RestartingNode

end FlowCache
