import FlowCache.Library.Redelivery
import FlowCache.Replication.Primary

/-!
# Replaying a primary's log with rewinds

At-least-once delivery: a replica that reads a primary's log may be thrown back
to an earlier position at any point and reads on from there.  The primary writes
without time to live and never evicts, expires or recovers, so each of its keys
is a register that the log records; the replica's copy is decided by one
position of that log.
-/

namespace FlowCache

open VersionedRegister Transition

variable {Value Hook : Type}

/-! ## The log of one key -/

/-- What a message does to a key. -/
def changeOf (key : CacheKey) (message : EventMessage Value) : Option (Change Value) :=
  if message.event.key = key then
    match message.event.op with
    | .put value (some metadata) => some (.put ⟨metadata.version, value⟩)
    | .put _ none => none
    | .delete => some .drop
  else
    none

/-- What a log position does to a key. -/
def changeAt (log : List (EventMessage Value)) (key : CacheKey) (position : Nat) :
    Option (Change Value) :=
  log[position]?.bind (changeOf key)

theorem changeAt_append_singleton (log : List (EventMessage Value)) (key : CacheKey)
    (message : EventMessage Value) :
    changeAt (log ++ [message]) key =
      Function.update (changeAt log key) log.length (changeOf key message) := by
  funext position
  rcases Nat.lt_trichotomy position log.length with below | same | above
  · rw [Function.update_of_ne (Nat.ne_of_lt below), changeAt, changeAt,
      List.getElem?_append_left below]
  · subst same
    simp [changeAt]
  · rw [Function.update_of_ne (Nat.ne_of_gt above), changeAt, changeAt,
      List.getElem?_eq_none (by simp; omega), List.getElem?_eq_none (by omega)]

theorem changeOf_of_ne {key : CacheKey} {message : EventMessage Value}
    (different : message.event.key ≠ key) : changeOf key message = none := by
  rw [changeOf, if_neg different]

/-- A message about another key leaves a key's record as it is. -/
theorem records_append_other {log : List (EventMessage Value)} {key : CacheKey}
    {register : Register Value} (records : Records (changeAt log key) register log.length)
    {message : EventMessage Value} (different : message.event.key ≠ key) :
    Records (changeAt (log ++ [message]) key) register (log ++ [message]).length := by
  have silent : changeAt log key log.length = none := records.ended _ (Nat.le_refl _)
  rw [changeAt_append_singleton, changeOf_of_ne different, ← silent,
    Function.update_eq_self, List.length_append]
  exact records.skip

namespace StorageEngine

variable [EvictionHook Hook] [SizedValue Value]

/-- An event that fits is replayed on the register of every key. -/
theorem Perpetual.afterEvent_register
    {engine : StorageEngine Value Hook} (perpetual : engine.Perpetual) {now : Millis}
    {message : EventMessage Value}
    (valid : ∀ value metadata, message.event.op = .put value metadata →
      message.event.key ≠ "")
    (fits : engine.EventFits now message.event) (query : CacheKey) :
    (engine.afterEvent now message.event).register query =
      (engine.register query).apply (changeOf query message) := by
  obtain ⟨⟨eventId, source, key, op, timestamp⟩, targets⟩ := message
  simp only [changeOf]
  cases op with
  | delete =>
      rw [StorageEngine.afterEvent, delete_register]
      by_cases same : query = key
      · subst same
        simp [Register.apply]
      · simp [same, Ne.symm same, Register.apply]
  | put value metadata =>
      cases metadata with
      | none => split <;> rfl
      | some metadata =>
          rw [StorageEngine.afterEvent,
            afterRemoteWrite_register perpetual (valid value _ rfl) fits]
          by_cases same : query = key
          · subst same
            simp [Register.apply]
          · simp [same, Ne.symm same, Register.apply]

theorem Perpetual.afterEvent {engine : StorageEngine Value Hook}
    (perpetual : engine.Perpetual) (now : Millis) {event : ReplicationEvent Value}
    (noDeadline : ∀ value metadata, event.op = .put value (some metadata) →
      metadata.expiresAt = none) :
    (engine.afterEvent now event).Perpetual := by
  obtain ⟨eventId, source, key, op, timestamp⟩ := event
  cases op with
  | delete => exact perpetual.delete key
  | put value metadata =>
      cases metadata with
      | none => exact perpetual
      | some metadata =>
          exact perpetual.afterRemoteWrite now key value (noDeadline value metadata rfl)

end StorageEngine

/-! ## The primary -/

namespace Primary

variable (placement : Placement)

/-- Everything the log says about replicated keys is what the storage did. -/
structure Recorded (primary : Primary Value Hook) : Prop where
  perpetual : primary.engine.Perpetual
  addressed : primary.Addressed placement
  noDeadline : ∀ message ∈ primary.log, ∀ value metadata,
    message.event.op = .put value (some metadata) → metadata.expiresAt = none
  records : ∀ key, placement.Replicates key →
    Records (changeAt primary.log key) (primary.engine.register key) primary.log.length

theorem recorded_start {options : StorageEngineOptions}
    (noDefault : options.defaultTtlMs = none) (hook : Hook) (clock : Millis) :
    (start options hook clock : Primary Value Hook).Recorded placement where
  perpetual := StorageEngine.perpetual_create noDefault hook
  addressed := addressed_start placement options hook clock
  noDeadline := by
    intro message member
    cases member
  records := fun _ _ => Records.empty

variable {placement}

/-- An operation that is published and applied to its key's register extends the
record of every key. -/
theorem Recorded.publish {primary : Primary Value Hook}
    (recorded : primary.Recorded placement) {next : StorageEngine Value Hook}
    (perpetual : next.Perpetual) (eventId : String) {key : CacheKey}
    {op : ReplicationOp Value}
    (writes : ∀ value metadata, op = .put value metadata → key ≠ "" ∧ metadata.isSome)
    (noDeadline : ∀ value metadata, op = .put value (some metadata) →
      metadata.expiresAt = none)
    (others : ∀ query, query ≠ key → next.register query = primary.engine.register query)
    (extended : ∀ message : EventMessage Value, message.event.key = key →
      message.event.op = op →
      Records (changeAt primary.log key) (primary.engine.register key)
        primary.log.length →
      Records (changeAt (primary.log ++ [message]) key) (next.register key)
        (primary.log ++ [message]).length) :
    Recorded placement
      { primary with
        engine := next
        log := primary.publish placement eventId key op } where
  perpetual := perpetual
  addressed := recorded.addressed.publish eventId key op writes
  noDeadline := by
    intro message member
    rcases primary.publish_cases placement eventId key op with
      ⟨unchanged, _⟩ | ⟨sent, published, event, _⟩
    · exact recorded.noDeadline message (unchanged ▸ member)
    · rw [published] at member
      rcases List.mem_append.mp member with old | new
      · exact recorded.noDeadline message old
      · rw [List.mem_singleton.mp new, event]
        exact noDeadline
  records := by
    intro query replicated
    have before := recorded.records query replicated
    rcases primary.publish_cases placement eventId key op with
      ⟨unchanged, elsewhere⟩ | ⟨sent, published, event, _⟩
    · have different : query ≠ key := by
        rintro rfl
        exact elsewhere replicated
      simp only [unchanged, others query different]
      exact before
    · simp only [published]
      by_cases same : query = key
      · subst same
        exact extended sent (by rw [event]) (by rw [event]) before
      · rw [others query same]
        apply records_append_other before
        rw [event]
        exact Ne.symm same

/-- A step that publishes nothing and keeps every register keeps the record. -/
theorem Recorded.silent {primary : Primary Value Hook}
    (recorded : primary.Recorded placement) {next : StorageEngine Value Hook}
    (perpetual : next.Perpetual)
    (same : ∀ key, next.register key = primary.engine.register key) :
    Recorded placement { primary with engine := next } where
  perpetual := perpetual
  addressed := recorded.addressed
  noDeadline := recorded.noDeadline
  records := by
    intro key replicated
    simp only [same key]
    exact recorded.records key replicated

variable [EvictionHook Hook]

theorem Recorded.delete {primary : Primary Value Hook}
    (recorded : primary.Recorded placement) (eventId : String) (key : CacheKey) :
    Recorded placement
      { primary with
        engine := (primary.engine.delete key).2
        log := primary.publish placement eventId key .delete } := by
  apply recorded.publish (recorded.perpetual.delete _)
  · intro value metadata impossible
    cases impossible
  · intro value metadata impossible
    cases impossible
  · intro query different
    rw [StorageEngine.delete_register, if_neg different]
  · intro message about op before
    rw [StorageEngine.delete_register, if_pos rfl, changeAt_append_singleton,
      List.length_append]
    have change : changeOf key message = some .drop := by
      rw [changeOf, if_pos about, op]
    rw [change]
    exact before.drop

variable [SizedValue Value]

/-- Steps of a primary that never evicts, expires or recovers: a PUT has no time
to live and fits. -/
def Steady (primary : Primary Value Hook) : PrimaryAction Value → Prop
  | .put _ body => body.ttlMs = .absent ∧
      ∀ key ∈ body.key, ∀ value ∈ body.value,
        (primary.engine.writeEntry primary.clock key value ⟨none⟩).overCapacity = false
  | .recover _ => False
  | .tick _ | .delete _ _ | .get _ | .has _ | .sweep => True

instance (primary : Primary Value Hook) :
    (action : PrimaryAction Value) → Decidable (primary.Steady action)
  | .put _ body => inferInstanceAs (Decidable (body.ttlMs = .absent ∧ _))
  | .recover _ => .isFalse id
  | .tick _ | .delete _ _ | .get _ | .has _ | .sweep => .isTrue trivial

theorem Recorded.put {primary : Primary Value Hook}
    (recorded : primary.Recorded placement) (eventId : String) {key : CacheKey}
    (valid : key ≠ "") {value : Value}
    (fits : (primary.engine.writeEntry primary.clock key value
      ⟨none⟩).overCapacity = false) :
    Recorded placement
      { primary with
        engine := primary.engine.afterSet primary.clock key value ⟨none⟩
        log := primary.publish placement eventId key
          (.put value (some (primary.engine.nextEntry primary.clock key value
            ⟨none⟩).metadata)) } := by
  apply recorded.publish (recorded.perpetual.afterSet _ _ _)
  · rintro written metadata ⟨⟩
    exact ⟨valid, rfl⟩
  · rintro written metadata ⟨⟩
    rw [StorageEngine.nextEntry_expiresAt, Option.getD_none,
      recorded.perpetual.noDefault, Option.map_none]
  · intro query different
    rw [StorageEngine.afterSet_register valid fits, if_neg different]
  · intro message about op before
    rw [StorageEngine.afterSet_register valid fits, if_pos rfl,
      changeAt_append_singleton, List.length_append]
    have change : changeOf key message =
        some (.put ⟨(primary.engine.register key).level + 1, value⟩) := by
      rw [changeOf, if_pos about, op]
      simp only [StorageEngine.nextEntry_version, StorageEngine.register_level]
    rw [change]
    exact before.put value

theorem Recorded.step {primary : Primary Value Hook}
    (recorded : primary.Recorded placement) {action : PrimaryAction Value}
    (steady : primary.Steady action) :
    (primary.step placement action).Recorded placement := by
  cases action with
  | put eventId body =>
      cases accepted : putRoute primary.engine primary.clock body with
      | error error => simpa [Primary.step, accepted] using recorded
      | ok result =>
          obtain ⟨entry, next⟩ := result
          obtain ⟨key, value, options, keyField, valid, valueField, ttl, stepped⟩ :=
            step_put_of_ok placement eventId accepted
          have noTtl : options = ⟨none⟩ := by
            rw [steady.1] at ttl
            cases ttl
            rfl
          subst noTtl
          rw [stepped]
          exact recorded.put eventId valid (steady.2 key keyField value valueField)
  | delete eventId key =>
      simp only [Primary.step]
      split
      · exact recorded.delete eventId key
      · next missing =>
          apply recorded.silent (recorded.perpetual.delete key)
          intro query
          rw [StorageEngine.delete_of_missing (by simpa using missing)]
  | tick elapsed =>
      exact ⟨recorded.perpetual, recorded.addressed, recorded.noDeadline,
        recorded.records⟩
  | get key =>
      exact recorded.silent (recorded.perpetual.get _ _)
        (recorded.perpetual.get_register _ _)
  | has key =>
      exact recorded.silent (recorded.perpetual.has _ _)
        (recorded.perpetual.has_register _ _)
  | sweep =>
      exact recorded.silent (recorded.perpetual.sweepExpired _)
        (recorded.perpetual.sweepExpired_register _)
  | recover entries => exact steady.elim

end Primary

/-! ## The replica -/

/-- A replica that reads a log, and the positions it was delivered, newest
first. -/
structure Reader (Value Hook : Type) where
  replica : StorageEngine Value Hook
  delivered : List Nat

/-- One delivery: a log position and the replica's clock at that moment. -/
structure Read where
  position : Nat
  now : Millis

namespace Reader

/-- A replica that starts empty. -/
def start (options : StorageEngineOptions) (hook : Hook) : Reader Value Hook :=
  ⟨.create options hook, []⟩

variable (placement : Placement) (log : List (EventMessage Value))

/-- The next position is at most one ahead of the last one; the first is any. -/
def Advances (reader : Reader Value Hook) (read : Read) : Prop :=
  read.position < log.length ∧
    ∀ last ∈ reader.delivered.head?, read.position ≤ last + 1

instance (reader : Reader Value Hook) (read : Read) :
    Decidable (reader.Advances log read) :=
  inferInstanceAs (Decidable (_ ∧ _))

/-- The replica was delivered an event about the key. -/
def Heard (reader : Reader Value Hook) (key : CacheKey) : Prop :=
  ∃ position ∈ reader.delivered, ∃ message ∈ log[position]?,
    message.event.key = key ∧ placement.replicaId ∈ message.targetNodeIds

instance (reader : Reader Value Hook) (key : CacheKey) :
    Decidable (reader.Heard placement log key) :=
  inferInstanceAs (Decidable (∃ position ∈ reader.delivered, _))

/-- What the replica holds of each key is decided by the log, once the key was
heard of. -/
structure Follows (reader : Reader Value Hook) : Prop where
  perpetual : reader.replica.Perpetual
  decided : ∀ key, placement.Replicates key →
    (reader.replica.register key = none ∧
        ∀ position ∈ reader.delivered, changeAt log key position = none) ∨
      ∃ cursor ∈ reader.delivered.head?, ∃ position,
        DecidedAt (changeAt log key) (reader.replica.register key) cursor position

variable {placement log}

theorem follows_start {options : StorageEngineOptions}
    (noDefault : options.defaultTtlMs = none) (hook : Hook) :
    Follows placement log (start options hook) where
  perpetual := StorageEngine.perpetual_create noDefault hook
  decided := fun _ _ => .inl ⟨rfl, by simp [start]⟩

/-- A key whose last delivered position is the end of the log is decided the same
way on both sides. -/
theorem Follows.agrees {reader : Reader Value Hook} {primary : Primary Value Hook}
    (follows : Follows placement primary.log reader)
    (recorded : primary.Recorded placement)
    (finished : reader.delivered.head? = some (primary.log.length - 1))
    {key : CacheKey} (heard : reader.Heard placement primary.log key) :
    (reader.replica.register key).map Stamped.content =
      (primary.engine.register key).map Stamped.content := by
  obtain ⟨position, delivered, message, found, about, target⟩ := heard
  subst about
  have member : message ∈ primary.log := List.mem_of_getElem? found
  have routed := recorded.addressed message member
  have replicated := routed.target.mp target
  have records := recorded.records message.event.key replicated
  obtain ⟨change, concerned⟩ :
      ∃ change, changeAt primary.log message.event.key position = some change := by
    rw [changeAt, Option.mem_def.mp found, Option.bind_some, changeOf, if_pos rfl]
    cases op : message.event.op with
    | delete => exact ⟨_, rfl⟩
    | put value metadata =>
        obtain ⟨stamp, present⟩ :=
          Option.isSome_iff_exists.mp (routed.writes value metadata op).2
        rw [present]
        exact ⟨_, rfl⟩
  obtain ⟨origin, originDecided⟩ := records.decidedAt concerned
  rcases follows.decided message.event.key replicated with
    ⟨_, silent⟩ | ⟨cursor, last, deciding, decidedAt⟩
  · rw [silent position delivered] at concerned
    cases concerned
  · rw [finished] at last
    cases last
    apply decidedAt.content_eq originDecided
    intro beyond after
    exact records.ended beyond (by omega)

variable (placement log)
variable [EvictionHook Hook] [SizedValue Value]

/-- Handle the message at the position that is delivered. -/
def deliver (reader : Reader Value Hook) (read : Read) : Reader Value Hook :=
  match log[read.position]? with
  | none => reader
  | some message =>
      { replica :=
          (reader.replica.handleReplicationEvent placement.replicaId read.now message).2
        delivered := read.position :: reader.delivered }

/-- The delivery evicts nothing on the replica. -/
def Fits (reader : Reader Value Hook) (read : Read) : Prop :=
  ∀ message ∈ log[read.position]?, placement.replicaId ∈ message.targetNodeIds →
    reader.replica.EventFits read.now message.event

instance (reader : Reader Value Hook) (read : Read) :
    Decidable (reader.Fits placement log read) :=
  inferInstanceAs (Decidable (∀ message ∈ log[read.position]?, _))

variable {placement log}

/-- A delivery replays one log position on every key placed on the replica. -/
theorem deliver_spec {reader : Reader Value Hook} {primary : Primary Value Hook}
    (perpetual : reader.replica.Perpetual) (recorded : primary.Recorded placement)
    {read : Read} (advances : reader.Advances primary.log read)
    (fits : reader.Fits placement primary.log read) :
    (reader.deliver placement primary.log read).delivered =
        read.position :: reader.delivered ∧
      (reader.deliver placement primary.log read).replica.Perpetual ∧
      ∀ key, placement.Replicates key →
        (reader.deliver placement primary.log read).replica.register key =
          (reader.replica.register key).apply
            (changeAt primary.log key read.position) := by
  obtain ⟨message, found⟩ : ∃ message, primary.log[read.position]? = some message :=
    ⟨_, List.getElem?_eq_getElem advances.1⟩
  have member : message ∈ primary.log := List.mem_of_getElem? found
  have routed := recorded.addressed message member
  simp only [deliver, found, changeAt, Option.bind_some, true_and]
  by_cases target : placement.replicaId ∈ message.targetNodeIds
  · have foreign : message.event.sourceNodeId ≠ placement.replicaId := by
      rw [routed.source]
      exact Ne.symm placement.distinct
    rw [StorageEngine.handleReplicationEvent_of_target foreign target]
    constructor
    · exact perpetual.afterEvent read.now (recorded.noDeadline message member)
    · intro key _
      exact perpetual.afterEvent_register
        (fun value metadata isPut => (routed.writes value metadata isPut).1)
        (fits message found target) key
  · rw [StorageEngine.handleReplicationEvent_of_not_target target]
    refine ⟨perpetual, ?_⟩
    intro key replicated
    have different : message.event.key ≠ key := by
      rintro rfl
      exact target (routed.target.mpr replicated)
    rw [changeOf_of_ne different, Register.apply]

theorem Follows.deliver {reader : Reader Value Hook} {primary : Primary Value Hook}
    (follows : Follows placement primary.log reader)
    (recorded : primary.Recorded placement) {read : Read}
    (advances : reader.Advances primary.log read)
    (fits : reader.Fits placement primary.log read) :
    Follows placement primary.log (reader.deliver placement primary.log read) := by
  obtain ⟨delivered, perpetual, replayed⟩ :=
    deliver_spec follows.perpetual recorded advances fits
  refine ⟨perpetual, ?_⟩
  intro key replicated
  have rising := (recorded.records key replicated).rising
  rw [replayed key replicated, delivered]
  rcases follows.decided key replicated with
    ⟨absent, silent⟩ | ⟨cursor, last, position, decidedAt⟩
  · cases found : changeAt primary.log key read.position with
    | none =>
        left
        refine ⟨absent, ?_⟩
        intro position member
        rcases List.mem_cons.mp member with rfl | earlier
        · exact found
        · exact silent position earlier
    | some change =>
        right
        have first := DecidedAt.first rising found
        rw [found] at first
        rw [absent]
        exact ⟨read.position, rfl, read.position, first⟩
  · right
    obtain ⟨deciding, next⟩ := decidedAt.step rising (advances.2 cursor last)
    exact ⟨read.position, rfl, deciding, next⟩

/-- A replica that starts empty at any position, reads the log of a steady primary
with any rewinds, evicts nothing itself and has just read the last message agrees
with the primary on every key it heard of. -/
theorem agrees_after_rewinds {options replicaOptions : StorageEngineOptions}
    (noDefault : options.defaultTtlMs = none)
    (replicaNoDefault : replicaOptions.defaultTtlMs = none)
    (hook replicaHook : Hook) (clock : Millis) (actions : List (PrimaryAction Value))
    (steady : EveryStep (Primary.step placement) Primary.Steady
      (Primary.start options hook clock) actions)
    {primary : Primary Value Hook}
    (reached : run (Primary.step placement) (Primary.start options hook clock) actions =
      primary)
    (reads : List Read)
    (legal : EveryStep (deliver placement primary.log)
      (fun reader read => reader.Advances primary.log read ∧
        reader.Fits placement primary.log read)
      (start replicaOptions replicaHook) reads)
    {reader : Reader Value Hook}
    (replayed : run (deliver placement primary.log) (start replicaOptions replicaHook)
      reads = reader)
    (finished : reader.delivered.head? = some (primary.log.length - 1))
    {key : CacheKey} (heard : reader.Heard placement primary.log key)
    (now : Millis) :
    (reader.replica.peek now key).map CacheEntry.value =
      (primary.engine.peek now key).map CacheEntry.value := by
  have recorded : primary.Recorded placement := by
    rw [← reached]
    exact steady.invariant (fun _ _ recorded steady => recorded.step steady)
      (Primary.recorded_start placement noDefault hook clock)
  have follows : Follows placement primary.log reader := by
    rw [← replayed]
    exact legal.invariant
      (fun _ _ follows step => follows.deliver recorded step.1 step.2)
      (follows_start replicaNoDefault replicaHook)
  rw [follows.perpetual.peek_eq, recorded.perpetual.peek_eq,
    ← StorageEngine.register_content, ← StorageEngine.register_content]
  exact follows.agrees recorded finished heard

end Reader

/-- A primary that writes two keys, deletes the second and writes a third. -/
def deletingPrimary : List (PrimaryAction Nat) :=
  [.put "e1" (plainPut "c" 1), .put "e2" (plainPut "a" 2), .delete "e3" "a",
    .put "e4" (plainPut "b" 3)]

/-- Room for two values of one byte. -/
def twoByteOptions : StorageEngineOptions := ⟨.infinity, .finite 2, none⟩

/-- A primary with that room after its four requests. -/
def fourRequests : Primary Nat FifoEvictionHook :=
  run (Primary.step pairPlacement) (Primary.start twoByteOptions ⟨⟩ 0) deletingPrimary

/-- The whole log, then a rewind to its second message. -/
def rewindingReads : List Read :=
  [⟨0, 1⟩, ⟨1, 2⟩, ⟨2, 3⟩, ⟨3, 4⟩, ⟨1, 5⟩, ⟨2, 6⟩, ⟨3, 7⟩]

/-- A replica without a cap after those reads. -/
def roomyReader : Reader Nat FifoEvictionHook :=
  run (Reader.deliver pairPlacement fourRequests.log) (Reader.start .default ⟨⟩)
    rewindingReads

theorem roomyReader_agrees :
    (roomyReader.replica.peek 8 "c").map CacheEntry.value = some 1 ∧
      (roomyReader.replica.peek 8 "c").map CacheEntry.value =
        (fourRequests.engine.peek 8 "c").map CacheEntry.value := by
  have reached : run (Primary.step pairPlacement)
      (Primary.start twoByteOptions (⟨⟩ : FifoEvictionHook) 0) deletingPrimary =
        fourRequests := rfl
  have replayed : run (Reader.deliver pairPlacement fourRequests.log)
      (Reader.start .default (⟨⟩ : FifoEvictionHook)) rewindingReads =
        roomyReader := rfl
  refine ⟨by decide +kernel, ?_⟩
  exact Reader.agrees_after_rewinds rfl rfl (⟨⟩ : FifoEvictionHook)
    (⟨⟩ : FifoEvictionHook) 0 deletingPrimary (by decide +kernel) reached
    rewindingReads (by decide +kernel) replayed (by decide +kernel)
    (by decide +kernel) 8

/-- The replica has the primary's cap: the re-read PUT of the deleted key evicts a
live one. -/
def cappedReader : Reader Nat FifoEvictionHook :=
  run (Reader.deliver pairPlacement fourRequests.log) (Reader.start twoByteOptions ⟨⟩)
    rewindingReads

theorem cappedReader_disagrees :
    EveryStep (Primary.step pairPlacement) Primary.Steady
        (Primary.start twoByteOptions ⟨⟩ 0 : Primary Nat FifoEvictionHook)
        deletingPrimary ∧
      EveryStep (Reader.deliver pairPlacement fourRequests.log)
        (fun reader read => reader.Advances fourRequests.log read)
        (Reader.start twoByteOptions ⟨⟩ : Reader Nat FifoEvictionHook)
        rewindingReads ∧
      cappedReader.delivered.head? = some (fourRequests.log.length - 1) ∧
      cappedReader.Heard pairPlacement fourRequests.log "c" ∧
      cappedReader.replica.peek 8 "c" = none ∧
      (fourRequests.engine.peek 8 "c").map CacheEntry.value = some 1 := by
  refine ⟨?_, ?_, ?_, ?_, ?_, ?_⟩
  all_goals decide +kernel

end FlowCache
