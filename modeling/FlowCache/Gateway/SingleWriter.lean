import FlowCache.Gateway.Confinement
import FlowCache.Storage.KeyValueMap

/-!
# Keys with a single writer

As long as the first live candidate of a key answers, one node handles all its writes.  Its
own events come back to it and are ignored, and no other node publishes one for the key, so
the reads that this node serves follow its own log, whatever else the cluster does.
-/

namespace FlowCache

open Transition ExpiringMap

/-- A node that serves the request decides what is stored under the key. -/
def ClientRequest.Changes (request : ClientRequest) (key : CacheKey) : Prop :=
  match request with
  | .get _ => False
  | .put body => ∃ value, requireKeyAndValue body.resent = .ok (key, value)
  | .delete raw => addressedKey (fetchPath (keyPath raw)) = .ok key

/-- With this answer, the request has decided what is stored under the key. -/
def ClientRequest.Decides (request : ClientRequest) (key : CacheKey)
    (answer : Except ForwardError NodeAnswer) : Prop :=
  request.Changes key ∧ ∃ served, answer = .ok served

/-- The node has served the request and decided what it stores under the key. -/
def Handling.Decides (handling : Handling) (key : CacheKey) : Prop :=
  handling.request.Decides key handling.answer

/-- The last request served that decided what is stored under the key was a PUT that a node
took, of this value and with this deadline. -/
def LastPut (nodeId : String) (defaultTtlMs : Option Millis) (log : List Handling)
    (key : CacheKey) (binding : Binding JsonValue Millis) : Prop :=
  ∃ earlier now body answer options later,
    log = earlier ++ ⟨nodeId, now, .put body, .ok answer⟩ :: later ∧
      requireKeyAndValue body.resent = .ok (key, binding.value) ∧
      body.resent.toPut.ttlMs.setOptions = .ok options ∧
      binding.expiresAt = (options.ttlMs.getD defaultTtlMs).map (now + ·) ∧
      ∀ handling ∈ later, ¬ handling.Decides key

variable {nodeId : String} {defaultTtlMs : Option Millis} {log : List Handling}
  {key : CacheKey} {binding : Binding JsonValue Millis}

theorem LastPut.append (last : LastPut nodeId defaultTtlMs log key binding)
    {handling : Handling} (undecided : ¬ handling.Decides key) :
    LastPut nodeId defaultTtlMs (log ++ [handling]) key binding := by
  obtain ⟨earlier, now, body, answer, options, later, rfl, written, checked, deadline, rest⟩ :=
    last
  refine ⟨earlier, now, body, answer, options, later ++ [handling], by simp, written, checked,
    deadline, ?_⟩
  intro other member
  rcases List.mem_append.mp member with before | new
  · exact rest other before
  · rw [List.mem_singleton.mp new]
    exact undecided

section Handling

variable {Hook : Type} [EvictionHook Hook] [SizedValue JsonValue]

/-- Nothing new is stored under the key. -/
def StorageEngine.OnlyForgets (key : CacheKey) (engine next : StorageEngine JsonValue Hook) :
    Prop :=
  ∀ kept, next.store.get? key = some kept →
    ∃ entry, engine.store.get? key = some entry ∧ CacheEntry.SameContent kept entry

omit [EvictionHook Hook] [SizedValue JsonValue] in
theorem StorageEngine.OnlyForgets.refl (key : CacheKey)
    (engine : StorageEngine JsonValue Hook) : engine.OnlyForgets key engine :=
  fun kept found => ⟨kept, found, rfl, rfl, rfl, rfl⟩

omit [SizedValue JsonValue] in
theorem StorageEngine.onlyForgets_delete (key removed : CacheKey)
    (engine : StorageEngine JsonValue Hook) :
    engine.OnlyForgets key (engine.delete removed).2 := by
  intro kept found
  rw [StorageEngine.delete_get?] at found
  split at found
  · cases found
  · exact ⟨kept, found, rfl, rfl, rfl, rfl⟩

theorem StorageEngine.onlyForgets_afterSet {key written : CacheKey} (other : key ≠ written)
    (engine : StorageEngine JsonValue Hook) (now : Millis) (value : JsonValue)
    (options : SetOptions) :
    engine.OnlyForgets key (engine.afterSet now written value options) := by
  intro kept found
  rcases StorageEngine.afterSet_stored found with ⟨_, same, _⟩ | ⟨_, before⟩
  · exact absurd same other
  · exact ⟨kept, before, rfl, rfl, rfl, rfl⟩

/-- An event of another key leaves a key alone, or evicts it. -/
theorem StorageEngine.onlyForgets_handleReplicationEvent (nodeId : String) (now : Millis)
    (engine : StorageEngine JsonValue Hook) {message : EventMessage JsonValue}
    (other : message.event.key = key → message.event.sourceNodeId = nodeId) :
    engine.OnlyForgets key (engine.handleReplicationEvent nodeId now message).2 := by
  by_cases own : message.event.sourceNodeId = nodeId
  · rw [StorageEngine.handleReplicationEvent, if_pos (.inl own)]
    exact .refl key engine
  · have different : key ≠ message.event.key := fun same => own (other same.symm)
    rcases engine.handleReplicationEvent_cases nodeId now message with same | applied
    · rw [same]
      exact .refl key engine
    · rw [applied]
      unfold StorageEngine.afterEvent
      split
      · exact .refl key engine
      · next value metadata _ =>
          cases stale : engine.isStaleWrite now message.event.key metadata with
          | true =>
              rw [StorageEngine.afterRemoteWrite_of_stale stale]
              exact .refl key engine
          | false =>
              rw [StorageEngine.afterRemoteWrite_of_fresh stale]
              exact StorageEngine.onlyForgets_afterSet different engine now value _
      · exact StorageEngine.onlyForgets_delete key _ engine

theorem StorageEngine.handleReplicationEvent_options (nodeId : String) (now : Millis)
    (engine : StorageEngine JsonValue Hook) (message : EventMessage JsonValue) :
    (engine.handleReplicationEvent nodeId now message).2.options = engine.options := by
  rcases engine.handleReplicationEvent_cases nodeId now message with same | applied
  · rw [same]
  · rw [applied]
    unfold StorageEngine.afterEvent
    split
    · rfl
    · next value metadata _ =>
        cases stale : engine.isStaleWrite now message.event.key metadata with
        | true => rw [StorageEngine.afterRemoteWrite_of_stale stale]
        | false => rw [StorageEngine.afterRemoteWrite_of_fresh stale, afterSet_options]
    · exact delete_options _ _

/-- What handling a request means for one key. -/
inductive HandledKey (nodeId : String) (engine : StorageEngine JsonValue Hook) (now : Millis)
    (key : CacheKey) (request : ClientRequest) (handled : HandledRequest Hook) : Prop where
  /-- The key is not decided anew. -/
  | untouched (undecided : ¬ request.Decides key handled.answer)
      (forgets : engine.OnlyForgets key handled.engine)
      (unpublished : ∀ written op, handled.replicated = some (written, op) → written ≠ key)
  /-- A PUT of the key is taken. -/
  | put (body : RequestBody) (value : JsonValue) (options : SetOptions) (answer : NodeAnswer)
      (asked : request = .put body) (answered : handled.answer = .ok answer)
      (written : requireKeyAndValue body.resent = .ok (key, value))
      (checked : body.resent.toPut.ttlMs.setOptions = .ok options)
      (stored : ∀ entry, handled.engine.store.get? key = some entry → entry.binding =
        ⟨value, (options.ttlMs.getD engine.options.defaultTtlMs).map (now + ·)⟩)
  /-- The key is deleted. -/
  | delete (decided : request.Decides key handled.answer)
      (absent : handled.engine.store.get? key = none)

theorem handledKey (nodeId : String) (engine : StorageEngine JsonValue Hook) (now : Millis)
    (key : CacheKey) (request : ClientRequest) :
    HandledKey nodeId engine now key request (handleRequest nodeId engine now request) := by
  have refused : ∀ error, HandledKey nodeId engine now key request
      ⟨.error error, engine, none⟩ := by
    intro error
    refine .untouched ?_ (.refl key engine) fun _ _ impossible => by cases impossible
    rintro ⟨_, answer, impossible⟩
    cases impossible
  cases request with
  | get raw =>
      rcases handleGet_cases nodeId engine now raw with ⟨error, same⟩ | ⟨addressed, _, same⟩
      · rw [handleRequest, same]
        exact refused error
      · rw [handleRequest, same]
        exact .untouched (fun decided => decided.1.elim)
          (fun _ found => StorageEngine.get_stored found)
          fun _ _ impossible => by cases impossible
  | put body =>
      rcases handlePut_cases nodeId engine now body with
        ⟨error, same⟩ | ⟨written, value, options, fields, nonempty, checked, same⟩
      · rw [handleRequest, same]
        exact refused error
      · rw [handleRequest, same]
        by_cases own : key = written
        · subst own
          refine .put body value options _ rfl rfl fields checked ?_
          intro entry found
          rcases StorageEngine.afterSet_stored found with ⟨_, _, rfl⟩ | ⟨other, _⟩
          · simp [CacheEntry.binding]
          · exact absurd other (by simp [nonempty])
        · refine .untouched ?_ (StorageEngine.onlyForgets_afterSet own engine now value _) ?_
          · rintro ⟨⟨_, decided⟩, _⟩
            rw [fields] at decided
            cases decided
            exact own rfl
          · rintro _ _ published same
            cases published
            exact own same.symm
  | delete raw =>
      rcases handleDelete_cases nodeId engine raw with ⟨error, same⟩ | ⟨addressed, read, same⟩
      · rw [handleRequest, same]
        exact refused error
      · rw [handleRequest, same]
        by_cases own : addressed = key
        · subst own
          exact .delete ⟨read, _, rfl⟩ (by simp [StorageEngine.delete_get?])
        · refine .untouched ?_ (StorageEngine.onlyForgets_delete key addressed engine) ?_
          · rintro ⟨decided, _⟩
            rw [ClientRequest.Changes, read] at decided
            cases decided
            exact own rfl
          · intro written op published
            split at published
            · cases published
              exact own
            · cases published

end Handling

namespace Cluster

variable {Hook : Type} {cluster next : Cluster Hook}

/-- The nodes are as they were: what the gateway does on its own. -/
structure SameNodes (cluster next : Cluster Hook) : Prop where
  engine : next.engine = cluster.engine
  topic : next.topic = cluster.topic
  log : next.log = cluster.log

theorem sameNodes_goOn (cluster : Cluster Hook) (index : Nat) (request : ClientRequest)
    (rest : List NodeInfo) (lastError : ForwardError) :
    SameNodes cluster (cluster.goOn index request rest lastError) := by
  cases rest <;> exact ⟨rfl, rfl, rfl⟩

theorem sameNodes_afterAnswer (cluster : Cluster Hook) (index : Nat) (request : ClientRequest)
    (rest : List NodeInfo) (answer : Except ForwardError NodeAnswer) :
    SameNodes cluster (cluster.afterAnswer index request rest answer) := by
  unfold afterAnswer
  split
  · exact ⟨rfl, rfl, rfl⟩
  · exact ⟨rfl, rfl, rfl⟩
  · exact sameNodes_goOn cluster index request rest _

theorem sameNodes_acceptRequest (cluster : Cluster Hook) (request : ClientRequest) :
    SameNodes cluster (cluster.acceptRequest request) := by
  unfold acceptRequest
  split
  · exact ⟨rfl, rfl, rfl⟩
  · split <;> exact ⟨rfl, rfl, rfl⟩

/-- What a node stores under a key is what its part of the log says, and so is what it has
answered.  No other node has published anything about the key. -/
structure FollowsLog (setup : ClusterSetup Hook) (nodeId : String) (key : CacheKey)
    (cluster : Cluster Hook) : Prop where
  options : (cluster.engine nodeId).options = setup.options nodeId
  stored : ∀ entry, (cluster.engine nodeId).store.get? key = some entry →
    LastPut nodeId (setup.options nodeId).defaultTtlMs cluster.log key entry.binding
  quiet : ∀ message ∈ cluster.topic, message.event.key = key →
    message.event.sourceNodeId = nodeId
  reads : ∀ earlier handling later, cluster.log = earlier ++ handling :: later →
    handling.nodeId = nodeId → ∀ body, handling.answer = .ok (.found body) → body.key = key →
      LastPut nodeId (setup.options nodeId).defaultTtlMs earlier key
          ⟨body.value, body.metadata.expiresAt⟩ ∧
        body.metadata.isExpired handling.now = false

variable {setup : ClusterSetup Hook}

theorem followsLog_start (ring : ConsistentHashRing) (clock : String → Millis) :
    FollowsLog setup nodeId key (start setup ring clock) where
  options := rfl
  stored := by simp [start, ClusterSetup.freshEngine]
  quiet := by simp [start]
  reads := by simp [start]

/-- Whatever adds nothing to the log and publishes nothing. -/
theorem FollowsLog.of_forgets (follows : FollowsLog setup nodeId key cluster)
    (options : (next.engine nodeId).options = setup.options nodeId)
    (forgets : (cluster.engine nodeId).OnlyForgets key (next.engine nodeId))
    (topic : next.topic = cluster.topic) (log : next.log = cluster.log) :
    FollowsLog setup nodeId key next where
  options := options
  stored := by
    intro kept found
    obtain ⟨entry, before, same⟩ := forgets kept found
    rw [log, same.binding_eq]
    exact follows.stored entry before
  quiet := by rw [topic]; exact follows.quiet
  reads := by rw [log]; exact follows.reads

theorem FollowsLog.of_sameNodes (follows : FollowsLog setup nodeId key cluster)
    (same : SameNodes cluster next) : FollowsLog setup nodeId key next := by
  apply follows.of_forgets
  · rw [same.engine]
    exact follows.options
  · rw [same.engine]
    exact .refl key _
  · exact same.topic
  · exact same.log

theorem FollowsLog.withEngine (follows : FollowsLog setup nodeId key cluster) {other : String}
    {engine : StorageEngine JsonValue Hook}
    (here : other = nodeId → engine.options = setup.options nodeId ∧
      (cluster.engine nodeId).OnlyForgets key engine) :
    FollowsLog setup nodeId key (cluster.withEngine other engine) := by
  by_cases same : other = nodeId
  · subst same
    obtain ⟨options, forgets⟩ := here rfl
    refine follows.of_forgets ?_ ?_ rfl rfl
    · simpa [Cluster.withEngine] using options
    · simpa [Cluster.withEngine] using forgets
  · have kept : (cluster.withEngine other engine).engine nodeId = cluster.engine nodeId :=
      Function.update_of_ne (Ne.symm same) _ _
    refine follows.of_forgets ?_ ?_ rfl rfl
    · rw [kept]
      exact follows.options
    · rw [kept]
      exact .refl key _

variable [EvictionHook Hook] [SizedValue JsonValue]

theorem handleRequest_options (nodeId : String) (engine : StorageEngine JsonValue Hook)
    (now : Millis) (request : ClientRequest) :
    (handleRequest nodeId engine now request).engine.options = engine.options := by
  cases request with
  | get key =>
      rcases handleGet_cases nodeId engine now key with ⟨error, same⟩ | ⟨_, _, same⟩
      · rw [handleRequest, same]
      · rw [handleRequest, same, StorageEngine.get_options]
  | put body =>
      rcases handlePut_cases nodeId engine now body with ⟨error, same⟩ | ⟨_, _, _, _, _, _, same⟩
      · rw [handleRequest, same]
      · rw [handleRequest, same, StorageEngine.afterSet_options]
  | delete key =>
      rcases handleDelete_cases nodeId engine key with ⟨error, same⟩ | ⟨_, _, same⟩
      · rw [handleRequest, same]
      · rw [handleRequest, same, StorageEngine.delete_options]

/-- An entry that a node answers with is stored there and has not expired. -/
theorem stored_of_found {engine : StorageEngine JsonValue Hook} {now : Millis}
    {request : ClientRequest} {body : GetResponseBody JsonValue}
    (answered : (handleRequest nodeId engine now request).answer = .ok (.found body)) :
    ∃ entry, engine.store.get? body.key = some entry ∧
      entry.binding = ⟨body.value, body.metadata.expiresAt⟩ ∧
      body.metadata.isExpired now = false ∧ body.nodeId = nodeId := by
  cases request with
  | get key =>
      rcases handleGet_cases nodeId engine now key with ⟨error, same⟩ | ⟨addressed, _, same⟩
      · rw [handleRequest, same] at answered
        cases answered
      · rw [handleRequest, same, StorageEngine.get_fst] at answered
        cases shown : engine.peek now addressed with
        | none =>
            rw [shown] at answered
            cases answered
        | some entry =>
            rw [shown] at answered
            cases answered
            obtain ⟨found, live⟩ := StorageEngine.peek_eq_some_iff.mp shown
            exact ⟨entry, found, rfl, live, rfl⟩
  | put body =>
      rcases handlePut_cases nodeId engine now body with
        ⟨error, same⟩ | ⟨_, _, _, _, _, _, same⟩ <;>
      · rw [handleRequest, same] at answered
        cases answered
  | delete key =>
      rcases handleDelete_cases nodeId engine key with ⟨error, same⟩ | ⟨_, _, same⟩ <;>
      · rw [handleRequest, same] at answered
        cases answered

/-- Handling keeps the log and the storage in step, if it changes the key at this node
only. -/
theorem FollowsLog.afterHandling (follows : FollowsLog setup nodeId key cluster)
    (other eventId : String) {request : ClientRequest}
    (single : request.Decides key (cluster.handledBy other request).answer →
      other = nodeId) :
    FollowsLog setup nodeId key (cluster.afterHandling setup other eventId request) := by
  have effect := handledKey other (cluster.engine other) (cluster.clock other) key request
  constructor
  case options =>
    by_cases here : other = nodeId
    · subst here
      simp only [Cluster.afterHandling, Cluster.withEngine, Function.update_self, handledBy]
      rw [handleRequest_options]
      exact follows.options
    · simp only [Cluster.afterHandling, Cluster.withEngine]
      rw [Function.update_of_ne (Ne.symm here)]
      exact follows.options
  case stored =>
    intro entry found
    by_cases here : other = nodeId
    · subst here
      simp only [Cluster.afterHandling, Cluster.withEngine, Function.update_self,
        handledBy] at found
      cases effect with
      | untouched undecided forgets _ =>
          obtain ⟨before, stored, same⟩ := forgets entry found
          rw [same.binding_eq]
          exact (follows.stored before stored).append undecided
      | put body value options answer asked answered written checked stored =>
          subst asked
          rw [stored entry found, follows.options]
          refine ⟨cluster.log, cluster.clock other, body, answer, options, [], ?_, written,
            checked, rfl, by simp⟩
          simp only [Cluster.afterHandling, handledBy, answered]
      | delete _ absent =>
          rw [absent] at found
          cases found
    · have kept : (cluster.afterHandling setup other eventId request).engine nodeId =
          cluster.engine nodeId := Function.update_of_ne (Ne.symm here) _ _
      rw [kept] at found
      exact (follows.stored entry found).append fun decided => here (single decided)
  case quiet =>
    intro message member own
    rcases List.mem_append.mp member with before | new
    · exact follows.quiet message before own
    · obtain ⟨written, replicated, published⟩ :=
        Option.bind_eq_some_iff.mp (Option.mem_toList.mp new)
      have event := (replicate_eq_some published).1
      rw [event] at own ⊢
      cases effect with
      | untouched _ _ unpublished =>
          exact absurd own (unpublished written.1 written.2 replicated)
      | put body value options answer asked answered fields checked stored =>
          exact single ⟨by rw [asked]; exact ⟨value, fields⟩, answer, answered⟩
      | delete decided _ => exact single decided
  case reads =>
    intro earlier handling later split here body answered own
    rcases List.eq_nil_or_concat later with rfl | ⟨shorter, last, rfl⟩
    · obtain ⟨rfl, same⟩ := List.append_inj' split rfl
      obtain rfl := List.singleton_inj.mp same
      obtain rfl := here
      obtain ⟨entry, stored, binding, live, _⟩ := stored_of_found answered
      rw [own] at stored
      have last := follows.stored entry stored
      rw [binding] at last
      exact ⟨last, live⟩
    · rw [List.concat_eq_append, ← List.cons_append, ← List.append_assoc] at split
      obtain ⟨before, _⟩ := List.append_inj' split rfl
      exact follows.reads earlier handling shorter before here body answered own

/-- Only this node serves requests that change the key, and it is not set back to a
snapshot. -/
def WrittenAt (nodeId : String) (key : CacheKey) (cluster : Cluster Hook) :
    ClusterAction → Prop
  | .arrive index _ => ∀ request node rest,
      cluster.inFlight[index]? = some ⟨request, node :: rest⟩ →
        request.Decides key (cluster.handledBy node.nodeId request).answer →
          node.nodeId = nodeId
  | .strayArrives index _ => ∀ other request,
      cluster.strays[index]? = some (other, request) →
        request.Decides key (cluster.handledBy other request).answer → other = nodeId
  | .restore other _ => other ≠ nodeId
  | _ => True

theorem FollowsLog.step (follows : FollowsLog setup nodeId key cluster)
    {action : ClusterAction} (single : cluster.WrittenAt nodeId key action) :
    FollowsLog setup nodeId key (cluster.step setup action) := by
  cases action with
  | accept request => exact follows.of_sameNodes (sameNodes_acceptRequest cluster request)
  | arrive index eventId =>
      simp only [Cluster.step]
      split
      · next request node rest found =>
          have handled := follows.afterHandling node.nodeId eventId (single request node rest found)
          exact handled.of_sameNodes (sameNodes_afterAnswer _ index request rest _)
      · exact follows
  | giveUp index =>
      simp only [Cluster.step]
      split
      · next request node rest found =>
          have same := sameNodes_goOn
            { cluster with strays := cluster.strays ++ [(node.nodeId, request)] } index request
            rest (nodeUnavailable node.nodeId)
          exact follows.of_sameNodes ⟨same.engine, same.topic, same.log⟩
      · exact follows
  | strayArrives index eventId =>
      simp only [Cluster.step]
      split
      · next other request found =>
          have handled := follows.afterHandling other eventId (single other request found)
          exact handled.of_sameNodes ⟨rfl, rfl, rfl⟩
      · exact follows
  | deliver other index =>
      simp only [Cluster.step]
      split
      · next message found =>
          apply follows.withEngine
          rintro rfl
          constructor
          · rw [StorageEngine.handleReplicationEvent_options]
            exact follows.options
          · exact StorageEngine.onlyForgets_handleReplicationEvent other _ _
              (follows.quiet message (List.mem_of_getElem? found))
      · exact follows
  | setStatus other status lastHeartbeat => exact follows.of_sameNodes ⟨rfl, rfl, rfl⟩
  | tick other elapsed => exact follows.of_sameNodes ⟨rfl, rfl, rfl⟩
  | capture other => exact follows.of_sameNodes ⟨rfl, rfl, rfl⟩
  | remove other removed =>
      apply follows.withEngine
      rintro rfl
      exact ⟨(StorageEngine.delete_options _ _).trans follows.options,
        StorageEngine.onlyForgets_delete key removed _⟩
  | crash other =>
      apply follows.withEngine
      rintro rfl
      exact ⟨rfl, fun _ impossible => by cases impossible⟩
  | clear other =>
      apply follows.withEngine
      rintro rfl
      exact ⟨follows.options, fun _ impossible => by cases impossible⟩
  | restore other index =>
      simp only [Cluster.step]
      split
      · split
        · exact follows.withEngine fun here => absurd here single
        · exact follows
      · exact follows

/-! ## Answers -/

/-- What the gateway answers with success, a node has answered. -/
def AnswersLogged (cluster : Cluster Hook) : Prop :=
  ∀ request body, (request, .ok (.found body)) ∈ cluster.answers →
    ∃ now, ⟨body.nodeId, now, request, .ok (.found body)⟩ ∈ cluster.log

omit [EvictionHook Hook] [SizedValue JsonValue] in
theorem AnswersLogged.answering (logged : AnswersLogged cluster) {request : ClientRequest}
    {answer : Except GatewayError NodeAnswer}
    (found : ∀ body, answer = .ok (.found body) →
      ∃ now, ⟨body.nodeId, now, request, .ok (.found body)⟩ ∈ cluster.log) :
    AnswersLogged (cluster.answering request answer) := by
  intro asked body member
  rcases List.mem_append.mp member with before | new
  · exact logged asked body before
  · cases List.mem_singleton.mp new
    exact found body rfl

omit [EvictionHook Hook] [SizedValue JsonValue] in
theorem AnswersLogged.refused (logged : AnswersLogged cluster) (request : ClientRequest)
    (error : GatewayError) : AnswersLogged (cluster.answering request (.error error)) :=
  logged.answering fun _ impossible => by cases impossible

omit [EvictionHook Hook] [SizedValue JsonValue] in
theorem AnswersLogged.goOn (logged : AnswersLogged cluster) (index : Nat)
    (request : ClientRequest) (rest : List NodeInfo) (lastError : ForwardError) :
    AnswersLogged (cluster.goOn index request rest lastError) := by
  cases rest with
  | nil =>
      have erased : AnswersLogged
          { cluster with inFlight := cluster.inFlight.eraseIdx index } := logged
      exact erased.refused request _
  | cons => exact logged

theorem AnswersLogged.afterHandling (logged : AnswersLogged cluster)
    (setup : ClusterSetup Hook) (nodeId eventId : String) (request : ClientRequest) :
    AnswersLogged (cluster.afterHandling setup nodeId eventId request) := by
  intro asked body member
  obtain ⟨now, before⟩ := logged asked body member
  exact ⟨now, List.mem_append_left _ before⟩

theorem AnswersLogged.step (logged : AnswersLogged cluster) (setup : ClusterSetup Hook)
    (action : ClusterAction) : AnswersLogged (cluster.step setup action) := by
  cases action with
  | accept request =>
      simp only [Cluster.step, acceptRequest]
      split
      · exact logged.refused request _
      · split
        · exact logged.refused request _
        · exact logged
  | arrive index eventId =>
      simp only [Cluster.step]
      split
      · next request node rest found =>
          have handled := logged.afterHandling setup node.nodeId eventId request
          have erased : AnswersLogged
              { cluster.afterHandling setup node.nodeId eventId request with
                inFlight := (cluster.afterHandling setup node.nodeId eventId
                  request).inFlight.eraseIdx index } := handled
          unfold Cluster.afterAnswer
          split
          · next answer served =>
              apply erased.answering
              intro body same
              cases same
              obtain ⟨_, _, _, _, named⟩ := stored_of_found served
              refine ⟨cluster.clock node.nodeId, List.mem_append_right _ ?_⟩
              rw [named, served]
              exact List.mem_singleton.mpr rfl
          · exact erased.refused request _
          · exact handled.goOn index request rest _
      · exact logged
  | giveUp index =>
      simp only [Cluster.step]
      split
      · next request node rest found =>
          have stray : AnswersLogged
              { cluster with strays := cluster.strays ++ [(node.nodeId, request)] } := logged
          exact stray.goOn index request rest _
      · exact logged
  | strayArrives index eventId =>
      simp only [Cluster.step]
      split
      · next nodeId request found => exact logged.afterHandling setup nodeId eventId request
      · exact logged
  | deliver nodeId index =>
      simp only [Cluster.step]
      split <;> exact logged
  | restore nodeId index =>
      simp only [Cluster.step]
      split
      · split <;> exact logged
      · exact logged
  | setStatus | tick | remove | capture | crash | clear => exact logged

/-- Every entry that a client was answered with, and that this node found under the key, was
put there by the last request of the key that the node had served by then, and had not
expired. -/
def ReadsFollowLog (setup : ClusterSetup Hook) (nodeId : String) (key : CacheKey)
    (cluster : Cluster Hook) : Prop :=
  ∀ request body, (request, .ok (.found body)) ∈ cluster.answers →
    body.key = key → body.nodeId = nodeId →
      ∃ earlier now later,
        cluster.log = earlier ++ ⟨nodeId, now, request, .ok (.found body)⟩ :: later ∧
          LastPut nodeId (setup.options nodeId).defaultTtlMs earlier key
            ⟨body.value, body.metadata.expiresAt⟩ ∧
          body.metadata.isExpired now = false

/-- The reads of a key with a single writer follow its log.  As long as the requests that
change a key are all served by one node, which is not set back to a snapshot: if a client's
GET is answered with an entry that this node found under the key, then the last request of
the key that the node had served was a PUT of this very value, and its deadline had not
passed.  This holds whatever else is going on: other keys, replication in any order and any
number of times, evictions, clean-up, crashes, requests that arrive late and failures of
other nodes. -/
theorem single_writer_reads_follow_log (setup : ClusterSetup Hook) (ring : ConsistentHashRing)
    (clock : String → Millis) (actions : List ClusterAction) (nodeId : String) (key : CacheKey)
    (single : EveryStep (step setup) (WrittenAt nodeId key) (start setup ring clock)
      actions) :
    ReadsFollowLog setup nodeId key (run (step setup) (start setup ring clock) actions) := by
  have follows : FollowsLog setup nodeId key
      (run (step setup) (start setup ring clock) actions) :=
    EveryStep.invariant (fun _ _ follows single => FollowsLog.step follows single)
      (followsLog_start ring clock) single
  have logged : AnswersLogged (run (step setup) (start setup ring clock) actions) := by
    apply run_invariant
    · exact fun cluster action logged => AnswersLogged.step logged setup action
    · simp [AnswersLogged, start]
  intro request body answered ownKey ownNode
  obtain ⟨now, member⟩ := logged request body answered
  rw [ownNode] at member
  obtain ⟨earlier, later, split⟩ := List.append_of_mem member
  obtain ⟨last, live⟩ := follows.reads earlier _ later split rfl body rfl ownKey
  exact ⟨earlier, now, later, split, last, live⟩

/-! An entry of a minute is written at one of two nodes, replicated and read back. -/

/-- Sizes do not matter without a byte limit. -/
@[reducible] def unsizedJson : SizedValue JsonValue := ⟨fun _ => 0⟩

/-- A ring of two nodes. -/
def twoNodeRing : ConsistentHashRing :=
  (singleNodeRing.addNode ⟨"node-2", "localhost", 7002, .healthy, 0, 1⟩).2

/-- Two nodes without limits. -/
def twoNodeSetup : ClusterSetup FifoEvictionHook :=
  ⟨twoNodeRing, fun _ => .default, fun _ => ⟨⟩⟩

/-- The PUT arrives at the first node, its event at the second one, twice, and then the GET
at the first. -/
def putThenGet : List ClusterAction :=
  [.accept (.put (bodyWithTtl 60000)), .arrive 0 "event-1", .deliver "node-2" 0,
    .deliver "node-2" 0, .tick "node-1" 5, .accept (.get "user:1"), .arrive 0 "event-2"]

/-- The node that the first request under way is at. -/
def firstAsked (cluster : Cluster Hook) : Option String :=
  (cluster.inFlight[0]?.bind fun forwarding => forwarding.candidates.head?).map NodeInfo.nodeId

omit [SizedValue JsonValue] [EvictionHook Hook] in
theorem asked_of_firstAsked {asked : String} (first : firstAsked cluster = some asked)
    {request : ClientRequest} {node : NodeInfo} {rest : List NodeInfo}
    (found : cluster.inFlight[0]? = some ⟨request, node :: rest⟩) : node.nodeId = asked := by
  rw [firstAsked, found] at first
  exact Option.some.inj first

omit [SizedValue JsonValue] in
theorem single_writer_put_then_get :
    let reached := run (@step _ _ unsizedJson twoNodeSetup)
      (start twoNodeSetup twoNodeRing fun _ => 0) putThenGet
    @ReadsFollowLog _ twoNodeSetup "node-1" "user:1" reached ∧
      (reached.engine "node-2").store.keys = ["user:1"] := by
  refine ⟨?_, by decide +kernel⟩
  apply @single_writer_reads_follow_log _ _ unsizedJson
  refine ⟨trivial, ?_, trivial, trivial, trivial, trivial, ?_, trivial⟩
  · exact fun _ _ _ found _ => asked_of_firstAsked (by decide +kernel) found
  · exact fun _ _ _ found _ => asked_of_firstAsked (by decide +kernel) found

end Cluster

end FlowCache
