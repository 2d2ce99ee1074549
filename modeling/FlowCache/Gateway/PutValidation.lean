import FlowCache.CacheNode.Routes
import FlowCache.Gateway.CacheRoutes
import FlowCache.Shared.Numbers

/-!
# Writes through the gateway

`PUT /cache` of the gateway and of a cache node validate the same body one after the other.
The gateway serializes the body again for the node, and its `CacheNodeClient` takes every
answer that is not a success for a node that is unavailable.
-/

namespace FlowCache

/-! ## Bodies -/

/-- A parsed JSON text; an object has each name once. -/
inductive JsonValue where
  | null
  | bool (value : Bool)
  | number (value : JsNumber)
  | string (text : String)
  | array (items : List JsonValue)
  | object (fields : List (String × JsonValue))

namespace JsonValue

mutual

/-- `JSON.parse(JSON.stringify(value))`: a number that is not finite becomes `null`. -/
def resent : JsonValue → JsonValue
  | .null => .null
  | .bool value => .bool value
  | .number (.finite value) => .number (.finite value)
  | .number _ => .null
  | .string text => .string text
  | .array items => .array (resentItems items)
  | .object fields => .object (resentFields fields)

def resentItems : List JsonValue → List JsonValue
  | [] => []
  | item :: rest => item.resent :: resentItems rest

def resentFields : List (String × JsonValue) → List (String × JsonValue)
  | [] => []
  | (name, value) :: rest => (name, value.resent) :: resentFields rest

end

/-- `body[name]`, or `none` when it is `undefined`. -/
def field (name : String) : JsonValue → Option JsonValue
  | .object fields => fields.lookup name
  | _ => none

theorem lookup_resentFields (name : String) (fields : List (String × JsonValue)) :
    (resentFields fields).lookup name = (fields.lookup name).map resent := by
  induction fields with
  | nil => rfl
  | cons first rest ih =>
      rw [resentFields, List.lookup_cons, List.lookup_cons, ih]
      split <;> rfl

theorem field_resent (name : String) (body : JsonValue) :
    body.resent.field name = (body.field name).map resent := by
  cases body with
  | object fields =>
      rw [resent]
      exact lookup_resentFields name fields
  | number value => cases value <;> rfl
  | null | bool | string | array => rfl

end JsonValue

/-- `req.body`, which is `undefined` without a JSON body. -/
abbrev RequestBody := Option JsonValue

namespace RequestBody

/-- `body.name`. -/
def field (name : String) (body : RequestBody) : Option JsonValue :=
  body.bind (JsonValue.field name)

/-- The body as the gateway sends it on. -/
def resent (body : RequestBody) : RequestBody := body.map JsonValue.resent

theorem field_resent (name : String) (body : RequestBody) :
    body.resent.field name = (body.field name).map JsonValue.resent := by
  cases body with
  | none => rfl
  | some body => exact JsonValue.field_resent name body

end RequestBody

/-! ## The two routes -/

/-- `PutResponseBody`. -/
structure PutResponseBody where
  key : CacheKey
  version : Nat
  nodeId : String
  replicated : Bool
  deriving DecidableEq, Repr

/-- The checks of `key` and `value`, which both routes make. -/
def requireKeyAndValue (body : RequestBody) : Except FlowCacheError (CacheKey × JsonValue) :=
  match body.field "key" with
  | some (.string key) =>
      if key = "" then
        .error (.validationError "Request body must include a non-empty string \"key\"")
      else
        match body.field "value" with
        | none => .error (.validationError "Request body must include a \"value\" field")
        | some value => .ok (key, value)
  | _ => .error (.validationError "Request body must include a non-empty string \"key\"")

/-- The check of `ttlMs`, which only a node makes. -/
def checkTtlMs : Option JsonValue → Except FlowCacheError (Option JsNumber)
  | none => .ok none
  | some (.number ttlMs) =>
      if ttlMs.lt (.finite 0) || ttlMs = .finite 0 then
        .error (.validationError "\"ttlMs\", if provided, must be a positive number")
      else
        .ok (some ttlMs)
  | some _ => .error (.validationError "\"ttlMs\", if provided, must be a positive number")

/-- The version that `storage.set(key, value, { ttlMs })` of a node gives the entry; the
call throws for an empty key only. -/
abbrev NodeStorage := NodeInfo → CacheKey → JsonValue → Option JsNumber → Nat

/-- `PUT /cache` of a cache node. -/
def nodePut (storage : NodeStorage) (node : NodeInfo) (body : RequestBody) :
    Except FlowCacheError PutResponseBody := do
  let (key, value) ← requireKeyAndValue body
  let ttlMs ← checkTtlMs (body.field "ttlMs")
  return ⟨key, storage node key value ttlMs, node.nodeId, false⟩

/-- `CacheNodeClient.put(node, body)`: an answer that is not `ok` is a node failure. -/
def clientPut (storage : NodeStorage) (body : RequestBody) (node : NodeInfo) :
    Except ForwardError PutResponseBody :=
  match nodePut storage node body.resent with
  | .ok response => .ok response
  | .error _ => .error (.nodeFailure ("Cache node unavailable: \"" ++ node.nodeId ++ "\""))

/-- What the PUT handler of the gateway passes to `next`. -/
inductive GatewayError where
  | own (error : FlowCacheError)
  | forwarding (error : ForwardError)
  deriving DecidableEq, Repr

/-- `PUT /cache` of the gateway: the nodes it asks, in order, and its answer. -/
def gatewayPut (ring : ConsistentHashRing) (count : Rat) (storage : NodeStorage)
    (body : RequestBody) : List NodeInfo × Except GatewayError PutResponseBody :=
  match requireKeyAndValue body with
  | .error error => ([], .error (.own error))
  | .ok (key, _) =>
      let forwarded := ring.forwardWithFailover count key (clientPut storage body)
      (forwarded.1, forwarded.2.mapError .forwarding)

/-- `err.httpStatus`, 500 for any other error. -/
def FlowCacheError.httpStatus : FlowCacheError → Nat
  | .validationError _ => 400
  | _ => 500

/-- `err.httpStatus`; a node failure is a `NodeUnavailableError`. -/
def ForwardError.httpStatus : ForwardError → Nat
  | .keyNotFound _ => 404
  | .noHealthyNodes => 503
  | .nodeFailure _ => 503

/-- `toErrorResponse(err).status`. -/
def GatewayError.httpStatus : GatewayError → Nat
  | .own error => error.httpStatus
  | .forwarding error => error.httpStatus

/-- The status of an answer. -/
def answerStatus {Thrown : Type} (httpStatus : Thrown → Nat) :
    Except Thrown PutResponseBody → Nat
  | .ok _ => 200
  | .error error => httpStatus error

/-- A node answers 400 for a body. -/
def NodeRejects (storage : NodeStorage) (node : NodeInfo) (body : RequestBody) : Prop :=
  answerStatus FlowCacheError.httpStatus (nodePut storage node body) = 400

/-- The gateway and the nodes agree on which bodies are invalid. -/
structure AgreesOnInvalid (ring : ConsistentHashRing) (count : Rat) (storage : NodeStorage)
    (body : RequestBody) : Prop where
  sameAnswer : ∀ node,
    answerStatus GatewayError.httpStatus (gatewayPut ring count storage body).2 = 400 ↔
      NodeRejects storage node body
  notRetried : ∀ earlier node later,
    (gatewayPut ring count storage body).1 = earlier ++ node :: later →
      NodeRejects storage node body.resent → later = []
  notUnavailable : ∀ node ∈ (gatewayPut ring count storage body).1,
    NodeRejects storage node body.resent → ∀ message,
      (gatewayPut ring count storage body).2 ≠ .error (.forwarding (.nodeFailure message))

/-- The gateway refuses the body itself, or no node refuses its `ttlMs`. -/
def GatewayChecksSuffice (body : RequestBody) : Prop :=
  (∃ error, requireKeyAndValue body = .error error) ∨ body.field "ttlMs" = none ∨
    ∃ ttlMs, body.field "ttlMs" = some (.number (.finite ttlMs)) ∧ 0 < ttlMs

/-! ## What a node answers -/

variable {ring : ConsistentHashRing} {count : Rat} {storage : NodeStorage}
  {body : RequestBody} {node : NodeInfo} {key : CacheKey} {value : JsonValue}

theorem requireKeyAndValue_error {error : FlowCacheError}
    (refused : requireKeyAndValue body = .error error) :
    ∃ message, error = .validationError message := by
  unfold requireKeyAndValue at refused
  split at refused
  · split at refused
    · cases refused
      exact ⟨_, rfl⟩
    · split at refused
      · cases refused
        exact ⟨_, rfl⟩
      · cases refused
  · cases refused
    exact ⟨_, rfl⟩

theorem requireKeyAndValue_nonempty (accepted : requireKeyAndValue body = .ok (key, value)) :
    key ≠ "" := by
  unfold requireKeyAndValue at accepted
  split at accepted
  · split at accepted
    · cases accepted
    · next nonempty =>
        split at accepted
        · cases accepted
        · cases accepted
          exact nonempty
  · cases accepted

theorem checkTtlMs_error {ttlMs : Option JsonValue} {error : FlowCacheError}
    (refused : checkTtlMs ttlMs = .error error) :
    ∃ message, error = .validationError message := by
  unfold checkTtlMs at refused
  split at refused
  · cases refused
  · split at refused
    · cases refused
      exact ⟨_, rfl⟩
    · cases refused
  · cases refused
    exact ⟨_, rfl⟩

theorem requireKeyAndValue_resent (accepted : requireKeyAndValue body = .ok (key, value)) :
    requireKeyAndValue body.resent = .ok (key, value.resent) := by
  unfold requireKeyAndValue at accepted ⊢
  simp only [RequestBody.field_resent]
  split at accepted
  · next text keyEq =>
      split at accepted
      · cases accepted
      · next nonempty =>
          split at accepted
          · cases accepted
          · next found valueEq =>
              cases accepted
              simp [keyEq, valueEq, JsonValue.resent, nonempty]
  · cases accepted

theorem nodePut_of_refused {error : FlowCacheError}
    (refused : requireKeyAndValue body = .error error) :
    nodePut storage node body = .error error := by
  simp only [nodePut, refused, bind, Except.bind]

theorem nodePut_of_accepted (accepted : requireKeyAndValue body = .ok (key, value)) :
    nodePut storage node body = (checkTtlMs (body.field "ttlMs")).map fun ttlMs =>
      ⟨key, storage node key value ttlMs, node.nodeId, false⟩ := by
  simp only [nodePut, accepted, bind, Except.bind]
  cases checkTtlMs (body.field "ttlMs") with
  | error error => rfl
  | ok ttlMs => rfl

/-- Every error of the route is a validation error. -/
theorem nodePut_error {error : FlowCacheError}
    (refused : nodePut storage node body = .error error) :
    ∃ message, error = .validationError message := by
  cases fields : requireKeyAndValue body with
  | error refusal =>
      rw [nodePut_of_refused fields] at refused
      cases refused
      exact requireKeyAndValue_error fields
  | ok found =>
      rw [nodePut_of_accepted fields] at refused
      cases checked : checkTtlMs (body.field "ttlMs") with
      | error refusal =>
          rw [checked] at refused
          cases refused
          exact checkTtlMs_error checked
      | ok ttlMs =>
          rw [checked] at refused
          cases refused

theorem not_nodeRejects_of_ok {response : PutResponseBody}
    (answer : nodePut storage node body = .ok response) :
    ¬NodeRejects storage node body := by
  rw [NodeRejects, answer]
  exact (by decide : ¬200 = 400)

theorem nodeRejects_of_error {error : FlowCacheError}
    (answer : nodePut storage node body = .error error) : NodeRejects storage node body := by
  obtain ⟨message, rfl⟩ := nodePut_error answer
  rw [NodeRejects, answer]
  rfl

/-- A positive finite `ttlMs` passes the check before and after the gateway. -/
theorem checkTtlMs_positive {ttlMs : Rat} (positive : 0 < ttlMs) :
    checkTtlMs (some (.number (.finite ttlMs))) = .ok (some (.finite ttlMs)) := by
  have notNegative : ¬ttlMs < 0 := not_lt.mpr positive.le
  simp [checkTtlMs, JsNumber.lt, notNegative, positive.ne']

/-- The gateway sends every other `ttlMs` to its nodes as one that they refuse. -/
theorem checkTtlMs_resent {ttlMs : JsonValue}
    (unsound : ∀ value, ttlMs = .number (.finite value) → value ≤ 0) :
    ∃ error, checkTtlMs (some ttlMs.resent) = .error error := by
  cases ttlMs with
  | number number =>
      cases number with
      | finite value =>
          have small := unsound value rfl
          refine ⟨.validationError "\"ttlMs\", if provided, must be a positive number", ?_⟩
          rcases lt_or_eq_of_le small with negative | zero
          · simp [JsonValue.resent, checkTtlMs, JsNumber.lt, negative]
          · simp [JsonValue.resent, checkTtlMs, zero]
      | nan => exact ⟨_, rfl⟩
      | infinity negative => exact ⟨_, rfl⟩
  | null | bool | string | array | object => exact ⟨_, rfl⟩

/-- The body in whole milliseconds, as the storage of a node has them. -/
def RequestBody.toPut (body : RequestBody) : PutRequestBody JsonValue where
  key := match body.field "key" with
    | some (.string key) => some key
    | _ => none
  value := body.field "value"
  ttlMs := match body.field "ttlMs" with
    | none => .absent
    | some (.number (.finite ttlMs)) => .number ⌈ttlMs⌉
    | some _ => .notANumber

/-- Errors are the same beside any values. -/
theorem error_eq_iff {Value Other : Type} {first second : FlowCacheError} :
    (.error first : Except FlowCacheError Value) = .error second ↔
      (.error first : Except FlowCacheError Other) = .error second := by
  rw [Except.error.injEq, Except.error.injEq]

theorem ok_ne_error {Value : Type} {value : Value} {error : FlowCacheError} :
    (.ok value : Except FlowCacheError Value) ≠ .error error := by
  intro same
  cases same

theorem setOptions_toPut {error : FlowCacheError}
    (finite : ∀ ttlMs, body.field "ttlMs" = some (.number ttlMs) →
      ∃ value, ttlMs = .finite value) :
    body.toPut.ttlMs.setOptions = .error error ↔
      checkTtlMs (body.field "ttlMs") = .error error := by
  unfold RequestBody.toPut
  cases field : body.field "ttlMs" with
  | none => exact iff_of_false ok_ne_error ok_ne_error
  | some ttlMs =>
      cases ttlMs with
      | number number =>
          obtain ⟨value, rfl⟩ := finite number field
          have sameSign : ⌈value⌉ ≤ 0 ↔ value < 0 ∨ value = 0 := by
            rw [Int.ceil_le, Int.cast_zero, le_iff_lt_or_eq]
          simp only [TtlField.setOptions, checkTtlMs, JsNumber.lt, sameSign, Bool.or_eq_true,
            decide_eq_true_eq, JsNumber.finite.injEq]
          split
          · exact error_eq_iff
          · exact iff_of_false ok_ne_error ok_ne_error
      | null | bool | string | array | object => exact error_eq_iff

section Storage

variable {Hook : Type} [EvictionHook Hook] [SizedValue JsonValue]

/-- The route over the node's storage makes the same checks in the same order. -/
theorem putRoute_toPut (engine : StorageEngine JsonValue Hook) (now : Millis) :
    putRoute engine now body.toPut =
      (requireKeyAndValue body).bind fun found =>
        body.toPut.ttlMs.setOptions.bind fun options =>
          engine.set now found.1 found.2 options := by
  have storedValue : body.toPut.value = body.field "value" := rfl
  unfold requireKeyAndValue
  split
  · next key keyEq =>
      have storedKey : body.toPut.key = some key := by
        simp only [RequestBody.toPut, keyEq]
      simp only [putRoute, storedKey, storedValue]
      split
      · rfl
      · cases body.field "value" with
        | none => rfl
        | some value =>
            cases body.toPut.ttlMs.setOptions with
            | error error => rfl
            | ok options => rfl
  · next noString =>
      have storedKey : body.toPut.key = none := by
        unfold RequestBody.toPut
        split
        · next key keyEq => exact absurd keyEq (noString key)
        · rfl
      simp only [putRoute, storedKey]
      rfl

/-- It refuses the same bodies with the same errors. -/
theorem putRoute_toPut_iff (engine : StorageEngine JsonValue Hook) (now : Millis)
    {error : FlowCacheError}
    (finite : ∀ ttlMs, body.field "ttlMs" = some (.number ttlMs) →
      ∃ value, ttlMs = .finite value) :
    putRoute engine now body.toPut = .error error ↔
      nodePut storage node body = .error error := by
  have sameCheck : body.toPut.ttlMs.setOptions = .error error ↔ _ := setOptions_toPut finite
  rw [putRoute_toPut]
  cases fields : requireKeyAndValue body with
  | error refusal =>
      rw [nodePut_of_refused fields]
      exact error_eq_iff
  | ok found =>
      obtain ⟨key, value⟩ := found
      have nonempty := requireKeyAndValue_nonempty fields
      have stored : ∀ options, ∃ result, engine.set now key value options = .ok result := by
        intro options
        rw [StorageEngine.set, if_neg nonempty]
        exact ⟨_, rfl⟩
      rw [nodePut_of_accepted fields]
      refine Iff.trans ?_ (sameCheck.trans ?_)
      · cases body.toPut.ttlMs.setOptions with
        | error refusal => exact error_eq_iff
        | ok options =>
            obtain ⟨result, written⟩ := stored options
            refine iff_of_false (fun failed => ?_) ok_ne_error
            cases written.symm.trans failed
      · cases checkTtlMs (body.field "ttlMs") with
        | error refusal => exact error_eq_iff
        | ok ttlMs => exact iff_of_false ok_ne_error ok_ne_error

end Storage

/-! ## What the gateway makes of it -/

namespace ConsistentHashRing

variable {Body : Type} {action : NodeInfo → Except ForwardError Body}
  {candidates rest : List NodeInfo}

theorem tryCandidates_failing
    (failing : ∀ node ∈ candidates, ∃ message, action node = .error (.nodeFailure message))
    (lastMessage : String) :
    (tryCandidates action (.nodeFailure lastMessage) candidates).1 = candidates ∧
      ∃ message, (tryCandidates action (.nodeFailure lastMessage) candidates).2 =
        .error (.nodeFailure message) := by
  induction candidates generalizing lastMessage with
  | nil => exact ⟨rfl, lastMessage, rfl⟩
  | cons node rest ih =>
      obtain ⟨message, failed⟩ := failing node List.mem_cons_self
      have later := ih (fun other member => failing other (List.mem_cons_of_mem _ member)) message
      rw [tryCandidates, failed]
      exact ⟨congrArg (node :: ·) later.1, later.2⟩

/-- When every candidate fails, all are asked and the last failure is the answer. -/
theorem forwardWithFailover_failing (listed : ring.failoverCandidates count key = node :: rest)
    (failing : ∀ other ∈ node :: rest, ∃ message,
      action other = .error (.nodeFailure message)) :
    (ring.forwardWithFailover count key action).1 = node :: rest ∧
      ∃ message, (ring.forwardWithFailover count key action).2 =
        .error (.nodeFailure message) := by
  obtain ⟨message, failed⟩ := failing node List.mem_cons_self
  have later := tryCandidates_failing
    (fun other member => failing other (List.mem_cons_of_mem _ member)) message
  rw [forwardWithFailover, listed, if_neg (List.cons_ne_nil _ _), tryCandidates, failed]
  exact ⟨congrArg (node :: ·) later.1, later.2⟩

/-- When the first candidate answers, no other is asked. -/
theorem forwardWithFailover_first (listed : ring.failoverCandidates count key = node :: rest)
    {response : Body} (answered : action node = .ok response) :
    ring.forwardWithFailover count key action = ([node], .ok response) := by
  rw [forwardWithFailover, listed, if_neg (List.cons_ne_nil _ _), tryCandidates, answered]

end ConsistentHashRing

theorem gatewayPut_of_refused {error : FlowCacheError}
    (refused : requireKeyAndValue body = .error error) :
    gatewayPut ring count storage body = ([], .error (.own error)) := by
  rw [gatewayPut, refused]

theorem gatewayPut_of_accepted (accepted : requireKeyAndValue body = .ok (key, value)) :
    gatewayPut ring count storage body =
      ((ring.forwardWithFailover count key (clientPut storage body)).1,
        (ring.forwardWithFailover count key (clientPut storage body)).2.mapError
          .forwarding) := by
  rw [gatewayPut, accepted]

theorem clientPut_of_error {error : FlowCacheError}
    (refused : nodePut storage node body.resent = .error error) :
    ∃ message, clientPut storage body node = .error (.nodeFailure message) := by
  rw [clientPut, refused]
  exact ⟨_, rfl⟩

/-- A body that the gateway refuses. -/
theorem agreesOnInvalid_of_refused {error : FlowCacheError}
    (refused : requireKeyAndValue body = .error error) :
    AgreesOnInvalid ring count storage body := by
  have answer : gatewayPut ring count storage body = _ := gatewayPut_of_refused refused
  constructor
  case sameAnswer =>
    intro node
    obtain ⟨message, rfl⟩ := requireKeyAndValue_error refused
    rw [answer]
    exact iff_of_true rfl (nodeRejects_of_error (nodePut_of_refused refused))
  case notRetried =>
    intro earlier node later asked
    rw [answer] at asked
    exact absurd asked (List.append_ne_nil_of_right_ne_nil _ (List.cons_ne_nil _ _)).symm
  case notUnavailable =>
    intro node asked
    rw [answer] at asked
    cases asked

/-- The node's own check of a body, and of what the gateway makes of it. -/
theorem nodePut_of_valid (accepted : requireKeyAndValue body = .ok (key, value))
    (valid : body.field "ttlMs" = none ∨
      ∃ ttlMs, body.field "ttlMs" = some (.number (.finite ttlMs)) ∧ 0 < ttlMs) :
    (∃ response, nodePut storage node body = .ok response) ∧
      ∃ response, nodePut storage node body.resent = .ok response := by
  rw [nodePut_of_accepted accepted, nodePut_of_accepted (requireKeyAndValue_resent accepted),
    RequestBody.field_resent]
  rcases valid with absent | ⟨ttlMs, present, positive⟩
  · rw [absent]
    exact ⟨⟨_, rfl⟩, _, rfl⟩
  · rw [present, Option.map_some, JsonValue.resent, checkTtlMs_positive positive]
    exact ⟨⟨_, rfl⟩, _, rfl⟩

/-- A body that every node accepts: the first candidate answers. -/
theorem agreesOnInvalid_of_valid (accepted : requireKeyAndValue body = .ok (key, value))
    (candidates : ring.failoverCandidates count key ≠ [])
    (valid : body.field "ttlMs" = none ∨
      ∃ ttlMs, body.field "ttlMs" = some (.number (.finite ttlMs)) ∧ 0 < ttlMs) :
    AgreesOnInvalid ring count storage body := by
  obtain ⟨first, rest, listed⟩ := List.exists_cons_of_ne_nil candidates
  have answers : ∀ node, (∃ response, nodePut storage node body = .ok response) ∧
      ∃ response, nodePut storage node body.resent = .ok response :=
    fun _ => nodePut_of_valid accepted valid
  obtain ⟨response, sent⟩ := (answers first).2
  have answered : clientPut storage body first = .ok response := by
    rw [clientPut, sent]
  have answer : gatewayPut ring count storage body = ([first], .ok response) := by
    rw [gatewayPut_of_accepted accepted,
      ConsistentHashRing.forwardWithFailover_first listed answered]
    rfl
  have notRejected : ∀ node, ¬NodeRejects storage node body.resent := by
    intro node
    obtain ⟨other, sentThere⟩ := (answers node).2
    exact not_nodeRejects_of_ok sentThere
  constructor
  case sameAnswer =>
    intro node
    obtain ⟨own, ownAnswer⟩ := (answers node).1
    rw [answer]
    exact iff_of_false (by decide : ¬200 = 400) (not_nodeRejects_of_ok ownAnswer)
  case notRetried => exact fun _ node _ _ rejects => absurd rejects (notRejected node)
  case notUnavailable => exact fun node _ rejects => absurd rejects (notRejected node)

/-- The gateway lets a `ttlMs` through that its nodes refuse: it asks all of them and
answers that a node is unavailable. -/
theorem gatewayPut_of_bad_ttl (accepted : requireKeyAndValue body = .ok (key, value))
    (candidates : ring.failoverCandidates count key ≠ []) {ttlMs : JsonValue}
    (present : body.field "ttlMs" = some ttlMs)
    (unsound : ∀ value, ttlMs = .number (.finite value) → value ≤ 0) :
    (∀ node, NodeRejects storage node body.resent) ∧
      (gatewayPut ring count storage body).1 = ring.failoverCandidates count key ∧
      ∃ message, (gatewayPut ring count storage body).2 =
        .error (.forwarding (.nodeFailure message)) := by
  have refused : ∀ node, ∃ error, nodePut storage node body.resent = .error error := by
    intro node
    obtain ⟨error, checked⟩ := checkTtlMs_resent unsound
    refine ⟨error, ?_⟩
    rw [nodePut_of_accepted (requireKeyAndValue_resent accepted), RequestBody.field_resent,
      present, Option.map_some, checked]
    rfl
  obtain ⟨first, rest, listed⟩ := List.exists_cons_of_ne_nil candidates
  have failing : ∀ node ∈ first :: rest, ∃ message,
      clientPut storage body node = .error (.nodeFailure message) :=
    fun node _ => clientPut_of_error (refused node).choose_spec
  obtain ⟨asked, message, failed⟩ :=
    ConsistentHashRing.forwardWithFailover_failing listed failing
  refine ⟨fun node => nodeRejects_of_error (refused node).choose_spec, ?_, message, ?_⟩
  · rw [gatewayPut_of_accepted accepted, asked, listed]
  · rw [gatewayPut_of_accepted accepted, failed]
    rfl

theorem not_agreesOnInvalid_of_bad_ttl
    (accepted : requireKeyAndValue body = .ok (key, value))
    (candidates : ring.failoverCandidates count key ≠ []) {ttlMs : JsonValue}
    (present : body.field "ttlMs" = some ttlMs)
    (unsound : ∀ value, ttlMs = .number (.finite value) → value ≤ 0) :
    ¬AgreesOnInvalid ring count storage body := by
  intro agrees
  obtain ⟨rejects, asked, message, failed⟩ :=
    gatewayPut_of_bad_ttl accepted candidates present unsound
  obtain ⟨first, member⟩ := List.exists_mem_of_ne_nil _ candidates
  exact agrees.notUnavailable first (asked ▸ member) (rejects first) message failed

/-- With a candidate for the key, the gateway agrees with its nodes when its own checks
suffice. -/
theorem put_validation_agrees_iff (ring : ConsistentHashRing) (count : Rat)
    (storage : NodeStorage) (body : RequestBody)
    (candidates : ∀ key value, requireKeyAndValue body = .ok (key, value) →
      ring.failoverCandidates count key ≠ []) :
    AgreesOnInvalid ring count storage body ↔ GatewayChecksSuffice body := by
  cases fields : requireKeyAndValue body with
  | error error =>
      exact iff_of_true (agreesOnInvalid_of_refused fields) (.inl ⟨error, fields⟩)
  | ok found =>
      obtain ⟨key, value⟩ := found
      have listed := candidates key value fields
      constructor
      · intro agrees
        by_contra insufficient
        obtain ⟨ttlMs, present⟩ := Option.ne_none_iff_exists'.mp
          fun absent => insufficient (.inr (.inl absent))
        have unsound : ∀ value, ttlMs = .number (.finite value) → value ≤ 0 := by
          rintro value rfl
          exact not_lt.mp fun positive => insufficient (.inr (.inr ⟨value, present, positive⟩))
        exact not_agreesOnInvalid_of_bad_ttl fields listed present unsound agrees
      · rintro (⟨error, refused⟩ | valid)
        · rw [fields] at refused
          cases refused
        · exact agreesOnInvalid_of_valid fields listed valid

/-- A ring of one node. -/
def singleNodeRing : ConsistentHashRing :=
  ((ConsistentHashRing.create ⟨1⟩).addNode ⟨"node-1", "localhost", 7001, .healthy, 0, 1⟩).2

/-- A body with a time to live. -/
def bodyWithTtl (ttlMs : Rat) : RequestBody :=
  some (.object [("key", .string "user:1"), ("value", .bool true),
    ("ttlMs", .number (.finite ttlMs))])

theorem requireKeyAndValue_bodyWithTtl (ttlMs : Rat) :
    requireKeyAndValue (bodyWithTtl ttlMs) = .ok ("user:1", .bool true) := by
  simp [requireKeyAndValue, bodyWithTtl, RequestBody.field, JsonValue.field, List.lookup_cons]

theorem singleNodeRing_candidates :
    singleNodeRing.failoverCandidates 3 "user:1" ≠ [] := by
  decide +kernel

theorem put_validation_agrees_one_minute :
    AgreesOnInvalid singleNodeRing 3 (fun _ _ _ _ => 1) (bodyWithTtl 60000) := by
  apply (put_validation_agrees_iff singleNodeRing 3 _ (bodyWithTtl 60000) ?_).mpr
  · exact .inr (.inr ⟨60000, rfl, by norm_num⟩)
  · intro key value accepted
    rw [requireKeyAndValue_bodyWithTtl] at accepted
    cases accepted
    exact singleNodeRing_candidates

/-- A negative time to live is answered with an unavailable node. -/
theorem put_validation_fails_on_negative_ttl :
    ¬∀ (ring : ConsistentHashRing) (count : Rat) (storage : NodeStorage)
      (body : RequestBody),
      (∀ key value, requireKeyAndValue body = .ok (key, value) →
        ring.failoverCandidates count key ≠ []) →
      AgreesOnInvalid ring count storage body := by
  intro agree
  have candidates : ∀ key value,
      requireKeyAndValue (bodyWithTtl (-1)) = .ok (key, value) →
        singleNodeRing.failoverCandidates 3 key ≠ [] := by
    intro key value accepted
    rw [requireKeyAndValue_bodyWithTtl] at accepted
    cases accepted
    exact singleNodeRing_candidates
  have agrees := agree singleNodeRing 3 (fun _ _ _ _ => 1) (bodyWithTtl (-1)) candidates
  refine not_agreesOnInvalid_of_bad_ttl (requireKeyAndValue_bodyWithTtl (-1))
    singleNodeRing_candidates rfl ?_ agrees
  rintro value same
  cases same
  norm_num

end FlowCache
