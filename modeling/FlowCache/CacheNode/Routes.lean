import FlowCache.Storage.Engine

/-!
# The write routes of a cache node

`PUT /cache` and `DELETE /cache/:key` up to the response they produce; publishing
the replication event is left to the caller, as the handlers do not wait for it.
-/

namespace FlowCache

variable {Value Hook : Type}

/-- The `ttlMs` field of a request body. -/
inductive TtlField where
  | absent
  | notANumber
  | number (ttlMs : Millis)
  deriving DecidableEq, Repr

/-- A parsed PUT body.  `key` is `none` when the field is missing or not a string,
`value` is `none` when the field is missing. -/
structure PutRequestBody (Value : Type) where
  key : Option CacheKey
  value : Option Value
  ttlMs : TtlField
  deriving DecidableEq, Repr

/-- The options the route passes on, or why it rejects the field. -/
def TtlField.setOptions : TtlField → Except FlowCacheError SetOptions
  | .absent => .ok ⟨none⟩
  | .notANumber =>
      .error (.validationError "\"ttlMs\", if provided, must be a positive number")
  | .number ttlMs =>
      if ttlMs ≤ 0 then
        .error (.validationError "\"ttlMs\", if provided, must be a positive number")
      else
        .ok ⟨some (some ttlMs)⟩

variable [EvictionHook Hook] [SizedValue Value]

/-- `PUT /cache`: validate, then write to local storage. -/
def putRoute (engine : StorageEngine Value Hook) (now : Millis)
    (body : PutRequestBody Value) :
    Except FlowCacheError (CacheEntry Value × StorageEngine Value Hook) :=
  match body.key with
  | none =>
      .error (.validationError "Request body must include a non-empty string \"key\"")
  | some key =>
      if key = "" then
        .error (.validationError "Request body must include a non-empty string \"key\"")
      else
        match body.value with
        | none =>
            .error (.validationError "Request body must include a \"value\" field")
        | some value =>
            match body.ttlMs.setOptions with
            | .error error => .error error
            | .ok options => engine.set now key value options

/-- What an accepted PUT did. -/
theorem putRoute_ok {engine : StorageEngine Value Hook} {now : Millis}
    {body : PutRequestBody Value} {entry : CacheEntry Value}
    {next : StorageEngine Value Hook}
    (accepted : putRoute engine now body = .ok (entry, next)) :
    ∃ key value options, body.key = some key ∧ key ≠ "" ∧ body.value = some value ∧
      body.ttlMs.setOptions = .ok options ∧
      entry = engine.nextEntry now key value options ∧
      next = engine.afterSet now key value options := by
  unfold putRoute at accepted
  split at accepted
  · cases accepted
  · next key keyEq =>
      split at accepted
      · cases accepted
      · next nonempty =>
          split at accepted
          · cases accepted
          · next value valueEq =>
              split at accepted
              · cases accepted
              · next options optionsEq =>
                  refine ⟨key, value, options, keyEq, nonempty, valueEq, optionsEq, ?_⟩
                  simp only [StorageEngine.set, nonempty, if_false, Except.ok.injEq,
                    Prod.mk.injEq] at accepted
                  simp [StorageEngine.afterSet, StorageEngine.set, nonempty,
                    ← accepted.1, ← accepted.2]

end FlowCache
