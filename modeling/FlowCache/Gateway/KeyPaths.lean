import FlowCache.CacheNode.Routes
import FlowCache.Eviction.LRU
import FlowCache.Library.PercentEncoding

/-!
# Keys in paths

A key travels in a path as `/cache/` and its percent-encoding.  `CacheNodeClient` encodes
it once, `fetch` resolves the dot segments of the URL, Express binds the segment to
`params.key` and decodes it once, and `decodeCacheKeyParam` decodes the result again.  A
`PUT` carries its key in the body, where nothing encodes or decodes it.
-/

namespace FlowCache

open PercentEncoding

/-! ## The encoding of the language -/

/-- The characters `encodeURIComponent` keeps. -/
def isUnreserved (char : Char) : Bool :=
  char.isAlphanum || "-_.!~*'()".toList.contains char

/-- `encodeURIComponent(text)`. -/
def encodeURIComponent (text : String) : String :=
  String.ofList (encode isUnreserved text.toList)

/-- `decodeURIComponent(text)`, which may throw a `URIError`. -/
def decodeURIComponent (text : String) : Option String :=
  (decode [] text.toList).map String.ofList

/-- `decodeCacheKeyParam(raw)`. -/
def decodeCacheKeyParam (raw : String) : Except FlowCacheError CacheKey :=
  match decodeURIComponent raw with
  | some key => .ok key
  | none => .error (.validationError ("Malformed key in URL: \"" ++ raw ++ "\""))

theorem decodeURIComponent_encodeURIComponent (text : String) :
    decodeURIComponent (encodeURIComponent text) = some text := by
  rw [decodeURIComponent, encodeURIComponent, String.toList_ofList,
    decode_encode (by decide), Option.map_some, String.ofList_toList]

theorem decodeURIComponent_eq_self_iff (text : String) :
    decodeURIComponent text = some text ↔ '%' ∉ text.toList := by
  rw [← decode_eq_self_iff, decodeURIComponent, Option.map_eq_some_iff]
  constructor
  · rintro ⟨decoded, result, rfl⟩
    rw [String.toList_ofList] at result ⊢
    exact result
  · intro result
    exact ⟨text.toList, result, String.ofList_toList⟩

theorem length_decodeURIComponent_le {text decoded : String}
    (result : decodeURIComponent text = some decoded) :
    decoded.toList.length ≤ text.toList.length ∧
      ('%' ∈ text.toList → decoded.toList.length < text.toList.length) := by
  obtain ⟨chars, found, rfl⟩ := Option.map_eq_some_iff.mp result
  have bounds := length_decode_le [] text.toList found
  rwa [List.length_nil, Nat.zero_add, ← String.toList_ofList (l := chars)] at bounds

/-! ## Paths -/

/-- The segments of a URL with its dot segments resolved; `done` has those before. -/
def resolveDots : (done : List (List Char)) → List (List Char) → List (List Char)
  | done, [] => done
  | done, [segment] =>
      if segment = ['.', '.'] then done.dropLast ++ [[]]
      else if segment = ['.'] then done ++ [[]]
      else done ++ [segment]
  | done, segment :: rest =>
      if segment = ['.', '.'] then resolveDots done.dropLast rest
      else if segment = ['.'] then resolveDots done rest
      else resolveDots (done ++ [segment]) rest

/-- The path `fetch` requests for a URL with the given path.  The other spellings of dot
segments, and the characters that a URL escapes, do not occur in an encoded key. -/
def fetchPath (path : String) : String :=
  String.ofList ((resolveDots [] (path.toList.splitOn '/').tail).flatMap fun segment =>
    '/' :: segment)

/-- The path `CacheNodeClient` builds for a key. -/
def keyPath (key : CacheKey) : String := "/cache/" ++ encodeURIComponent key

/-! ## Routes -/

/-- Why a request does not reach its entry: no route takes the path, Express cannot decode
the parameter, or the handler throws. -/
inductive RouteError where
  | noRoute
  | undecodableParam (segment : String)
  | thrown (error : FlowCacheError)
  | keyNotFound (key : CacheKey)
  deriving DecidableEq, Repr

/-- The segment that the route `/cache/:key` binds to `key`.  Routes ignore case and one
trailing slash. -/
def keySegment (path : String) : Option String :=
  match path.toList.splitOn '/' with
  | [[], cache, segment] =>
      if cache.map Char.toLower = "cache".toList ∧ segment ≠ [] then
        some (String.ofList segment)
      else
        none
  | [[], cache, segment, []] =>
      if cache.map Char.toLower = "cache".toList ∧ segment ≠ [] then
        some (String.ofList segment)
      else
        none
  | _ => none

/-- `req.params.key`: the segment, decoded once. -/
def paramKey (path : String) : Except RouteError String :=
  match keySegment path with
  | none => .error .noRoute
  | some segment =>
      match decodeURIComponent segment with
      | none => .error (.undecodableParam segment)
      | some raw => .ok raw

/-- `const key = decodeCacheKeyParam(req.params.key as string)`, the key that the handlers
of `GET` and `DELETE` go on with, in the gateway as in a node. -/
def addressedKey (path : String) : Except RouteError CacheKey :=
  match paramKey path with
  | .error error => .error error
  | .ok raw => (decodeCacheKeyParam raw).mapError .thrown

/-- The key that a node addresses when the gateway forwards a request for a path. -/
def forwardedKey (path : String) : Except RouteError CacheKey :=
  match addressedKey path with
  | .error error => .error error
  | .ok key => addressedKey (fetchPath (keyPath key))

section Handlers

variable {Value Hook : Type} [EvictionHook Hook]

/-- `GetResponseBody`. -/
structure GetResponseBody (Value : Type) where
  key : CacheKey
  value : Value
  metadata : CacheMetadata
  nodeId : String
  deriving DecidableEq, Repr

/-- `DeleteResponseBody`. -/
structure DeleteResponseBody where
  key : CacheKey
  deleted : Bool
  nodeId : String
  deriving DecidableEq, Repr

/-- `GET /cache/:key` once it has its key. -/
def getKey (nodeId : String) (engine : StorageEngine Value Hook) (now : Millis)
    (key : CacheKey) :
    Except RouteError (GetResponseBody Value) × StorageEngine Value Hook :=
  match engine.get now key with
  | (none, next) => (.error (.keyNotFound key), next)
  | (some entry, next) => (.ok ⟨key, entry.value, entry.metadata, nodeId⟩, next)

/-- `DELETE /cache/:key` once it has its key. -/
def deleteKey (nodeId : String) (engine : StorageEngine Value Hook) (key : CacheKey) :
    Except RouteError DeleteResponseBody × StorageEngine Value Hook :=
  match engine.delete key with
  | (deleted, next) => (.ok ⟨key, deleted, nodeId⟩, next)

/-- `GET /cache/:key`. -/
def getRoute (nodeId : String) (engine : StorageEngine Value Hook) (now : Millis)
    (path : String) :
    Except RouteError (GetResponseBody Value) × StorageEngine Value Hook :=
  match addressedKey path with
  | .error error => (.error error, engine)
  | .ok key => getKey nodeId engine now key

/-- `DELETE /cache/:key`. -/
def deleteRoute (nodeId : String) (engine : StorageEngine Value Hook) (path : String) :
    Except RouteError DeleteResponseBody × StorageEngine Value Hook :=
  match addressedKey path with
  | .error error => (.error error, engine)
  | .ok key => deleteKey nodeId engine key

end Handlers

/-! ## The path of a key -/

theorem slash_not_mem_encode (text : List Char) : '/' ∉ encode isUnreserved text := by
  intro member
  rcases mem_encode member with kept | percent | ⟨value, bounded, digit⟩
  · exact absurd kept (by decide)
  · exact absurd percent (by decide)
  · have noSlash : ∀ value < 16, '/' ≠ hexDigit value := by decide
    exact noSlash value bounded digit

theorem toList_keyPath (key : CacheKey) :
    (keyPath key).toList =
      '/' :: ("cache".toList ++ '/' :: encode isUnreserved key.toList) := by
  simp only [keyPath, encodeURIComponent, String.toList_append, String.toList_ofList]
  rfl

theorem splitOn_keyPath (key : CacheKey) :
    (keyPath key).toList.splitOn '/' =
      [[], "cache".toList, encode isUnreserved key.toList] := by
  rw [toList_keyPath, ← List.nil_append ('/' :: _), List.splitOn_append_cons_self,
    List.splitOn_append_cons_self, List.splitOn_eq_singleton (slash_not_mem_encode _),
    List.splitOn_eq_singleton (by decide : '/' ∉ "cache".toList)]
  rfl

variable {key : CacheKey}

theorem paramKey_keyPath (nonempty : key ≠ "") : paramKey (keyPath key) = .ok key := by
  have segment : encode isUnreserved key.toList ≠ [] := by
    intro empty
    have same : key.toList = [] := encode_injective (by decide) empty
    exact nonempty (String.toList_eq_nil_iff.mp same)
  have bound : keySegment (keyPath key) = some (encodeURIComponent key) := by
    rw [keySegment, splitOn_keyPath]
    exact if_pos ⟨by decide, segment⟩
  rw [paramKey, bound]
  simp only [decodeURIComponent_encodeURIComponent]

/-- The routes decode the key itself once. -/
theorem addressedKey_keyPath (nonempty : key ≠ "") :
    addressedKey (keyPath key) = (decodeCacheKeyParam key).mapError .thrown := by
  rw [addressedKey, paramKey_keyPath nonempty]

theorem addressedKey_keyPath_eq_ok {other : CacheKey} (nonempty : key ≠ "") :
    addressedKey (keyPath key) = .ok other ↔ decodeURIComponent key = some other := by
  rw [addressedKey_keyPath nonempty, decodeCacheKeyParam]
  cases decodeURIComponent key with
  | none => simp [Except.mapError]
  | some decoded => simp [Except.mapError]

/-- As long as it is no dot segment, `fetch` leaves the path of a key alone. -/
theorem fetchPath_keyPath (single : key ≠ ".") (double : key ≠ "..") :
    fetchPath (keyPath key) = keyPath key := by
  have notDots : ∀ dots : CacheKey, key ≠ dots → encode isUnreserved dots.toList = dots.toList →
      encode isUnreserved key.toList ≠ dots.toList := by
    intro dots different kept same
    rw [← kept] at same
    exact different (String.toList_inj.mp (encode_injective (by decide) same))
  have notSingle : encode isUnreserved key.toList ≠ ['.'] := notDots "." single (by decide)
  have notDouble : encode isUnreserved key.toList ≠ ['.', '.'] :=
    notDots ".." double (by decide)
  rw [fetchPath, splitOn_keyPath, List.tail_cons]
  have resolved : resolveDots [] ["cache".toList, encode isUnreserved key.toList] =
      ["cache".toList, encode isUnreserved key.toList] := by
    rw [resolveDots, if_neg (by decide), if_neg (by decide), resolveDots, if_neg notDouble,
      if_neg notSingle]
    · rfl
    · exact List.cons_ne_nil _ _
  rw [resolved, ← String.toList_inj, toList_keyPath, String.toList_ofList]
  simp only [List.flatMap_cons, List.flatMap_nil, List.append_nil, List.cons_append]

/-- The paths of the empty key and of the dot segments reach no route. -/
theorem addressedKey_fetchPath_of_noRoute
    (unreachable : key = "" ∨ key = "." ∨ key = "..") :
    addressedKey (fetchPath (keyPath key)) = .error .noRoute := by
  rcases unreachable with rfl | rfl | rfl
  · decide +kernel
  · decide +kernel
  · decide +kernel

/-- What a node addresses for the request of a client is the key, decoded once. -/
theorem addressedKey_fetchPath_eq_ok_iff {other : CacheKey} :
    addressedKey (fetchPath (keyPath key)) = .ok other ↔
      (key ≠ "" ∧ key ≠ "." ∧ key ≠ "..") ∧ decodeURIComponent key = some other := by
  by_cases reachable : key ≠ "" ∧ key ≠ "." ∧ key ≠ ".."
  · obtain ⟨nonempty, single, double⟩ := reachable
    rw [fetchPath_keyPath single double, addressedKey_keyPath_eq_ok nonempty]
    exact (and_iff_right ⟨nonempty, single, double⟩).symm
  · have unreachable : key = "" ∨ key = "." ∨ key = ".." := by
      by_contra none
      rw [not_or, not_or] at none
      exact reachable none
    rw [addressedKey_fetchPath_of_noRoute unreachable]
    exact iff_of_false (fun same => by cases same) fun both => reachable both.1

/-! ## Keys that are read back -/

theorem addressedKey_fetchPath_iff (nonempty : key ≠ "") :
    addressedKey (fetchPath (keyPath key)) = .ok key ↔
      '%' ∉ key.toList ∧ key ≠ "." ∧ key ≠ ".." := by
  rw [addressedKey_fetchPath_eq_ok_iff, decodeURIComponent_eq_self_iff, and_comm,
    and_iff_right nonempty]

/-- Through the gateway the key is decoded once more, and never longer again. -/
theorem forwardedKey_iff (nonempty : key ≠ "") :
    forwardedKey (keyPath key) = .ok key ↔
      '%' ∉ key.toList ∧ key ≠ "." ∧ key ≠ ".." := by
  rw [← addressedKey_fetchPath_iff nonempty, forwardedKey]
  by_cases percent : '%' ∈ key.toList
  · have lost : ¬addressedKey (fetchPath (keyPath key)) = .ok key := by
      rw [addressedKey_fetchPath_iff nonempty]
      exact fun both => both.1 percent
    apply iff_of_false _ lost
    cases first : addressedKey (keyPath key) with
    | error error => exact fun same => by cases same
    | ok inGateway =>
        intro same
        have decodedFirst := (addressedKey_keyPath_eq_ok nonempty).mp first
        have decodedAgain := (addressedKey_fetchPath_eq_ok_iff.mp same).2
        have shorter := (length_decodeURIComponent_le decodedFirst).2 percent
        have notLonger := (length_decodeURIComponent_le decodedAgain).1
        omega
  · have first : addressedKey (keyPath key) = .ok key := by
      rw [addressedKey_keyPath_eq_ok nonempty, decodeURIComponent_eq_self_iff]
      exact percent
    rw [first]

section Handlers

variable {Value Hook : Type} [EvictionHook Hook]

/-- `GET` and `DELETE` of a key that is addressed under its own name act on its entry. -/
theorem routes_of_addressed
    (addressed : addressedKey (fetchPath (keyPath key)) = .ok key) (nodeId : String)
    (engine : StorageEngine Value Hook) (now : Millis) :
    getRoute nodeId engine now (fetchPath (keyPath key)) = getKey nodeId engine now key ∧
      deleteRoute nodeId engine (fetchPath (keyPath key)) = deleteKey nodeId engine key := by
  rw [getRoute, deleteRoute, addressed]
  exact ⟨rfl, rfl⟩

variable [SizedValue Value]

/-- A written key is addressed under its own name exactly when it has no `%`; `fetch`
also loses the two keys that are dot segments.  A `PUT` stores every key under its own
name. -/
theorem key_addressed_as_written_iff (nonempty : key ≠ "") :
    (addressedKey (keyPath key) = .ok key ↔ '%' ∉ key.toList) ∧
      (addressedKey (fetchPath (keyPath key)) = .ok key ↔
        '%' ∉ key.toList ∧ key ≠ "." ∧ key ≠ "..") ∧
      (forwardedKey (keyPath key) = .ok key ↔
        '%' ∉ key.toList ∧ key ≠ "." ∧ key ≠ "..") ∧
      ∀ (engine : StorageEngine Value Hook) (now : Millis) (body : PutRequestBody Value)
        (entry : CacheEntry Value) (next : StorageEngine Value Hook),
        body.key = some key → putRoute engine now body = .ok (entry, next) →
          entry.key = key := by
  refine ⟨?_, addressedKey_fetchPath_iff nonempty, forwardedKey_iff nonempty, ?_⟩
  · rw [addressedKey_keyPath_eq_ok nonempty, decodeURIComponent_eq_self_iff]
  · intro engine now body entry next carries accepted
    obtain ⟨written, value, options, carried, -, -, -, rfl, -⟩ := putRoute_ok accepted
    rw [carries] at carried
    cases carried
    rfl

/-- A key with a slash, a blank and a letter beyond ASCII is read back. -/
theorem key_addressed_as_written_encoded :
    keyPath "a/b é" = "/cache/a%2Fb%20%C3%A9" ∧
      addressedKey (keyPath "a/b é") = .ok "a/b é" ∧
      addressedKey (fetchPath (keyPath "a/b é")) = .ok "a/b é" ∧
      forwardedKey (keyPath "a/b é") = .ok "a/b é" := by
  have written := @key_addressed_as_written_iff "a/b é" Nat LruEvictionPolicy _ _ (by decide)
  exact ⟨by decide +kernel, written.1.mpr (by decide), written.2.1.mpr (by decide),
    written.2.2.1.mpr (by decide)⟩

/-- The key `%41` is stored under its own name and read as `A`; the key `100%` cannot be
read at all. -/
theorem key_with_percent_is_lost :
    (∃ entry next, putRoute (.create .default LruEvictionPolicy.create) 0
        ⟨some "%41", some 1, .absent⟩ = .ok (entry, next) ∧ entry.key = "%41" ∧
        (getRoute "node-1" (next : StorageEngine Nat LruEvictionPolicy) 1
          (fetchPath (keyPath "%41"))).1 = .error (.keyNotFound "A")) ∧
      addressedKey (fetchPath (keyPath "%41")) = .ok "A" ∧
      forwardedKey (keyPath "%41") = .ok "A" ∧
      addressedKey (fetchPath (keyPath "100%")) =
        .error (.thrown (.validationError "Malformed key in URL: \"100%\"")) ∧
      forwardedKey (keyPath "100%") =
        .error (.thrown (.validationError "Malformed key in URL: \"100%\"")) := by
  refine ⟨⟨_, _, rfl, rfl, ?_⟩, ?_, ?_, ?_, ?_⟩
  · decide +kernel
  · decide +kernel
  · decide +kernel
  · decide +kernel
  · decide +kernel

end Handlers

end FlowCache
