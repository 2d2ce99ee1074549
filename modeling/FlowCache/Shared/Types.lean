import Mathlib.Data.List.Basic

/-!
# Domain types shared by every package

The cache primitives of `packages/shared`: keys, entries and their metadata, the
nodes of the cluster, and the errors the modelled operations throw.  Times are epoch milliseconds as
`Date.now()` returns them; the size of a value is whatever the repository's
`approximateSizeBytes` reports for it, so the value type stays arbitrary.
-/

namespace FlowCache

/-- A cache key. -/
abbrev CacheKey := String

/-- Epoch milliseconds. -/
abbrev Millis := Int

/-- Per-entry bookkeeping kept by the storage engine. -/
structure CacheMetadata where
  version : Nat
  createdAt : Millis
  updatedAt : Millis
  lastAccessedAt : Millis
  frequency : Nat
  expiresAt : Option Millis
  sizeBytes : Nat
  deriving DecidableEq, Repr

/-- One stored entry. -/
structure CacheEntry (Value : Type) where
  key : CacheKey
  value : Value
  metadata : CacheMetadata
  deriving DecidableEq, Repr

/-- `entry.metadata.expiresAt !== null && entry.metadata.expiresAt <= now`. -/
def CacheMetadata.isExpired (metadata : CacheMetadata) (now : Millis) : Bool :=
  match metadata.expiresAt with
  | some expiresAt => expiresAt ≤ now
  | none => false

/-- Two entries agree on everything a replica or a snapshot compares; a read hit
changes only what is left. -/
structure CacheEntry.SameContent {Value : Type} (left right : CacheEntry Value) :
    Prop where
  key : left.key = right.key
  value : left.value = right.value
  version : left.metadata.version = right.metadata.version
  expiresAt : left.metadata.expiresAt = right.metadata.expiresAt

/-- Values whose serialized size the engine can approximate. -/
class SizedValue (Value : Type) where
  approximateSizeBytes : Value → Nat

/-- A natural number is serialized as its decimal digits. -/
instance : SizedValue Nat where
  approximateSizeBytes value := (Nat.toDigits 10 value).length

/-- `NodeStatus`. -/
inductive NodeStatus where
  | joining
  | healthy
  | suspect
  | dead
  | leaving
  deriving DecidableEq, Repr

/-- One physical node of the cluster; `weight` is its relative capacity. -/
structure NodeInfo where
  nodeId : String
  host : String
  port : Nat
  status : NodeStatus
  lastHeartbeat : Millis
  weight : Rat
  deriving DecidableEq, Repr

/-- The errors thrown by the modelled operations, with their messages; `otherError`
is any error that is not one of the repository's own. -/
inductive FlowCacheError where
  | validationError (message : String)
  | replicationError (message : String)
  | snapshotError (message : String)
  | recoveryError (message : String)
  | otherError (message : String)
  deriving DecidableEq, Repr

/-- `err.message`. -/
def FlowCacheError.message : FlowCacheError → String
  | .validationError message => message
  | .replicationError message => message
  | .snapshotError message => message
  | .recoveryError message => message
  | .otherError message => message

/-- A capacity limit; `infinity` disables it. -/
inductive Limit where
  | infinity
  | finite (bound : Nat)
  deriving DecidableEq, Repr

namespace Limit

/-- `amount > limit`. -/
def exceededBy : Limit → Int → Bool
  | .infinity, _ => false
  | .finite bound, amount => (bound : Int) < amount

theorem exceededBy_mono {limit : Limit} {small large : Int} (le : small ≤ large)
    (exceeded : limit.exceededBy small = true) : limit.exceededBy large = true := by
  cases limit with
  | infinity => simp [exceededBy] at exceeded
  | finite bound =>
      simp only [exceededBy, decide_eq_true_eq] at exceeded ⊢
      omega

theorem exceededBy_anti {limit : Limit} {small large : Int} (le : small ≤ large)
    (within : limit.exceededBy large = false) : limit.exceededBy small = false := by
  rw [← Bool.not_eq_true] at within ⊢
  intro exceeded
  exact within (exceededBy_mono le exceeded)

end Limit

end FlowCache
