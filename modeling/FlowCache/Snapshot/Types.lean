import FlowCache.Shared.Types

/-!
# Snapshot metadata and payloads

The snapshot and recovery records of `packages/shared`.
-/

namespace FlowCache

/-- What is recorded about one snapshot. -/
structure SnapshotMetadata where
  snapshotId : String
  nodeId : String
  createdAt : Millis
  entryCount : Nat
  sizeBytes : Nat
  durationMs : Millis
  checksum : String
  compressed : Bool
  deriving DecidableEq, Repr

/-- A restored snapshot. -/
structure SnapshotPayload (Value : Type) where
  metadata : SnapshotMetadata
  entries : List (CacheEntry Value)

/-- The outcome of one recovery. -/
structure RecoveryReport where
  nodeId : String
  startedAt : Millis
  finishedAt : Millis
  snapshotRestored : Option String
  entriesRestoredFromSnapshot : Nat
  operationsReplayed : Nat
  integrityVerified : Bool
  errors : List String
  deriving DecidableEq, Repr

end FlowCache
