import FlowCache.Shared.Types

/-!
# Calls of an eviction policy

The calls of the `EvictionPolicy` interface that change what a policy tracks.
-/

namespace FlowCache

variable {Value : Type}

/-- A call that changes what a policy tracks. -/
inductive PolicyCall (Value : Type) where
  | recordAccess (key : CacheKey)
  | recordWrite (key : CacheKey)
  | recordRemoval (key : CacheKey)
  | reset
  | seed (entries : List (CacheEntry Value))
  deriving DecidableEq, Repr

/-- The entries of a seed have distinct keys, as those of a store do. -/
def PolicyCall.DistinctKeys : PolicyCall Value → Prop
  | .seed entries => (entries.map CacheEntry.key).Nodup
  | _ => True

end FlowCache
