import TitusIsolate.Lib.BoundedDeque
import TitusIsolate.Model.Workload

/-!
# Resource usage

A usage map holds, for each resource and each workload, the values of the last minutes.
`pad_usage` brings every list to one length, through a deque of that length: a long list
keeps its end, a short one gets NaNs in front.

What the values are is left open. The map that is filled from Prometheus holds the texts
of floats, and its padding is a float.
-/

namespace TitusIsolate

/-- For each resource and workload, the values in order of time. -/
abbrev UsageMap (α : Type) := OrderedDict String (OrderedDict WorkloadId (List α))

section

variable {α : Type} (nan : α)

/-- One list, brought to the given length. -/
def padList (usageLength : Nat) (usage : List α) : List α :=
  let padSize : Int := usageLength - usage.length
  let pad := List.replicate padSize.toNat nan
  ((BoundedDeque.ofList usageLength usage).extendLeft pad).toList

/-- `padded_usage[resource_name][w_id] = list(d)` -/
def setUsage (padded : UsageMap α) (resourceName : String) (wId : WorkloadId) (values : List α) :
    UsageMap α :=
  padded.insert resourceName
    (((padded.get? resourceName).getD OrderedDict.empty).insert wId values)

/-- `pad_usage(usage, usage_length)`: a map with empty lists is made first and then filled. -/
def padUsage (usage : UsageMap α) (usageLength : Nat) : UsageMap α :=
  let blank := usage.mapValues (fun _ workloadUsage => workloadUsage.mapValues (fun _ _ => []))
  usage.entries.foldl (fun padded e =>
    e.2.entries.foldl (fun padded w =>
      setUsage padded e.1 w.1 (padList nan usageLength w.2)) padded) blank

end

/-- `GlobalResourceUsage`: by resource, the usage of each workload. -/
structure GlobalResourceUsage (α : Type) where
  map : UsageMap α

namespace GlobalResourceUsage

variable {α : Type}

/-- The default of `usage_length`. -/
def defaultUsageLength : Nat := 60

/-- `GlobalResourceUsage(resource_usages, usage_length)` -/
def new (nan : α) (resourceUsages : UsageMap α) (usageLength : Nat) : GlobalResourceUsage α where
  map := padUsage nan resourceUsages usageLength

/-- `serialize()`, given the text of a value. -/
def serialize (str : α → String) (g : GlobalResourceUsage α) : UsageMap String :=
  g.map.mapValues (fun _ workloadUsages => workloadUsages.mapValues (fun _ values => values.map str))

variable (nan : α) (float : String → Except PyError α)

/-- The lists of one resource, and the length of the last list read. -/
def deserializeLists : List (WorkloadId × List String) → Nat →
    Except PyError (List (WorkloadId × List α) × Nat)
  | [], usageLength => .ok ([], usageLength)
  | (wId, values) :: rest, _ => do
      let parsed ← values.mapM float
      let (lists, usageLength) ← deserializeLists rest values.length
      .ok ((wId, parsed) :: lists, usageLength)

/-- The lists of each resource, and the greatest length met so far. -/
def deserializeMaps : List (String × OrderedDict WorkloadId (List String)) → Nat →
    Except PyError (List (String × OrderedDict WorkloadId (List α)) × Nat)
  | [], usageLength => .ok ([], usageLength)
  | (rType, workloadUsages) :: rest, usageLength => do
      let (lists, usageLength) ← deserializeLists float workloadUsages.entries usageLength
      let (maps, usageLength) ← deserializeMaps rest usageLength
      .ok ((rType, OrderedDict.ofPairs lists) :: maps, usageLength)

/-- `deserialize_global_resource_usage(s_map)`: the length is that of whichever list is last. -/
def deserialize (sMap : UsageMap String) : Except PyError (GlobalResourceUsage α) := do
  let (maps, usageLength) ← deserializeMaps float sMap.entries defaultUsageLength
  .ok (new nan (OrderedDict.ofPairs maps) usageLength)

end GlobalResourceUsage

end TitusIsolate
