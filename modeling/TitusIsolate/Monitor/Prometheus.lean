import TitusIsolate.Monitor.ResourceUsage

/-!
# Usage read from Prometheus

A range response has a series for each task, and a series a list of pairs of a time and a
text. `_parse_prom_response` reads the texts as floats and scales them; of the times it
keeps the first. `resource_usages_to_dict` writes the floats as texts again, without the
times, and the padding of the global usage map is float NaNs between texts.

Floats are a parameter: how one is read, multiplied and written.
-/

namespace TitusIsolate

/-- One series of a response. A field may be missing. -/
structure PromResult where
  metric : Option (OrderedDict String String)
  values : Option (List (Rat × String))

/-- The data of a response. The field may be missing. -/
structure PromData where
  result : Option (List PromResult)

/-- A range response. The field may be missing. -/
structure PromResponse where
  data : Option PromData

/-- The label of a series that names its task. -/
def taskIdLabel : String := "v3_job_titus_netflix_com_task_id"

/-- `__validate_prom_response(resp)` -/
def validatePromResponse (resp : PromResponse) : Bool :=
  match resp.data with
  | none => false
  | some data =>
    match data.result with
    | none => false
    | some result => !result.isEmpty

/-- `__validate_result(result)` -/
def validateResult (r : PromResult) : Bool :=
  match r.metric with
  | none => false
  | some metric =>
    if taskIdLabel ∉ metric.keys then false
    else
      match r.values with
      | none => false
      | some values => !values.isEmpty

/-- `ResourceUsage`, by its attributes. -/
structure ResourceUsage (F : Type) where
  workloadId : WorkloadId
  resourceName : String
  startTimeEpochSec : Rat
  intervalSec : Nat
  values : List F

/-- What a usage map holds: a text where there was a sample, a float where it was padded. -/
inductive UsageValue (F : Type) where
  | text (s : String)
  | float (x : F)
  deriving DecidableEq

section

variable {F : Type} (float : String → Except PyError F) (mul : F → F → F) (str : F → String)

/-- `x[key]`, where the key was seen to be there. -/
def getField {α : Type} (key : String) : Option α → Except PyError α
  | none => .error (.keyError key)
  | some x => .ok x

/-- `[float(ts_val[1]) * scale for ts_val in raw_values]` -/
def scaledValues (scale : F) (rawValues : List (Rat × String)) : Except PyError (List F) :=
  rawValues.mapM (fun tsVal => (float tsVal.2).map (fun x => mul x scale))

/-- The usage of one series that was found valid. -/
def parseResult (resource : String) (scale : F) (r : PromResult) :
    Except PyError (ResourceUsage F) := do
  let metric ← getField "metric" r.metric
  let taskId ← getKey metric taskIdLabel
  let rawValues ← getField "values" r.values
  let first ← getItem rawValues 0
  let values ← scaledValues float mul scale rawValues
  .ok { workloadId := taskId, resourceName := resource, startTimeEpochSec := first.1
        intervalSec := 60, values := values }

/-- `_parse_prom_response(resource, resp, scale)` -/
def parsePromResponse (resource : String) (resp : PromResponse) (scale : F) :
    Except PyError (List (ResourceUsage F)) :=
  if validatePromResponse resp = false then .ok []
  else do
    let data ← getField "data" resp.data
    let results ← getField "result" data.result
    (results.filter validateResult).mapM (parseResult float mul resource scale)

/-- One turn of the loop of `resource_usages_to_dict`. -/
def putUsage (d : UsageMap (UsageValue F)) (u : ResourceUsage F) : UsageMap (UsageValue F) :=
  let d := if u.resourceName ∈ d.keys then d else d.insert u.resourceName OrderedDict.empty
  setUsage d u.resourceName u.workloadId (u.values.map (fun v => .text (str v)))

/-- `resource_usages_to_dict(usages)` -/
def resourceUsagesToDict (usages : List (ResourceUsage F)) : UsageMap (UsageValue F) :=
  usages.foldl (putUsage str) OrderedDict.empty

/-- The usage map that a response ends up as. -/
def promResourceUsage (nan : F) (resource : String) (resp : PromResponse) (scale : F) :
    Except PyError (GlobalResourceUsage (UsageValue F)) := do
  let usages ← parsePromResponse float mul resource resp scale
  .ok (GlobalResourceUsage.new (.float nan) (resourceUsagesToDict str usages)
    GlobalResourceUsage.defaultUsageLength)

end

end TitusIsolate
