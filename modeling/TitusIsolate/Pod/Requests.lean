import TitusIsolate.Cgroup.Cpuset
import TitusIsolate.Lib.Decimal
import TitusIsolate.Pod.PodManager

/-!
# What a pod requests

A pod's resource requests are read twice. `KubernetesWorkload` takes the cpu of the main
container, as the text of a decimal read as an integer. `get_requested_resources` takes
all resources of the first container, as decimals cut to integers. Both leave it to
`parse_quantity` to make the decimal.
-/

namespace TitusIsolate

/-- What a container asks for. -/
structure V1ResourceRequirements where
  requests : Option (OrderedDict String String)

/-- A container of a pod. -/
structure V1Container where
  name : String
  resources : Option V1ResourceRequirements

/-- The rest of a pod, beside its name. -/
structure PodBody where
  labels : Option (OrderedDict String String)
  annotations : Option (OrderedDict String String)
  containers : List V1Container

/-- `Resources` -/
structure Resources where
  cpu : Int
  mem : Int
  disk : Int
  net : Int
  gpu : Int
  deriving DecidableEq, Repr

/-- Using an attribute of `None`. -/
def noneAttribute (name : String) : PyError :=
  .exception ("'NoneType' object has no attribute '" ++ name ++ "'")

/-- `x.attribute`, where `x` may be `None`. -/
def getAttr {α : Type} (name : String) : Option α → Except PyError α
  | none => .error (noneAttribute name)
  | some x => .ok x

/-! ## The main container -/

/-- Whether a container bears the name of a main container. -/
def isMain (podName : String) (c : V1Container) : Bool :=
  c.name = "main" || c.name = podName

/-- `get_main_container(pod)`: there must be exactly one. -/
def getMainContainer (pod : V1Pod PodBody) : Option V1Container :=
  match pod.spec.containers.filter (isMain pod.name) with
  | [c] => some c
  | _ => none

/-- `LABEL_KEY_JOB_ID` -/
def labelKeyJobId : String := "v3.job.titus.netflix.com/job-id"

/-- `ANNOTATION_KEY_JOB_ID` -/
def annotationKeyJobId : String := "titus.agent.jobId"

/-- `get_job_id(pod)` -/
def getJobId (pod : V1Pod PodBody) : Except PyError String :=
  let fromLabels := pod.spec.labels.bind (fun labels => labels.get? labelKeyJobId)
  match fromLabels with
  | some jobId => .ok jobId
  | none => do
      let annotations ← getAttr "get" pod.spec.annotations
      match annotations.get? annotationKeyJobId with
      | some jobId => .ok jobId
      | none => .error (.exception ("failed to extract job ID for pod: " ++ pod.name))

/-! ## The two readings -/

/-- `SPEC_RESOURCE_CPU_KEY` -/
def specResourceCpuKey : String := "cpu"

/-- `SPEC_RESOURCE_MEM_KEY` -/
def specResourceMemKey : String := "memory"

/-- `SPEC_RESOURCE_DISK_KEY` -/
def specResourceDiskKey : String := "ephemeral-storage"

/-- `SPEC_RESOURCE_DISK_DEPRECATED_KEY` -/
def specResourceDiskDeprecatedKey : String := "titus/disk"

/-- `SPEC_RESOURCE_NET_KEY` -/
def specResourceNetKey : String := "titus/network"

/-- `SPEC_RESOURCE_GPU_KEY` -/
def specResourceGpuKey : String := "nvidia.com/gpu"

section

variable (parseQuantity : String → Except PyError Decimal)

/-- `parse_kubernetes_value(val)` -/
def parseKubernetesValue (val : String) : Except PyError (List Char) :=
  (parseQuantity val).map Decimal.str

/-- `KubernetesWorkload(pod)` -/
def kubernetesWorkload (pod : V1Pod PodBody) : Except PyError Workload := do
  let mainContainer ← getAttr "resources" (getMainContainer pod)
  let resources ← getAttr "requests" mainContainer.resources
  match resources.requests with
  | none => .error (.exception "'NoneType' object is not subscriptable")
  | some resourceRequests => do
      let value ← getKey resourceRequests specResourceCpuKey
      let text ← parseKubernetesValue parseQuantity value
      let cpus ← pyInt text
      let jobId ← getJobId pod
      .ok { taskId := pod.name, jobId := jobId, threadCount := cpus }

/-- `int(parse_quantity(val))` -/
def intQuantity (val : String) : Except PyError Int := (parseQuantity val).map Decimal.toInt

/-- `disk_str`: an empty request counts as none. -/
def diskStr (r : OrderedDict String String) : Except PyError String :=
  let diskStr := (r.get? specResourceDiskKey).getD ""
  if diskStr = "" then getKey r specResourceDiskDeprecatedKey else .ok diskStr

/-- `gpu` -/
def gpuCount (r : OrderedDict String String) : Except PyError Int :=
  let gpuStr := (r.get? specResourceGpuKey).getD ""
  if gpuStr ≠ "" then intQuantity parseQuantity gpuStr else .ok 0

/-- What `get_requested_resources` makes of a container's requests. -/
def resourcesOf (r : OrderedDict String String) : Except PyError Resources := do
  let disk ← diskStr r
  let gpu ← gpuCount parseQuantity r
  let cpu ← getKey r specResourceCpuKey >>= intQuantity parseQuantity
  let mem ← getKey r specResourceMemKey >>= intQuantity parseQuantity
  let disk ← intQuantity parseQuantity disk
  let net ← getKey r specResourceNetKey >>= intQuantity parseQuantity
  .ok { cpu := cpu, mem := mem, disk := disk, net := net, gpu := gpu }

/-- `get_requested_resources(pod)` -/
def getRequestedResources (pod : V1Pod PodBody) : Except PyError Resources := do
  let first ← getItem pod.spec.containers 0
  let resources ← getAttr "requests" first.resources
  let r ← getAttr "get" resources.requests
  resourcesOf parseQuantity r

end

end TitusIsolate
