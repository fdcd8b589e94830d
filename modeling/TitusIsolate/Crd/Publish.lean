import TitusIsolate.Crd.UsagePrediction
import TitusIsolate.Event.Manager
import TitusIsolate.Monitor.ResourceUsage
import TitusIsolate.Pod.Requests

/-!
# Publishing predicted usage

What a node's running pods are predicted to use is condensed and written to a custom
resource of the node's name. The predictor is asked over HTTP with the usage of the last
hour; its answer is read into one prediction for each task.

The resource is patched, and created where the patch finds nothing.
-/

namespace TitusIsolate

/-! ## Pods that run -/

/-- The status of a container. Its state, if there is one, says since when it runs. -/
structure V1ContainerStatus where
  name : String
  state : Option (Option Int)

/-- A pod's body with its status. -/
structure LivePodBody extends PodBody where
  phase : String
  containerStatuses : Option (List V1ContainerStatus)

/-- The pod without its status. -/
def withoutStatus (pod : V1Pod LivePodBody) : V1Pod PodBody := ⟨pod.name, pod.spec.toPodBody⟩

/-- `get_main_container_status(pod)` -/
def getMainContainerStatus (pod : V1Pod LivePodBody) :
    Except PyError (Option V1ContainerStatus) :=
  match pod.spec.containerStatuses with
  | none => .error (.exception "'NoneType' object is not iterable")
  | some statuses =>
      match statuses.filter (fun s => s.name = "main" || s.name = pod.name) with
      | [status] => .ok (some status)
      | _ => .ok none

/-- `ResourceUsagePredictor.is_running(pod)` -/
def isRunning (pod : V1Pod LivePodBody) : Except PyError Bool :=
  if pod.spec.phase ≠ "Running" then .ok false
  else
    match getMainContainerStatus pod with
    | .error e => .error e
    | .ok none => .ok false
    | .ok (some status) =>
        match status.state with
        | none => .error (noneAttribute "running")
        | some running => .ok running.isSome

/-- `get_start_time(pod)` -/
def getStartTime (pod : V1Pod LivePodBody) : Except PyError (Option Int) :=
  (getMainContainerStatus pod).map (fun status => status.bind (fun s => s.state.bind id))

/-! ## Resources -/

/-- `Resources()` -/
def Resources.zero : Resources := ⟨0, 0, 0, 0, 0⟩

/-- `__add__(self, other)` -/
def Resources.add (self other : Resources) : Resources where
  cpu := self.cpu + other.cpu
  mem := self.mem + other.mem
  disk := self.disk + other.disk
  net := self.net + other.net
  gpu := self.gpu + other.gpu

/-- `to_dict(self)` -/
def Resources.toDict (r : Resources) : OrderedDict String Int :=
  OrderedDict.ofPairs
    [("cpu", r.cpu), ("memMB", r.mem), ("netMbps", r.net), ("diskMB", r.disk), ("gpu", r.gpu)]

/-- `machine_types` -/
def machineTypes : List (String × Resources) :=
  [("m5.metal", ⟨96, 374784, 1637376, 25000, 0⟩),
   ("r5.metal", ⟨96, 761856, 1571840, 25000, 0⟩),
   ("g4dn.metal", ⟨96, 374784, 1571840, 100000, 8⟩),
   ("p3.16xlarge", ⟨64, 480256, 1047552, 25000, 8⟩),
   ("g4dn.4xlarge", ⟨16, 53453, 1047552, 20000, 1⟩),
   ("g4dn.8xlarge", ⟨32, 115712, 1047552, 50000, 1⟩),
   ("r5.24xlarge", ⟨96, 753664, 1571840, 23000, 0⟩),
   ("m5.24xlarge", ⟨96, 366592, 1637376, 23000, 0⟩)]

/-- `populate_from_capacity_env(self)`, given the environment's instance type. The GPUs are
not set to zero where the machine is not known. -/
def Resources.populateFromCapacityEnv (self : Resources) (instanceType : Option String) :
    Resources :=
  let cleared : Resources := { self with cpu := 0, mem := 0, disk := 0, net := 0 }
  let instanceType := instanceType.getD "UNKNOWN"
  if instanceType = "UNKNOWN" then cleared
  else
    match machineTypes.lookup instanceType with
    | none => cleared
    | some machine => machine

/-! ## The predictor -/

/-- `RESOURCE_USAGE_NAMES` -/
def resourceUsageNames : List String :=
  ["cpu_usage", "mem_usage", "net_recv_usage", "net_trans_usage", "disk_usage"]

/-- `RESOURCE_HEADING_MAPPINGS` -/
def resourceHeadingMappings : List (String × String) :=
  [("cpu_usage", "cpu"), ("mem_usage", "mem"), ("net_recv_usage", "net_recv"),
   ("net_trans_usage", "net_trans"), ("disk_usage", "disk")]

section

variable {α : Type}

/-- `get_all_usage_for_workload(workload_id)` -/
def getAllUsageForWorkload (usage : GlobalResourceUsage α) (workloadId : WorkloadId) :
    OrderedDict String (List α) :=
  resourceUsageNames.foldl (fun usages resourceName =>
    match (usage.map.get? resourceName).bind (fun u => u.get? workloadId) with
    | none => usages
    | some values => usages.insert resourceName values) OrderedDict.empty

/-- `__translate_usage(usages)`, given the text of a value. -/
def translateUsage (str : α → String) (usages : OrderedDict String (List α)) :
    Except PyError (OrderedDict String (List String)) :=
  usages.entries.foldlM (fun out e =>
    match resourceHeadingMappings.lookup e.1 with
    | none => .error (.keyError e.1)
    | some heading => .ok (out.insert heading ((e.2.map str).take 60))) OrderedDict.empty

/-- `__get_job_body(pod, resource_usage)` -/
structure JobBody where
  taskId : String
  jobId : String
  startedTsMs : String
  pastUsage : OrderedDict String (List String)

/-- The entry of the body for one pod. -/
def getJobBody (str : α → String) (usage : GlobalResourceUsage α) (pod : V1Pod LivePodBody) :
    Except PyError JobBody := do
  let jobId ← getJobId (withoutStatus pod)
  let startTime ← getStartTime pod
  let pastUsage ← translateUsage str (getAllUsageForWorkload usage pod.name)
  .ok
    { taskId := pod.name
      jobId := jobId
      startedTsMs := match startTime with
        | none => "None"
        | some t => toString t
      pastUsage := pastUsage }

/-- `__get_body(pods, resource_usage)`: the jobs, and the base of the stack's name. -/
structure PredictionBody where
  jobs : List JobBody
  stackBase : String

/-- The body of the request: an entry for each pod. -/
def getBody (str : α → String) (stackBase : String) (pods : List (V1Pod LivePodBody))
    (usage : GlobalResourceUsage α) : Except PyError PredictionBody := do
  let jobs ← pods.mapM (getJobBody str usage)
  .ok { jobs := jobs, stackBase := stackBase }

end

/-- What the predictor answers. The key `meta_data` may be missing or hold `None`. -/
structure RawPredictions (V : Type) where
  modelVersion : Option String
  modelInstanceId : Option String
  predictionTsMs : Option String
  metaData : Option (Option (OrderedDict String String))
  /-- The predictions, each with its task id if it has one. -/
  predictions : Option (List (Option String × RawPrediction V))

/-- `ResourceUsagePredictions` -/
structure ResourceUsagePredictions (V : Type) where
  modelVersion : String
  modelInstanceId : String
  predictionTsMs : Int
  metadata : OrderedDict String String
  predictions : OrderedDict String (ResourceUsagePrediction V)
  predTime2emptyBatch : List V

section

variable {V : Type} (int : String → Except PyError Int) (float : String → Except PyError V)

/-- `ResourceUsagePredictions(raw)`. A second prediction for a task replaces the first. Where
the list of floats cannot be read it stays in the metadata. -/
def ResourceUsagePredictions.new (raw : RawPredictions V) :
    Except PyError (ResourceUsagePredictions V) := do
  let predictionTsMs ← int (raw.predictionTsMs.getD "0")
  let metadata := (raw.metaData.getD (some OrderedDict.empty)).getD OrderedDict.empty
  let predictions := (raw.predictions.getD []).foldl
    (fun d p => d.insert (p.1.getD "UNKNOWN_TASK_ID") (ResourceUsagePrediction.new p.2))
    OrderedDict.empty
  let read := (metadata.get? "pred_time2empty_batch").bind
    (fun content => ((content.splitOn ",").mapM float).toOption)
  .ok
    { modelVersion := raw.modelVersion.getD "UNKNOWN_MODEL_VERSION"
      modelInstanceId := raw.modelInstanceId.getD "UNKNOWN_MODEL_INSTANCE_ID"
      predictionTsMs := predictionTsMs
      metadata := match read with
        | none => metadata
        | some _ => metadata.erase "pred_time2empty_batch"
      predictions := predictions
      predTime2emptyBatch := read.getD [] }

/-- What the predictor and its configuration are to one publishing. -/
structure PredictionService (V α : Type) where
  clientCrt : Option String
  clientKey : Option String
  url : Option String
  stackBase : String
  /-- `wmm.get_resource_usage(workload_ids)` -/
  usage : List WorkloadId → GlobalResourceUsage α
  /-- `get_predictions(client_crt, client_key, url, body)`: no answer but 200 yields anything. -/
  query : String → String → String → PredictionBody → Except PyError (Option (RawPredictions V))

/-- `ResourceUsagePredictor.get_predictions(running_pods, resource_usage)` -/
def PredictionService.getPredictions {α : Type} (service : PredictionService V α)
    (str : α → String) (runningPods : List (V1Pod LivePodBody)) (usage : GlobalResourceUsage α) :
    Except PyError (Option (ResourceUsagePredictions V)) :=
  match service.clientCrt, service.clientKey, service.url with
  | some clientCrt, some clientKey, some url => do
      let body ← getBody str service.stackBase runningPods usage
      let predictions ← service.query clientCrt clientKey url body
      match predictions with
      | none => .ok none
      | some raw => (ResourceUsagePredictions.new int float raw).map some
  | _, _, _ => .ok none

end

/-! ## The resource -/

/-- A node, as far as the publishing reads it. -/
structure V1Node where
  kind : String
  apiVersion : String
  name : String
  uid : String
  annotations : Option (OrderedDict String String)

/-- `get_instance_type(node)` -/
def getInstanceType (node : V1Node) : Except PyError String := do
  let annotations ← getAttr "get" node.annotations
  .ok ((annotations.get? "node.titus.netflix.com/itype").getD "unknown")

/-- `CondensedResourceUsagePrediction`, by its attributes. -/
structure CondensedResourceUsagePrediction (V : Type) where
  prediction : ResourceUsagePrediction V
  modelVersion : String
  modelInstanceId : String
  predictionTsMs : Int
  resourcesCapacity : OrderedDict String Int
  resourcesAllocated : OrderedDict String Int
  instanceType : String
  predTime2emptyBatch : List V
  numBatchContainers : Nat
  numServiceContainers : Nat
  metadata : OrderedDict String String

/-- `ResourceUsagePredictionsResource`, with its metadata. The owner is the node. -/
structure ResourceUsagePredictionsResource (V : Type) where
  apiVersion : String
  kind : String
  metadataNamespace : String
  name : String
  labels : OrderedDict String String
  ownerApiVersion : String
  ownerKind : String
  ownerName : String
  ownerUid : String
  spec : CondensedResourceUsagePrediction V

section

variable {V : Type} [Add V]

/-- What `__condense_predictions` makes of the predictions of a dictionary. -/
def condensed (predictions : List (ResourceUsagePrediction V)) :
    Except PyError (ResourceUsagePrediction V) :=
  let outcome := PredictionStore.condensePredictions predictions (List.range predictions.length)
  outcome.1.bind (fun r => getItem outcome.2 r)

/-- `ANNOTATION_KEY_JOB_TYPE` -/
def annotationKeyJobType : String := "titus.agent.jobType"

/-- The job type a pod's annotations name. -/
def getJobType (pod : V1Pod LivePodBody) : Except PyError (Option String) :=
  (getAttr "get" pod.spec.annotations).map (fun annotations => annotations.get? annotationKeyJobType)

/-- `is_batch_pod(pod)` -/
def isBatchPod (pod : V1Pod LivePodBody) : Except PyError Bool :=
  (getJobType pod).map (fun t => decide (t = some "BATCH"))

/-- `is_service_pod(pod)` -/
def isServicePod (pod : V1Pod LivePodBody) : Except PyError Bool :=
  (getJobType pod).map (fun t => decide (t = some "SERVICE"))

/-- `__compute_num_containers(running_pods)`, from these counts on. -/
def computeNumContainers : List (V1Pod LivePodBody) → Nat → Nat → Except PyError (Nat × Nat)
  | [], numBatch, numService => .ok (numBatch, numService)
  | pod :: pods, numBatch, numService =>
      match isBatchPod pod with
      | .error e => .error e
      | .ok true => computeNumContainers pods (numBatch + 1) numService
      | .ok false =>
          match isServicePod pod with
          | .error e => .error e
          | .ok true => computeNumContainers pods numBatch (numService + 1)
          | .ok false => computeNumContainers pods numBatch numService

variable (parseQuantity : String → Except PyError Decimal)

/-- `__compute_allocated_resources(running_pods)`, from this total on. -/
def computeAllocatedResources : List (V1Pod LivePodBody) → Resources → Except PyError Resources
  | [], total => .ok total
  | pod :: pods, total =>
      match getRequestedResources parseQuantity (withoutStatus pod) with
      | .error e => .error e
      | .ok requested => computeAllocatedResources pods (total.add requested)

/-- `[p for p in pods if is_running(p)]` -/
def runningPods : List (V1Pod LivePodBody) → Except PyError (List (V1Pod LivePodBody))
  | [] => .ok []
  | pod :: pods =>
      match isRunning pod with
      | .error e => .error e
      | .ok true => (runningPods pods).map (fun running => pod :: running)
      | .ok false => runningPods pods

/-- What one publishing finds outside the pod manager. -/
structure PublishCall (V α : Type) where
  /-- `1000 * int(time.mktime(dt.utcnow().timetuple()))` -/
  nowMs : Int
  service : PredictionService V α
  /-- `get_node()` -/
  node : Except PyError V1Node

/-- `KubernetesPredictedUsagePublisher`, as far as it does not change. -/
structure Publisher (V α : Type) where
  resourcesCapacity : Resources
  parseQuantity : String → Except PyError Decimal
  int : String → Except PyError Int
  float : String → Except PyError V
  /-- `str(v)` of a usage value -/
  str : α → String

/-- What is known of the pods: the predictions, and what goes with them. -/
structure PodSummary (V : Type) where
  predictions : Option (ResourceUsagePredictions V)
  allocatedResources : Resources
  numBatchContainers : Nat
  numServiceContainers : Nat

namespace Publisher

variable {α : Type} (publisher : Publisher V α) (call : PublishCall V α)

/-- `ResourceUsagePredictions({})` at this time. -/
def noPredictions (nowMs : Int) : ResourceUsagePredictions V where
  modelVersion := "UNKNOWN_MODEL_VERSION"
  modelInstanceId := "UNKNOWN_MODEL_INSTANCE_ID"
  predictionTsMs := nowMs
  metadata := OrderedDict.empty
  predictions := OrderedDict.empty
  predTime2emptyBatch := []

/-- The first half of `publish`, given what the two looks at the pod manager show. The second
is taken only if the first shows any pod. -/
def summarize (first second : List (V1Pod LivePodBody)) : Except PyError (PodSummary V) :=
  if first.length = 0 then
    .ok
      { predictions := some (noPredictions call.nowMs)
        allocatedResources := Resources.zero
        numBatchContainers := 0
        numServiceContainers := 0 }
  else do
    let running ← runningPods second
    let allocatedResources ←
      computeAllocatedResources publisher.parseQuantity running Resources.zero
    let usage := call.service.usage (running.map V1Pod.name)
    let predictions ←
      call.service.getPredictions publisher.int publisher.float publisher.str running usage
    let (numBatchContainers, numServiceContainers) ← computeNumContainers running 0 0
    .ok
      { predictions := predictions
        allocatedResources := allocatedResources
        numBatchContainers := numBatchContainers
        numServiceContainers := numServiceContainers }

/-- The body `publish` makes for the resource of the node. -/
def makeBody (summary : PodSummary V) : Except PyError (ResourceUsagePredictionsResource V) := do
  let node ← call.node
  let instanceType ← getInstanceType node
  let predictions ← getAttr "predictions" summary.predictions
  let prediction ← condensed predictions.predictions.values
  .ok
    { apiVersion := "titus.netflix.com/v3"
      kind := "PredictedResourceUsage"
      metadataNamespace := "default"
      name := node.name
      labels := OrderedDict.ofPairs [("node_name", node.name), ("node_uid", node.uid)]
      ownerApiVersion := node.apiVersion
      ownerKind := node.kind
      ownerName := node.name
      ownerUid := node.uid
      spec :=
        { prediction := prediction
          modelVersion := predictions.modelVersion
          modelInstanceId := predictions.modelInstanceId
          predictionTsMs := predictions.predictionTsMs
          resourcesCapacity := publisher.resourcesCapacity.toDict
          resourcesAllocated := summary.allocatedResources.toDict
          instanceType := instanceType
          predTime2emptyBatch := predictions.predTime2emptyBatch
          numBatchContainers := summary.numBatchContainers
          numServiceContainers := summary.numServiceContainers
          metadata := predictions.metadata } }

/-- `publish` up to its requests, given what its two looks at the pods show. -/
def prepare (first second : List (V1Pod LivePodBody)) :
    Except PyError (ResourceUsagePredictionsResource V) :=
  (publisher.summarize call first second).bind (publisher.makeBody call)

end Publisher

end

/-! ## The handler of the prediction events -/

/-- How a request to Kubernetes ends. -/
inductive ApiAnswer where
  | done
  /-- An `ApiException` with this status. -/
  | refused (status : Nat)
  | raised (e : PyError)

/-- The calls of the custom objects API that are made. -/
inductive ApiVerb where
  | patch
  | create
  deriving DecidableEq

/-- A request that was made, and what it was made from: what the publishing found outside the
pod manager, and how many changes of the pods each look had seen. -/
structure ApiRequest (V α : Type) where
  verb : ApiVerb
  body : ResourceUsagePredictionsResource V
  call : PublishCall V α
  firstView : Nat
  secondView : Nat
  answer : ApiAnswer

/-- Where a thread of the handler is. What its body was made from stays with it as history. -/
inductive PublishPhase (V α : Type) where
  /-- At `with self.__publish_lock`. -/
  | waiting
  /-- Inside, before the first look at the pods. -/
  | looking
  /-- After the first look, with what it showed. -/
  | gathering (first : List (V1Pod LivePodBody)) (view : Nat)
  | patching (body : ResourceUsagePredictionsResource V) (call : PublishCall V α)
      (firstView secondView : Nat)
  | creating (body : ResourceUsagePredictionsResource V) (call : PublishCall V α)
      (firstView secondView : Nat)
  /-- Outside again: `publish` has returned or raised, and is to be counted. -/
  | leaving (returned : Bool)

/-- `ResourceUsagePredictionHandler` with its publisher, its threads and the pod manager. -/
structure PublishWorld (V α : Type) where
  podManager : PodManager LivePodBody
  /-- `__publish_lock`: the thread that holds it. -/
  publishLock : Option Nat
  threads : OrderedDict Nat (PublishPhase V α)
  publishSuccessCount : Nat
  publishFailureCount : Nat
  /-- What the registry's counters were incremented by, all in all. -/
  reportedSuccess : Nat
  reportedFailure : Nat
  /-- History: what the pod manager held after each change, the requests made, the events that
  were to be published, and how many publishings returned and how many raised. -/
  views : List (List (V1Pod LivePodBody))
  requests : List (ApiRequest V α)
  asked : Nat
  returned : Nat
  raised : Nat

/-- What can happen next. -/
inductive PublishStep (V α : Type) where
  /-- The pod manager handles an event of its watch. -/
  | podEvent (event : WatchEvent LivePodBody)
  /-- `handle(event)` starts this thread. -/
  | handle (thread : Nat) (event : HandlerEvent)
  /-- The thread goes on; a request it makes is answered so. -/
  | go (thread : Nat) (call : PublishCall V α) (answer : ApiAnswer)
  /-- `report_metrics(tags)` -/
  | report

namespace PublishWorld

variable {V α : Type}

/-- The world before the first event. -/
def init (podManager : PodManager LivePodBody) : PublishWorld V α where
  podManager := podManager
  publishLock := none
  threads := OrderedDict.empty
  publishSuccessCount := 0
  publishFailureCount := 0
  reportedSuccess := 0
  reportedFailure := 0
  views := [podManager.getPods]
  requests := []
  asked := 0
  returned := 0
  raised := 0

/-- How many changes of the pods there have been. -/
def view (w : PublishWorld V α) : Nat := w.views.length - 1

/-- The thread is now there. -/
def enter (w : PublishWorld V α) (thread : Nat) (phase : PublishPhase V α) : PublishWorld V α :=
  { w with threads := w.threads.insert thread phase }

/-- `publish` has returned, and the lock is let go. -/
def leaveReturned (w : PublishWorld V α) (thread : Nat) : PublishWorld V α :=
  { w with
    publishLock := none
    threads := w.threads.insert thread (.leaving true)
    returned := w.returned + 1 }

/-- `publish` has raised, and the lock is let go. -/
def leaveRaised (w : PublishWorld V α) (thread : Nat) : PublishWorld V α :=
  { w with
    publishLock := none
    threads := w.threads.insert thread (.leaving false)
    raised := w.raised + 1 }

/-- A request has been made. -/
def log (w : PublishWorld V α) (request : ApiRequest V α) : PublishWorld V α :=
  { w with requests := w.requests ++ [request] }

/-- The second look at the pods, and the body that is made of it. -/
def gather [Add V] (publisher : Publisher V α) (w : PublishWorld V α) (thread : Nat)
    (call : PublishCall V α) (first : List (V1Pod LivePodBody)) (firstView : Nat) :
    PublishWorld V α :=
  match publisher.prepare call first w.podManager.getPods with
  | .error _ => w.leaveRaised thread
  | .ok body => w.enter thread (.patching body call firstView w.view)

/-- `patch_namespaced_custom_object(..)`: a refusal other than 404 is logged and forgotten. -/
def patch (w : PublishWorld V α) (thread : Nat) (body : ResourceUsagePredictionsResource V)
    (call : PublishCall V α) (firstView secondView : Nat) (answer : ApiAnswer) :
    PublishWorld V α :=
  let w := w.log ⟨.patch, body, call, firstView, secondView, answer⟩
  match answer with
  | .done => w.leaveReturned thread
  | .refused status =>
      if status = 404 then w.enter thread (.creating body call firstView secondView)
      else w.leaveReturned thread
  | .raised _ => w.leaveRaised thread

/-- `create_namespaced_custom_object(..)` -/
def create (w : PublishWorld V α) (thread : Nat) (body : ResourceUsagePredictionsResource V)
    (call : PublishCall V α) (firstView secondView : Nat) (answer : ApiAnswer) :
    PublishWorld V α :=
  let w := w.log ⟨.create, body, call, firstView, secondView, answer⟩
  match answer with
  | .done => w.leaveReturned thread
  | .refused _ => w.leaveRaised thread
  | .raised _ => w.leaveRaised thread

/-- The thread counts how `publish` ended, which ends it. -/
def count (w : PublishWorld V α) (thread : Nat) (returned : Bool) : PublishWorld V α :=
  let w := { w with threads := w.threads.erase thread }
  if returned then { w with publishSuccessCount := w.publishSuccessCount + 1 }
  else { w with publishFailureCount := w.publishFailureCount + 1 }

/-- The next step of `_handle`. -/
def go [Add V] (publisher : Publisher V α) (w : PublishWorld V α) (thread : Nat)
    (call : PublishCall V α) (answer : ApiAnswer) : PublishWorld V α :=
  match w.threads.get? thread with
  | none => w
  | some .waiting =>
      match w.publishLock with
      | some _ => w
      | none => { w.enter thread .looking with publishLock := some thread }
  | some .looking => w.enter thread (.gathering w.podManager.getPods w.view)
  | some (.gathering first view) => w.gather publisher thread call first view
  | some (.patching body made firstView secondView) =>
      w.patch thread body made firstView secondView answer
  | some (.creating body made firstView secondView) =>
      w.create thread body made firstView secondView answer
  | some (.leaving returned) => w.count thread returned

/-- `handle(event)`: the thread of an irrelevant event ends at once. -/
def handle (w : PublishWorld V α) (thread : Nat) : HandlerEvent → PublishWorld V α
  | .internal .predictUsage =>
      match w.threads.get? thread with
      | some _ => w
      | none => { w.enter thread .waiting with asked := w.asked + 1 }
  | .internal .rebalance => w
  | .internal .reconcile => w
  | .containerBatch _ => w

/-- `report_metrics(tags)` -/
def reportMetrics (w : PublishWorld V α) : PublishWorld V α :=
  { w with
    reportedSuccess := w.reportedSuccess + w.publishSuccessCount
    reportedFailure := w.reportedFailure + w.publishFailureCount
    publishSuccessCount := 0
    publishFailureCount := 0 }

/-- One event of the watch, or one step of a thread. -/
def step [Add V] (publisher : Publisher V α) (w : PublishWorld V α) :
    PublishStep V α → PublishWorld V α
  | .podEvent event =>
      let podManager := w.podManager.handleEvent event
      { w with podManager := podManager, views := w.views ++ [podManager.getPods] }
  | .handle thread event => w.handle thread event
  | .go thread call answer => w.go publisher thread call answer
  | .report => w.reportMetrics

end PublishWorld

end TitusIsolate
