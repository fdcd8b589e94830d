import TitusIsolate.Allocate.Remote
import TitusIsolate.Lib.AsciiJson

/-!
# Asking the service

`__process` completes the request that `__build_base_req` began with the workloads to place,
their jobs, their thread counts as a JSON text in the metadata, and the constraints found in
a file, when there is one that can be read. The service answers or raises; what it answers
is read back.
-/

namespace TitusIsolate

namespace Pb

/-- The whole request. `Constraints` is the message in the constraints file. -/
structure ComputeIsolationRequest (Constraints : Type) extends IsolationRequest where
  taskToJobId : OrderedDict WorkloadId String
  tasksToPlace : List WorkloadId
  constraints : Option Constraints

end Pb

/-- What is outside: the constraints file and its parser, and the service at the endpoint. -/
structure RemoteService (Rng Constraints : Type) where
  /-- `open(CONSTRAINTS_FILE_PATH)`, read. -/
  constraintsFile : Ambient Rng → Except PyError String
  /-- `ParsePbJson(text, pb.Constraints())` -/
  parseConstraints : String → Except PyError Constraints
  /-- `self.__stub.ComputeIsolation(req, timeout=...)` -/
  computeIsolation : Ambient Rng → Pb.ComputeIsolationRequest Constraints →
    Except PyError Pb.IsolationResponse

namespace GrpcRemoteIsolationAllocator

/-- `REQ_TYPE_METADATA_KEY` -/
def reqTypeMetadataKey : String := "req_type"

/-- The key of the thread counts in the request's metadata. -/
def workloadIdToThreadCountKey : String := "workload_id_to_thread_count"

section

variable {Rng Constraints : Type} (service : RemoteService Rng Constraints)

/-- `__load_custom_constraints()`: a file that is missing or cannot be parsed is none. -/
def loadCustomConstraints (ambient : Ambient Rng) : Option Constraints :=
  (service.constraintsFile ambient >>= service.parseConstraints).toOption

/-- `workload_id_to_thread_count` -/
def workloadIdToThreadCount (workloads : WorkloadMap) : OrderedDict WorkloadId String :=
  OrderedDict.ofPairs (workloads.values.map (fun w => (w.taskId, toString w.threadCount)))

/-- `req.task_to_job_id` -/
def taskToJobId (workloads : WorkloadMap) : OrderedDict WorkloadId String :=
  OrderedDict.ofPairs (workloads.values.map (fun w => (w.taskId, w.jobId)))

/-- What `__process` hands to the service. -/
def buildReq (a : GrpcRemoteIsolationAllocator) (ambient : Ambient Rng)
    (request : AllocateRequest) : Except PyError (Pb.ComputeIsolationRequest Constraints) := do
  let req ← a.buildBaseReq request.cpu
  .ok
    { req with
      metadata := (req.metadata.insert reqTypeMetadataKey "isolate").insert
        workloadIdToThreadCountKey
        (AsciiJson.dumps (workloadIdToThreadCount request.workloads).entries)
      taskToJobId := taskToJobId request.workloads
      tasksToPlace := request.workloads.keys
      constraints := loadCustomConstraints service ambient }

/-- `__process(request)` -/
def process (a : GrpcRemoteIsolationAllocator) (ambient : Ambient Rng)
    (request : AllocateRequest) : Except PyError AllocateResponse := do
  let req ← a.buildReq service ambient request
  let response ← service.computeIsolation ambient req
  a.deser ambient response

/-- The allocator, which reads the request and leaves it as it is. -/
def toCpuAllocator (a : GrpcRemoteIsolationAllocator) : CpuAllocator Rng where
  getName := getName
  isNoop := false
  isolate ambient request :=
    { request, rng := ambient.rng, result := a.process service ambient request }

end

end GrpcRemoteIsolationAllocator

end TitusIsolate
