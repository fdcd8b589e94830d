import TitusIsolate.Isolate.WorkloadManager

/-!
# Reporting an event

After a call of `isolate` is committed its request and its response go to the event log.
The payload is built before the event log manager is called, so an exception there ends
the call; whatever the manager itself raises it catches and counts.
-/

namespace TitusIsolate

/-- `get_cpu_event(request, response)`. A CPU stands for its `to_dict()` and `to_array()`,
which list its ids and claims. -/
structure CpuEvent where
  requestCpu : Cpu
  /-- `__get_serializable_workloads(workloads)` -/
  workloads : OrderedDict WorkloadId String
  requestMetadata : List (String × Option String)
  responseCpu : Cpu
  workloadAllocations : List WorkloadAllocateResponse
  responseMetadata : OrderedDict String String

/-- `KeystoneEventLogManager`: the messages queued and the events it failed to report. -/
structure EventLogManager where
  q : List CpuEvent
  failedMsgCount : Nat

/-- What the reporting of an event reads from the rest of the process. -/
structure EventLog where
  /-- `get_event_log_manager()` -/
  manager : Option EventLogManager
  /-- `w.to_dict()`, for a pod whatever its own `to_dict` and `json` make of it. -/
  toDict : Workload → Except PyError String
  /-- The host name, the clock and the random id that `report_event` puts around a payload. -/
  getEventMsg : CpuEvent → Except PyError CpuEvent

namespace EventLog

/-- `serializable_workloads[w.get_task_id()] = w.to_dict()` for each workload in turn. -/
def getSerializableWorkloads (log : EventLog) :
    List Workload → OrderedDict WorkloadId String → Except PyError (OrderedDict WorkloadId String)
  | [], serializable => .ok serializable
  | w :: ws, serializable =>
      match log.toDict w with
      | .error e => .error e
      | .ok d => log.getSerializableWorkloads ws (serializable.insert w.taskId d)

/-- `get_cpu_event(request, response)` -/
def getCpuEvent (log : EventLog) (request : AllocateRequest) (response : AllocateResponse) :
    Except PyError CpuEvent :=
  match log.getSerializableWorkloads request.workloads.values OrderedDict.empty with
  | .error e => .error e
  | .ok workloads =>
      .ok
        { requestCpu := request.cpu
          workloads := workloads
          requestMetadata := request.metadata
          responseCpu := response.cpu
          workloadAllocations := response.workloadAllocations
          responseMetadata := response.metadata }

/-- `KeystoneEventLogManager.report_event(payload)` -/
def reportEvent (log : EventLog) (manager : EventLogManager) (payload : CpuEvent) :
    EventLogManager :=
  match log.getEventMsg payload with
  | .error _ => { manager with failedMsgCount := manager.failedMsgCount + 1 }
  | .ok msg => { manager with q := manager.q ++ [msg] }

/-- `report_cpu_event(request, response)`, with the event log manager afterwards. -/
def reportCpuEvent (log : EventLog) (request : AllocateRequest) (response : AllocateResponse) :
    Except PyError (Option EventLogManager) :=
  match log.manager with
  | none => .ok none
  | some manager =>
      match log.getCpuEvent request response with
      | .error e => .error e
      | .ok payload => .ok (some (log.reportEvent manager payload))

/-- `to_dict()` answers for every workload. -/
def Serializes (log : EventLog) : Prop := ∀ w, ∃ d, log.toDict w = .ok d

theorem getSerializableWorkloads_ok {log : EventLog} (h : log.Serializes) :
    ∀ (ws : List Workload) (serializable : OrderedDict WorkloadId String),
      ∃ d, log.getSerializableWorkloads ws serializable = .ok d
  | [], serializable => ⟨serializable, rfl⟩
  | w :: ws, serializable => by
      obtain ⟨d, hd⟩ := h w
      unfold getSerializableWorkloads
      rw [hd]
      exact getSerializableWorkloads_ok h ws _

/-- **Reporting raises only where a workload cannot be written down.** -/
theorem reportCpuEvent_ok {log : EventLog} (h : log.Serializes) (request : AllocateRequest)
    (response : AllocateResponse) :
    ∃ manager, log.reportCpuEvent request response = .ok manager := by
  unfold reportCpuEvent
  cases log.manager with
  | none => exact ⟨none, rfl⟩
  | some manager =>
    obtain ⟨d, hd⟩ := getSerializableWorkloads_ok h request.workloads.values OrderedDict.empty
    unfold getCpuEvent
    rw [hd]
    exact ⟨_, rfl⟩

/-- The report of one call, made to whatever event log the call finds. -/
def reporter {Rng : Type} (eventLog : Ambient Rng → EventLog) (ambient : Ambient Rng)
    (request : AllocateRequest) (response : AllocateResponse) : Except PyError Unit :=
  ((eventLog ambient).reportCpuEvent request response).map (fun _ => ())

end EventLog

end TitusIsolate
