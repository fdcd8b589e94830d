import TitusIsolate.Allocate.RemoteProcess
import TitusIsolate.Cgroup.Cpuset
import TitusIsolate.Proof.RemoteDecode

/-!
# The service is told everything

Claims go out as the layout, jobs as a field of their own, and thread counts as a text inside
a text: numbers in a JSON object in the metadata. Two requests that make one message have the
same workloads in the same order and the same claims.
-/

namespace TitusIsolate

open Raising

/-! ## Thread counts -/

theorem pyInt_toString (n : Int) : pyInt (toString n).toList = .ok n := by
  cases n with
  | ofNat n => exact pyInt_repr n
  | negSucc n =>
    have hrepr : (toString (Int.negSucc n)).toList = '-' :: (n + 1).repr.toList := by
      have htext : toString (Int.negSucc n) = "-" ++ (n + 1).repr := rfl
      rw [htext, String.toList_append]
      rfl
    rw [hrepr]
    exact pyInt_neg_repr (n + 1)

theorem toString_int_injective {m n : Int} (h : toString m = toString n) : m = n := by
  have hread := pyInt_toString m
  rw [h, pyInt_toString n] at hread
  exact (Except.ok.inj hread).symm

namespace GrpcRemoteIsolationAllocator

/-! ## The fields -/

section

variable {Rng Constraints : Type} {service : RemoteService Rng Constraints}
  {a : GrpcRemoteIsolationAllocator} {ambient ambient' : Ambient Rng}
  {request request' : AllocateRequest} {req req' : Pb.ComputeIsolationRequest Constraints}

/-- A dictionary made of the workloads, each under its task id. -/
theorem entries_ofPairs_values (m : WorkloadMap) (f : Workload → String) :
    (OrderedDict.ofPairs (m.values.map (fun w => (w.taskId, f w)))).entries
      = m.values.map (fun w => (w.taskId, f w)) := by
  refine OrderedDict.entries_ofPairs ?_
  rw [List.map_map]
  exact m.values_taskId_nodup

theorem workloads_of_columns : ∀ {ws ws' : List Workload},
    ws.map (fun w => (w.taskId, w.jobId)) = ws'.map (fun w => (w.taskId, w.jobId)) →
    ws.map (fun w => (w.taskId, toString w.threadCount))
      = ws'.map (fun w => (w.taskId, toString w.threadCount)) → ws = ws'
  | [], ws', hj, _ => (List.map_eq_nil_iff.mp hj.symm).symm
  | w :: ws, [], hj, _ => absurd hj (by simp)
  | w :: ws, w' :: ws', hj, hc => by
      obtain ⟨hjob, hjobs⟩ := List.cons.inj hj
      obtain ⟨hcount, hcounts⟩ := List.cons.inj hc
      have hw : w = w' := by
        cases w
        cases w'
        obtain ⟨rfl, rfl⟩ := Prod.mk.inj hjob
        obtain rfl := toString_int_injective (Prod.mk.inj hcount).2
        rfl
      rw [hw, workloads_of_columns hjobs hcounts]

/-- Jobs and thread counts together are the workloads. -/
theorem workloads_of_fields {m m' : WorkloadMap} (hjobs : taskToJobId m = taskToJobId m')
    (hcounts : workloadIdToThreadCount m = workloadIdToThreadCount m') : m = m' := by
  have hj := congrArg OrderedDict.entries hjobs
  have hc := congrArg OrderedDict.entries hcounts
  unfold taskToJobId at hj
  unfold workloadIdToThreadCount at hc
  rw [entries_ofPairs_values, entries_ofPairs_values] at hj hc
  have hvalues : m.values = m'.values := workloads_of_columns hj hc
  refine WorkloadMap.ext (OrderedDict.ext ?_)
  have hentries : ∀ m : WorkloadMap, m.dict.entries = m.values.map (fun w => (w.taskId, w)) := by
    intro m
    unfold WorkloadMap.values OrderedDict.values
    rw [List.map_map]
    conv_lhs => rw [← List.map_id m.dict.entries]
    exact List.map_congr_left (fun e he => Prod.ext (m.keyed e he) rfl)
  rw [hentries, hentries, hvalues]

/-- Two messages that are the same for the service: their map fields agree key by key. -/
structure SameMessage (req req' : Pb.ComputeIsolationRequest Constraints) : Prop where
  layout : req.layout = req'.layout
  instanceContext : req.instanceContext = req'.instanceContext
  metadata : ∀ k, req.metadata.get? k = req'.metadata.get? k
  taskToJobId : ∀ u, req.taskToJobId.get? u = req'.taskToJobId.get? u
  tasksToPlace : req.tasksToPlace = req'.tasksToPlace
  constraints : req.constraints = req'.constraints

theorem SameMessage.refl (req : Pb.ComputeIsolationRequest Constraints) : SameMessage req req :=
  ⟨rfl, rfl, fun _ => rfl, fun _ => rfl, rfl, rfl⟩

theorem keys_taskToJobId (m : WorkloadMap) : (taskToJobId m).keys = m.keys := by
  unfold taskToJobId OrderedDict.keys
  rw [entries_ofPairs_values, List.map_map]
  exact m.values_map_taskId

/-- What a message that could be made is made of. -/
theorem buildReq_ok (h : a.buildReq service ambient request = .ok req) :
    (∃ base, a.buildBaseReq request.cpu = .ok base ∧ req.layout = base.layout)
      ∧ req.taskToJobId = taskToJobId request.workloads
      ∧ req.tasksToPlace = request.workloads.keys
      ∧ req.metadata.get? workloadIdToThreadCountKey
        = some (AsciiJson.dumps (workloadIdToThreadCount request.workloads).entries) := by
  obtain ⟨base, hbase, h⟩ := bind_eq_ok.mp h
  cases h
  refine ⟨⟨base, hbase, rfl⟩, rfl, rfl, ?_⟩
  rw [OrderedDict.get?_insert, if_pos rfl]

/-- What is listed depends on the layout alone. -/
theorem lists_of_layout {base base' : Pb.IsolationRequest} (h : base.layout = base'.layout)
    {w : WorkloadId} {i : UInt32} : Lists base w i ↔ Lists base' w i := by
  unfold Lists
  rw [h]

/-- **Nothing is lost on the way to the service**: one message is made by requests with the
same workloads, in the same order, and the same claims. -/
theorem buildReq_injective {P C T : Nat} (hmachine : Config.getCpu P C T = .ok a.emptyCpu)
    (h : a.buildReq service ambient request = .ok req)
    (h' : a.buildReq service ambient' request' = .ok req') (hsame : SameMessage req req') :
    request.workloads = request'.workloads
      ∧ ∀ u i, i ∈ Update.getThreads request.cpu u ↔ i ∈ Update.getThreads request'.cpu u := by
  obtain ⟨hP, hC, hT⟩ := Config.getCpu_pos hmachine
  have hids := Config.getCpu_ids_nodup hP hC hT hmachine
  obtain ⟨⟨base, hbase, hlayout⟩, hjobs, hplaced, hcounts⟩ := buildReq_ok h
  obtain ⟨⟨base', hbase', hlayout'⟩, hjobs', hplaced', hcounts'⟩ := buildReq_ok h'
  refine ⟨?_, ?_⟩
  · refine workloads_of_fields (OrderedDict.ext_get? ?_ ?_) ?_
    · -- the order comes from the tasks to place
      rw [keys_taskToJobId, keys_taskToJobId, ← hplaced, ← hplaced', hsame.tasksToPlace]
    · intro u _
      rw [← hjobs, ← hjobs']
      exact hsame.taskToJobId u
    · have htexts := Option.some.inj
        (hcounts.symm.trans ((hsame.metadata workloadIdToThreadCountKey).trans hcounts'))
      exact OrderedDict.ext (AsciiJson.dumps_injective htexts)
  · intro u i
    rw [← lists_iff hids hbase, ← lists_iff hids hbase']
    simp only [lists_of_layout (hlayout.symm.trans (hsame.layout.trans hlayout'))]

end

/-- A service that answers nothing, without a constraints file. -/
def silentService : RemoteService Unit Unit where
  constraintsFile _ := .error (.exception "no such file")
  parseConstraints _ := .ok ()
  computeIsolation _ _ := .error (.exception "unavailable")

/-- `a` and `b` on the crossed CPU, for a call with the given metadata. -/
def crossedQuestion (metadata : List (String × Option String)) : AllocateRequest where
  cpu := crossedClaims
  workloads := (WorkloadMap.empty.put ⟨"a", "job", 1⟩).put ⟨"b", "job", 2⟩
  metadata := metadata

/-- The metadata of the call is not sent. -/
theorem buildReq_injective_crossed : ∃ req,
    crossedAllocator.buildReq silentService (Ambient.unset ()) (crossedQuestion []) = .ok req
      ∧ (crossedQuestion []).workloads = (crossedQuestion [("type", none)]).workloads
      ∧ ∀ u i, i ∈ Update.getThreads (crossedQuestion []).cpu u
          ↔ i ∈ Update.getThreads (crossedQuestion [("type", none)]).cpu u := by
  have hmachine : Config.getCpu 2 1 2 = .ok crossedAllocator.emptyCpu := rfl
  obtain ⟨req, hreq⟩ : ∃ req, crossedAllocator.buildReq silentService (Ambient.unset ())
      (crossedQuestion []) = .ok req := ⟨_, rfl⟩
  have hreq' : crossedAllocator.buildReq silentService (Ambient.unset ())
      (crossedQuestion [("type", none)]) = .ok req := hreq
  exact ⟨req, hreq, buildReq_injective hmachine hreq hreq' (SameMessage.refl req)⟩

end GrpcRemoteIsolationAllocator

end TitusIsolate
