import TitusIsolate.Isolate.WorkloadManager

/-!
# What one isolate can do

A call either finds its allocator raising, and then makes its releases and counts an
error, or it is answered, and then installs the answer. What happens after the answer
is installed decides the return value and the counters, not the state.
-/

namespace TitusIsolate

section

variable {Rng : Type} {allocator : CpuAllocator Rng}
  {reportCpuEvent : Ambient Rng → AllocateRequest → AllocateResponse → Except PyError Unit}
  {wm : WorkloadManager} {call : IsolateCall Rng}

/-- A call whose allocator raises makes its releases and counts an error. -/
theorem isolate_of_error {e : PyError}
    (h : (allocator.isolate call.ambient (wm.requestFor call)).result = .error e) :
    wm.isolate allocator reportCpuEvent call
      = { manager := wm.countError
          cgroupCalls := call.removes.map CgroupCall.releaseContainer
          response := none
          success := false } := by
  unfold WorkloadManager.isolate
  simp only [h]

/-- What a call that was answered leaves behind. -/
structure Installed (wm : WorkloadManager) (adds : List Workload) (removes : List WorkloadId)
    (response : AllocateResponse) (outcome : IsolateOutcome) : Prop where
  cpu : outcome.manager.cpu = response.cpu
  workloads : outcome.manager.workloads = wm.newWorkloads adds removes
  lastResponse : outcome.manager.lastResponse = some response
  answer : outcome.response = some response
  cgroupCalls : outcome.cgroupCalls = removes.map CgroupCall.releaseContainer
    ++ WorkloadManager.applyIsolation wm.lastResponse response

/-- A call whose allocator answers installs the answer, also when the report that
follows raises. -/
theorem isolate_of_ok
    (reportCpuEvent : Ambient Rng → AllocateRequest → AllocateResponse → Except PyError Unit)
    {response : AllocateResponse}
    (h : (allocator.isolate call.ambient (wm.requestFor call)).result = .ok response) :
    Installed wm call.adds call.removes response (wm.isolate allocator reportCpuEvent call) := by
  unfold WorkloadManager.isolate
  simp only [h]
  split
  · exact ⟨rfl, rfl, rfl, rfl, rfl⟩
  · exact ⟨rfl, rfl, rfl, rfl, rfl⟩

theorem mem_keys_newWorkloads {adds : List Workload} {removes : List WorkloadId} {x : WorkloadId} :
    x ∈ (wm.newWorkloads adds removes).keys
      ↔ x ∈ adds.map Workload.taskId ∨ (x ∉ removes ∧ x ∈ wm.workloads.keys) := by
  unfold WorkloadManager.newWorkloads
  rw [WorkloadMap.mem_keys_putAll, WorkloadMap.mem_keys_popAll]

/-- A workload in the new map was added or was there before. -/
theorem mem_values_newWorkloads {adds : List Workload} {removes : List WorkloadId} {w : Workload}
    (h : w ∈ (wm.newWorkloads adds removes).values) : w ∈ adds ∨ w ∈ wm.workloads.values := by
  rcases WorkloadMap.mem_values_putAll h with h | h
  · exact Or.inl h
  · exact Or.inr (WorkloadMap.mem_values_popAll h)

end

end TitusIsolate
