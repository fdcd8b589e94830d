import TitusIsolate.Isolate.Reconciler
import TitusIsolate.Lib.Run
import TitusIsolate.Proof.Accounting
import TitusIsolate.Proof.Fallback
import TitusIsolate.Proof.LastResponse

/-!
# The CPU model and the cgroups

On a cgroup manager whose writes take effect at once, the claims of the CPU model, the
cpusets and the isolated ids are three copies of one thing. `isolate` keeps them equal
as long as it does not release what it then leaves alone: a workload whose allocation
is skipped because it equals the last one, a workload of a call that is refused, or,
the other way round, a workload that loses its threads without being released.
-/

namespace TitusIsolate

/-! ## What the calls do -/

namespace MockCgroupManager

theorem performAll_append (m : MockCgroupManager) (cs ds : List CgroupCall) :
    m.performAll (cs ++ ds) = (m.performAll cs).performAll ds := by
  unfold performAll
  exact List.foldl_append

/-- The cpuset on record for a container. -/
def record (m : MockCgroupManager) (u : WorkloadId) : Option (List Nat) :=
  m.containerUpdateMap.get? u

theorem mem_isolated_iff {m : MockCgroupManager} {u : WorkloadId} :
    u ∈ m.getIsolatedWorkloadIds ↔ ∃ ids, m.record u = some ids := OrderedDict.mem_keys_iff

theorem record_releases (m : MockCgroupManager) (removes : List WorkloadId) (u : WorkloadId) :
    (m.performAll (removes.map CgroupCall.releaseContainer)).record u
      = if u ∈ removes then none else m.record u := by
  induction removes generalizing m with
  | nil => simp [performAll]
  | cons w ws ih =>
    have hone : (m.perform (.releaseContainer w)).record u
        = if u = w then none else m.record u := by
      unfold perform record
      dsimp only
      split
      · exact OrderedDict.get?_erase _ _ _
      · rename_i hw
        by_cases hu : u = w
        · rw [if_pos hu, hu]
          exact OrderedDict.get?_eq_none_iff.mpr hw
        · rw [if_neg hu]
    rw [List.map_cons]
    have hstep : m.performAll (.releaseContainer w :: ws.map CgroupCall.releaseContainer)
        = (m.perform (.releaseContainer w)).performAll (ws.map CgroupCall.releaseContainer) := rfl
    rw [hstep, ih, hone]
    by_cases hu : u = w
    · simp [hu]
    · simp [hu]

theorem record_allocation (m : MockCgroupManager) (a : WorkloadAllocateResponse) (u : WorkloadId) :
    (m.performAll (WorkloadManager.allocationCalls a)).record u
      = if u = a.workloadId then some a.threadIds else m.record u :=
  OrderedDict.get?_insert _ _ _ _

/-- After the allocations have been applied, a workload's cpuset is the one its
allocation lists, or what it was when it has none or the allocation is skipped. -/
theorem record_applyIsolation (last : Option AllocateResponse) (u : WorkloadId)
    (allocs : List WorkloadAllocateResponse) (m : MockCgroupManager) (hnd : ListsOnce allocs) :
    (m.performAll (allocs.flatMap
        (fun a => if WorkloadManager.skips last a then []
          else WorkloadManager.allocationCalls a))).record u
      = match findAllocation allocs u with
        | none => m.record u
        | some a => if WorkloadManager.skips last a then m.record u else some a.threadIds :=
  look_foldl_allocations perform (fun m => m.record u) (fun a => some a.threadIds)
    (WorkloadManager.skips last) (fun m a => record_allocation m a u) m hnd

end MockCgroupManager

/-! ## What the reconciler checks -/

namespace Reconciler

theorem getWorkloads_eq (cpu : Cpu) : getWorkloads cpu = cpu.getWorkloadIdsToThreadIds := by
  rw [getWorkloadIdsToThreadIds_eq]
  unfold getWorkloads
  congr 1
  funext workloads t
  unfold enterClaims
  congr 1
  funext workloads w
  cases workloads.get? w with
  | none => rfl
  | some ids => rfl

/-- What the reconciler expects of each claimed workload. -/
theorem mem_getWorkloads {cpu : Cpu} {u : WorkloadId} {ids : List Nat}
    (h : (u, ids) ∈ (getWorkloads cpu).entries) : Claimed cpu u ∧ ids = Update.getThreads cpu u := by
  rw [getWorkloads_eq, ← OrderedDict.get?_eq_some_iff, getWorkloadIdsToThreadIds_get?] at h
  by_cases hcl : Claimed cpu u
  · rw [if_pos hcl] at h
    exact ⟨hcl, (Option.some.inj h).symm⟩
  · rw [if_neg hcl] at h
    exact absurd h (by simp)

theorem insertionSort_eq_of_perm {xs ys : List Nat} (h : xs.Perm ys) :
    xs.insertionSort (· ≤ ·) = ys.insertionSort (· ≤ ·) :=
  ((List.perm_insertionSort _ xs).trans (h.trans (List.perm_insertionSort _ ys).symm)).eq_of_pairwise'
    (List.pairwise_insertionSort _ xs) (List.pairwise_insertionSort _ ys)

/-- The check passes when every cpuset read back is a rearrangement of the claims. -/
theorem check_of_perm {getCpuset : WorkloadId → Except PyError (List Nat)}
    {claims : List (WorkloadId × List Nat)}
    (h : ∀ e ∈ claims, ∃ cpuset, getCpuset e.1 = .ok cpuset ∧ cpuset.Perm e.2) :
    check getCpuset claims = ([], none) := by
  induction claims with
  | nil => rfl
  | cons e claims ih =>
    obtain ⟨u, ids⟩ := e
    obtain ⟨cpuset, hget, hperm⟩ := h (u, ids) (by simp)
    unfold check
    rw [hget]
    dsimp only
    rw [ih (fun e he => h e (List.mem_cons_of_mem _ he)), if_neg]
    · rfl
    · exact fun hne => hne (insertionSort_eq_of_perm hperm)

end Reconciler

/-! ## The invariant -/

/-- A manager and the cgroup manager it drives. -/
structure Paired where
  wm : WorkloadManager
  cgroup : MockCgroupManager

/-- The three copies are one, on a CPU with the given thread ids. -/
structure InStep (ids : List Nat) (s : Paired) : Prop where
  threadIds : s.wm.cpu.getThreads.map Thread.id = ids
  /-- Claims are of workloads in the map. -/
  known : ∀ u, Claimed s.wm.cpu u → u ∈ s.wm.workloads.keys
  /-- The last response lists the claimed workloads as they are. -/
  last : ∀ u a, (WorkloadManager.getWorkloadAllocationDict s.wm.lastResponse).get? u = some a →
    Claimed s.wm.cpu u ∧ a.threadIds = Update.getThreads s.wm.cpu u
      ∧ ∃ w, s.wm.workloads.get? u = some w ∧ a.cpuQuota = getCpuQuota w
  claimed : ∀ u, Claimed s.wm.cpu u → ∃ cpuset, s.cgroup.record u = some cpuset
    ∧ (∀ i, i ∈ cpuset ↔ i ∈ Update.getThreads s.wm.cpu u) ∧ cpuset.Sublist ids
  free : ∀ u, ¬ Claimed s.wm.cpu u → s.cgroup.record u = none

/-- The condition on a call: it does not release what it then leaves alone, and takes
no threads from a workload it does not release. -/
structure LeavesNothingBehind {Rng : Type} (kind : AllocatorKind) (wm : WorkloadManager)
    (call : IsolateCall Rng) : Prop where
  /-- A call Greedy refuses removes no id that holds threads. -/
  refused : kind = .greedy →
    ¬ GreedyAccepts wm.cpu (wm.newWorkloads call.adds call.removes) →
    ∀ u ∈ call.removes, ¬ Claimed wm.cpu u
  /-- An id that holds threads is not removed and added again with the same count. -/
  replaced : ∀ u ∈ call.removes, Claimed wm.cpu u → ∀ v w, wm.workloads.get? u = some v →
    (wm.newWorkloads call.adds call.removes).get? u = some w → w.threadCount ≠ v.threadCount
  /-- Under Greedy an id that holds threads is not added with a count of zero, unless it
  is also removed. -/
  emptied : kind = .greedy → ∀ u, u ∉ call.removes → Claimed wm.cpu u → ∀ w,
    (wm.newWorkloads call.adds call.removes).get? u = some w → w.threadCount ≠ 0

section

variable {Rng : Type} {random : RandomSource Rng} {kind : AllocatorKind}
  {ambient : Ambient Rng} {request : AllocateRequest} {response : AllocateResponse}

/-- What an answer of Greedy or Naive does with the claims it finds. -/
structure KeepsClaims (kind : AllocatorKind) (ambient : Ambient Rng) (request : AllocateRequest)
    (response : AllocateResponse) : Prop where
  allocations : response.workloadAllocations
    = getWorkloadAllocations ambient.memoryFlags response.cpu request.workloads.values
  ids : response.cpu.getThreads.map Thread.id = request.cpu.getThreads.map Thread.id
  other : ∀ u, Claimed response.cpu u → u ∈ request.workloads.keys
  retains : ∀ u w, request.workloads.get? u = some w → Claimed request.cpu u →
    (kind = .greedy → w.threadCount ≠ 0) → Claimed response.cpu u

theorem build_keepsClaims (hkind : kind ≠ .noop)
    (h : ((kind.build random).isolate ambient request).result = .ok response) :
    KeepsClaims kind ambient request response := by
  cases kind with
  | noop => exact absurd rfl hkind
  | greedy =>
    have hanswer := greedy_answer h
    have hpromise := greedy_keeps _ _ _ h
    refine ⟨hpromise.allocations, hpromise.ids, ?_, ?_⟩
    · intro u hcl
      by_contra hno
      exact hpromise.other u hno hcl
    · intro u w hw _ hne
      obtain rfl := WorkloadMap.taskId_of_get? hw
      have hmem := WorkloadMap.mem_values_iff.mpr hw
      have hplaced := hanswer.placed w hmem
      have hnn := hanswer.accepts.1 w hmem
      have := hne rfl
      rw [claimed_iff]
      omega
  | naive =>
    have hpromise := naive_keeps random _ _ _ h
    obtain ⟨response', hok, hanswer⟩ := naive_answer random ambient request
    have h' : ((naiveCpuAllocator random).isolate ambient request).result = .ok response := h
    rw [hok] at h'
    obtain rfl := Except.ok.inj h'
    refine ⟨hpromise.allocations, hpromise.ids, ?_, ?_⟩
    · intro u hcl
      by_contra hno
      exact hpromise.other u hno hcl
    · intro u w hw hcl _
      have hkey : u ∈ request.workloads.keys := WorkloadMap.mem_keys_iff_get?.mpr ⟨w, hw⟩
      exact (claimed_congr (hanswer.kept u hkey hcl)).mpr hcl

end

section

variable {Rng : Type} (random : RandomSource Rng) (kind : AllocatorKind)
  (reportCpuEvent : Ambient Rng → AllocateRequest → AllocateResponse → Except PyError Unit)

/-- One call of `isolate`, its cgroup calls taking effect at once. -/
def Paired.step (s : Paired) (call : IsolateCall Rng) : Paired where
  wm := s.wm.step (kind.build random) reportCpuEvent call
  cgroup := s.cgroup.performAll
    (s.wm.isolate (kind.build random) reportCpuEvent call).cgroupCalls

variable {random kind reportCpuEvent} {ids : List Nat}

/-- A refused call that releases no claimed workload changes nothing. -/
theorem inStep_refused {s : Paired} {call : IsolateCall Rng} {e : PyError} (h : InStep ids s)
    (hok : LeavesNothingBehind kind s.wm call)
    (hres : ((kind.build random).isolate call.ambient (s.wm.requestFor call)).result = .error e) :
    InStep ids (s.step random kind reportCpuEvent call) := by
  obtain ⟨hgreedy, hrefuse⟩ := build_result_error hres
  -- only Greedy raises, and the call releases nothing that has a cpuset
  have hrecord : ∀ u, (s.step random kind reportCpuEvent call).cgroup.record u
      = s.cgroup.record u := by
    intro u
    unfold Paired.step
    rw [isolate_of_error hres]
    dsimp only
    rw [MockCgroupManager.record_releases]
    by_cases hu : u ∈ call.removes
    · rw [if_pos hu, h.free u (hok.refused hgreedy hrefuse u hu)]
    · rw [if_neg hu]
  have hwm : (s.step random kind reportCpuEvent call).wm = s.wm.countError := by
    unfold Paired.step WorkloadManager.step
    rw [isolate_of_error hres]
  refine ⟨?_, ?_, ?_, ?_, ?_⟩
  · rw [hwm]; exact h.threadIds
  · rw [hwm]; exact h.known
  · rw [hwm]; exact h.last
  · rw [hwm]
    intro u hcl
    rw [hrecord]
    exact h.claimed u hcl
  · rw [hwm]
    intro u hcl
    rw [hrecord]
    exact h.free u hcl

/-- What an answer lists for a workload. -/
theorem KeepsClaims.findAllocation_eq_some_iff {ambient : Ambient Rng} {request : AllocateRequest}
    {response : AllocateResponse} (h : KeepsClaims kind ambient request response) {u : WorkloadId}
    {a : WorkloadAllocateResponse} :
    findAllocation response.workloadAllocations u = some a ↔
      ∃ w, request.workloads.get? u = some w ∧ Claimed response.cpu u
        ∧ a = allocationOf ambient.memoryFlags response.cpu w := by
  rw [h.allocations]
  exact findAllocation_getWorkloadAllocations

theorem KeepsClaims.listsOnce {ambient : Ambient Rng} {request : AllocateRequest}
    {response : AllocateResponse} (h : KeepsClaims kind ambient request response) :
    ListsOnce response.workloadAllocations := by
  rw [h.allocations]
  exact getWorkloadAllocations_listsOnce _ _ _

/-- What the cgroups hold after a call that was answered. -/
theorem record_answered {s : Paired} {call : IsolateCall Rng} {response : AllocateResponse}
    (hres : ((kind.build random).isolate call.ambient (s.wm.requestFor call)).result
      = .ok response) (hlists : ListsOnce response.workloadAllocations) (u : WorkloadId) :
    (s.step random kind reportCpuEvent call).cgroup.record u
      = match findAllocation response.workloadAllocations u with
        | none => if u ∈ call.removes then none else s.cgroup.record u
        | some a => if WorkloadManager.skips s.wm.lastResponse a then
            (if u ∈ call.removes then none else s.cgroup.record u) else some a.threadIds := by
  unfold Paired.step
  dsimp only
  rw [(isolate_of_ok reportCpuEvent hres).cgroupCalls, MockCgroupManager.performAll_append]
  unfold WorkloadManager.applyIsolation
  rw [MockCgroupManager.record_applyIsolation _ _ _ _ hlists, MockCgroupManager.record_releases]

/-- A workload the answer places has its threads as its cpuset, written or kept. -/
theorem claimed_answered {s : Paired} {call : IsolateCall Rng} {response : AllocateResponse}
    (h : InStep ids s) (hok : LeavesNothingBehind kind s.wm call)
    (hkeeps : KeepsClaims kind call.ambient (s.wm.requestFor call) response)
    (hres : ((kind.build random).isolate call.ambient (s.wm.requestFor call)).result
      = .ok response) {u : WorkloadId} (hcl : Claimed response.cpu u) :
    ∃ cpuset, (s.step random kind reportCpuEvent call).cgroup.record u = some cpuset
      ∧ (∀ i, i ∈ cpuset ↔ i ∈ Update.getThreads response.cpu u) ∧ cpuset.Sublist ids := by
  -- what is claimed is in the map, so the response lists it
  obtain ⟨w, hw⟩ := WorkloadMap.mem_keys_iff_get?.mp (hkeeps.other u hcl)
  have hfound := hkeeps.findAllocation_eq_some_iff.mpr ⟨w, hw, hcl, rfl⟩
  have hid : (allocationOf call.ambient.memoryFlags response.cpu w).workloadId = u :=
    WorkloadMap.taskId_of_get? hw
  have hids : (allocationOf call.ambient.memoryFlags response.cpu w).threadIds
      = Update.getThreads response.cpu u := by
    rw [← hid]; rfl
  rw [record_answered hres hkeeps.listsOnce, hfound]
  dsimp only
  by_cases hskip : WorkloadManager.skips s.wm.lastResponse
      (allocationOf call.ambient.memoryFlags response.cpu w) = true
  · -- skipped: the old cpuset stands, and the call did not release it
    obtain ⟨b, hb, hsame⟩ := skips_iff.mp hskip
    rw [hid] at hb
    obtain ⟨hclOld, hbids, v, hv, hquota⟩ := h.last u b hb
    -- equal quotas, so the count is the one it was placed with
    have hcount : w.threadCount = v.threadCount := by
      have hq : getCpuQuota v = getCpuQuota w := by rw [← hquota]; exact hsame.cpuQuota
      unfold getCpuQuota defaultQuotaScale at hq
      omega
    have hkept : u ∉ call.removes := fun hu => hok.replaced u hu hclOld v w hv hw hcount
    rw [if_pos hskip, if_neg hkept]
    obtain ⟨cpuset, hrec, hmem, hsub⟩ := h.claimed u hclOld
    refine ⟨cpuset, hrec, ?_, hsub⟩
    intro i
    rw [hmem, ← hbids, hsame.threadIds, hids]
  · rw [if_neg hskip, hids]
    refine ⟨_, rfl, fun _ => Iff.rfl, ?_⟩
    have hsub : (Update.getThreads response.cpu u).Sublist
        (response.cpu.getThreads.map Thread.id) := List.filter_sublist.map _
    rw [hkeeps.ids] at hsub
    rw [← h.threadIds]
    exact hsub

/-- A workload the answer leaves out has no cpuset: it had none, or was released. -/
theorem free_answered {s : Paired} {call : IsolateCall Rng} {response : AllocateResponse}
    (h : InStep ids s) (hok : LeavesNothingBehind kind s.wm call)
    (hkeeps : KeepsClaims kind call.ambient (s.wm.requestFor call) response)
    (hres : ((kind.build random).isolate call.ambient (s.wm.requestFor call)).result
      = .ok response) {u : WorkloadId} (hcl : ¬ Claimed response.cpu u) :
    (s.step random kind reportCpuEvent call).cgroup.record u = none := by
  have hnone : findAllocation response.workloadAllocations u = none := by
    cases hf : findAllocation response.workloadAllocations u with
    | none => rfl
    | some a =>
      obtain ⟨_, _, hcl', _⟩ := hkeeps.findAllocation_eq_some_iff.mp hf
      exact absurd hcl' hcl
  rw [record_answered hres hkeeps.listsOnce, hnone]
  dsimp only
  by_cases hu : u ∈ call.removes
  · rw [if_pos hu]
  · rw [if_neg hu]
    by_cases hclOld : Claimed s.wm.cpu u
    · -- a workload that stays in the map keeps its claims
      exfalso
      have hkey : u ∈ (s.wm.newWorkloads call.adds call.removes).keys :=
        mem_keys_newWorkloads.mpr (Or.inr ⟨hu, h.known u hclOld⟩)
      obtain ⟨w, hw⟩ := WorkloadMap.mem_keys_iff_get?.mp hkey
      exact hcl (hkeeps.retains u w hw hclOld (fun hg => hok.emptied hg u hu hclOld w hw))
    · exact h.free u hclOld

/-- **A call that goes through keeps the copies equal.** -/
theorem inStep_answered (hkind : kind ≠ .noop) {s : Paired} {call : IsolateCall Rng}
    {response : AllocateResponse} (h : InStep ids s) (hok : LeavesNothingBehind kind s.wm call)
    (hres : ((kind.build random).isolate call.ambient (s.wm.requestFor call)).result
      = .ok response) :
    InStep ids (s.step random kind reportCpuEvent call) := by
  have hinst := isolate_of_ok reportCpuEvent hres
  have hkeeps := build_keepsClaims hkind hres
  have hcpu : (s.step random kind reportCpuEvent call).wm.cpu = response.cpu := hinst.cpu
  have hworkloads : (s.step random kind reportCpuEvent call).wm.workloads
      = s.wm.newWorkloads call.adds call.removes := hinst.workloads
  have hlast : (s.step random kind reportCpuEvent call).wm.lastResponse = some response :=
    hinst.lastResponse
  refine ⟨?_, ?_, ?_, ?_, ?_⟩
  · rw [hcpu, hkeeps.ids]
    exact h.threadIds
  · rw [hcpu, hworkloads]
    exact hkeeps.other
  · rw [hcpu, hworkloads, hlast]
    intro u a ha
    rw [getWorkloadAllocationDict_get? hkeeps.listsOnce, hkeeps.findAllocation_eq_some_iff] at ha
    obtain ⟨w, hw, hcl, rfl⟩ := ha
    exact ⟨hcl, by rw [← WorkloadMap.taskId_of_get? hw]; rfl, w, hw, rfl⟩
  · rw [hcpu]
    exact fun u hcl => claimed_answered h hok hkeeps hres hcl
  · rw [hcpu]
    exact fun u hcl => free_answered h hok hkeeps hres hcl

theorem inStep_step (hkind : kind ≠ .noop) (s : Paired) (call : IsolateCall Rng) (h : InStep ids s)
    (hok : LeavesNothingBehind kind s.wm call) :
    InStep ids (s.step random kind reportCpuEvent call) := by
  cases hres : ((kind.build random).isolate call.ambient (s.wm.requestFor call)).result with
  | error e => exact inStep_refused h hok hres
  | ok response => exact inStep_answered hkind h hok hres

end

/-! ## What a reader sees -/

/-- CPU model, cpusets, isolated ids and the reconciler agree. -/
structure Agrees {Rng : Type} (allocator : CpuAllocator Rng) (ids : List Nat) (s : Paired) :
    Prop where
  cpuset : ∀ u, Claimed s.wm.cpu u →
    ∀ i, i ∈ s.cgroup.getCpuset u ↔ i ∈ Update.getThreads s.wm.cpu u
  isolated : ∀ u, u ∈ s.cgroup.getIsolatedWorkloadIds ↔ Claimed s.wm.cpu u
  isIsolated : ∀ u, Claimed s.wm.cpu u →
    WorkloadManager.isIsolated allocator s.cgroup.getIsolatedWorkloadIds.toFinset u = true
  /-- Thread ids being distinct, the reconciler finds nothing to exit for. -/
  reconciled : ids.Nodup → ∀ r : Reconciler, (r.reconcile s.cgroup.view s.wm.cpu).exits = []

theorem InStep.isolated {ids : List Nat} {s : Paired} (h : InStep ids s) (u : WorkloadId) :
    u ∈ s.cgroup.getIsolatedWorkloadIds ↔ Claimed s.wm.cpu u := by
  rw [MockCgroupManager.mem_isolated_iff]
  refine ⟨?_, ?_⟩
  · intro hx
    obtain ⟨ids, hrec⟩ := hx
    by_contra hcl
    rw [h.free u hcl] at hrec
    exact absurd hrec (by simp)
  · intro hcl
    obtain ⟨cpuset, hrec, _⟩ := h.claimed u hcl
    exact ⟨cpuset, hrec⟩

theorem InStep.agrees {Rng : Type} {allocator : CpuAllocator Rng} {ids : List Nat} {s : Paired}
    (h : InStep ids s) : Agrees allocator ids s where
  cpuset := by
    intro u hcl i
    obtain ⟨cpuset, hrec, hmem, _⟩ := h.claimed u hcl
    have hget : s.cgroup.getCpuset u = cpuset := by
      unfold MockCgroupManager.record at hrec
      unfold MockCgroupManager.getCpuset
      rw [hrec]
      rfl
    rw [hget, hmem]
  isolated := h.isolated
  isIsolated := by
    intro u hcl
    unfold WorkloadManager.isIsolated
    split
    · rfl
    · simpa using (h.isolated u).mpr hcl
  reconciled := by
    intro hnd r
    have hcheck : Reconciler.check s.cgroup.view.getCpuset
        (Reconciler.getWorkloads s.wm.cpu).entries = ([], none) := by
      refine Reconciler.check_of_perm ?_
      intro e hmem
      obtain ⟨u, claims⟩ := e
      obtain ⟨hcl, rfl⟩ := Reconciler.mem_getWorkloads hmem
      obtain ⟨cpuset, hrec, hset, hsub⟩ := h.claimed u hcl
      refine ⟨cpuset, ?_, ?_⟩
      · unfold MockCgroupManager.record at hrec
        unfold MockCgroupManager.view MockCgroupManager.getCpuset
        simp only [hrec, Option.getD_some]
      · have hclaims := getThreads_nodup (by rw [h.threadIds]; exact hnd) u
        exact (List.perm_ext_iff_of_nodup (hnd.sublist hsub) hclaims).mpr hset
    unfold Reconciler.reconcile
    rw [hcheck]
    rfl

/-! ## A run -/

theorem inStep_init (instanceId : Option String) {cpu : Cpu} (hclear : ∀ u, ¬ Claimed cpu u) :
    InStep (cpu.getThreads.map Thread.id)
      ⟨WorkloadManager.init instanceId cpu, MockCgroupManager.init⟩ where
  threadIds := rfl
  known := fun u hcl => absurd hcl (hclear u)
  last := fun u a ha => absurd ha (by simp [WorkloadManager.init,
    WorkloadManager.getWorkloadAllocationDict])
  claimed := fun u hcl => absurd hcl (hclear u)
  free := fun _ _ => rfl

section

variable {Rng : Type} (random : RandomSource Rng)
  (reportCpuEvent : Ambient Rng → AllocateRequest → AllocateResponse → Except PyError Unit)
  (instanceId : Option String)

/--
**CPU model and cgroups agree throughout a run** from an unclaimed CPU under Greedy or
Naive, failed calls included, when no call leaves something behind.
-/
theorem reachable_agrees {kind : AllocatorKind} (hkind : kind ≠ .noop) {cpu : Cpu}
    (hclear : ∀ u, ¬ Claimed cpu u) (calls : List (IsolateCall Rng))
    (hok : Run.EachStep (Paired.step random kind reportCpuEvent)
      (fun s call => LeavesNothingBehind kind s.wm call)
      ⟨WorkloadManager.init instanceId cpu, MockCgroupManager.init⟩ calls) :
    Run.Always (Paired.step random kind reportCpuEvent)
      (Agrees (kind.build random) (cpu.getThreads.map Thread.id))
      ⟨WorkloadManager.init instanceId cpu, MockCgroupManager.init⟩ calls :=
  (Run.always_of_step (inStep_step hkind) (inStep_init instanceId hclear) hok).mono
    (fun _ h => h.agrees)

end

/-- A new manager on an unclaimed CPU of two threads, and a new cgroup manager. -/
def unclaimedPair : Paired :=
  ⟨WorkloadManager.init none Config.twoThreads, MockCgroupManager.init⟩

/-- `a` is placed, then removed, with the given workloads added. -/
def placeRemove (adds : List Workload) : List (IsolateCall Unit) :=
  [⟨Ambient.unset (), [⟨"a", "job", 1⟩], []⟩, ⟨Ambient.unset (), adds, ["a"]⟩]

theorem reachable_agrees_removed :
    Run.Always (Paired.step RandomSource.reversing .greedy (fun _ _ _ => .ok ()))
      (Agrees (AllocatorKind.greedy.build RandomSource.reversing) [0, 1]) unclaimedPair
      (placeRemove []) := by
  refine reachable_agrees RandomSource.reversing (fun _ _ _ => .ok ()) none (by decide)
    twoThreads_unclaimed (placeRemove []) ⟨⟨?_, ?_, ?_⟩, ⟨?_, ?_, ?_⟩, trivial⟩
  · exact fun _ h => absurd (by decide +kernel) h
  · exact fun u hu => absurd hu (by simp)
  · exact fun _ u _ hcl => absurd hcl (twoThreads_unclaimed u)
  · exact fun _ h => absurd (by decide +kernel) h
  -- after the second call the map is empty
  · intro u _ _ v w _ hw
    have hkey := WorkloadMap.mem_keys_iff_get?.mpr ⟨w, hw⟩
    exact absurd hkey (List.not_mem_nil)
  · intro _ u _ _ w hw
    have hkey := WorkloadMap.mem_keys_iff_get?.mpr ⟨w, hw⟩
    exact absurd hkey (List.not_mem_nil)

/-- Removed and added again in one call, `a` holds its thread but has lost its cpuset
and its mark, and the reconciler exits. -/
theorem replaced_disagrees :
    ((Run.exec (Paired.step RandomSource.reversing .greedy (fun _ _ _ => .ok ())) unclaimedPair
        [⟨Ambient.unset (), [⟨"a", "job", 1⟩], []⟩]).wm.isolate
        (AllocatorKind.greedy.build RandomSource.reversing) (fun _ _ _ => .ok ())
        ⟨Ambient.unset (), [⟨"a", "job", 1⟩], ["a"]⟩).success = true
      ∧ Claimed (Run.exec (Paired.step RandomSource.reversing .greedy (fun _ _ _ => .ok ()))
          unclaimedPair (placeRemove [⟨"a", "job", 1⟩])).wm.cpu "a"
      ∧ "a" ∉ (Run.exec (Paired.step RandomSource.reversing .greedy (fun _ _ _ => .ok ()))
          unclaimedPair (placeRemove [⟨"a", "job", 1⟩])).cgroup.getIsolatedWorkloadIds
      ∧ (Reconciler.reconcile ⟨0, 0⟩
          (Run.exec (Paired.step RandomSource.reversing .greedy (fun _ _ _ => .ok ()))
            unclaimedPair (placeRemove [⟨"a", "job", 1⟩])).cgroup.view
          (Run.exec (Paired.step RandomSource.reversing .greedy (fun _ _ _ => .ok ()))
            unclaimedPair (placeRemove [⟨"a", "job", 1⟩])).wm.cpu).exits
          = [reconciliationFailureExit] :=
  ⟨by decide +kernel, by decide +kernel, by decide +kernel, by decide +kernel⟩

end TitusIsolate
