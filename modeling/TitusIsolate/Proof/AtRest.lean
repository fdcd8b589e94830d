import TitusIsolate.Isolate.EventLog
import TitusIsolate.Lib.Run
import TitusIsolate.Proof.GreedyExact
import TitusIsolate.Proof.LastResponse
import TitusIsolate.Proof.Oversubscribe

/-!
# A settled host is at rest

An allocator rests on a CPU and a map when it answers the map with that very CPU. Greedy
rests on what it answers because its answer depends on the shape and the map alone; Naive
because it keeps what is placed, and a workload without a thread was offered none and would
be offered none again. So every state of a manager is at rest, and a rebalance finds the
allocations it applied last.
-/

namespace TitusIsolate

open GreedyCpuAllocator NaiveCpuAllocator

/-! ## Resting -/

/-- The allocator answers these workloads with the CPU it is given. -/
def CpuAllocator.Rests {Rng : Type} (allocator : CpuAllocator Rng) (cpu : Cpu)
    (workloads : WorkloadMap) : Prop :=
  ∀ ambient metadata, ∃ response,
    (allocator.isolate ambient { cpu, workloads, metadata }).result = .ok response
      ∧ response.cpu = cpu
      ∧ response.workloadAllocations
        = getWorkloadAllocations ambient.memoryFlags cpu workloads.values

/-- The allocator rests on whatever it answers. -/
def CpuAllocator.Idempotent {Rng : Type} (allocator : CpuAllocator Rng) : Prop :=
  ∀ ambient request response, (allocator.isolate ambient request).result = .ok response →
    allocator.Rests response.cpu request.workloads
      ∧ response.workloadAllocations
        = getWorkloadAllocations ambient.memoryFlags response.cpu request.workloads.values

/-! ## Greedy -/

section

variable {Rng : Type}

theorem greedy_rests {cpu : Cpu} {workloads : WorkloadMap}
    (h : assignAll workloads.values cpu.clear = (.ok (), cpu)) :
    (greedyCpuAllocator Rng).Rests cpu workloads := by
  intro ambient metadata
  refine ⟨allocateResponse ambient cpu
    (getWorkloadAllocations ambient.memoryFlags cpu workloads.values) "GreedyCpuAllocator"
    OrderedDict.empty, ?_, rfl, rfl⟩
  simp only [greedyCpuAllocator]
  rw [h]

/-- The answer has the shape of the request's CPU, so the same loop leads to it. -/
theorem greedy_idempotent : (greedyCpuAllocator Rng).Idempotent := by
  intro ambient request response h
  refine ⟨greedy_rests ?_, (greedy_answer h).allocations⟩
  rw [Cpu.clear_of_shape (greedy_shape h)]
  exact assignAll_of_answer h

/-! ## Naive -/

variable {random : RandomSource Rng} {rng : Rng} {cpu : Cpu} {w : WorkloadId}

/-- A workload with this count would be offered no thread. -/
def Idle (cpu : Cpu) (threadCount : Int) : Prop :=
  threadCount = 0 ∨ ((emptyThreads cpu).length : Int) + threadCount ≤ 0

theorem sliceTo_eq_nil_iff {α : Type} {xs : List α} {n : Int} (h : n ≤ xs.length) :
    sliceTo xs n = [] ↔ n = 0 ∨ (xs.length : Int) + n ≤ 0 := by
  unfold sliceTo
  rw [← List.length_eq_zero_iff]
  split
  · rw [List.length_take]
    omega
  · rw [List.length_take]
    omega

theorem getAssignThreads_eq_nil_iff (random : RandomSource Rng) (rng : Rng) (cpu : Cpu)
    (threadCount : Int) :
    (getAssignThreads random rng cpu threadCount).1 = [] ↔ Idle cpu threadCount := by
  have hempty := (random.perm rng (emptyThreads cpu)).length_eq
  have hclaimed := (random.perm rng (claimedThreads cpu)).length_eq
  have htotal := length_empty_add_claimed cpu
  have hpos : 0 < cpu.getThreads.length := List.length_pos_of_ne_nil cpu.getThreads_ne_nil
  unfold Idle
  rw [getAssignThreads_fst]
  split
  · rw [sliceTo_eq_nil_iff (by omega), hempty]
  · -- more is asked for than is empty: all of it is handed out, and some claimed ones
    rename_i hless
    rw [← List.length_eq_zero_iff, List.length_append, length_sliceTo _ (by omega), hclaimed]
    omega

theorem Idle.mono {cpu' : Cpu} {threadCount : Int} (h : Idle cpu threadCount)
    (hle : (emptyThreads cpu').length ≤ (emptyThreads cpu).length) : Idle cpu' threadCount := by
  unfold Idle at h ⊢
  omega

theorem claimThreads_nil (w : WorkloadId) (cpu : Cpu) : claimThreads w [] cpu = cpu := by
  unfold claimThreads
  exact Cpu.mapThreadsIdx_eq_self (fun _ _ => by simp) (fun _ _ _ => by simp)

theorem claimed_claimThreads {u : WorkloadId} (threads : List Nat) (h : Claimed cpu u) :
    Claimed (claimThreads w threads cpu) u := by
  obtain ⟨t, ht, hu⟩ := h
  obtain ⟨i, hi⟩ := List.mem_iff_getElem?.mp ht
  refine ⟨_, Cpu.mem_getThreads_mapThreadsIdx hi _, ?_⟩
  split
  · exact Thread.mem_claim.mpr (Or.inr hu)
  · exact hu

theorem claimed_claimThreads_self {threads : List Nat} {i : Nat} (hi : i ∈ threads)
    (hlt : i < cpu.getThreads.length) : Claimed (claimThreads w threads cpu) w := by
  refine ⟨_, Cpu.mem_getThreads_mapThreadsIdx (List.getElem?_eq_getElem hlt) _, ?_⟩
  rw [if_pos hi]
  exact Thread.mem_claim.mpr (Or.inl rfl)

theorem claimed_placeAll {isolated : List WorkloadId} (ws : List Workload) (cpu : Cpu) (rng : Rng)
    {u : WorkloadId} (h : Claimed cpu u) : Claimed (placeAll random isolated ws cpu rng).1 u :=
  placeAll_induct random isolated (R := fun a b => Claimed a u → Claimed b u) (fun _ h => h)
    (fun hab hbc h => hbc (hab h)) ws cpu rng
    (fun _ _ _ _ _ h => claimed_claimThreads _ h) h

/-- Placing workloads leaves no more threads empty. -/
theorem length_emptyThreads_placeAll {isolated : List WorkloadId} (ws : List Workload) (cpu : Cpu)
    (rng : Rng) :
    (emptyThreads (placeAll random isolated ws cpu rng).1).length ≤ (emptyThreads cpu).length := by
  have hrel := placeAll_induct random isolated
    (R := fun a b => claimedCount a ≤ claimedCount b ∧ b.getThreads.length = a.getThreads.length)
    (fun _ => ⟨Nat.le_refl _, rfl⟩)
    (fun hab hbc => ⟨Nat.le_trans hab.1 hbc.1, hbc.2.trans hab.2⟩) ws cpu rng
    (fun v _ _ _ _ => ⟨claimedCount_le_claimThreads v.threadCount, length_claimThreads _⟩)
  have hbefore := empty_add_claimedCount cpu
  have hafter := empty_add_claimedCount (placeAll random isolated ws cpu rng).1
  omega

/-- **After the loop a workload has a thread, or would be offered none.** -/
theorem claimed_or_idle_placeAll {isolated : List WorkloadId} :
    ∀ (ws : List Workload) (cpu : Cpu) (rng : Rng),
      (∀ v ∈ ws, v.taskId ∈ isolated → Claimed cpu v.taskId) →
      ∀ v ∈ ws, Claimed (placeAll random isolated ws cpu rng).1 v.taskId
        ∨ Idle (placeAll random isolated ws cpu rng).1 v.threadCount
  | [], _, _, _, v, hv => absurd hv (by simp)
  | x :: ws, cpu, rng, hiso, v, hv => by
      unfold placeAll
      split
      · rename_i hx
        rcases List.mem_cons.mp hv with rfl | hv
        · exact Or.inl (claimed_placeAll ws cpu rng (hiso v (by simp) hx))
        · exact claimed_or_idle_placeAll ws cpu rng
            (fun y hy => hiso y (List.mem_cons_of_mem _ hy)) v hv
      · rcases List.mem_cons.mp hv with rfl | hv
        · -- offered no thread: then none is offered when fewer are empty
          dsimp only
          cases hthreads : (getAssignThreads random rng cpu v.threadCount).1 with
          | nil =>
            rw [claimThreads_nil]
            have hidle := (getAssignThreads_eq_nil_iff random rng cpu v.threadCount).mp hthreads
            exact Or.inr (hidle.mono (length_emptyThreads_placeAll ws cpu _))
          | cons i threads =>
            have hi : i ∈ (getAssignThreads random rng cpu v.threadCount).1 := by
              -- offered a thread: it has that one now, and keeps it
              rw [hthreads]
              exact List.mem_cons_self
            refine Or.inl (claimed_placeAll ws _ _ ?_)
            rw [← hthreads]
            exact claimed_claimThreads_self hi (getAssignThreads_lt hi)
        · exact claimed_or_idle_placeAll ws _ _
            (fun y hy hmem => claimed_claimThreads _ (hiso y (List.mem_cons_of_mem _ hy) hmem)) v hv

/-- A loop over workloads that have a thread or are offered none places nothing. -/
theorem placeAll_of_idle {isolated : List WorkloadId} :
    ∀ (ws : List Workload) (rng : Rng),
      (∀ v ∈ ws, v.taskId ∉ isolated → Idle cpu v.threadCount) →
      (placeAll random isolated ws cpu rng).1 = cpu
  | [], _, _ => rfl
  | v :: ws, rng, hidle => by
      have hrest : ∀ y ∈ ws, y.taskId ∉ isolated → Idle cpu y.threadCount :=
        fun y hy => hidle y (List.mem_cons_of_mem _ hy)
      unfold placeAll
      split
      · exact placeAll_of_idle ws rng hrest
      · rename_i hnew
        dsimp only
        rw [(getAssignThreads_eq_nil_iff random rng cpu v.threadCount).mpr
          (hidle v (by simp) hnew), claimThreads_nil]
        exact placeAll_of_idle ws _ hrest

theorem freeUnmentioned_eq_self {workloads : WorkloadMap}
    (h : ∀ u, u ∉ workloads.keys → ¬ Claimed cpu u) : freeUnmentioned workloads cpu = cpu := by
  unfold freeUnmentioned
  refine Cpu.mapThreadsIdx_eq_self (fun _ t => foldl_free_id _ t) ?_
  intro _ t ht
  have hnone : t.workloadIds.filter (fun u => u ∉ workloads.keys) = [] := by
    rw [List.filter_eq_nil_iff]
    intro u hu hno
    exact h u (by simpa using hno) ⟨t, ht, hu⟩
  rw [hnone]
  rfl

theorem naive_rests {workloads : WorkloadMap} (hother : ∀ u, u ∉ workloads.keys → ¬ Claimed cpu u)
    (hidle : ∀ v ∈ workloads.values, Claimed cpu v.taskId ∨ Idle cpu v.threadCount) :
    (naiveCpuAllocator random).Rests cpu workloads := by
  intro ambient metadata
  have hsame : (placeAll random cpu.getWorkloadIdsToThreadIds.keys workloads.values cpu
      ambient.rng).1 = cpu := by
    refine placeAll_of_idle workloads.values ambient.rng ?_
    intro v hv hnew
    rw [mem_getWorkloadIdsToThreadIds_keys] at hnew
    exact (hidle v hv).resolve_left hnew
  refine ⟨_, rfl, ?_, ?_⟩
  · rw [allocateResponse_cpu, freeUnmentioned_eq_self hother, hsame]
  · rw [allocateResponse_workloadAllocations, freeUnmentioned_eq_self hother, hsame]

theorem naive_idempotent : (naiveCpuAllocator random).Idempotent := by
  intro ambient request response h
  obtain ⟨response', hok, hanswer⟩ := naive_answer random ambient request
  rw [hok] at h
  obtain rfl := Except.ok.inj h
  refine ⟨naive_rests hanswer.other ?_, hanswer.allocations⟩
  rw [← Except.ok.inj hok, allocateResponse_cpu]
  refine claimed_or_idle_placeAll _ _ _ ?_
  exact fun _ _ hmem => mem_getWorkloadIdsToThreadIds_keys.mp hmem

end

/-! ## The manager -/

/-- A manager whose last response is of its CPU and map, on which its allocator rests. -/
structure AtRest {Rng : Type} (allocator : CpuAllocator Rng) (flags : MemoryFlags)
    (wm : WorkloadManager) : Prop where
  rests : allocator.Rests wm.cpu wm.workloads
  ledger : ∀ response, wm.lastResponse = some response →
    response.workloadAllocations = getWorkloadAllocations flags wm.cpu wm.workloads.values
  /-- Before the first response there is nothing to apply. -/
  fresh : wm.lastResponse = none → wm.workloads.values = []

/-- A call of `isolate` that went through and did nothing to `wm`. -/
structure NothingDone (wm : WorkloadManager) (outcome : IsolateOutcome) : Prop where
  success : outcome.success = true
  cpu : outcome.manager.cpu = wm.cpu
  cpuEq : outcome.manager.cpu.eq wm.cpu = true
  workloads : outcome.manager.workloads = wm.workloads
  cgroupCalls : outcome.cgroupCalls = []

/-- Nothing done to a manager is nothing done to one with the same CPU and map. -/
theorem NothingDone.of_same {wm wm' : WorkloadManager} {outcome : IsolateOutcome}
    (h : NothingDone wm outcome) (hcpu : wm.cpu = wm'.cpu)
    (hworkloads : wm.workloads = wm'.workloads) : NothingDone wm' outcome where
  success := h.success
  cpu := h.cpu.trans hcpu
  cpuEq := hcpu ▸ h.cpuEq
  workloads := h.workloads.trans hworkloads
  cgroupCalls := h.cgroupCalls

/-- `isolate([], [])` -/
def rebalance {Rng : Type} (ambient : Ambient Rng) : IsolateCall Rng := ⟨ambient, [], []⟩

section

variable {Rng : Type} {allocator : CpuAllocator Rng} {flags : MemoryFlags} {wm : WorkloadManager}
  {reportCpuEvent : Ambient Rng → AllocateRequest → AllocateResponse → Except PyError Unit}

/-- An allocation that the last response lists as well is skipped. -/
theorem skips_of_mem {last : AllocateResponse} (honce : ListsOnce last.workloadAllocations)
    {a : WorkloadAllocateResponse} (ha : a ∈ last.workloadAllocations) :
    WorkloadManager.skips (some last) a = true := by
  rw [skips_iff]
  refine ⟨a, ?_, SameAllocation.refl a⟩
  rw [getWorkloadAllocationDict_get? honce]
  exact (findAllocation_eq_some_iff honce).mpr ⟨ha, rfl⟩

/-- What is applied already is not applied again. -/
theorem AtRest.applyIsolation (h : AtRest allocator flags wm) {response : AllocateResponse}
    (hallocs : response.workloadAllocations
      = getWorkloadAllocations flags wm.cpu wm.workloads.values) :
    WorkloadManager.applyIsolation wm.lastResponse response = [] := by
  unfold WorkloadManager.applyIsolation
  rw [List.flatMap_eq_nil_iff, hallocs]
  intro a ha
  refine if_pos ?_
  cases hlast : wm.lastResponse with
  | none =>
    rw [h.fresh hlast] at ha
    exact absurd ha (by simp [getWorkloadAllocations])
  | some last =>
    -- the last response lists exactly these allocations, so each is skipped
    have hledger := h.ledger last hlast
    refine skips_of_mem ?_ (hledger ▸ ha)
    rw [hledger]
    exact getWorkloadAllocations_listsOnce flags wm.cpu wm.workloads

/-- **One rebalance of a manager at rest**, when its report raises nothing. -/
theorem AtRest.nothingDone (h : AtRest allocator flags wm) {ambient : Ambient Rng}
    (hflags : ambient.memoryFlags = flags)
    (hreport : ∀ request response, reportCpuEvent ambient request response = .ok ()) :
    NothingDone wm (wm.isolate allocator reportCpuEvent (rebalance ambient)) := by
  -- the allocator answers with the CPU it was given, so nothing is drawn either
  obtain ⟨response, hok, hcpu, hallocs⟩ := h.rests ambient
    (wm.getRequestMetadata ambient (WorkloadManager.getRequestType 0 0))
  have hrequest : (allocator.isolate (rebalance ambient).ambient
      (wm.requestFor (rebalance ambient))).result = .ok response := hok
  have hinst := isolate_of_ok reportCpuEvent hrequest
  have hsuccess : (wm.isolate allocator reportCpuEvent
      (rebalance ambient)).success = true := by
    unfold WorkloadManager.isolate
    simp only [hrequest]
    unfold WorkloadManager.reportCommit WorkloadManager.reportCpuState
    rw [hcpu, Cpu.eq_refl, if_pos rfl]
    simp only [rebalance, hreport]
  refine
    { success := hsuccess
      cpu := by rw [hinst.cpu, hcpu]
      cpuEq := by
        rw [hinst.cpu, hcpu]
        exact Cpu.eq_refl wm.cpu
      workloads := by
        rw [hinst.workloads]
        rfl
      cgroupCalls := ?_ }
  rw [hinst.cgroupCalls, h.applyIsolation (hallocs.trans (by rw [hflags]))]
  rfl

/-- **Every call leaves the manager at rest**, whether it goes through or fails. -/
theorem AtRest.step (hidem : allocator.Idempotent) (h : AtRest allocator flags wm)
    {call : IsolateCall Rng} (hflags : call.ambient.memoryFlags = flags) :
    AtRest allocator flags (wm.step allocator reportCpuEvent call) := by
  unfold WorkloadManager.step
  cases hres : (allocator.isolate call.ambient (wm.requestFor call)).result with
  | error e =>
    rw [isolate_of_error hres]
    exact ⟨h.rests, h.ledger, h.fresh⟩
  | ok response =>
    have hinst := isolate_of_ok reportCpuEvent hres
    -- the answer becomes the state, and the allocator rests on its answers
    obtain ⟨hrests, hallocs⟩ := hidem _ _ _ hres
    exact
      { rests := by
          rw [hinst.cpu, hinst.workloads]
          exact hrests
        ledger := by
          intro last hlast
          rw [hinst.lastResponse] at hlast
          rw [← Option.some.inj hlast, hinst.cpu, hinst.workloads, hallocs, hflags]
          rfl
        fresh := by
          intro hnone
          rw [hinst.lastResponse] at hnone
          exact absurd hnone (by simp) }

end

section

variable {Rng : Type} {random : RandomSource Rng} {kind : AllocatorKind}

theorem build_idempotent (hkind : kind ≠ .noop) : (kind.build random).Idempotent := by
  cases kind with
  | greedy => exact greedy_idempotent
  | naive => exact naive_idempotent
  | noop => exact absurd rfl hkind

/-- A manager that has not been called is at rest. -/
theorem atRest_init (hkind : kind ≠ .noop) (flags : MemoryFlags) (instanceId : Option String)
    {cpu : Cpu} (hclear : ∀ u, ¬ Claimed cpu u) :
    AtRest (kind.build random) flags (WorkloadManager.init instanceId cpu) where
  rests := by
    cases kind with
    | greedy =>
      refine greedy_rests ?_
      show (Except.ok (), cpu.clear) = (Except.ok (), cpu)
      rw [Cpu.clear_of_unclaimed hclear]
    | naive =>
      refine naive_rests (fun u _ => hclear u) ?_
      intro v hv
      exact absurd hv (by simp [WorkloadManager.init])
    | noop => exact absurd rfl hkind
  ledger := by intro response h; exact absurd h (by simp [WorkloadManager.init])
  fresh := fun _ => rfl

/-- A rebalance at rest does nothing, when the event log can write the workloads down. -/
theorem AtRest.rebalance_nothingDone {allocator : CpuAllocator Rng} {flags : MemoryFlags}
    {wm : WorkloadManager} (h : AtRest allocator flags wm) {eventLog : Ambient Rng → EventLog}
    {ambient : Ambient Rng} (hflags : ambient.memoryFlags = flags)
    (hlog : (eventLog ambient).Serializes) :
    NothingDone wm (wm.isolate allocator (EventLog.reporter eventLog) (rebalance ambient)) := by
  refine h.nothingDone hflags ?_
  intro request response
  obtain ⟨manager, hmanager⟩ := EventLog.reportCpuEvent_ok hlog request response
  unfold EventLog.reporter
  rw [hmanager]
  rfl

/--
**A rebalance of a settled host is a no-op.** Under Greedy, and under Naive whatever the
shuffles do, from an unclaimed CPU and over any calls of `isolate`, failing ones included,
made under one configuration of the memory flags: any rebalances that follow each go
through, leave the CPU and the map as they were, and call nothing on the cgroup manager.
-/
theorem rebalances_do_nothing (random : RandomSource Rng) (eventLog : Ambient Rng → EventLog)
    (instanceId : Option String) (hkind : kind ≠ .noop) {cpu : Cpu}
    (hclear : ∀ u, ¬ Claimed cpu u) {flags : MemoryFlags} {calls : List (IsolateCall Rng)}
    (hcalls : ∀ call ∈ calls, call.ambient.memoryFlags = flags) {ambients : List (Ambient Rng)}
    (hflags : ∀ ambient ∈ ambients, ambient.memoryFlags = flags)
    (hlog : ∀ ambient ∈ ambients, (eventLog ambient).Serializes) :
    Run.EachStep (WorkloadManager.step (kind.build random) (EventLog.reporter eventLog))
      (fun wm call => NothingDone
        (Run.exec (WorkloadManager.step (kind.build random) (EventLog.reporter eventLog))
          (WorkloadManager.init instanceId cpu) calls)
        (wm.isolate (kind.build random) (EventLog.reporter eventLog) call))
      (Run.exec (WorkloadManager.step (kind.build random) (EventLog.reporter eventLog))
        (WorkloadManager.init instanceId cpu) calls)
      (ambients.map rebalance) := by
  have hidem : (kind.build random).Idempotent := build_idempotent hkind
  have hrest : AtRest (kind.build random) flags
      (Run.exec (WorkloadManager.step (kind.build random) (EventLog.reporter eventLog))
        (WorkloadManager.init instanceId cpu) calls) :=
    Run.exec_of_mem (fun wm call hcall hwm => hwm.step hidem (hcalls call hcall))
      (atRest_init hkind flags instanceId hclear)
  generalize Run.exec (WorkloadManager.step (kind.build random) (EventLog.reporter eventLog))
    (WorkloadManager.init instanceId cpu) calls = settled at hrest
  -- every rebalance is of a manager at rest with the same CPU and map
  have hquiet : Run.EachStep
      (WorkloadManager.step (kind.build random) (EventLog.reporter eventLog))
      (fun _ call => ∃ ambient, call = rebalance ambient ∧ ambient.memoryFlags = flags
        ∧ (eventLog ambient).Serializes) settled (ambients.map rebalance) := by
    refine Run.eachStep_of_mem ?_
    intro _ call hcall
    obtain ⟨ambient, hmem, rfl⟩ := List.mem_map.mp hcall
    exact ⟨ambient, rfl, hflags ambient hmem, hlog ambient hmem⟩
  refine Run.eachStep_of_step (I := fun wm => AtRest (kind.build random) flags wm
    ∧ wm.cpu = settled.cpu ∧ wm.workloads = settled.workloads) ?_ ?_ ⟨hrest, rfl, rfl⟩ hquiet
  · rintro wm _ ⟨hwm, hcpu, hworkloads⟩ ⟨ambient, rfl, hamb, hser⟩
    have hdone := hwm.rebalance_nothingDone hamb hser
    exact ⟨hwm.step hidem hamb, hdone.cpu.trans hcpu, hdone.workloads.trans hworkloads⟩
  · rintro wm _ ⟨hwm, hcpu, hworkloads⟩ ⟨ambient, rfl, hamb, hser⟩
    exact (hwm.rebalance_nothingDone hamb hser).of_same hcpu hworkloads

end

/-- An event log nobody listens to. -/
def silentLog : EventLog where
  manager := none
  toDict w := .ok w.taskId
  getEventMsg payload := .ok payload

/-- `a` is placed, `b` asks for more than there is, and `a` is removed and added again. -/
def placedAndRefused : List (IsolateCall Unit) :=
  [⟨Ambient.unset (), [⟨"a", "job", 1⟩], []⟩, ⟨Ambient.unset (), [⟨"b", "job", 3⟩], []⟩,
    ⟨Ambient.unset (), [⟨"a", "job", 1⟩], ["a"]⟩]

theorem rebalances_do_nothing_greedy :
    Run.EachStep (WorkloadManager.step (AllocatorKind.greedy.build RandomSource.reversing)
        (EventLog.reporter (fun _ => silentLog)))
      (fun wm call => NothingDone
        (Run.exec (WorkloadManager.step (AllocatorKind.greedy.build RandomSource.reversing)
          (EventLog.reporter (fun _ => silentLog)))
          (WorkloadManager.init none Config.twoThreads) placedAndRefused)
        (wm.isolate (AllocatorKind.greedy.build RandomSource.reversing)
          (EventLog.reporter (fun _ => silentLog)) call))
      (Run.exec (WorkloadManager.step (AllocatorKind.greedy.build RandomSource.reversing)
        (EventLog.reporter (fun _ => silentLog)))
        (WorkloadManager.init none Config.twoThreads) placedAndRefused)
      ([Ambient.unset (), Ambient.unset ()].map rebalance) :=
  rebalances_do_nothing RandomSource.reversing (fun _ => silentLog) none (by decide)
    twoThreads_unclaimed
    (show ∀ call ∈ placedAndRefused, call.ambient.memoryFlags = ⟨false, false, false⟩ by decide)
    (by decide) (fun _ _ w => ⟨w.taskId, rfl⟩)

end TitusIsolate
