import TitusIsolate.Proof.Greedy
import TitusIsolate.Proof.Shape

/-!
# Greedy terminates and is exact

The loops of the allocator are given here once more as they are written, without a bound
on their rounds: a derivation is a run of the loop that comes to its end. A round of the
loop over cores places at least one thread, and so does a call of `__assign_threads` on a
CPU that is not full, so every request has a derivation, and it ends with what the bounded
loops compute.
-/

namespace TitusIsolate

open GreedyCpuAllocator

/-! ## The loops, unbounded -/

/-- The `while` loop over the cores of one package, from its state to its end. -/
inductive PackageLoop (taskId : WorkloadId) : Nat → Package → Package × Nat → Prop where
  | stop {n : Nat} {p : Package} : ¬ (n > 0 ∧ p.getEmptyThreads.length > 0) →
      PackageLoop taskId n p (p, n)
  | round {n : Nat} {p : Package} {r : Package × Nat} :
      n > 0 ∧ p.getEmptyThreads.length > 0 →
      PackageLoop taskId
        (n - ((p.cores.get p.getEmptiestCore).getEmptyThreads.take n).length)
        (p.modifyCore p.getEmptiestCore (claimOnCore taskId n)) r →
      PackageLoop taskId n p r

/-- The count `__assign_threads` goes on with after the loop: a negative one is as it was. -/
def countAfter (w : Workload) (left : Nat) : Int :=
  if w.threadCount > 0 then left else w.threadCount

/-- A call of `__assign_threads(cpu, workload)` that returns or raises, with the CPU it
leaves. -/
inductive AssignCall : Workload → Cpu → Except PyError Unit × Cpu → Prop where
  | nothing {w : Workload} {cpu : Cpu} : w.threadCount = 0 → AssignCall w cpu (.ok (), cpu)
  | full {w : Workload} {cpu : Cpu} : w.threadCount ≠ 0 → cpu.isCpuFull = true →
      AssignCall w cpu (.error (cpuFullError w.taskId cpu), cpu)
  | refused {w : Workload} {cpu : Cpu} {placed : Package × Nat} {e : PyError} :
      w.threadCount ≠ 0 → cpu.isCpuFull = false →
      PackageLoop w.taskId w.threadCount.toNat (cpu.packages.get cpu.getEmptiestPackage) placed →
      legacyWorkload w.taskId w.jobId (countAfter w placed.2) = .error e →
      AssignCall w cpu (.error e, cpu.modifyPackage cpu.getEmptiestPackage (fun _ => placed.1))
  | recurse {w w' : Workload} {cpu : Cpu} {placed : Package × Nat}
      {r : Except PyError Unit × Cpu} :
      w.threadCount ≠ 0 → cpu.isCpuFull = false →
      PackageLoop w.taskId w.threadCount.toNat (cpu.packages.get cpu.getEmptiestPackage) placed →
      legacyWorkload w.taskId w.jobId (countAfter w placed.2) = .ok w' →
      AssignCall w' (cpu.modifyPackage cpu.getEmptiestPackage (fun _ => placed.1)) r →
      AssignCall w cpu r

/-- The loop of `isolate` over the workloads, which ends with them or with an exception. -/
inductive WorkloadLoop : List Workload → Cpu → Except PyError Unit × Cpu → Prop where
  | nil {cpu : Cpu} : WorkloadLoop [] cpu (.ok (), cpu)
  | raises {w : Workload} {ws : List Workload} {cpu cpu' : Cpu} {e : PyError} :
      AssignCall w cpu (.error e, cpu') → WorkloadLoop (w :: ws) cpu (.error e, cpu')
  | next {w : Workload} {ws : List Workload} {cpu cpu' : Cpu} {r : Except PyError Unit × Cpu} :
      AssignCall w cpu (.ok (), cpu') → WorkloadLoop ws cpu' r → WorkloadLoop (w :: ws) cpu r

/-! ## They come to their end -/

theorem packageLoop_ends (taskId : WorkloadId) :
    ∀ (fuel n : Nat) (p : Package), n ≤ fuel →
      PackageLoop taskId n p (assignOnPackage taskId fuel n p)
  | 0, n, p, hn => by
      have h0 : n = 0 := Nat.le_zero.mp hn
      subst h0
      exact .stop (fun h => absurd h.1 (Nat.lt_irrefl 0))
  | fuel + 1, n, p, hn => by
      unfold assignOnPackage
      by_cases hcond : n > 0 ∧ p.getEmptyThreads.length > 0
      · rw [if_pos hcond]
        -- the emptiest core has an empty thread, so the count goes down
        have hpos := emptiestCore_pos hcond.2
        have htake : 0 < ((p.cores.get p.getEmptiestCore).getEmptyThreads.take n).length := by
          rw [List.length_take]
          omega
        exact .round hcond (packageLoop_ends taskId fuel _ _ (by omega))
      · rw [if_neg hcond]
        exact .stop hcond

/-- The constructor is handed a count that has gone down, or a negative one as it was. -/
theorem countAfter_of_pos {w : Workload} (h : 0 < w.threadCount) (left : Nat) :
    countAfter w left = left := if_pos h

theorem countAfter_of_neg {w : Workload} (h : w.threadCount < 0) (left : Nat) :
    countAfter w left = w.threadCount := if_neg (by omega)

theorem assignCall_ends :
    ∀ (fuel : Nat) (w : Workload) (cpu : Cpu), w.threadCount.toNat < fuel →
      AssignCall w cpu (assignThreads fuel w cpu)
  | 0, w, cpu, h => absurd h (Nat.not_lt_zero _)
  | fuel + 1, w, cpu, h => by
      have hloop := packageLoop_ends w.taskId w.threadCount.toNat w.threadCount.toNat
        (cpu.packages.get cpu.getEmptiestPackage) (Nat.le_refl _)
      cases assignThreads_step fuel w cpu with
      | nothing hcount heq =>
        rw [heq]
        exact .nothing hcount
      | full hcount hfull heq =>
        rw [heq]
        exact .full hcount hfull
      | refused e hcount hfull hrefused heq =>
        rw [heq]
        refine .refused (by omega) hfull hloop ?_
        rw [countAfter_of_neg hcount]
        exact hrefused
      | recurse hcount hfull hless heq =>
        rw [heq]
        refine .recurse (by omega) hfull hloop ?_
          (assignCall_ends fuel (resume w cpu) (visit w cpu) (by omega))
        rw [countAfter_of_pos hcount]
        -- the constructor accepts what the loop leaves
        exact if_neg (by omega)

theorem workloadLoop_ends : ∀ (ws : List Workload) (cpu : Cpu),
    WorkloadLoop ws cpu (assignAll ws cpu)
  | [], _ => .nil
  | w :: ws, cpu => by
      have hcall := assignCall_ends (w.threadCount.toNat + 1) w cpu (Nat.lt_succ_self _)
      cases hres : (assignThreads (w.threadCount.toNat + 1) w cpu).1 with
      | error e =>
        have hraises : AssignCall w cpu
            (.error e, (assignThreads (w.threadCount.toNat + 1) w cpu).2) := by
          rw [← hres]
          exact hcall
        rw [assignAll_cons_of_error hres]
        exact .raises hraises
      | ok _ =>
        have hnext : AssignCall w cpu
            (.ok (), (assignThreads (w.threadCount.toNat + 1) w cpu).2) := by
          rw [← hres]
          exact hcall
        rw [assignAll_cons_of_ok hres]
        exact .next hnext (workloadLoop_ends ws _)

/-! ## The answer -/

/-- Greedy's answer to a request. -/
structure GreedyExact (request : AllocateRequest) (response : AllocateResponse) : Prop where
  shape : response.cpu.shape = request.cpu.shape
  placed : ∀ w ∈ request.workloads.values,
    (holdCount response.cpu.getThreads w.taskId : Int) = w.threadCount
  exclusive : Exclusive response.cpu.getThreads
  other : ∀ u, u ∉ request.workloads.keys → ¬ Claimed response.cpu u
  /-- One allocation for each workload with a positive count, in map order. -/
  listed : response.workloadAllocations.map WorkloadAllocateResponse.workloadId
    = (request.workloads.values.filter (fun w => 0 < w.threadCount)).map Workload.taskId
  threadIds : ∀ a ∈ response.workloadAllocations,
    a.threadIds = Update.getThreads response.cpu a.workloadId

section

variable {Rng : Type} {ambient : Ambient Rng} {request : AllocateRequest}

/-- An answer is the CPU that the loop over all workloads leaves. -/
theorem assignAll_of_answer {response : AllocateResponse}
    (h : ((greedyCpuAllocator Rng).isolate ambient request).result = .ok response) :
    assignAll request.workloads.values request.cpu.clear = (.ok (), response.cpu) := by
  simp only [greedyCpuAllocator] at h
  cases hr : assignAll request.workloads.values request.cpu.clear with
  | mk res cpu =>
    rw [hr] at h
    cases res with
    | error e => exact absurd h (by simp)
    | ok _ =>
      rw [← Except.ok.inj h]
      rfl

theorem greedy_shape {response : AllocateResponse}
    (h : ((greedyCpuAllocator Rng).isolate ambient request).result = .ok response) :
    response.cpu.shape = request.cpu.shape := by
  have hshape := assignAll_shape request.workloads.values request.cpu.clear
  rw [assignAll_of_answer h, Cpu.shape_clear] at hshape
  exact hshape

theorem greedyExact_of_answer {response : AllocateResponse}
    (h : ((greedyCpuAllocator Rng).isolate ambient request).result = .ok response) :
    GreedyExact request response := by
  have hanswer := greedy_answer h
  have hpos : ∀ w ∈ request.workloads.values,
      (Update.getThreads response.cpu w.taskId ≠ [] ↔ 0 < w.threadCount) := by
    intro w hw
    have hplaced := hanswer.placed w hw
    rw [getThreads_ne_nil_iff]
    omega
  exact
    { shape := greedy_shape h
      placed := hanswer.placed
      exclusive := hanswer.exclusive
      other := by
        intro u hu
        rw [claimed_iff, hanswer.other u hu]
        exact Nat.lt_irrefl 0
      listed := by
        rw [hanswer.allocations, getWorkloadAllocations_eq, List.map_map]
        have hfilter : request.workloads.values.filter
            (fun w => Update.getThreads response.cpu w.taskId ≠ [])
            = request.workloads.values.filter (fun w => 0 < w.threadCount) :=
          List.filter_congr (fun w hw => decide_eq_decide.mpr (hpos w hw))
        rw [hfilter]
        rfl
      threadIds := by
        intro a ha
        rw [hanswer.allocations] at ha
        obtain ⟨w, _, _, rfl⟩ := mem_getWorkloadAllocations.mp ha
        rfl }

/-- The claims on the CPU of a request have no part in the answer. -/
theorem greedy_of_shape (ambient : Ambient Rng) (request : AllocateRequest) {cpu : Cpu}
    (h : cpu.shape = request.cpu.shape) :
    ((greedyCpuAllocator Rng).isolate ambient { request with cpu }).result
      = ((greedyCpuAllocator Rng).isolate ambient request).result := by
  simp only [greedyCpuAllocator]
  rw [Cpu.clear_of_shape h]

/-- It raises exactly when the counts exceed the CPU. -/
theorem greedy_error_iff (ambient : Ambient Rng)
    (hcounts : ∀ w ∈ request.workloads.values, 0 ≤ w.threadCount) :
    (∃ e, ((greedyCpuAllocator Rng).isolate ambient request).result = .error e)
      ↔ totalThreads request.workloads.values > request.cpu.getThreads.length := by
  have hok := greedy_ok_iff ambient request
  cases hr : ((greedyCpuAllocator Rng).isolate ambient request).result with
  | ok response =>
    have hacc : GreedyAccepts request.cpu request.workloads := hok.mp ⟨response, hr⟩
    refine ⟨fun ⟨e, he⟩ => absurd he (by simp), ?_⟩
    intro hmore
    exact absurd hacc.2 (by omega)
  | error e =>
    refine ⟨fun _ => ?_, fun _ => ⟨e, rfl⟩⟩
    -- no count is negative, so it is the sum that is refused
    have hnot : ¬ GreedyAccepts request.cpu request.workloads := by
      intro hacc
      obtain ⟨response, hresponse⟩ := hok.mpr hacc
      rw [hr] at hresponse
      exact absurd hresponse (by simp)
    refine Classical.byContradiction ?_
    intro hle
    exact hnot ⟨hcounts, by omega⟩

end

/--
**Greedy is exact.** Its loops come to their end on every request; it raises exactly when
the counts together exceed the threads of the CPU; what it answers places every workload's
count and nothing else; and of the CPU it is given only the shape has a part in it.
-/
theorem greedy_exact {Rng : Type} (ambient : Ambient Rng) (request : AllocateRequest)
    (hcounts : ∀ w ∈ request.workloads.values, 0 ≤ w.threadCount) :
    WorkloadLoop request.workloads.values request.cpu.clear
        (assignAll request.workloads.values request.cpu.clear)
      ∧ ((∃ e, ((greedyCpuAllocator Rng).isolate ambient request).result = .error e)
          ↔ totalThreads request.workloads.values > request.cpu.getThreads.length)
      ∧ (∀ response, ((greedyCpuAllocator Rng).isolate ambient request).result = .ok response →
          GreedyExact request response)
      ∧ (∀ cpu : Cpu, cpu.shape = request.cpu.shape →
          ((greedyCpuAllocator Rng).isolate ambient { request with cpu }).result
            = ((greedyCpuAllocator Rng).isolate ambient request).result) :=
  ⟨workloadLoop_ends _ _, greedy_error_iff ambient hcounts,
    fun _ h => greedyExact_of_answer h, fun _ h => greedy_of_shape ambient request h⟩

/-- Two workloads on a CPU of two threads, both of them claimed by a third. -/
def staleRequest : AllocateRequest where
  cpu := NaiveCpuAllocator.claimThreads "gone" [0, 1] Config.twoThreads
  workloads := (WorkloadMap.empty.put ⟨"a", "job", 1⟩).put ⟨"b", "job", 1⟩
  metadata := []

theorem greedy_exact_stale :
    WorkloadLoop staleRequest.workloads.values staleRequest.cpu.clear
        (assignAll staleRequest.workloads.values staleRequest.cpu.clear)
      ∧ ((∃ e, ((greedyCpuAllocator Unit).isolate (Ambient.unset ()) staleRequest).result
            = .error e)
          ↔ totalThreads staleRequest.workloads.values > staleRequest.cpu.getThreads.length)
      ∧ (∀ response, ((greedyCpuAllocator Unit).isolate (Ambient.unset ()) staleRequest).result
            = .ok response → GreedyExact staleRequest response)
      ∧ (∀ cpu : Cpu, cpu.shape = staleRequest.cpu.shape →
          ((greedyCpuAllocator Unit).isolate (Ambient.unset ())
              { staleRequest with cpu }).result
            = ((greedyCpuAllocator Unit).isolate (Ambient.unset ()) staleRequest).result) :=
  greedy_exact (Ambient.unset ()) staleRequest (by decide)

end TitusIsolate
