import TitusIsolate.Lib.Run
import TitusIsolate.Proof.Fallback
import TitusIsolate.Proof.Isolate

/-!
# Claims without a workload

Greedy and Naive answer with a CPU on which only requested workloads have claims.
Noop answers with the CPU it is given, so a workload it is told to drop keeps its
threads, until Greedy or Naive next answers. Under a fallback allocator calls may be
answered by either side, so a claimed workload is in the map or was removed by a call
that Noop answered since then.
-/

namespace TitusIsolate

/-- The response is Noop's. -/
def AllocateResponse.byNoop (response : AllocateResponse) : Bool :=
  decide (response.metadata.get? cpuAllocatorKey = some "NoopCpuAllocator")

/-- A manager, and the ids removed by the calls Noop has answered since Greedy or Naive
last answered one. -/
structure Watched where
  wm : WorkloadManager
  removedUnderNoop : List WorkloadId

section

variable {Rng : Type} (allocator : CpuAllocator Rng)
  (reportCpuEvent : Ambient Rng → AllocateRequest → AllocateResponse → Except PyError Unit)

/-- The call, and what is removed by it if Noop answers. -/
def Watched.step (s : Watched) (call : IsolateCall Rng) : Watched where
  wm := s.wm.step allocator reportCpuEvent call
  removedUnderNoop :=
    match (s.wm.isolate allocator reportCpuEvent call).response with
    | none => s.removedUnderNoop
    | some response => if response.byNoop then s.removedUnderNoop ++ call.removes else []

/-- Watching changes nothing. -/
theorem Watched.exec_wm (s : Watched) (calls : List (IsolateCall Rng)) :
    (Run.exec (Watched.step allocator reportCpuEvent) s calls).wm
      = Run.exec (WorkloadManager.step allocator reportCpuEvent) s.wm calls := by
  induction calls generalizing s with
  | nil => rfl
  | cons call calls ih => rw [Run.exec_cons, Run.exec_cons, ih]; rfl

end

/-! ## One answer -/

section

variable {Rng : Type} {random : RandomSource Rng} {fallbackQueueDepth : Int}
  {ambient : Ambient Rng} {request : AllocateRequest} {response : AllocateResponse}

/-- The claims an answer may have: of requested workloads, or those that Noop found. -/
def AnswerClaims (found : Cpu) (request : AllocateRequest) (response : AllocateResponse) : Prop :=
  ∀ u, Claimed response.cpu u →
    u ∈ request.workloads.keys ∨ (response.byNoop = true ∧ Claimed found u)

/-- A response names the allocator that built it. -/
theorem allocateResponse_byNoop (ambient : Ambient Rng) (cpu : Cpu)
    (allocs : List WorkloadAllocateResponse) (name : String) :
    (allocateResponse ambient cpu allocs name OrderedDict.empty).byNoop
      = decide (name = "NoopCpuAllocator") := by
  have hname : (allocateResponse ambient cpu allocs name OrderedDict.empty).metadata.get?
      cpuAllocatorKey = some name := by
    unfold allocateResponse
    dsimp only
    split
    · rw [OrderedDict.get?_insert, if_pos rfl]
    · rw [OrderedDict.get?_insert, if_neg (by decide), OrderedDict.get?_insert, if_pos rfl]
  unfold AllocateResponse.byNoop
  rw [hname]
  simp

theorem build_claims {kind : AllocatorKind}
    (h : ((kind.build random).isolate ambient request).result = .ok response) :
    AnswerClaims request.cpu request response := by
  intro u hcl
  cases kind with
  | greedy =>
    have hzero := (greedy_answer h).other u
    rw [claimed_iff] at hcl
    by_contra hno
    exact absurd (hzero (fun hmem => hno (Or.inl hmem))) (by omega)
  | naive =>
    obtain ⟨response', hok, hanswer⟩ := naive_answer random ambient request
    have h' : ((naiveCpuAllocator random).isolate ambient request).result = .ok response := h
    rw [hok] at h'
    obtain rfl := Except.ok.inj h'
    by_contra hno
    exact hanswer.other u (fun hmem => hno (Or.inl hmem)) hcl
  | noop =>
    obtain rfl := Except.ok.inj h
    exact Or.inr ⟨allocateResponse_byNoop _ _ _ _, hcl⟩

/-- Only Noop signs as Noop. -/
theorem build_byNoop {kind : AllocatorKind}
    (h : ((kind.build random).isolate ambient request).result = .ok response)
    (hnoop : response.byNoop = true) : kind = .noop := by
  obtain ⟨cpu, rfl⟩ := build_result_ok h
  rw [allocateResponse_byNoop, decide_eq_true_eq] at hnoop
  cases kind with
  | noop => rfl
  | greedy => exact absurd hnoop (show "GreedyCpuAllocator" ≠ "NoopCpuAllocator" by decide)
  | naive => exact absurd hnoop (show "NaiveCpuAllocator" ≠ "NoopCpuAllocator" by decide)

variable {primary secondary : AllocatorKind}

/-- **One answer of the fallback allocator**, whoever gave it. -/
theorem fallback_claims
    (h : ((fallbackCpuAllocator fallbackQueueDepth (primary.build random)
      (secondary.build random)).isolate ambient request).result = .ok response) :
    AnswerClaims request.cpu request response := by
  rcases fallback_ok_cases h with h | h | ⟨e, he, h⟩
  · exact build_claims h
  · exact build_claims h
  · -- Greedy raised, so the CPU handed on has claims of requested workloads only
    obtain ⟨rfl, _⟩ := build_result_error he
    have hclaims : AnswerClaims ((greedyCpuAllocator Rng).isolate ambient request).request.cpu
        ((greedyCpuAllocator Rng).isolate ambient request).request response := build_claims h
    obtain ⟨hworkloads, hzero⟩ := greedy_request ambient request
    intro u hcl
    rcases hclaims u hcl with hmem | ⟨_, hfound⟩
    · rw [hworkloads] at hmem
      exact Or.inl hmem
    · by_contra hno
      rw [claimed_iff, hzero u (fun hmem => hno (Or.inl hmem))] at hfound
      exact absurd hfound (Nat.lt_irrefl 0)

/-- With Noop on neither side, no answer is Noop's. -/
theorem fallback_byNoop (hp : primary ≠ .noop) (hs : secondary ≠ .noop)
    (h : ((fallbackCpuAllocator fallbackQueueDepth (primary.build random)
      (secondary.build random)).isolate ambient request).result = .ok response) :
    response.byNoop = false := by
  cases hnoop : response.byNoop with
  | false => rfl
  | true =>
    exfalso
    rcases fallback_ok_cases h with h | h | ⟨_, _, h⟩
    · exact hp (build_byNoop h hnoop)
    · exact hs (build_byNoop h hnoop)
    · exact hs (build_byNoop h hnoop)

end

/-! ## A run -/

/-- Every claimed workload is in the map or was removed under Noop. -/
def NoOrphans (s : Watched) : Prop :=
  ∀ u, Claimed s.wm.cpu u → u ∈ s.wm.workloads.keys ∨ u ∈ s.removedUnderNoop

section

variable {Rng : Type} (random : RandomSource Rng) (fallbackQueueDepth : Int)
  (reportCpuEvent : Ambient Rng → AllocateRequest → AllocateResponse → Except PyError Unit)
  (primary secondary : AllocatorKind)

theorem noOrphans_step (s : Watched) (call : IsolateCall Rng) (h : NoOrphans s) :
    NoOrphans (s.step (fallbackCpuAllocator fallbackQueueDepth (primary.build random)
      (secondary.build random)) reportCpuEvent call) := by
  intro u hcl
  unfold Watched.step WorkloadManager.step at hcl ⊢
  cases hres : ((fallbackCpuAllocator fallbackQueueDepth (primary.build random)
      (secondary.build random)).isolate call.ambient (s.wm.requestFor call)).result with
  | error e =>
    rw [isolate_of_error hres] at hcl ⊢
    exact h u hcl
  | ok response =>
    have hinst := isolate_of_ok reportCpuEvent hres
    dsimp only at hcl ⊢
    rw [hinst.cpu] at hcl
    rw [hinst.workloads, hinst.answer]
    dsimp only
    rcases fallback_claims hres u hcl with hmem | ⟨hnoop, hfound⟩
    · exact Or.inl hmem
    · rw [hnoop, if_pos rfl, mem_keys_newWorkloads, List.mem_append]
      -- the claim was there before the call, and only the removes can have dropped it
      rcases h u hfound with hkey | hold
      · by_cases hrem : u ∈ call.removes
        · exact Or.inr (Or.inr hrem)
        · exact Or.inl (Or.inr ⟨hrem, hkey⟩)
      · exact Or.inr (Or.inl hold)

theorem removedUnderNoop_step (hp : primary ≠ .noop) (hs : secondary ≠ .noop) (s : Watched)
    (call : IsolateCall Rng) (h : s.removedUnderNoop = []) :
    (s.step (fallbackCpuAllocator fallbackQueueDepth (primary.build random)
      (secondary.build random)) reportCpuEvent call).removedUnderNoop = [] := by
  unfold Watched.step
  cases hres : ((fallbackCpuAllocator fallbackQueueDepth (primary.build random)
      (secondary.build random)).isolate call.ambient (s.wm.requestFor call)).result with
  | error e =>
    rw [isolate_of_error hres]
    exact h
  | ok response =>
    rw [(isolate_of_ok reportCpuEvent hres).answer]
    dsimp only
    rw [fallback_byNoop hp hs hres, if_neg (by simp)]

/--
**No orphans but Noop's.** In every state of every run from an unclaimed CPU, a claimed
workload is in the map, or was removed by a call that Noop answered since Greedy or
Naive last answered one. With Noop on neither side there is no such call.
-/
theorem reachable_noOrphans (instanceId : Option String) {cpu : Cpu}
    (hclear : ∀ u, ¬ Claimed cpu u) (calls : List (IsolateCall Rng)) :
    NoOrphans (Run.exec (Watched.step (fallbackCpuAllocator fallbackQueueDepth
        (primary.build random) (secondary.build random)) reportCpuEvent)
        ⟨WorkloadManager.init instanceId cpu, []⟩ calls)
      ∧ (primary ≠ .noop → secondary ≠ .noop → ∀ u,
          Claimed (Run.exec (WorkloadManager.step (fallbackCpuAllocator fallbackQueueDepth
            (primary.build random) (secondary.build random)) reportCpuEvent)
            (WorkloadManager.init instanceId cpu) calls).cpu u →
          u ∈ (Run.exec (WorkloadManager.step (fallbackCpuAllocator fallbackQueueDepth
            (primary.build random) (secondary.build random)) reportCpuEvent)
            (WorkloadManager.init instanceId cpu) calls).workloads.keys) := by
  have hinit : NoOrphans ⟨WorkloadManager.init instanceId cpu, []⟩ :=
    fun u hcl => absurd hcl (hclear u)
  have hrun := Run.exec_invariant (I := NoOrphans)
    (noOrphans_step random fallbackQueueDepth reportCpuEvent primary secondary) hinit calls
  refine ⟨hrun, ?_⟩
  intro hp hs u hcl
  have hnil := Run.exec_invariant (I := fun s : Watched => s.removedUnderNoop = [])
    (removedUnderNoop_step random fallbackQueueDepth reportCpuEvent primary secondary hp hs)
    (s := ⟨WorkloadManager.init instanceId cpu, []⟩) rfl calls
  have hwm := Watched.exec_wm (fallbackCpuAllocator fallbackQueueDepth (primary.build random)
    (secondary.build random)) reportCpuEvent ⟨WorkloadManager.init instanceId cpu, []⟩ calls
  rw [← hwm] at hcl ⊢
  rcases hrun u hcl with hkey | hold
  · exact hkey
  · rw [hnil] at hold
    exact absurd hold (by simp)

end

/-- Greedy places `a`; a deep queue then lets Noop answer its removal. -/
def placeThenDropDeep : List (IsolateCall Unit) :=
  [⟨Ambient.unset (), [⟨"a", "job", 1⟩], []⟩,
    ⟨{ Ambient.unset () with queueDepth := some 7 }, [], ["a"]⟩]

theorem reachable_noOrphans_deep :
    NoOrphans (Run.exec (Watched.step (fallbackCpuAllocator 5
        (AllocatorKind.greedy.build RandomSource.reversing)
        (AllocatorKind.noop.build RandomSource.reversing)) (fun _ _ _ => .ok ()))
        ⟨WorkloadManager.init none Config.twoThreads, []⟩ placeThenDropDeep) :=
  (reachable_noOrphans RandomSource.reversing 5 (fun _ _ _ => .ok ()) .greedy .noop none
    twoThreads_unclaimed placeThenDropDeep).1

/-- The removed `a` keeps its thread. -/
theorem orphan_under_noop :
    Claimed (Run.exec (WorkloadManager.step (fallbackCpuAllocator 5
          (AllocatorKind.greedy.build RandomSource.reversing)
          (AllocatorKind.noop.build RandomSource.reversing)) (fun _ _ _ => .ok ()))
          (WorkloadManager.init none Config.twoThreads) placeThenDropDeep).cpu "a"
      ∧ "a" ∉ (Run.exec (WorkloadManager.step (fallbackCpuAllocator 5
          (AllocatorKind.greedy.build RandomSource.reversing)
          (AllocatorKind.noop.build RandomSource.reversing)) (fun _ _ _ => .ok ()))
          (WorkloadManager.init none Config.twoThreads) placeThenDropDeep).workloads.keys :=
  ⟨by decide +kernel, by decide +kernel⟩

end TitusIsolate
