import TitusIsolate.Isolate.Host
import TitusIsolate.Model.Config
import TitusIsolate.Proof.Isolate

/-!
# A failed isolate

`isolate` works on copies of the CPU and of the workload map, so an allocator that
raises leaves both alone. The releases are the exception: they are made on the cgroup
manager itself, before the allocator is asked. A failed call is therefore undone
exactly when it had nothing to release.
-/

namespace TitusIsolate

/-- What a failed call should leave behind: one more error, and nothing else. -/
structure FailedAtomically {Rng : Type} (allocator : CpuAllocator Rng) (wm : WorkloadManager)
    (isolated : Finset WorkloadId) (outcome : IsolateOutcome) (isolated' : Finset WorkloadId) :
    Prop where
  returnsFalse : outcome.success = false
  /-- Everything but the error count is the old state. -/
  manager : outcome.manager = { wm with errorCount := wm.errorCount + 1 }
  isolatedIds : isolated' = isolated
  isIsolated : ∀ w, WorkloadManager.isIsolated allocator isolated' w
    = WorkloadManager.isIsolated allocator isolated w

namespace FileWorld

theorem performAll_releases (s : FileWorld) (removes : List WorkloadId) (ok : Nat → Bool) :
    (s.performAll (removes.map CgroupCall.releaseContainer) ok).manager.isolatedWorkloadIds
      = s.manager.isolatedWorkloadIds.filter (· ∉ removes) := by
  induction removes generalizing s ok with
  | nil => simp [performAll]
  | cons w ws ih =>
    rw [List.map_cons, performAll, ih]
    ext u
    simp only [perform, FileCgroupManager.releaseContainer, Finset.mem_filter, Finset.mem_erase,
      List.mem_cons, not_or]
    tauto

end FileWorld

section

variable {Rng : Type} {allocator : CpuAllocator Rng}
  {reportCpuEvent : Ambient Rng → AllocateRequest → AllocateResponse → Except PyError Unit}
  {wm : WorkloadManager} {call : IsolateCall Rng}

/-- **A failed call leaves no trace exactly when it releases nothing**: no id it
removes is isolated. -/
theorem isolate_failure_atomic_iff (world : FileWorld) (ok : Nat → Bool)
    (h : ∃ e, (allocator.isolate call.ambient (wm.requestFor call)).result = .error e) :
    FailedAtomically allocator wm world.manager.isolatedWorkloadIds
        (wm.isolate allocator reportCpuEvent call)
        (world.performAll (wm.isolate allocator reportCpuEvent call).cgroupCalls
          ok).manager.isolatedWorkloadIds
      ↔ ∀ w ∈ call.removes, w ∉ world.manager.isolatedWorkloadIds := by
  -- of a call that raises only the releases are left
  obtain ⟨e, he⟩ := h
  rw [isolate_of_error he]
  dsimp only
  rw [FileWorld.performAll_releases]
  refine ⟨?_, ?_⟩
  · intro hatomic w hw hiso
    have hmem : w ∈ world.manager.isolatedWorkloadIds.filter (· ∉ call.removes) := by
      rw [hatomic.isolatedIds]; exact hiso
    exact (Finset.mem_filter.mp hmem).2 hw
  · intro hnone
    have hsame : world.manager.isolatedWorkloadIds.filter (· ∉ call.removes)
        = world.manager.isolatedWorkloadIds := by
      rw [Finset.filter_eq_self]
      exact fun w hiso hw => hnone w hw hiso
    rw [hsame]
    exact ⟨rfl, rfl, rfl, fun _ => rfl⟩

end

/-! ## The two cases -/

/-- Workload `a` placed on one of two threads, and `b` asking for three. -/
def placeA : IsolateCall Unit := ⟨Ambient.unset (), [⟨"a", "job", 1⟩], []⟩

/-- The manager once `a` is placed. -/
def managerWithA : WorkloadManager :=
  ((WorkloadManager.init none Config.twoThreads).isolate (greedyCpuAllocator Unit)
    (fun _ _ _ => .ok ()) placeA).manager

/-- The cgroup manager once `a` is placed and its writes are made. -/
def worldWithA : FileWorld :=
  (FileWorld.init (fun _ _ => none)).performAll
    ((WorkloadManager.init none Config.twoThreads).isolate (greedyCpuAllocator Unit)
      (fun _ _ _ => .ok ()) placeA).cgroupCalls (fun _ => true)

/-- A call that adds a workload of three threads to a CPU of two. -/
def tooMuch (removes : List WorkloadId) : IsolateCall Unit :=
  ⟨Ambient.unset (), [⟨"b", "job", 3⟩], removes⟩

theorem tooMuch_refused (removes : List WorkloadId) (h : removes = [] ∨ removes = ["a"]) :
    ∃ e, ((greedyCpuAllocator Unit).isolate (tooMuch removes).ambient
      (managerWithA.requestFor (tooMuch removes))).result = .error e := by
  rcases h with rfl | rfl
  · exact ⟨_, rfl⟩
  · exact ⟨_, rfl⟩

/-- Adding `b` alone fails and leaves no trace. -/
theorem isolate_failure_atomic_add :
    FailedAtomically (greedyCpuAllocator Unit) managerWithA worldWithA.manager.isolatedWorkloadIds
      (managerWithA.isolate (greedyCpuAllocator Unit) (fun _ _ _ => .ok ()) (tooMuch []))
      (worldWithA.performAll (managerWithA.isolate (greedyCpuAllocator Unit) (fun _ _ _ => .ok ())
        (tooMuch [])).cgroupCalls (fun _ => true)).manager.isolatedWorkloadIds :=
  (isolate_failure_atomic_iff worldWithA (fun _ => true) (tooMuch_refused [] (Or.inl rfl))).mpr
    (by simp [tooMuch])

/-- Adding `b` while removing `a` fails, keeps `a` in the map and on the CPU, and
loses its isolated mark. -/
theorem isolate_failure_releases :
    "a" ∈ managerWithA.workloads.keys
      ∧ WorkloadManager.isIsolated (greedyCpuAllocator Unit) worldWithA.manager.isolatedWorkloadIds
          "a" = true
      ∧ (∃ e, ((greedyCpuAllocator Unit).isolate (tooMuch ["a"]).ambient
          (managerWithA.requestFor (tooMuch ["a"]))).result = .error e)
      ∧ ¬ FailedAtomically (greedyCpuAllocator Unit) managerWithA
          worldWithA.manager.isolatedWorkloadIds
          (managerWithA.isolate (greedyCpuAllocator Unit) (fun _ _ _ => .ok ()) (tooMuch ["a"]))
          (worldWithA.performAll (managerWithA.isolate (greedyCpuAllocator Unit)
            (fun _ _ _ => .ok ()) (tooMuch ["a"])).cgroupCalls
            (fun _ => true)).manager.isolatedWorkloadIds := by
  refine ⟨by decide +kernel, by decide +kernel, tooMuch_refused ["a"] (Or.inr rfl), ?_⟩
  intro h
  exact absurd h.isolatedIds (by decide +kernel)

end TitusIsolate
