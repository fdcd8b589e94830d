import TitusIsolate.Proof.Claims
import TitusIsolate.Proof.Isolate

/-!
# The last response as a dictionary

`__apply_isolation` looks every new allocation up in the last response and skips it
when it finds an equal one. A response built by `get_workload_allocations` lists a
workload at most once, so the dictionary made of it holds exactly what it lists, and
an allocation can be read off the CPU and the map the response was built from.
-/

namespace TitusIsolate

/-! ## Finding an allocation -/

/-- The response lists no workload twice. -/
def ListsOnce (allocs : List WorkloadAllocateResponse) : Prop :=
  (allocs.map WorkloadAllocateResponse.workloadId).Nodup

/-- The allocation listed for a workload. -/
def findAllocation (allocs : List WorkloadAllocateResponse) (u : WorkloadId) :
    Option WorkloadAllocateResponse :=
  allocs.find? (fun a => a.workloadId = u)

section

variable {allocs : List WorkloadAllocateResponse} {u : WorkloadId}

theorem findAllocation_eq_none_iff :
    findAllocation allocs u = none ↔ ∀ a ∈ allocs, a.workloadId ≠ u := by
  unfold findAllocation
  rw [List.find?_eq_none]
  simp

theorem findAllocation_eq_some_iff (hnd : ListsOnce allocs) {a : WorkloadAllocateResponse} :
    findAllocation allocs u = some a ↔ a ∈ allocs ∧ a.workloadId = u := by
  refine ⟨?_, ?_⟩
  · intro h
    exact ⟨List.mem_of_find?_eq_some h, by simpa using List.find?_some h⟩
  · intro hx
    obtain ⟨hmem, rfl⟩ := hx
    cases h : findAllocation allocs a.workloadId with
    | none => exact absurd rfl (findAllocation_eq_none_iff.mp h a hmem)
    | some b =>
      have hid : b.workloadId = a.workloadId := by simpa using List.find?_some h
      rw [List.inj_on_of_nodup_map hnd (List.mem_of_find?_eq_some h) hmem hid]

/-- The dictionary of a response holds what the response lists. -/
theorem getWorkloadAllocationDict_get? {response : AllocateResponse}
    (hnd : ListsOnce response.workloadAllocations) :
    (WorkloadManager.getWorkloadAllocationDict (some response)).get? u
      = findAllocation response.workloadAllocations u := by
  have hfold : ∀ (allocs : List WorkloadAllocateResponse)
      (d : OrderedDict WorkloadId WorkloadAllocateResponse), ListsOnce allocs →
      (allocs.foldl (fun d a => d.insert a.workloadId a) d).get? u
        = (findAllocation allocs u).or (d.get? u) := by
    intro allocs
    induction allocs with
    | nil => intro d _; rfl
    | cons a allocs ih =>
      intro d hnd
      obtain ⟨hnew, hnd⟩ := List.nodup_cons.mp hnd
      rw [List.foldl_cons, ih _ hnd, OrderedDict.get?_insert]
      unfold findAllocation
      rw [List.find?_cons]
      by_cases hu : u = a.workloadId
      · -- the later allocations are of other workloads
        have hnone : allocs.find? (fun b => decide (b.workloadId = u)) = none := by
          rw [List.find?_eq_none]
          intro b hb hbu
          exact hnew (List.mem_map.mpr ⟨b, hb, by rw [of_decide_eq_true hbu, hu]⟩)
        rw [hnone]
        simp [hu]
      · have hne : ¬ a.workloadId = u := fun h => hu h.symm
        simp [hu, hne]
  unfold WorkloadManager.getWorkloadAllocationDict
  dsimp only
  rw [hfold _ _ hnd, OrderedDict.get?_empty, Option.or_none]

theorem getWorkloadAllocations_listsOnce (flags : MemoryFlags) (cpu : Cpu) (m : WorkloadMap) :
    ListsOnce (getWorkloadAllocations flags cpu m.values) := by
  unfold ListsOnce
  rw [getWorkloadAllocations_eq, List.map_map]
  exact m.values_taskId_nodup.sublist (List.filter_sublist.map _)

/-- The allocation found is that of the workload in the map, when it has claims. -/
theorem findAllocation_getWorkloadAllocations {flags : MemoryFlags} {cpu : Cpu} {m : WorkloadMap}
    {a : WorkloadAllocateResponse} :
    findAllocation (getWorkloadAllocations flags cpu m.values) u = some a
      ↔ ∃ w, m.get? u = some w ∧ Claimed cpu u ∧ a = allocationOf flags cpu w := by
  rw [findAllocation_eq_some_iff (getWorkloadAllocations_listsOnce flags cpu m),
    mem_getWorkloadAllocations]
  refine ⟨?_, ?_⟩
  · intro h
    obtain ⟨⟨w, hw, hne, rfl⟩, rfl⟩ := h
    exact ⟨w, WorkloadMap.mem_values_iff.mp hw, claimed_iff_getThreads.mpr hne, rfl⟩
  · intro h
    obtain ⟨w, hw, hcl, rfl⟩ := h
    obtain rfl := WorkloadMap.taskId_of_get? hw
    exact ⟨⟨w, WorkloadMap.mem_values_iff.mpr hw, claimed_iff_getThreads.mp hcl, rfl⟩, rfl⟩

/--
**Applying a response, read at one workload.** `look` is what a cgroup manager has for
`u`, and the calls of an allocation replace it when the allocation is for `u`. Then
applying a list of allocations leaves what the one for `u` asks for, or what was there
when there is none or it is skipped.
-/
theorem look_foldl_allocations {σ β : Type} (perform : σ → CgroupCall → σ) (look : σ → β)
    (asked : WorkloadAllocateResponse → β) (skip : WorkloadAllocateResponse → Bool)
    (hone : ∀ s a, look ((WorkloadManager.allocationCalls a).foldl perform s)
      = if u = a.workloadId then asked a else look s) (s : σ) (hnd : ListsOnce allocs) :
    look ((allocs.flatMap
        (fun a => if skip a then [] else WorkloadManager.allocationCalls a)).foldl perform s)
      = match findAllocation allocs u with
        | none => look s
        | some a => if skip a then look s else asked a := by
  induction allocs generalizing s with
  | nil => rfl
  | cons a allocs ih =>
    obtain ⟨hnew, hnd⟩ := List.nodup_cons.mp hnd
    rw [List.flatMap_cons, List.foldl_append, ih _ hnd]
    -- the first allocation by itself
    have hhead : look ((if skip a then [] else WorkloadManager.allocationCalls a).foldl perform s)
        = if u = a.workloadId ∧ ¬ skip a = true then asked a else look s := by
      by_cases hs : skip a = true
      · simp [hs]
      · rw [if_neg hs, hone]
        simp [hs]
    rw [hhead]
    by_cases hu : u = a.workloadId
    · -- the later allocations are of other workloads
      have hnone : findAllocation allocs u = none := by
        rw [findAllocation_eq_none_iff]
        intro b hb hbu
        exact hnew (List.mem_map.mpr ⟨b, hb, by rw [hbu, hu]⟩)
      have hfound : findAllocation (a :: allocs) u = some a := by
        unfold findAllocation
        rw [List.find?_cons, hu, decide_eq_true rfl]
      rw [hnone, hfound]
      dsimp only
      by_cases hs : skip a = true
      · rw [if_neg (fun h => h.2 hs), if_pos hs]
      · rw [if_pos ⟨hu, hs⟩, if_neg hs]
    · have hfound : findAllocation (a :: allocs) u = findAllocation allocs u := by
        unfold findAllocation
        rw [List.find?_cons, decide_eq_false (fun h => hu h.symm)]
      rw [hfound, if_neg (fun h => hu h.1)]

end

/-! ## Skipping -/

theorem sameSet_beq_iff {α : Type} [BEq α] [LawfulBEq α] {xs ys : List α} :
    sameSet (· == ·) xs ys = true ↔ ∀ x, x ∈ xs ↔ x ∈ ys := by
  unfold sameSet
  simp only [Bool.and_eq_true, List.all_eq_true, List.any_eq_true, beq_iff_eq, exists_eq_right']
  exact ⟨fun h x => ⟨h.1 x, h.2 x⟩, fun h => ⟨fun x => (h x).mp, fun x => (h x).mpr⟩⟩

/-- Two allocations that ask the cgroup for the same. -/
structure SameAllocation (a b : WorkloadAllocateResponse) : Prop where
  workloadId : b.workloadId = a.workloadId
  cpuQuota : b.cpuQuota = a.cpuQuota
  cpuShares : b.cpuShares = a.cpuShares
  threadIds : ∀ i, i ∈ b.threadIds ↔ i ∈ a.threadIds
  memoryMigrate : b.memoryMigrate = a.memoryMigrate
  memorySpreadPage : b.memorySpreadPage = a.memorySpreadPage
  memorySpreadSlab : b.memorySpreadSlab = a.memorySpreadSlab

theorem SameAllocation.refl (a : WorkloadAllocateResponse) : SameAllocation a a :=
  ⟨rfl, rfl, rfl, fun _ => Iff.rfl, rfl, rfl, rfl⟩

theorem SameAllocation.trans {a b c : WorkloadAllocateResponse} (hab : SameAllocation a b)
    (hbc : SameAllocation b c) : SameAllocation a c where
  workloadId := hbc.workloadId.trans hab.workloadId
  cpuQuota := hbc.cpuQuota.trans hab.cpuQuota
  cpuShares := hbc.cpuShares.trans hab.cpuShares
  threadIds i := (hbc.threadIds i).trans (hab.threadIds i)
  memoryMigrate := hbc.memoryMigrate.trans hab.memoryMigrate
  memorySpreadPage := hbc.memorySpreadPage.trans hab.memorySpreadPage
  memorySpreadSlab := hbc.memorySpreadSlab.trans hab.memorySpreadSlab

theorem eq_some_iff {a b : WorkloadAllocateResponse} :
    a.eq (some b) = true ↔ SameAllocation a b := by
  unfold WorkloadAllocateResponse.eq
  simp only [Bool.and_eq_true, beq_iff_eq, sameSet_beq_iff]
  refine ⟨?_, ?_⟩
  · intro hx
    obtain ⟨⟨⟨⟨⟨⟨h1, h2⟩, h3⟩, h4⟩, h5⟩, h6⟩, h7⟩ := hx
    exact ⟨h1, h2, h3, h4, h5, h6, h7⟩
  · intro h
    exact ⟨⟨⟨⟨⟨⟨h.workloadId, h.cpuQuota⟩, h.cpuShares⟩, h.threadIds⟩, h.memoryMigrate⟩,
      h.memorySpreadPage⟩, h.memorySpreadSlab⟩

/-- An allocation is skipped when the last response holds an equal one. -/
theorem skips_iff {last : Option AllocateResponse} {a : WorkloadAllocateResponse} :
    WorkloadManager.skips last a = true ↔
      ∃ b, (WorkloadManager.getWorkloadAllocationDict last).get? a.workloadId = some b
        ∧ SameAllocation a b := by
  unfold WorkloadManager.skips
  cases h : (WorkloadManager.getWorkloadAllocationDict last).get? a.workloadId with
  | none => simp [WorkloadAllocateResponse.eq]
  | some b => rw [eq_some_iff]; simp

end TitusIsolate
