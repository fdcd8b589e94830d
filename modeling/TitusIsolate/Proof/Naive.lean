import TitusIsolate.Allocate.Builtin
import TitusIsolate.Proof.Claims

/-!
# What Naive does

Whatever the shuffle picks, the positions handed to a new workload are distinct
positions of threads, and there are as many of them as it asks for or as there are
threads. A new workload lists no thread beforehand, so placing it is a `ClaimsNew`
step of that many threads, and nobody else's threads move.
-/

namespace TitusIsolate

open NaiveCpuAllocator

/-! ## Positions -/

section

variable {α : Type}

/-- The positions of the elements that pass a test. -/
def positions (q : α → Bool) (xs : List α) : List Nat :=
  (xs.zipIdx.filter (fun e => q e.1)).map Prod.snd

theorem positions_nodup (q : α → Bool) (xs : List α) : (positions q xs).Nodup := by
  refine List.Nodup.sublist (List.filter_sublist.map _) ?_
  rw [List.zipIdx_map_snd]
  exact List.nodup_range'

theorem mem_positions {q : α → Bool} {xs : List α} {i : Nat} :
    i ∈ positions q xs ↔ ∃ x, xs[i]? = some x ∧ q x = true := by
  unfold positions
  simp only [List.mem_map, List.mem_filter]
  refine ⟨?_, ?_⟩
  · intro h
    obtain ⟨⟨x, j⟩, ⟨hmem, hq⟩, rfl⟩ := h
    exact ⟨x, List.mem_zipIdx_iff_getElem?.mp hmem, hq⟩
  · intro h
    obtain ⟨x, hx, hq⟩ := h
    exact ⟨(x, i), ⟨List.mem_zipIdx_iff_getElem?.mpr hx, hq⟩, rfl⟩

theorem positions_lt {q : α → Bool} {xs : List α} {i : Nat} (h : i ∈ positions q xs) :
    i < xs.length := by
  obtain ⟨x, hx, _⟩ := mem_positions.mp h
  exact (List.getElem?_eq_some_iff.mp hx).1

theorem length_positions (q : α → Bool) (xs : List α) :
    (positions q xs).length = xs.countP q := by
  unfold positions
  rw [List.length_map, ← List.countP_eq_length_filter]
  have hmap : xs.countP q = (xs.zipIdx.map Prod.fst).countP q := by rw [List.zipIdx_map_fst]
  rw [hmap, List.countP_map]
  rfl

/-- What passes a test and what does not are apart. -/
theorem positions_disjoint {q : α → Bool} {xs : List α} {i : Nat}
    (h : i ∈ positions (fun x => !q x) xs) : i ∉ positions q xs := by
  intro h'
  obtain ⟨x, hx, hq⟩ := mem_positions.mp h
  obtain ⟨y, hy, hq'⟩ := mem_positions.mp h'
  rw [hx] at hy
  obtain rfl := Option.some.inj hy
  simp [hq'] at hq

end

/-! ## The threads a workload is given -/

section

variable {Rng : Type} {random : RandomSource Rng} {rng : Rng} {cpu : Cpu}

theorem emptyThreads_eq : emptyThreads cpu = positions (fun t => !t.isClaimed) cpu.getThreads := rfl

theorem claimedThreads_eq : claimedThreads cpu = positions Thread.isClaimed cpu.getThreads := rfl

theorem emptyThreads_nodup : (emptyThreads cpu).Nodup := by
  rw [emptyThreads_eq]
  exact positions_nodup _ _

theorem claimedThreads_nodup : (claimedThreads cpu).Nodup := by
  rw [claimedThreads_eq]
  exact positions_nodup _ _

theorem emptyThreads_lt {i : Nat} (h : i ∈ emptyThreads cpu) : i < cpu.getThreads.length := by
  rw [emptyThreads_eq] at h
  exact positions_lt h

theorem claimedThreads_lt {i : Nat} (h : i ∈ claimedThreads cpu) : i < cpu.getThreads.length := by
  rw [claimedThreads_eq] at h
  exact positions_lt h

theorem not_mem_claimedThreads {i : Nat} (h : i ∈ emptyThreads cpu) : i ∉ claimedThreads cpu := by
  rw [emptyThreads_eq] at h
  rw [claimedThreads_eq]
  exact positions_disjoint h

/-- Every thread is empty or claimed. -/
theorem length_empty_add_claimed (cpu : Cpu) :
    (emptyThreads cpu).length + (claimedThreads cpu).length = cpu.getThreads.length := by
  rw [emptyThreads_eq, claimedThreads_eq, length_positions, length_positions, Nat.add_comm]
  -- a thread passes the test or fails it
  have h := List.length_eq_countP_add_countP Thread.isClaimed (l := cpu.getThreads)
  simpa using h.symm

theorem sliceTo_sublist {α : Type} (xs : List α) (n : Int) : (sliceTo xs n).Sublist xs := by
  unfold sliceTo
  split
  · exact List.take_sublist _ _
  · exact List.take_sublist _ _

theorem length_sliceTo {α : Type} (xs : List α) {n : Int} (h : 0 ≤ n) :
    (sliceTo xs n).length = min n.toNat xs.length := by
  unfold sliceTo
  rw [if_neg (by omega), List.length_take]

/-- The positions drawn after a shuffle are positions of the list shuffled. -/
theorem mem_of_mem_slice {xs : List Nat} {n : Int} {i : Nat}
    (h : i ∈ sliceTo (random.shuffle rng xs).1 n) : i ∈ xs :=
  (random.perm rng xs).mem_iff.mp ((sliceTo_sublist _ _).mem h)

theorem nodup_slice {xs : List Nat} (h : xs.Nodup) (n : Int) :
    (sliceTo (random.shuffle rng xs).1 n).Nodup :=
  List.Nodup.sublist (sliceTo_sublist _ _) ((random.perm rng xs).nodup_iff.mpr h)

theorem getAssignThreads_fst (threadCount : Int) :
    (getAssignThreads random rng cpu threadCount).1
      = if (emptyThreads cpu).length ≥ threadCount then
          sliceTo (random.shuffle rng (emptyThreads cpu)).1 threadCount
        else
          emptyThreads cpu ++ sliceTo (random.shuffle rng (claimedThreads cpu)).1
            (threadCount - (emptyThreads cpu).length) := by
  unfold getAssignThreads
  dsimp only
  split <;> rfl

theorem getAssignThreads_lt {threadCount : Int} {i : Nat}
    (h : i ∈ (getAssignThreads random rng cpu threadCount).1) : i < cpu.getThreads.length := by
  rw [getAssignThreads_fst] at h
  split at h
  · exact emptyThreads_lt (mem_of_mem_slice h)
  · rcases List.mem_append.mp h with h | h
    · exact emptyThreads_lt h
    · exact claimedThreads_lt (mem_of_mem_slice h)

theorem getAssignThreads_nodup (random : RandomSource Rng) (rng : Rng) (cpu : Cpu)
    (threadCount : Int) : (getAssignThreads random rng cpu threadCount).1.Nodup := by
  rw [getAssignThreads_fst]
  split
  · exact nodup_slice emptyThreads_nodup _
  · refine List.nodup_append.mpr
      ⟨emptyThreads_nodup, nodup_slice claimedThreads_nodup _, ?_⟩
    intro i hi j hj hij
    subst hij
    exact not_mem_claimedThreads hi (mem_of_mem_slice hj)

/-- A workload is given what it asks for, or all there is. -/
theorem length_getAssignThreads (random : RandomSource Rng) (rng : Rng) (cpu : Cpu)
    {threadCount : Int} (h : 0 ≤ threadCount) :
    (getAssignThreads random rng cpu threadCount).1.length
      = min threadCount.toNat cpu.getThreads.length := by
  have htotal := length_empty_add_claimed cpu
  have hempty := (random.perm rng (emptyThreads cpu)).length_eq
  have hclaimed := (random.perm rng (claimedThreads cpu)).length_eq
  rw [getAssignThreads_fst]
  split
  · rename_i hle
    rw [length_sliceTo _ h, hempty]
    omega
  · rename_i hlt
    rw [List.length_append, length_sliceTo _ (by omega), hclaimed]
    omega

/-- **Placing a new workload.** -/
theorem claimThreads_spec {w : WorkloadId} {threads : List Nat} (hnd : threads.Nodup)
    (hlt : ∀ i ∈ threads, i < cpu.getThreads.length) (hnew : ¬ Claimed cpu w) :
    ClaimsNew w threads.length cpu.getThreads (claimThreads w threads cpu).getThreads := by
  unfold claimThreads
  rw [Cpu.getThreads_mapThreadsIdx]
  refine Touch.zipIdx_map (P := fun t : Thread => w ∉ t.workloadIds) hnd ?_ ?_
  · intro i hi
    have := hlt i hi
    omega
  · intro i t _ ht hw
    exact hnew ⟨t, (List.fst_mem_of_mem_zipIdx ht), hw⟩

end

/-! ## A whole request -/

section

variable {Rng : Type} (random : RandomSource Rng)

/-- What the loop over the workloads leaves behind, for the new ones among them. -/
structure PlacedNew (isNew : Workload → Prop) (ws : List Workload) (cpu cpu' : Cpu) : Prop where
  ids : cpu'.getThreads.map Thread.id = cpu.getThreads.map Thread.id
  other : ∀ u, (∀ w ∈ ws, isNew w → w.taskId ≠ u) →
    Update.getThreads cpu' u = Update.getThreads cpu u
  placed : ∀ w ∈ ws, isNew w → 0 ≤ w.threadCount →
    (holdCount cpu'.getThreads w.taskId : Int) = min w.threadCount cpu.getThreads.length

theorem length_of_ids {cpu cpu' : Cpu}
    (h : cpu'.getThreads.map Thread.id = cpu.getThreads.map Thread.id) :
    cpu'.getThreads.length = cpu.getThreads.length := by
  have := congrArg List.length h
  simpa using this

theorem holdCount_of_getThreads {cpu cpu' : Cpu} {u : WorkloadId}
    (h : Update.getThreads cpu' u = Update.getThreads cpu u) :
    holdCount cpu'.getThreads u = holdCount cpu.getThreads u := by
  rw [← holdCount_eq_length, ← holdCount_eq_length, h]

theorem claimed_congr {cpu cpu' : Cpu} {u : WorkloadId}
    (h : Update.getThreads cpu' u = Update.getThreads cpu u) :
    Claimed cpu' u ↔ Claimed cpu u := by
  rw [claimed_iff_getThreads, claimed_iff_getThreads, h]

/--
**Every workload in turn.** The new ones get what they ask for or all there is;
everyone else's threads, the ones already placed included, are the same threads.
-/
theorem placeAll_spec (isolated : List WorkloadId) :
    ∀ (ws : List Workload) (cpu : Cpu) (rng : Rng), (ws.map Workload.taskId).Nodup →
      (∀ w ∈ ws, w.taskId ∉ isolated → ¬ Claimed cpu w.taskId) →
      PlacedNew (fun w => w.taskId ∉ isolated) ws cpu (placeAll random isolated ws cpu rng).1
  | [], cpu, rng, _, _ => ⟨rfl, fun _ _ => rfl, by simp⟩
  | w :: ws, cpu, rng, hnd, hnew => by
      rw [List.map_cons, List.nodup_cons] at hnd
      obtain ⟨hw, hnd⟩ := hnd
      unfold placeAll
      split
      · -- placed before the loop began: nothing is claimed for it
        rename_i hiso
        have hrest := placeAll_spec isolated ws cpu rng hnd
          (fun v hv => hnew v (List.mem_cons_of_mem _ hv))
        refine ⟨hrest.ids, ?_, ?_⟩
        · exact fun u hu => hrest.other u (fun v hv => hu v (List.mem_cons_of_mem _ hv))
        · intro v hv hvnew
          rcases List.mem_cons.mp hv with rfl | hv
          · exact absurd hiso hvnew
          · exact hrest.placed v hv hvnew
      · -- new: no other workload of the list has its id, so its claims stay
        rename_i hiso
        have hclaim := claimThreads_spec
          (getAssignThreads_nodup random rng cpu w.threadCount)
          (fun i hi => getAssignThreads_lt hi) (hnew w (by simp) hiso)
        generalize hthreads : getAssignThreads random rng cpu w.threadCount = threads at hclaim ⊢
        have hothers : ∀ u, u ≠ w.taskId → Update.getThreads (claimThreads w.taskId threads.1 cpu) u
            = Update.getThreads cpu u := fun u hu => hclaim.threadIds_other hu
        have hrest := placeAll_spec isolated ws (claimThreads w.taskId threads.1 cpu) threads.2 hnd
          (by
            intro v hv hvnew
            have hne : v.taskId ≠ w.taskId := fun he => hw (he ▸ List.mem_map_of_mem hv)
            rw [claimed_congr (hothers _ hne)]
            exact hnew v (List.mem_cons_of_mem _ hv) hvnew)
        have hids : (claimThreads w.taskId threads.1 cpu).getThreads.map Thread.id
            = cpu.getThreads.map Thread.id := hclaim.ids
        refine ⟨hrest.ids.trans hids, ?_, ?_⟩
        · intro u hu
          rw [hrest.other u (fun v hv => hu v (List.mem_cons_of_mem _ hv))]
          exact hothers u (fun he => hu w (by simp) hiso he.symm)
        · intro v hv hvnew hcount
          rcases List.mem_cons.mp hv with rfl | hv
          · -- the rest of the loop does not touch the threads just claimed
            have hkeep := hrest.other v.taskId
              (fun x hx _ he => hw (he ▸ List.mem_map_of_mem hx))
            have hzero : holdCount cpu.getThreads v.taskId = 0 := by
              have := hnew v (by simp) hiso
              rw [claimed_iff] at this
              omega
            have hlen := length_getAssignThreads random rng cpu hcount
            rw [hthreads] at hlen
            rw [holdCount_of_getThreads hkeep, hclaim.holdCount_self, hzero, hlen]
            omega
          · rw [hrest.placed v hv hvnew hcount, length_of_ids hids]

theorem mem_foldl_free {ws : List WorkloadId} {t : Thread} {u : WorkloadId} :
    u ∈ (ws.foldl Thread.free t).workloadIds ↔ u ∉ ws ∧ u ∈ t.workloadIds := by
  induction ws generalizing t with
  | nil => simp
  | cons w ws ih =>
    rw [List.foldl_cons, ih, Thread.mem_free, List.mem_cons, not_or]
    tauto

theorem foldl_free_id (ws : List WorkloadId) (t : Thread) : (ws.foldl Thread.free t).id = t.id := by
  induction ws generalizing t with
  | nil => rfl
  | cons w ws ih => rw [List.foldl_cons, ih, Thread.free_id]

/-- Freeing leaves a thread's ids that the request mentions, and no other. -/
theorem freeUnmentioned_threads (workloads : WorkloadMap) (cpu : Cpu) :
    ∃ g : Thread → Thread, (freeUnmentioned workloads cpu).getThreads = cpu.getThreads.map g
      ∧ (∀ t, (g t).id = t.id)
      ∧ ∀ t u, u ∈ (g t).workloadIds ↔ u ∈ workloads.keys ∧ u ∈ t.workloadIds := by
  refine ⟨_, Cpu.getThreads_mapThreadsIdx_const cpu _, ?_, ?_⟩
  · exact fun t => foldl_free_id _ t
  · intro t u
    rw [mem_foldl_free, List.mem_filter]
    by_cases hu : u ∈ workloads.keys
    · simp [hu]
    · simp [hu]

theorem freeUnmentioned_ids (workloads : WorkloadMap) (cpu : Cpu) :
    (freeUnmentioned workloads cpu).getThreads.map Thread.id = cpu.getThreads.map Thread.id := by
  obtain ⟨g, hg, hid, _⟩ := freeUnmentioned_threads workloads cpu
  rw [hg, List.map_map]
  exact List.map_congr_left (fun t _ => hid t)

theorem freeUnmentioned_getThreads {workloads : WorkloadMap} {cpu : Cpu} {u : WorkloadId}
    (h : u ∈ workloads.keys) :
    Update.getThreads (freeUnmentioned workloads cpu) u = Update.getThreads cpu u := by
  obtain ⟨g, hg, hid, hmem⟩ := freeUnmentioned_threads workloads cpu
  unfold Update.getThreads
  rw [hg, List.filter_map, List.map_map]
  have hfilter : ((fun t : Thread => decide (u ∈ t.workloadIds)) ∘ g)
      = fun t => decide (u ∈ t.workloadIds) := by
    funext t
    simp [hmem, h]
  rw [hfilter]
  exact List.map_congr_left (fun t _ => hid t)

theorem freeUnmentioned_claimed {workloads : WorkloadMap} {cpu : Cpu} {u : WorkloadId} :
    Claimed (freeUnmentioned workloads cpu) u ↔ u ∈ workloads.keys ∧ Claimed cpu u := by
  obtain ⟨g, hg, _, hmem⟩ := freeUnmentioned_threads workloads cpu
  unfold Claimed
  rw [hg]
  simp only [List.mem_map, exists_exists_and_eq_and, hmem]
  tauto

variable {random} {ambient : Ambient Rng} {request : AllocateRequest}

/-- What is known of Naive's answer. -/
structure NaiveAnswer (ambient : Ambient Rng) (request : AllocateRequest)
    (response : AllocateResponse) : Prop where
  allocations : response.workloadAllocations
    = getWorkloadAllocations ambient.memoryFlags response.cpu request.workloads.values
  ids : response.cpu.getThreads.map Thread.id = request.cpu.getThreads.map Thread.id
  kept : ∀ u ∈ request.workloads.keys, Claimed request.cpu u →
    Update.getThreads response.cpu u = Update.getThreads request.cpu u
  placed : ∀ w ∈ request.workloads.values, ¬ Claimed request.cpu w.taskId → 0 ≤ w.threadCount →
    (holdCount response.cpu.getThreads w.taskId : Int)
      = min w.threadCount request.cpu.getThreads.length
  other : ∀ u, u ∉ request.workloads.keys → ¬ Claimed response.cpu u

/-- **Naive answers every request**, and this is what it answers. -/
theorem naive_answer (random : RandomSource Rng) (ambient : Ambient Rng)
    (request : AllocateRequest) : ∃ response,
    ((naiveCpuAllocator random).isolate ambient request).result = .ok response
      ∧ NaiveAnswer ambient request response := by
  refine ⟨_, rfl, ?_⟩
  -- the CPU the snapshot of placed ids is taken of
  generalize hcpu : freeUnmentioned request.workloads request.cpu = cpu
  have hiso : ∀ u, u ∈ cpu.getWorkloadIdsToThreadIds.keys
      ↔ u ∈ request.workloads.keys ∧ Claimed request.cpu u := by
    intro u
    rw [mem_getWorkloadIdsToThreadIds_keys, ← hcpu, freeUnmentioned_claimed]
  have hids : cpu.getThreads.map Thread.id = request.cpu.getThreads.map Thread.id := by
    rw [← hcpu, freeUnmentioned_ids]
  have hspec := placeAll_spec random cpu.getWorkloadIdsToThreadIds.keys request.workloads.values
    cpu ambient.rng request.workloads.values_taskId_nodup
    (fun w _ hw => mt mem_getWorkloadIdsToThreadIds_keys.mpr hw)
  have hkept : ∀ u, (∀ w ∈ request.workloads.values,
      w.taskId ∉ cpu.getWorkloadIdsToThreadIds.keys → w.taskId ≠ u) →
      Update.getThreads (placeAll random cpu.getWorkloadIdsToThreadIds.keys
        request.workloads.values cpu ambient.rng).1 u = Update.getThreads cpu u := hspec.other
  exact
    { allocations := rfl
      ids := hspec.ids.trans hids
      kept := by
        intro u hu hcl
        have hmem : u ∈ cpu.getWorkloadIdsToThreadIds.keys := (hiso u).mpr ⟨hu, hcl⟩
        rw [allocateResponse_cpu, hkept u (fun w _ hw he => hw (he ▸ hmem)), ← hcpu,
          freeUnmentioned_getThreads hu]
      placed := by
        intro w hw hncl hcount
        have hnew : w.taskId ∉ cpu.getWorkloadIdsToThreadIds.keys :=
          fun hmem => hncl ((hiso _).mp hmem).2
        rw [allocateResponse_cpu, hspec.placed w hw hnew hcount, length_of_ids hids]
      other := by
        intro u hu
        -- nobody claims for it after the freeing, so it is as it was then
        have hsame := hkept u (fun w hw _ he => hu (WorkloadMap.mem_keys_iff.mpr ⟨w, hw, he⟩))
        rw [allocateResponse_cpu, claimed_congr hsame, ← mem_getWorkloadIdsToThreadIds_keys, hiso]
        exact fun h => hu h.1 }

end

end TitusIsolate
