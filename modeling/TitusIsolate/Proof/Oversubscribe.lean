import Mathlib.Algebra.Order.BigOperators.Group.List
import Mathlib.Algebra.Ring.Int.Defs
import TitusIsolate.Proof.Naive

/-!
# When Naive oversubscribes

A new workload is given empty threads while there are enough of them, and all of them
otherwise. So a placement claims that many threads more, or fills the CPU; and as long as
some thread is empty at the end, no placement has touched a thread that was claimed.
-/

namespace TitusIsolate

open NaiveCpuAllocator

/-- Which threads list the workload, thread by thread. -/
def holds (cpu : Cpu) (u : WorkloadId) : List Bool :=
  cpu.getThreads.map (fun t => decide (u ∈ t.workloadIds))

/-- The number of threads somebody claims. -/
def claimedCount (cpu : Cpu) : Nat := cpu.getThreads.countP Thread.isClaimed

/-- On every thread that lists the workload it is alone. -/
def Alone (cpu : Cpu) (u : WorkloadId) : Prop :=
  ∀ t ∈ cpu.getThreads, u ∈ t.workloadIds → t.workloadIds = [u]

theorem claimedCount_eq (cpu : Cpu) : claimedCount cpu = cpu.getClaimedThreads.length :=
  List.countP_eq_length_filter

theorem claimedCount_eq_length_claimedThreads (cpu : Cpu) :
    claimedCount cpu = (claimedThreads cpu).length := by
  rw [claimedThreads_eq, length_positions]
  rfl

theorem empty_add_claimedCount (cpu : Cpu) :
    (emptyThreads cpu).length + claimedCount cpu = cpu.getThreads.length := by
  rw [claimedCount_eq_length_claimedThreads, length_empty_add_claimed]

theorem getEmptyThreads_eq_nil_iff {cpu : Cpu} :
    cpu.getEmptyThreads = [] ↔ claimedCount cpu = cpu.getThreads.length := by
  have hlength : cpu.getEmptyThreads.length = (emptyThreads cpu).length := by
    rw [emptyThreads_eq, length_positions, List.countP_eq_length_filter]
    rfl
  have htotal := empty_add_claimedCount cpu
  rw [← List.length_eq_zero_iff, hlength]
  omega

section

variable {Rng : Type} {random : RandomSource Rng} {rng : Rng} {cpu : Cpu} {w : WorkloadId}

/-! ## One placement -/

theorem length_claimThreads (threads : List Nat) :
    (claimThreads w threads cpu).getThreads.length = cpu.getThreads.length :=
  Cpu.length_getThreads_mapThreadsIdx cpu _

theorem holds_claimThreads {u : WorkloadId} (hu : u ≠ w) (threads : List Nat) :
    holds (claimThreads w threads cpu) u = holds cpu u := by
  refine Cpu.map_getThreads_mapThreadsIdx ?_ cpu
  intro i t
  split
  · simp [hu]
  · rfl

/-- While there are enough empty threads only empty threads are claimed. -/
theorem claimsEmpty_of_enough {threadCount : Int} (h : threadCount ≤ (emptyThreads cpu).length) :
    ClaimsEmpty w (getAssignThreads random rng cpu threadCount).1.length cpu.getThreads
      (claimThreads w (getAssignThreads random rng cpu threadCount).1 cpu).getThreads := by
  have hempty : ∀ i ∈ (getAssignThreads random rng cpu threadCount).1, i ∈ emptyThreads cpu := by
    intro i hi
    rw [getAssignThreads_fst, if_pos h] at hi
    exact mem_of_mem_slice hi
  unfold claimThreads
  rw [Cpu.getThreads_mapThreadsIdx]
  refine Touch.zipIdx_map (P := fun t : Thread => t.isClaimed = false)
    (getAssignThreads_nodup _ _ _ _) ?_ ?_
  · intro i hi
    have := getAssignThreads_lt hi
    omega
  · intro i t hi ht
    have hi' := hempty i hi
    rw [emptyThreads_eq, mem_positions] at hi'
    obtain ⟨t', ht', hq⟩ := hi'
    rw [List.mem_zipIdx_iff_getElem?.mp ht] at ht'
    have htt : t = t' := Option.some.inj ht'
    rw [htt]
    simpa using hq

theorem claimedCount_of_enough {threadCount : Int}
    (h : threadCount ≤ (emptyThreads cpu).length) :
    claimedCount (claimThreads w (getAssignThreads random rng cpu threadCount).1 cpu)
      = claimedCount cpu + (getAssignThreads random rng cpu threadCount).1.length :=
  Touch.countP_add (fun t ht => ⟨ht, Thread.isClaimed_claim t w⟩) (claimsEmpty_of_enough h)

/-- Where there are not, the CPU is full afterwards. -/
theorem claimedCount_of_not_enough {threadCount : Int}
    (h : ¬ threadCount ≤ (emptyThreads cpu).length) :
    claimedCount (claimThreads w (getAssignThreads random rng cpu threadCount).1 cpu)
      = cpu.getThreads.length := by
  rw [← length_claimThreads (w := w) (getAssignThreads random rng cpu threadCount).1]
  refine List.countP_eq_length.mpr ?_
  intro t' ht'
  unfold claimThreads at ht'
  rw [Cpu.getThreads_mapThreadsIdx] at ht'
  obtain ⟨⟨t, i⟩, ht, rfl⟩ := List.mem_map.mp ht'
  -- a thread that was empty is among those handed out
  cases hclaimed : t.isClaimed with
  | true =>
    obtain ⟨u, hu⟩ := Thread.isClaimed_iff.mp hclaimed
    by_cases hi : i ∈ (getAssignThreads random rng cpu threadCount).1
    · simp [hi]
    · simp [hi, hclaimed]
  | false =>
    have hi : i ∈ (getAssignThreads random rng cpu threadCount).1 := by
      rw [getAssignThreads_fst, if_neg h]
      refine List.mem_append_left _ ?_
      rw [emptyThreads_eq, mem_positions]
      exact ⟨t, List.mem_zipIdx_iff_getElem?.mp ht, by simp [hclaimed]⟩
    simp [hi]

/-- **What a placement adds to the claimed threads**: its count, up to the whole CPU. -/
theorem claimedCount_claimThreads {threadCount : Int} (h : 0 ≤ threadCount) :
    (claimedCount (claimThreads w (getAssignThreads random rng cpu threadCount).1 cpu) : Int)
      = min (cpu.getThreads.length : Int) (claimedCount cpu + threadCount) := by
  have htotal := empty_add_claimedCount cpu
  by_cases henough : threadCount ≤ (emptyThreads cpu).length
  · rw [claimedCount_of_enough henough, length_getAssignThreads random rng cpu h]
    omega
  · rw [claimedCount_of_not_enough henough]
    omega

/-- No placement takes a claim away. -/
theorem claimedCount_le_claimThreads (threadCount : Int) :
    claimedCount cpu
      ≤ claimedCount (claimThreads w (getAssignThreads random rng cpu threadCount).1 cpu) := by
  by_cases henough : threadCount ≤ (emptyThreads cpu).length
  · rw [claimedCount_of_enough henough]
    omega
  · rw [claimedCount_of_not_enough henough]
    exact List.countP_le_length

/-- A placement that leaves a thread empty found one empty. -/
theorem getEmptyThreads_ne_nil_of_claimThreads {threadCount : Int}
    (h : (claimThreads w (getAssignThreads random rng cpu threadCount).1 cpu).getEmptyThreads
      ≠ []) : cpu.getEmptyThreads ≠ [] := by
  intro hfull
  refine h (getEmptyThreads_eq_nil_iff.mpr ?_)
  have hle : _ ≤ claimedCount (claimThreads w (getAssignThreads random rng cpu threadCount).1 cpu) :=
    claimedCount_le_claimThreads threadCount
  have hmax : claimedCount (claimThreads w (getAssignThreads random rng cpu threadCount).1 cpu)
      ≤ (claimThreads w (getAssignThreads random rng cpu threadCount).1 cpu).getThreads.length :=
    List.countP_le_length
  rw [getEmptyThreads_eq_nil_iff.mp hfull] at hle
  rw [length_claimThreads] at hmax ⊢
  omega

/-- A placement that leaves a thread empty disturbs nobody who is alone. -/
theorem alone_claimThreads {threadCount : Int}
    (h : (claimThreads w (getAssignThreads random rng cpu threadCount).1 cpu).getEmptyThreads ≠ [])
    {u : WorkloadId} (hu : Alone cpu u) :
    Alone (claimThreads w (getAssignThreads random rng cpu threadCount).1 cpu) u := by
  have henough : threadCount ≤ (emptyThreads cpu).length := by
    refine Classical.byContradiction ?_
    intro hnot
    refine h (getEmptyThreads_eq_nil_iff.mpr ?_)
    rw [claimedCount_of_not_enough hnot, length_claimThreads]
  refine Touch.forall_mem ?_ (claimsEmpty_of_enough henough) hu
  intro t ht _ hmem
  rw [Thread.claim_workloadIds_of_empty ht] at hmem ⊢
  rw [List.mem_singleton.mp hmem]

/-! ## All placements -/

variable {isolated : List WorkloadId}

/-- A relation that is reflexive and transitive and holds across every placement holds across
the loop. -/
theorem placeAll_induct (random : RandomSource Rng) (isolated : List WorkloadId)
    {R : Cpu → Cpu → Prop} (hrefl : ∀ cpu, R cpu cpu)
    (htrans : ∀ {a b c}, R a b → R b c → R a c) :
    ∀ (ws : List Workload) (cpu : Cpu) (rng : Rng),
      (∀ v ∈ ws, v.taskId ∉ isolated → ∀ cpu rng,
        R cpu (claimThreads v.taskId (getAssignThreads random rng cpu v.threadCount).1 cpu)) →
      R cpu (placeAll random isolated ws cpu rng).1
  | [], cpu, rng, _ => hrefl cpu
  | v :: ws, cpu, rng, hstep => by
      have hrest : ∀ x ∈ ws, x.taskId ∉ isolated → ∀ cpu rng,
          R cpu (claimThreads x.taskId (getAssignThreads random rng cpu x.threadCount).1 cpu) :=
        fun x hx => hstep x (List.mem_cons_of_mem _ hx)
      unfold placeAll
      split
      · exact placeAll_induct random isolated hrefl htrans ws cpu rng hrest
      · rename_i hnew
        exact htrans (hstep v (by simp) hnew cpu rng)
          (placeAll_induct random isolated hrefl htrans ws _ _ hrest)

/-- A workload that is not placed keeps exactly its threads. -/
theorem holds_placeAll {ws : List Workload} {u : WorkloadId}
    (hu : ∀ v ∈ ws, v.taskId ∉ isolated → v.taskId ≠ u) (cpu : Cpu) (rng : Rng) :
    holds (placeAll random isolated ws cpu rng).1 u = holds cpu u :=
  placeAll_induct random isolated (R := fun a b => holds b u = holds a u) (fun _ => rfl)
    (fun hab hbc => hbc.trans hab) ws cpu rng
    (fun v hv hnew _ _ => holds_claimThreads (hu v hv hnew).symm _)

/-- If a thread is empty at the end, nobody who was alone has been joined. -/
theorem alone_placeAll (ws : List Workload) (cpu : Cpu) (rng : Rng)
    (h : (placeAll random isolated ws cpu rng).1.getEmptyThreads ≠ []) {u : WorkloadId}
    (hu : Alone cpu u) : Alone (placeAll random isolated ws cpu rng).1 u := by
  have hrel := placeAll_induct random isolated
    (R := fun a b => b.getEmptyThreads ≠ [] →
      a.getEmptyThreads ≠ [] ∧ ∀ u, Alone a u → Alone b u)
    (fun _ h => ⟨h, fun _ hu => hu⟩)
    (fun hab hbc h => ⟨(hab (hbc h).1).1, fun u hu => (hbc h).2 u ((hab (hbc h).1).2 u hu)⟩)
    ws cpu rng
    (fun _ _ _ _ _ h =>
      ⟨getEmptyThreads_ne_nil_of_claimThreads h, fun _ hu => alone_claimThreads h hu⟩)
  exact (hrel h).2 u hu

/-- **What the loop adds to the claimed threads**: the counts of the new workloads, up to the
whole CPU. -/
theorem claimedCount_placeAll :
    ∀ (ws : List Workload) (cpu : Cpu) (rng : Rng), (∀ v ∈ ws, 0 ≤ v.threadCount) →
      (claimedCount (placeAll random isolated ws cpu rng).1 : Int)
        = min (cpu.getThreads.length : Int) (claimedCount cpu
          + ((ws.filter (fun v => v.taskId ∉ isolated)).map Workload.threadCount).sum)
  | [], cpu, rng, _ => by
      have htotal := empty_add_claimedCount cpu
      simp only [placeAll, List.filter_nil, List.map_nil, List.sum_nil]
      omega
  | v :: ws, cpu, rng, hcounts => by
      have hrest : ∀ x ∈ ws, 0 ≤ x.threadCount := fun x hx => hcounts x (List.mem_cons_of_mem _ hx)
      have hsum : 0 ≤ ((ws.filter (fun v => v.taskId ∉ isolated)).map Workload.threadCount).sum := by
        refine List.sum_nonneg ?_
        intro n hn
        obtain ⟨x, hx, rfl⟩ := List.mem_map.mp hn
        exact hrest x (List.mem_filter.mp hx).1
      unfold placeAll
      split
      · rename_i hiso
        rw [claimedCount_placeAll ws cpu rng hrest, List.filter_cons_of_neg (by simpa using hiso)]
      · rename_i hnew
        have hclaim : (claimedCount (claimThreads v.taskId
              (getAssignThreads random rng cpu v.threadCount).1 cpu) : Int) = _ :=
          claimedCount_claimThreads (hcounts v (by simp))
        rw [claimedCount_placeAll ws _ _ hrest, length_claimThreads, hclaim,
          List.filter_cons_of_pos (by simpa using hnew), List.map_cons, List.sum_cons]
        omega

end

/-! ## The answer -/

/-- The threads still claimed once the workloads the request does not mention are gone. -/
def keptCount (request : AllocateRequest) : Nat :=
  request.cpu.getThreads.countP (fun t => t.workloadIds.any (fun u => u ∈ request.workloads.keys))

/-- The workloads of the request that hold no thread yet. -/
def newlyPlaced (request : AllocateRequest) : List Workload :=
  request.workloads.values.filter (fun w => ¬ Claimed request.cpu w.taskId)

/-- Naive's answer to a request, as a CPU. -/
structure NaiveExact (request : AllocateRequest) (cpu : Cpu) : Prop where
  ids : cpu.getThreads.map Thread.id = request.cpu.getThreads.map Thread.id
  removed : ∀ u, u ∉ request.workloads.keys → ¬ Claimed cpu u
  kept : ∀ u ∈ request.workloads.keys, Claimed request.cpu u → holds cpu u = holds request.cpu u
  placed : ∀ w ∈ newlyPlaced request,
    (holdCount cpu.getThreads w.taskId : Int) = min w.threadCount request.cpu.getThreads.length
  claimed : (cpu.getClaimedThreads.length : Int)
    = min (request.cpu.getThreads.length : Int)
        (keptCount request + ((newlyPlaced request).map Workload.threadCount).sum)
  /-- A thread that lists a newly placed workload and somebody else. -/
  shared : ∀ w ∈ newlyPlaced request, ∀ t ∈ cpu.getThreads, w.taskId ∈ t.workloadIds →
    ∀ u ∈ t.workloadIds, u ≠ w.taskId → cpu.getEmptyThreads = []

theorem claimedCount_freeUnmentioned (request : AllocateRequest) :
    claimedCount (freeUnmentioned request.workloads request.cpu) = keptCount request := by
  obtain ⟨g, hg, _, hmem⟩ := freeUnmentioned_threads request.workloads request.cpu
  unfold claimedCount keptCount
  rw [hg, List.countP_map]
  refine List.countP_congr ?_
  intro t _
  simp only [Function.comp_apply, Thread.isClaimed_iff, List.any_eq_true, decide_eq_true_eq, hmem]
  refine ⟨?_, ?_⟩
  · intro h
    obtain ⟨u, hu, ht⟩ := h
    exact ⟨u, ht, hu⟩
  · intro h
    obtain ⟨u, ht, hu⟩ := h
    exact ⟨u, hu, ht⟩

theorem holds_freeUnmentioned {workloads : WorkloadMap} {cpu : Cpu} {u : WorkloadId}
    (h : u ∈ workloads.keys) : holds (freeUnmentioned workloads cpu) u = holds cpu u := by
  obtain ⟨g, hg, _, hmem⟩ := freeUnmentioned_threads workloads cpu
  unfold holds
  rw [hg, List.map_map]
  refine List.map_congr_left ?_
  intro t _
  simp [hmem, h]

/--
**Naive is stable, and oversubscribes only when it must.** It answers every request whose
counts are not negative, whatever the shuffles do: what a workload holds it keeps, what a
new one asks for it gets up to the whole CPU, the claimed threads grow by the new counts up
to the whole CPU, and a new workload shares a thread only if none is empty at the end.
-/
theorem naive_exact {Rng : Type} (random : RandomSource Rng) (ambient : Ambient Rng)
    (request : AllocateRequest) (hcounts : ∀ w ∈ request.workloads.values, 0 ≤ w.threadCount) :
    ∃ response, ((naiveCpuAllocator random).isolate ambient request).result = .ok response
      ∧ NaiveExact request response.cpu := by
  obtain ⟨response, hok, hanswer⟩ := naive_answer random ambient request
  refine ⟨response, hok, ?_⟩
  -- the CPU the loop starts from, and the workloads it finds placed there
  generalize hfreed : freeUnmentioned request.workloads request.cpu = freed
  generalize hiso : freed.getWorkloadIdsToThreadIds.keys = isolated
  have hmem : ∀ u, u ∈ isolated ↔ u ∈ request.workloads.keys ∧ Claimed request.cpu u := by
    intro u
    rw [← hiso, mem_getWorkloadIdsToThreadIds_keys, ← hfreed, freeUnmentioned_claimed]
  have hcpu : response.cpu
      = (placeAll random isolated request.workloads.values freed ambient.rng).1 := by
    have hresult := Except.ok.inj hok
    rw [← hresult, allocateResponse_cpu, hfreed, hiso]
  have hlength : freed.getThreads.length = request.cpu.getThreads.length := by
    rw [← hfreed]
    exact length_of_ids (freeUnmentioned_ids _ _)
  have hnew : request.workloads.values.filter (fun w => w.taskId ∉ isolated)
      = newlyPlaced request := by
    refine List.filter_congr ?_
    intro w hw
    have hkey : w.taskId ∈ request.workloads.keys := WorkloadMap.mem_keys_iff.mpr ⟨w, hw, rfl⟩
    simp [hmem, hkey]
  exact
    { ids := hanswer.ids
      removed := hanswer.other
      kept := by
        intro u hu hclaimed
        have hin : u ∈ isolated := (hmem u).mpr ⟨hu, hclaimed⟩
        rw [hcpu, holds_placeAll (fun v _ hv he => hv (he ▸ hin)), ← hfreed,
          holds_freeUnmentioned hu]
      placed := by
        intro w hw
        obtain ⟨hw, hunclaimed⟩ := List.mem_filter.mp hw
        exact hanswer.placed w hw (by simpa using hunclaimed) (hcounts w hw)
      claimed := by
        rw [← claimedCount_eq, hcpu, claimedCount_placeAll _ _ _ hcounts, hlength, hnew, ← hfreed,
          claimedCount_freeUnmentioned]
      shared := by
        intro w hw t ht hwt u hut hne
        obtain ⟨_, hunclaimed⟩ := List.mem_filter.mp hw
        refine Classical.byContradiction ?_
        intro hempty
        rw [hcpu] at ht hempty
        have halone : Alone freed w.taskId := by
          intro t' ht' hmem'
          have hcl : Claimed freed w.taskId := ⟨t', ht', hmem'⟩
          rw [← hfreed, freeUnmentioned_claimed] at hcl
          exact absurd hcl.2 (by simpa using hunclaimed)
        have hlist := alone_placeAll _ _ _ hempty halone t ht hwt
        rw [hlist] at hut
        exact hne (List.mem_singleton.mp hut) }

/-- A request for three threads of two, one of them held. -/
def crowdedRequest : AllocateRequest where
  cpu := claimThreads "a" [0] Config.twoThreads
  workloads := (WorkloadMap.empty.put ⟨"a", "job", 1⟩).put ⟨"b", "job", 2⟩
  metadata := []

theorem naive_exact_crowded : ∃ response,
    ((naiveCpuAllocator RandomSource.reversing).isolate (Ambient.unset ()) crowdedRequest).result
        = .ok response
      ∧ NaiveExact crowdedRequest response.cpu :=
  naive_exact RandomSource.reversing (Ambient.unset ()) crowdedRequest (by decide)

end TitusIsolate
