import TitusIsolate.Allocate.Allocator
import TitusIsolate.Model.Config

/-!
# Claims, counted

What the allocators do to the threads of a CPU, as relations between the thread
lists before and after. Claiming for `w` touches some threads and changes what they
list only in `w`: every other workload's threads, every thread's id and the order of
threads stay as they are. On empty threads it also keeps threads from being shared.
-/

namespace TitusIsolate

/-- The number of threads a workload claims. -/
def holdCount (ts : List Thread) (w : WorkloadId) : Nat :=
  ts.countP (fun t => decide (w ∈ t.workloadIds))

/-- Some threads that do not list `w` are claimed for it: `n` of them. -/
def ClaimsNew (w : WorkloadId) : Nat → List Thread → List Thread → Prop :=
  Touch (fun t => w ∉ t.workloadIds) (fun t => t.claim w)

/-- Some empty threads are claimed for `w`: `n` of them. -/
def ClaimsEmpty (w : WorkloadId) : Nat → List Thread → List Thread → Prop :=
  Touch (fun t => t.isClaimed = false) (fun t => t.claim w)

/-- No thread is shared. -/
def Exclusive (ts : List Thread) : Prop := ∀ t ∈ ts, t.workloadIds.length ≤ 1

section

variable {w u : WorkloadId} {n m : Nat} {ts ts' ts'' : List Thread}

theorem holdCount_eq_length (cpu : Cpu) (w : WorkloadId) :
    (Update.getThreads cpu w).length = holdCount cpu.getThreads w := by
  unfold Update.getThreads holdCount
  rw [List.length_map, List.countP_eq_length_filter]

theorem getThreads_ne_nil_iff {cpu : Cpu} {w : WorkloadId} :
    Update.getThreads cpu w ≠ [] ↔ 0 < holdCount cpu.getThreads w := by
  rw [← holdCount_eq_length, List.length_pos_iff]

theorem holdCount_pos_iff : 0 < holdCount ts w ↔ ∃ t ∈ ts, w ∈ t.workloadIds := by
  unfold holdCount
  rw [List.countP_pos_iff]
  simp

theorem holdCount_eq_zero_iff : holdCount ts w = 0 ↔ ∀ t ∈ ts, w ∉ t.workloadIds := by
  unfold holdCount
  rw [List.countP_eq_zero]
  simp

/-! ## Claiming -/

theorem ClaimsEmpty.toNew (h : ClaimsEmpty w n ts ts') : ClaimsNew w n ts ts' := by
  refine Touch.mono ?_ h
  intro t ht hw
  rw [Thread.not_isClaimed_iff.mp ht] at hw
  exact absurd hw (by simp)

theorem ClaimsEmpty.trans (h : ClaimsEmpty w n ts ts') (h' : ClaimsEmpty w m ts' ts'') :
    ClaimsEmpty w (n + m) ts ts'' :=
  Touch.trans (fun t _ => by simp) h h'

theorem ClaimsNew.holdCount_self (h : ClaimsNew w n ts ts') :
    holdCount ts' w = holdCount ts w + n :=
  Touch.countP_add (fun t ht => ⟨by simpa using ht, by simp⟩) h

theorem ClaimsNew.holdCount_other (hu : u ≠ w) (h : ClaimsNew w n ts ts') :
    holdCount ts' u = holdCount ts u :=
  Touch.countP_eq (fun t _ => by simp [hu]) h

/-- Another workload's threads are the same list. -/
theorem ClaimsNew.threadIds_other (hu : u ≠ w) (h : ClaimsNew w n ts ts') :
    (ts'.filter (fun t => decide (u ∈ t.workloadIds))).map Thread.id
      = (ts.filter (fun t => decide (u ∈ t.workloadIds))).map Thread.id := by
  refine Touch.filter_map_eq ?_ ?_ h
  · intro t _
    simp [hu]
  · exact fun t _ => Thread.claim_id t w

theorem ClaimsNew.ids (h : ClaimsNew w n ts ts') : ts'.map Thread.id = ts.map Thread.id := by
  refine Touch.map_eq ?_ h
  exact fun t _ => Thread.claim_id t w

/-- Every empty thread claimed is one fewer. -/
theorem ClaimsEmpty.empties (h : ClaimsEmpty w n ts ts') :
    (getEmptyThreads ts').length + n = (getEmptyThreads ts).length := by
  unfold getEmptyThreads
  rw [← List.countP_eq_length_filter, ← List.countP_eq_length_filter]
  exact Touch.countP_sub (fun t ht => ⟨by simpa using ht, by simp⟩) h

theorem ClaimsEmpty.exclusive (h : ClaimsEmpty w n ts ts') (hx : Exclusive ts) :
    Exclusive ts' := by
  refine Touch.forall_mem ?_ h hx
  intro t ht _
  rw [Thread.claim_workloadIds_of_empty ht]
  simp

/-! ## Clearing -/

theorem holdCount_clear : holdCount (ts.map Thread.clear) w = 0 := by
  rw [holdCount_eq_zero_iff]
  intro t ht
  obtain ⟨t', _, rfl⟩ := List.mem_map.mp ht
  simp

theorem exclusive_clear : Exclusive (ts.map Thread.clear) := by
  intro t ht
  obtain ⟨t', _, rfl⟩ := List.mem_map.mp ht
  simp

theorem ids_clear : (ts.map Thread.clear).map Thread.id = ts.map Thread.id := by
  rw [List.map_map]
  exact List.map_congr_left (fun t _ => rfl)

theorem getEmptyThreads_clear :
    (getEmptyThreads (ts.map Thread.clear)).length = ts.length := by
  unfold getEmptyThreads
  rw [List.filter_eq_self.mpr, List.length_map]
  intro t ht
  obtain ⟨t', _, rfl⟩ := List.mem_map.mp ht
  simp

end

/-! ## Claims by workload -/

/-- Some thread of the CPU lists the workload. -/
def Claimed (cpu : Cpu) (w : WorkloadId) : Prop := ∃ t ∈ cpu.getThreads, w ∈ t.workloadIds

instance (cpu : Cpu) (w : WorkloadId) : Decidable (Claimed cpu w) := by
  unfold Claimed; infer_instance

theorem claimed_iff {cpu : Cpu} {w : WorkloadId} :
    Claimed cpu w ↔ 0 < holdCount cpu.getThreads w := holdCount_pos_iff.symm

theorem claimed_iff_getThreads {cpu : Cpu} {w : WorkloadId} :
    Claimed cpu w ↔ Update.getThreads cpu w ≠ [] := by
  rw [claimed_iff, getThreads_ne_nil_iff]

/-- One thread's claims entered into the dictionary of thread ids. -/
def enterClaims (res : OrderedDict WorkloadId (List Nat)) (t : Thread) :
    OrderedDict WorkloadId (List Nat) :=
  t.workloadIds.foldl (fun res w => res.insert w ((res.get? w).getD [] ++ [t.id])) res

theorem enterClaims_get? (res : OrderedDict WorkloadId (List Nat)) (t : Thread) (u : WorkloadId) :
    (enterClaims res t).get? u
      = if u ∈ t.workloadIds then some ((res.get? u).getD [] ++ [t.id]) else res.get? u := by
  have hfold : ∀ (ws : List WorkloadId) (res : OrderedDict WorkloadId (List Nat)), ws.Nodup →
      (ws.foldl (fun res w => res.insert w ((res.get? w).getD [] ++ [t.id])) res).get? u
        = if u ∈ ws then some ((res.get? u).getD [] ++ [t.id]) else res.get? u := by
    intro ws
    induction ws with
    | nil => intro res _; simp
    | cons w ws ih =>
      intro res hnd
      rw [List.nodup_cons] at hnd
      rw [List.foldl_cons, ih _ hnd.2, OrderedDict.get?_insert]
      by_cases hu : u = w
      · subst hu
        simp [hnd.1]
      · simp [hu]
  exact hfold t.workloadIds res t.nodup

/-- The dictionary after a list of threads: each id's threads appended in order. -/
theorem enterAll_get? (ts : List Thread) (res : OrderedDict WorkloadId (List Nat)) (u : WorkloadId) :
    (ts.foldl enterClaims res).get? u
      = if ∃ t ∈ ts, u ∈ t.workloadIds then
          some ((res.get? u).getD [] ++ (ts.filter (fun t => u ∈ t.workloadIds)).map Thread.id)
        else res.get? u := by
  induction ts generalizing res with
  | nil => simp
  | cons t ts ih =>
    rw [List.foldl_cons, ih, enterClaims_get?]
    by_cases ht : u ∈ t.workloadIds
    · by_cases hts : ∃ t ∈ ts, u ∈ t.workloadIds
      · simp [ht, hts]
      · have hnone : ts.filter (fun t => decide (u ∈ t.workloadIds)) = [] := by
          rw [List.filter_eq_nil_iff]
          intro x hx
          simpa using fun hu => hts ⟨x, hx, hu⟩
        simp [ht, hts, hnone]
    · simp [ht]

theorem getWorkloadIdsToThreadIds_eq (cpu : Cpu) :
    cpu.getWorkloadIdsToThreadIds = cpu.getThreads.foldl enterClaims OrderedDict.empty := by
  unfold Cpu.getWorkloadIdsToThreadIds
  congr 1
  funext res t
  split
  · rfl
  · rename_i h
    unfold enterClaims
    rw [Thread.not_isClaimed_iff.mp (by simpa using h)]
    rfl

/-- The CPU's dictionary binds each claimed workload to the ids of its threads. -/
theorem getWorkloadIdsToThreadIds_get? (cpu : Cpu) (u : WorkloadId) :
    cpu.getWorkloadIdsToThreadIds.get? u
      = if Claimed cpu u then some (Update.getThreads cpu u) else none := by
  rw [getWorkloadIdsToThreadIds_eq, enterAll_get?]
  simp [Claimed, Update.getThreads]

theorem mem_getWorkloadIdsToThreadIds_keys {cpu : Cpu} {u : WorkloadId} :
    u ∈ cpu.getWorkloadIdsToThreadIds.keys ↔ Claimed cpu u := by
  rw [OrderedDict.mem_keys_iff, getWorkloadIdsToThreadIds_get?]
  by_cases h : Claimed cpu u
  · simp [h]
  · simp [h]

theorem twoThreads_unclaimed (u : WorkloadId) : ¬ Claimed Config.twoThreads u := by
  intro h
  obtain ⟨t, ht, hu⟩ := h
  have hall : ∀ t ∈ Config.twoThreads.getThreads, t.workloadIds = [] := by decide
  rw [hall t ht] at hu
  exact absurd hu (by simp)

end TitusIsolate
