import Mathlib.Algebra.BigOperators.Group.Finset.Piecewise
import Mathlib.Algebra.Ring.Nat
import TitusIsolate.Isolate.Metrics
import TitusIsolate.Proof.Agreement
import TitusIsolate.Proof.Shape

/-!
# The views of the claims

Three readers go through the claims of a CPU, each its own way: one asks for the threads of a
workload, two collect the threads of all workloads. The metrics count the claims twice more.
All agree, because a thread never lists a workload twice. That is so of a thread with an empty
list, and no operation on a thread undoes it: claiming rebuilds the list without repetition,
and freeing removes one occurrence, which is the only one.
-/

namespace TitusIsolate

/-! ## Operations -/

/-- The operations on a thread that change who claims it. -/
inductive ThreadOp where
  | claim (workloadId : WorkloadId)
  | free (workloadId : WorkloadId)
  | clear

/-- What an operation makes of a thread's list. After a claim the list is in any order. -/
inductive ThreadOp.Leaves : ThreadOp → List WorkloadId → List WorkloadId → Prop
  | claim {w : WorkloadId} {ids ids' : List WorkloadId} (h : ids'.Perm (ids ++ [w]).dedup) :
      Leaves (.claim w) ids ids'
  | free {w : WorkloadId} {ids : List WorkloadId} (h : w ∈ ids) :
      Leaves (.free w) ids (ids.erase w)
  | freeOther {w : WorkloadId} {ids : List WorkloadId} (h : w ∉ ids) : Leaves (.free w) ids ids
  | clear {ids : List WorkloadId} : Leaves .clear ids []

/-- Operations on threads, each with the position of its thread, and the lists of all threads
before and after. -/
inductive Performed : List (Nat × ThreadOp) → List (List WorkloadId) → List (List WorkloadId) →
    Prop
  | done {lists : List (List WorkloadId)} : Performed [] lists lists
  | step {i : Nat} {op : ThreadOp} {ops : List (Nat × ThreadOp)} {ids ids' : List WorkloadId}
      {lists lists' : List (List WorkloadId)} (hi : lists[i]? = some ids)
      (h : op.Leaves ids ids') (hrest : Performed ops (lists.set i ids') lists') :
      Performed ((i, op) :: ops) lists lists'

section

variable {op : ThreadOp} {ids ids' : List WorkloadId} {ops : List (Nat × ThreadOp)}
  {lists lists' : List (List WorkloadId)}

/-- **No operation lists a workload twice.** -/
theorem ThreadOp.Leaves.nodup (h : op.Leaves ids ids') (hids : ids.Nodup) : ids'.Nodup := by
  cases h with
  | claim h => exact h.nodup_iff.mpr (List.nodup_dedup _)
  | free _ => exact hids.erase _
  | freeOther _ => exact hids
  | clear => exact List.nodup_nil

theorem Performed.nodup (h : Performed ops lists lists') (hlists : ∀ ids ∈ lists, ids.Nodup) :
    ∀ ids ∈ lists', ids.Nodup := by
  induction h with
  | done => exact hlists
  | step hi h _ ih =>
    refine ih ?_
    intro ids hids
    rcases List.mem_or_eq_of_mem_set hids with hids | rfl
    · exact hlists ids hids
    · exact h.nodup (hlists _ (List.mem_of_getElem? hi))

theorem Performed.length_eq (h : Performed ops lists lists') : lists'.length = lists.length := by
  induction h with
  | done => rfl
  | step _ _ _ ih => rw [ih, List.length_set]

end

/-! ## On a CPU -/

/-- `t.claim(w)`, `t.free(w)` or `t.clear()` -/
def ThreadOp.on : ThreadOp → Thread → Thread
  | .claim w, t => t.claim w
  | .free w, t => t.free w
  | .clear, t => t.clear

theorem ThreadOp.leaves_on (op : ThreadOp) (t : Thread) :
    op.Leaves t.workloadIds (op.on t).workloadIds := by
  cases op with
  | claim w => exact .claim (List.Perm.refl _)
  | free w =>
    by_cases h : w ∈ t.workloadIds
    · have hfree : (t.free w).workloadIds = t.workloadIds.erase w := by
        unfold Thread.free
        rw [if_pos h]
      show (ThreadOp.free w).Leaves t.workloadIds (t.free w).workloadIds
      rw [hfree]
      exact .free h
    · have hfree : t.free w = t := if_neg h
      show (ThreadOp.free w).Leaves t.workloadIds (t.free w).workloadIds
      rw [hfree]
      exact .freeOther h
  | clear => exact .clear

/-- The CPU after an operation on the thread at a position. -/
def Cpu.perform (cpu : Cpu) (e : Nat × ThreadOp) : Cpu :=
  cpu.mapThreadsIdx (fun i t => if i = e.1 then e.2.on t else t)

/-- The lists of all threads, in `get_threads()` order. -/
def Cpu.lists (cpu : Cpu) : List (List WorkloadId) := cpu.getThreads.map Thread.workloadIds

theorem Cpu.lists_perform {cpu : Cpu} {i : Nat} {t : Thread} (op : ThreadOp)
    (h : cpu.getThreads[i]? = some t) :
    (cpu.perform (i, op)).lists = cpu.lists.set i (op.on t).workloadIds := by
  unfold Cpu.lists Cpu.perform
  refine List.ext_getElem? ?_
  intro j
  rw [List.getElem?_map, Cpu.getElem?_getThreads_mapThreadsIdx, Option.map_map]
  by_cases hj : j = i
  · have hlt : i < cpu.getThreads.length := (List.getElem?_eq_some_iff.mp h).1
    subst hj
    rw [h, List.getElem?_set_self (by rwa [List.length_map])]
    simp
  · rw [List.getElem?_set_ne (fun he => hj he.symm), List.getElem?_map]
    refine congrFun (congrArg Option.map ?_) _
    funext t
    simp [hj]

/-- **The model's operations are such operations**, and any sequence of them can be performed. -/
theorem performed_exec {ops : List (Nat × ThreadOp)} :
    ∀ {cpu : Cpu}, (∀ e ∈ ops, e.1 < cpu.getThreads.length) →
      Performed ops cpu.lists (Run.exec Cpu.perform cpu ops).lists := by
  induction ops with
  | nil => exact fun _ => .done
  | cons e ops ih =>
    intro cpu hlt
    obtain ⟨i, op⟩ := e
    have hi : cpu.getThreads[i]? = some (cpu.getThreads.get ⟨i, hlt (i, op) List.mem_cons_self⟩) :=
      List.getElem?_eq_getElem _
    have hlists := Cpu.lists_perform op hi
    have hlength : (cpu.perform (i, op)).getThreads.length = cpu.getThreads.length :=
      Cpu.length_getThreads_mapThreadsIdx cpu _
    have hrest : Performed ops (cpu.perform (i, op)).lists
        (Run.exec Cpu.perform (cpu.perform (i, op)) ops).lists := by
      refine ih ?_
      intro e he
      rw [hlength]
      exact hlt e (List.mem_cons_of_mem _ he)
    rw [hlists] at hrest
    refine .step ?_ (op.leaves_on _) hrest
    unfold Cpu.lists
    rw [List.getElem?_map, hi]
    rfl

/-- A thread with a list put on it, if the list has no repetition. -/
def Thread.listing (t : Thread) (ids : List WorkloadId) : Thread :=
  if h : ids.Nodup then { t with workloadIds := ids, nodup := h } else t

theorem Thread.listing_id (t : Thread) (ids : List WorkloadId) : (t.listing ids).id = t.id := by
  unfold Thread.listing
  split
  · rfl
  · rfl

theorem Thread.listing_workloadIds {ids : List WorkloadId} (h : ids.Nodup) (t : Thread) :
    (t.listing ids).workloadIds = ids := by
  unfold Thread.listing
  rw [dif_pos h]

/-- Lists without repetition, one for each thread, are the lists of a CPU of this shape. -/
theorem Cpu.exists_lists {cpu : Cpu} {lists : List (List WorkloadId)}
    (hlength : lists.length = cpu.getThreads.length) (hlists : ∀ ids ∈ lists, ids.Nodup) :
    ∃ cpu' : Cpu, cpu'.shape = cpu.shape ∧ cpu'.lists = lists := by
  refine ⟨cpu.mapThreadsIdx (fun i t => t.listing (lists[i]?.getD [])),
    Cpu.view_mapThreadsIdx (fun _ t => t.listing_id _) cpu, ?_⟩
  unfold Cpu.lists
  refine List.ext_getElem? ?_
  intro i
  rw [List.getElem?_map, Cpu.getElem?_getThreads_mapThreadsIdx]
  by_cases hi : i < lists.length
  · have hids : (lists.get ⟨i, hi⟩).Nodup := hlists _ (List.get_mem _ _)
    have hget : lists[i]? = some (lists.get ⟨i, hi⟩) := List.getElem?_eq_getElem hi
    have hthread : cpu.getThreads[i]? = some (cpu.getThreads.get ⟨i, hlength ▸ hi⟩) :=
      List.getElem?_eq_getElem _
    rw [hthread, hget, Option.map_some, Option.map_some, Option.getD_some]
    exact congrArg some (Thread.listing_workloadIds hids _)
  · rw [List.getElem?_eq_none (by omega), List.getElem?_eq_none (by omega)]
    rfl

/-! ## Counting the claims -/

section

variable {α β : Type} [DecidableEq β]

/-- Pairs counted by their second part and by their first. -/
theorem sum_countP_eq_sum_length {f : α → List β} {s : Finset β} {xs : List α}
    (hnodup : ∀ x ∈ xs, (f x).Nodup) (hs : ∀ x ∈ xs, ∀ b ∈ f x, b ∈ s) :
    ∑ b ∈ s, xs.countP (fun x => decide (b ∈ f x)) = (xs.map (fun x => (f x).length)).sum := by
  induction xs with
  | nil => simp
  | cons x xs ih =>
    have hrest := ih (fun y hy => hnodup y (List.mem_cons_of_mem x hy))
      (fun y hy => hs y (List.mem_cons_of_mem x hy))
    -- the head is counted once for each element of its list
    have hhead : s.filter (fun b => b ∈ f x) = (f x).toFinset := by
      ext b
      rw [Finset.mem_filter, List.mem_toFinset]
      exact ⟨And.right, fun hb => ⟨hs x List.mem_cons_self b hb, hb⟩⟩
    have hcard : ∑ b ∈ s, (if b ∈ f x then 1 else 0) = (f x).length := by
      rw [← Finset.card_filter, hhead, List.toFinset_card_of_nodup (hnodup x List.mem_cons_self)]
    simp only [List.countP_cons, decide_eq_true_eq, Finset.sum_add_distrib, hrest, hcard,
      List.map_cons, List.sum_cons, Nat.add_comm]

end

/-- The number of claims, thread by thread. -/
def claimTotal (ts : List Thread) : Nat := (ts.map (fun t => t.workloadIds.length)).sum

theorem claimTotal_cons (t : Thread) (ts : List Thread) :
    claimTotal (t :: ts) = t.workloadIds.length + claimTotal ts := rfl

/-- Each claimed thread has a first claim, and the rest is what oversubscribes it. -/
theorem oversubscribed_add (ts : List Thread) (n : Nat) :
    ts.countP Thread.isClaimed
        + ts.foldl (fun n t => if t.workloadIds.length > 1 then n + (t.workloadIds.length - 1)
            else n) n
      = n + claimTotal ts := by
  induction ts generalizing n with
  | nil => exact Nat.add_comm 0 n
  | cons t ts ih =>
    rw [List.foldl_cons, claimTotal_cons]
    rcases Nat.lt_trichotomy t.workloadIds.length 1 with hnone | hone | hmany
    · have hclaimed : ¬ t.isClaimed = true := by
        simpa [Thread.isClaimed] using hnone
      have hrest := ih n
      rw [List.countP_cons_of_neg hclaimed, if_neg (by omega)]
      omega
    · have hclaimed : t.isClaimed = true := decide_eq_true (by omega)
      have hrest := ih n
      rw [List.countP_cons_of_pos hclaimed, if_neg (by omega)]
      omega
    · have hclaimed : t.isClaimed = true := decide_eq_true (by omega)
      have hrest := ih (n + (t.workloadIds.length - 1))
      rw [List.countP_cons_of_pos hclaimed, if_pos hmany]
      omega

theorem claimTotal_eq (cpu : Cpu) :
    claimTotal cpu.getThreads = getAllocatedSize cpu + getOversubscribedThreadCount cpu := by
  have hcount := oversubscribed_add cpu.getThreads 0
  rw [List.countP_eq_length_filter, Nat.zero_add] at hcount
  exact hcount.symm

/-- The claims are the workloads' threads, whichever way they are counted. -/
theorem sum_getThreads {cpu : Cpu} {s : Finset WorkloadId} (hs : ∀ w, Claimed cpu w → w ∈ s) :
    ∑ w ∈ s, (Update.getThreads cpu w).length = claimTotal cpu.getThreads := by
  simp only [holdCount_eq_length]
  exact sum_countP_eq_sum_length (fun t _ => t.nodup) (fun t ht w hw => hs w ⟨t, ht, hw⟩)

/-- The number of entries of a dictionary of threads. -/
theorem sum_values {cpu : Cpu} :
    (cpu.getWorkloadIdsToThreadIds.values.map List.length).sum = claimTotal cpu.getThreads := by
  have hvalues : cpu.getWorkloadIdsToThreadIds.values.map List.length
      = cpu.getWorkloadIdsToThreadIds.keys.map (fun w => (Update.getThreads cpu w).length) := by
    unfold OrderedDict.values OrderedDict.keys
    rw [List.map_map, List.map_map]
    refine List.map_congr_left ?_
    intro e he
    have hentry : e.2 = Update.getThreads cpu e.1 := by
      rw [← Reconciler.getWorkloads_eq] at he
      exact (Reconciler.mem_getWorkloads he).2
    exact congrArg List.length hentry
  rw [hvalues, ← List.sum_toFinset _ (OrderedDict.keys_nodup _)]
  refine sum_getThreads ?_
  intro w hw
  exact List.mem_toFinset.mpr (mem_getWorkloadIdsToThreadIds_keys.mpr hw)

/-! ## The views -/

/-- What the readers and the metrics say of one CPU fits together. -/
structure ViewsAgree (cpu : Cpu) : Prop where
  listsOnce : ∀ t ∈ cpu.getThreads, t.workloadIds.Nodup
  reconciler : ∀ w, ((Reconciler.getWorkloads cpu).get? w).getD [] = Update.getThreads cpu w
  threadIds : ∀ w, (cpu.getWorkloadIdsToThreadIds.get? w).getD [] = Update.getThreads cpu w
  reconcilerKeys : ∀ w, w ∈ (Reconciler.getWorkloads cpu).keys ↔ Claimed cpu w
  threadIdsKeys : ∀ w, w ∈ cpu.getWorkloadIdsToThreadIds.keys ↔ Claimed cpu w
  /-- A workload has each of its threads once. -/
  distinct : ∀ w, (Update.getThreads cpu w).Nodup
  /-- Over all workloads with a thread, and any others. -/
  total : ∀ s : Finset WorkloadId, (∀ w, Claimed cpu w → w ∈ s) →
    ∑ w ∈ s, (Update.getThreads cpu w).length
      = getAllocatedSize cpu + getOversubscribedThreadCount cpu
  reconcilerTotal : ((Reconciler.getWorkloads cpu).values.map List.length).sum
    = getAllocatedSize cpu + getOversubscribedThreadCount cpu
  threadIdsTotal : (cpu.getWorkloadIdsToThreadIds.values.map List.length).sum
    = getAllocatedSize cpu + getOversubscribedThreadCount cpu
  threads : getAllocatedSize cpu + getUnallocatedSize cpu = cpu.getThreads.length

theorem getWorkloadIdsToThreadIds_getD (cpu : Cpu) (w : WorkloadId) :
    (cpu.getWorkloadIdsToThreadIds.get? w).getD [] = Update.getThreads cpu w := by
  rw [getWorkloadIdsToThreadIds_get?]
  split
  · rfl
  · rename_i h
    rw [claimed_iff_getThreads, not_not] at h
    rw [h]
    rfl

theorem allocated_add_unallocated (cpu : Cpu) :
    getAllocatedSize cpu + getUnallocatedSize cpu = cpu.getThreads.length := by
  exact (List.length_eq_length_filter_add Thread.isClaimed).symm

/-- **The views agree** on every CPU whose threads have distinct ids. -/
theorem viewsAgree_of_nodup {cpu : Cpu} (hids : (cpu.getThreads.map Thread.id).Nodup) :
    ViewsAgree cpu := by
  have hsame := Reconciler.getWorkloads_eq cpu
  have htotal := claimTotal_eq cpu
  refine ⟨fun t _ => t.nodup, ?_, getWorkloadIdsToThreadIds_getD cpu, ?_,
    fun w => mem_getWorkloadIdsToThreadIds_keys, getThreads_nodup hids, ?_, ?_, ?_,
    allocated_add_unallocated cpu⟩
  · rw [hsame]
    exact getWorkloadIdsToThreadIds_getD cpu
  · rw [hsame]
    exact fun w => mem_getWorkloadIdsToThreadIds_keys
  · intro s hs
    rw [sum_getThreads hs, htotal]
  · rw [hsame, sum_values, htotal]
  · rw [sum_values, htotal]

/--
**All views of the claims agree after any claims, frees and clears** on the threads of a CPU
with distinct thread ids, in whatever order a claim leaves a thread's list.
-/
theorem performed_viewsAgree {cpu : Cpu} (hids : (cpu.getThreads.map Thread.id).Nodup)
    {ops : List (Nat × ThreadOp)} {lists : List (List WorkloadId)}
    (h : Performed ops cpu.lists lists) :
    (∀ ids ∈ lists, ids.Nodup)
      ∧ ∃ cpu' : Cpu, cpu'.shape = cpu.shape ∧ cpu'.lists = lists ∧ ViewsAgree cpu' := by
  have hnodup : ∀ ids ∈ lists, ids.Nodup := by
    refine h.nodup ?_
    intro ids hmem
    obtain ⟨t, _, rfl⟩ := List.mem_map.mp hmem
    exact t.nodup
  have hlength : lists.length = cpu.getThreads.length := by
    rw [h.length_eq]
    exact List.length_map _
  obtain ⟨cpu', hshape, hlists⟩ := Cpu.exists_lists hlength hnodup
  refine ⟨hnodup, cpu', hshape, hlists, viewsAgree_of_nodup ?_⟩
  rw [Cpu.ids_of_shape hshape]
  exact hids

/-- Two workloads on a thread, one of them claiming it again, and a thread freed. -/
theorem claimAgain_performed :
    Performed [(0, .claim "a"), (1, .claim "a"), (0, .claim "b"), (0, .claim "a"), (1, .free "a")]
      Config.twoThreads.lists [["a", "b"], []] := by
  have hfirst : ["a"].Perm (([] : List WorkloadId) ++ ["a"]).dedup := by decide
  have hboth : ["a", "b"].Perm (["a"] ++ ["b"]).dedup := by decide
  have hagain : ["a", "b"].Perm (["a", "b"] ++ ["a"]).dedup := by decide
  exact .step rfl (.claim hfirst) (.step rfl (.claim hfirst) (.step rfl (.claim hboth)
    (.step rfl (.claim hagain) (.step rfl (.free (by simp)) .done))))

theorem performed_viewsAgree_claimAgain :
    (∀ ids ∈ [["a", "b"], ([] : List WorkloadId)], ids.Nodup)
      ∧ ∃ cpu' : Cpu, cpu'.shape = Config.twoThreads.shape
        ∧ cpu'.lists = [["a", "b"], []] ∧ ViewsAgree cpu' :=
  performed_viewsAgree (by decide) claimAgain_performed

end TitusIsolate
