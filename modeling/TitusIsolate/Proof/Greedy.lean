import TitusIsolate.Allocate.Builtin
import TitusIsolate.Proof.Claims

/-!
# What Greedy does

From the loop over one package's cores up to a whole request. Each level is a
`ClaimsEmpty` step that says how many threads were claimed, so the count a workload
asked for, the threads still empty and the threads of everyone else follow without
looking at the loops again.

`greedy_ok_iff` is the acceptance condition: no count is negative and together they
fit the CPU.
-/

namespace TitusIsolate

open GreedyCpuAllocator

/-! ## One core -/

theorem claimEmptyThreads_spec (w : WorkloadId) (n : Nat) (ts : List Thread) :
    ClaimsEmpty w (min n (getEmptyThreads ts).length) ts (claimEmptyThreads w n ts) := by
  induction ts generalizing n with
  | nil =>
    unfold claimEmptyThreads
    have : min n (getEmptyThreads []).length = 0 := by simp [getEmptyThreads]
    rw [this]
    exact Touch.nil
  | cons t ts ih =>
    cases n with
    | zero =>
      unfold claimEmptyThreads
      rw [Nat.zero_min]
      exact Touch.refl _
    | succ n =>
      unfold claimEmptyThreads
      -- a claimed thread is passed over, an empty one uses up one of the count
      by_cases ht : t.isClaimed = true
      · rw [if_pos ht]
        have hlen : getEmptyThreads (t :: ts) = getEmptyThreads ts := by
          simp [getEmptyThreads, ht]
        rw [hlen]
        exact Touch.skip t (ih (n + 1))
      · rw [if_neg ht]
        have hlen : (getEmptyThreads (t :: ts)).length = (getEmptyThreads ts).length + 1 := by
          simp [getEmptyThreads, ht]
        rw [hlen, Nat.add_min_add_right]
        exact Touch.touch t (by simpa using ht) (ih n)

/-! ## One package -/

theorem modifyCore_claims {p : Package} {w : WorkloadId} {n : Nat} (i : Fin p.cores.length) :
    ClaimsEmpty w (min n (p.cores.get i).getEmptyThreads.length) p.getThreads
      (p.modifyCore i (claimOnCore w n)).getThreads := by
  have hcore := claimEmptyThreads_spec w n (p.cores.get i).threads
  exact Touch.flatMap_modify i.isLt hcore

/-- The emptiest core has an empty thread when the package has one. -/
theorem emptiestCore_pos {p : Package} (h : p.getEmptyThreads.length > 0) :
    0 < (p.cores.get p.getEmptiestCore).getEmptyThreads.length := by
  obtain ⟨t, ht⟩ := List.exists_mem_of_length_pos h
  obtain ⟨htp, hte⟩ := List.mem_filter.mp ht
  obtain ⟨c, hc, htc⟩ := List.mem_flatMap.mp htp
  have hpos : 0 < c.getEmptyThreads.length :=
    List.length_pos_of_mem (List.mem_filter.mpr ⟨htc, hte⟩)
  have hle := le_firstMaxIdx (f := fun c : Core => c.getEmptyThreads.length) p.nonempty hc
  exact Nat.lt_of_lt_of_le hpos hle

/--
**The loop over a package's cores.** With enough fuel it places threads until the
workload has what it asked for or the package is full.
-/
theorem assignOnPackage_spec (w : WorkloadId) :
    ∀ (fuel n : Nat) (p : Package), n ≤ fuel →
      ∃ k, k + (assignOnPackage w fuel n p).2 = n
        ∧ ClaimsEmpty w k p.getThreads (assignOnPackage w fuel n p).1.getThreads
        ∧ ((assignOnPackage w fuel n p).2 = 0
            ∨ (assignOnPackage w fuel n p).1.getEmptyThreads.length = 0)
  | 0, n, p, hn => by
      have h0 : n = 0 := Nat.le_zero.mp hn
      subst h0
      exact ⟨0, rfl, Touch.refl _, Or.inl rfl⟩
  | fuel + 1, n, p, hn => by
      unfold assignOnPackage
      split
      · -- one round places at least one thread, so the fuel left is enough
        rename_i hcond
        obtain ⟨hn0, hempty⟩ := hcond
        have hpos := emptiestCore_pos hempty
        have hclaim := modifyCore_claims (p := p) (w := w) (n := n) p.getEmptiestCore
        dsimp only
        rw [List.length_take]
        obtain ⟨k, hk, hcl, hstop⟩ := assignOnPackage_spec w fuel
          (n - min n (p.cores.get p.getEmptiestCore).getEmptyThreads.length)
          (p.modifyCore p.getEmptiestCore (claimOnCore w n)) (by omega)
        refine ⟨min n (p.cores.get p.getEmptiestCore).getEmptyThreads.length + k, ?_,
          hclaim.trans hcl, hstop⟩
        omega
      · rename_i hcond
        refine ⟨0, by simp, Touch.refl _, ?_⟩
        dsimp only
        rcases Nat.eq_zero_or_pos n with hn0 | hn0
        · exact Or.inl hn0
        · exact Or.inr (Nat.eq_zero_of_not_pos (fun hempty => hcond ⟨hn0, hempty⟩))

/-- On a package that is not full the loop places at least one thread. -/
theorem assignOnPackage_lt {w : WorkloadId} {n : Nat} {p : Package} (hn : 0 < n)
    (hp : 0 < p.getEmptyThreads.length) : (assignOnPackage w n n p).2 < n := by
  obtain ⟨k, hk, hcl, hstop⟩ := assignOnPackage_spec w n n p (Nat.le_refl _)
  have hsame : (assignOnPackage w n n p).1.getEmptyThreads.length + k = p.getEmptyThreads.length :=
    hcl.empties
  omega

/-! ## One workload -/

theorem modifyPackage_claims {cpu : Cpu} {w : WorkloadId} {k : Nat} {p : Package}
    (i : Fin cpu.packages.length)
    (h : ClaimsEmpty w k (cpu.packages.get i).getThreads p.getThreads) :
    ClaimsEmpty w k cpu.getThreads (cpu.modifyPackage i (fun _ => p)).getThreads :=
  Touch.flatMap_modify (h := fun _ => p) i.isLt h

/-- The emptiest package has an empty thread unless the CPU is full. -/
theorem emptiestPackage_pos {cpu : Cpu} (h : 0 < cpu.getEmptyThreads.length) :
    0 < (cpu.packages.get cpu.getEmptiestPackage).getEmptyThreads.length := by
  obtain ⟨t, ht⟩ := List.exists_mem_of_length_pos h
  obtain ⟨htc, hte⟩ := List.mem_filter.mp ht
  obtain ⟨p, hp, htp⟩ := List.mem_flatMap.mp htc
  have hpos : 0 < p.getEmptyThreads.length :=
    List.length_pos_of_mem (List.mem_filter.mpr ⟨htp, hte⟩)
  have hle := le_firstMaxIdx (f := fun p : Package => p.getEmptyThreads.length) cpu.nonempty hp
  exact Nat.lt_of_lt_of_le hpos hle

/-- The emptiest package after the loop over its cores, and the count left to place. -/
def visited (w : Workload) (cpu : Cpu) : Package × Nat :=
  assignOnPackage w.taskId w.threadCount.toNat w.threadCount.toNat
    (cpu.packages.get cpu.getEmptiestPackage)

/-- The CPU with that package in its place. -/
def visit (w : Workload) (cpu : Cpu) : Cpu :=
  cpu.modifyPackage cpu.getEmptiestPackage (fun _ => (visited w cpu).1)

/-- The workload that the call goes on with. -/
def resume (w : Workload) (cpu : Cpu) : Workload := { w with threadCount := (visited w cpu).2 }

/-- What `__assign_threads` does up to its recursive call. -/
inductive AssignStep (fuel : Nat) (w : Workload) (cpu : Cpu) : Prop where
  | nothing (hcount : w.threadCount = 0)
      (heq : assignThreads (fuel + 1) w cpu = (.ok (), cpu)) : AssignStep fuel w cpu
  | full (hcount : w.threadCount ≠ 0) (hfull : cpu.isCpuFull = true)
      (heq : assignThreads (fuel + 1) w cpu = (.error (cpuFullError w.taskId cpu), cpu)) :
      AssignStep fuel w cpu
  | refused (e : PyError) (hcount : w.threadCount < 0) (hfull : cpu.isCpuFull = false)
      (hrefused : legacyWorkload w.taskId w.jobId w.threadCount = .error e)
      (heq : assignThreads (fuel + 1) w cpu = (.error e, visit w cpu)) : AssignStep fuel w cpu
  | recurse (hcount : 0 < w.threadCount) (hfull : cpu.isCpuFull = false)
      (hless : (resume w cpu).threadCount.toNat < w.threadCount.toNat)
      (heq : assignThreads (fuel + 1) w cpu = assignThreads fuel (resume w cpu) (visit w cpu)) :
      AssignStep fuel w cpu

theorem getEmptyThreads_pos {cpu : Cpu} (h : cpu.isCpuFull = false) :
    0 < cpu.getEmptyThreads.length := by
  have hnot : ¬ cpu.isCpuFull = true := by rw [h]; simp
  have := mt Cpu.isCpuFull_iff.mpr hnot
  omega

/-- **One level of the recursion.** A negative count skips the loop and is refused by the
constructor; a positive one goes down, since the package visited has an empty thread. -/
theorem assignThreads_step (fuel : Nat) (w : Workload) (cpu : Cpu) : AssignStep fuel w cpu := by
  by_cases h0 : w.threadCount = 0
  · refine .nothing h0 ?_
    rw [assignThreads, if_pos h0]
  · cases hfull : cpu.isCpuFull with
    | true =>
      refine .full h0 hfull ?_
      rw [assignThreads, if_neg h0, hfull, if_pos rfl]
    | false =>
      rcases Int.lt_or_gt_of_ne h0 with hneg | hpos
      · have hrefused : legacyWorkload w.taskId w.jobId w.threadCount = .error _ := if_pos hneg
        have hnot : ¬ w.threadCount > 0 := by omega
        refine .refused _ hneg hfull hrefused ?_
        rw [assignThreads, if_neg h0, hfull, if_neg Bool.false_ne_true]
        dsimp only
        rw [if_neg hnot, hrefused]
        rfl
      · have hgo : legacyWorkload w.taskId w.jobId (visited w cpu).2 = .ok (resume w cpu) :=
          if_neg (by omega)
        have hless : (visited w cpu).2 < w.threadCount.toNat :=
          assignOnPackage_lt (by omega) (emptiestPackage_pos (getEmptyThreads_pos hfull))
        refine .recurse hpos hfull (by simpa [resume] using hless) ?_
        unfold visited at hgo
        rw [assignThreads, if_neg h0, hfull, if_neg Bool.false_ne_true]
        dsimp only
        rw [if_pos hpos, hgo]
        rfl

/-- A visit places what the count goes down by, and leaves the package full or nothing to
place. -/
theorem visit_spec (w : Workload) (cpu : Cpu) :
    ∃ k, k + (visited w cpu).2 = w.threadCount.toNat
      ∧ ClaimsEmpty w.taskId k cpu.getThreads (visit w cpu).getThreads
      ∧ ((visited w cpu).2 = 0 ∨ (visited w cpu).1.getEmptyThreads.length = 0) := by
  obtain ⟨k, hk, hcl, hstop⟩ := assignOnPackage_spec w.taskId w.threadCount.toNat
    w.threadCount.toNat (cpu.packages.get cpu.getEmptiestPackage) (Nat.le_refl _)
  exact ⟨k, hk, modifyPackage_claims cpu.getEmptiestPackage hcl, hstop⟩

/-- What `__assign_threads` leaves behind: the count placed and whether it raised. -/
def AssignSpec (w : Workload) (cpu : Cpu) (r : Except PyError Unit × Cpu) : Prop :=
  ∃ k, ClaimsEmpty w.taskId k cpu.getThreads r.2.getThreads
    ∧ ((r.1 = .ok () ∧ (k : Int) = w.threadCount)
        ∨ ((∃ e, r.1 = .error e)
            ∧ (w.threadCount < 0 ∨ ((k : Int) < w.threadCount ∧ r.2.getEmptyThreads.length = 0))))

/--
**One workload.** Either it gets exactly the threads it asked for, or the call
raises: at once when the count is negative, else with the CPU full.
-/
theorem assignThreads_spec :
    ∀ (fuel : Nat) (w : Workload) (cpu : Cpu), w.threadCount.toNat < fuel →
      AssignSpec w cpu (assignThreads fuel w cpu)
  | 0, w, cpu, h => absurd h (Nat.not_lt_zero _)
  | fuel + 1, w, cpu, h => by
      cases assignThreads_step fuel w cpu with
      | nothing hcount heq =>
        rw [heq]
        exact ⟨0, Touch.refl _, Or.inl ⟨rfl, by simp [hcount]⟩⟩
      | full hcount hfull heq =>
        rw [heq]
        have hzero := Cpu.isCpuFull_iff.mp hfull
        refine ⟨0, Touch.refl _, Or.inr ⟨⟨_, rfl⟩, ?_⟩⟩
        rcases Int.lt_or_gt_of_ne hcount with hneg | hpos
        · exact Or.inl hneg
        · exact Or.inr ⟨by simpa using hpos, hzero⟩
      | refused e hcount hfull hrefused heq =>
        obtain ⟨k, _, hcl, _⟩ := visit_spec w cpu
        rw [heq]
        exact ⟨k, hcl, Or.inr ⟨⟨e, rfl⟩, Or.inl hcount⟩⟩
      | recurse hcount hfull hless heq =>
        obtain ⟨k, hk, hcl, _⟩ := visit_spec w cpu
        obtain ⟨k', hcl', hres⟩ :=
          assignThreads_spec fuel (resume w cpu) (visit w cpu) (by omega)
        have hrest : (resume w cpu).threadCount = (visited w cpu).2 := rfl
        rw [heq]
        refine ⟨k + k', hcl.trans hcl', ?_⟩
        rcases hres with ⟨hok, hcount'⟩ | ⟨herr, hneg | ⟨hlt, hfull'⟩⟩
        · exact Or.inl ⟨hok, by push_cast; omega⟩
        · exact absurd hneg (by omega)
        · exact Or.inr ⟨herr, Or.inr ⟨by push_cast; omega, hfull'⟩⟩

/-! ## A whole request -/

/-- The threads workloads ask for, together. -/
def totalThreads : List Workload → Int
  | [] => 0
  | w :: ws => w.threadCount + totalThreads ws

theorem totalThreads_nonneg {ws : List Workload} (h : ∀ w ∈ ws, 0 ≤ w.threadCount) :
    0 ≤ totalThreads ws := by
  induction ws with
  | nil => exact Int.le_refl 0
  | cons w ws ih =>
    have hw := h w (by simp)
    have hws := ih (fun v hv => h v (List.mem_cons_of_mem _ hv))
    unfold totalThreads
    omega

/-- What a CPU looks like once some workloads have been placed on empty threads. -/
structure Placed (ws : List Workload) (ts ts' : List Thread) : Prop where
  /-- The threads are the same threads. -/
  ids : ts'.map Thread.id = ts.map Thread.id
  /-- Sharing does not appear. -/
  exclusive : Exclusive ts → Exclusive ts'
  /-- Nobody else's threads change. -/
  other : ∀ u, u ∉ ws.map Workload.taskId → holdCount ts' u = holdCount ts u

theorem Placed.refl (ts : List Thread) (ws : List Workload) : Placed ws ts ts :=
  ⟨rfl, id, fun _ _ => rfl⟩

theorem Placed.cons {w : Workload} {ws : List Workload} {ts ts' ts'' : List Thread} {k : Nat}
    (h : ClaimsEmpty w.taskId k ts ts') (h' : Placed ws ts' ts'') :
    Placed (w :: ws) ts ts'' where
  ids := by rw [h'.ids, h.toNew.ids]
  exclusive hx := h'.exclusive (h.exclusive hx)
  other u hu := by
    simp only [List.map_cons, List.mem_cons, not_or] at hu
    rw [h'.other u hu.2, h.toNew.holdCount_other hu.1]

theorem Placed.length_eq {ws : List Workload} {ts ts' : List Thread} (h : Placed ws ts ts') :
    ts'.length = ts.length := by
  have := congrArg List.length h.ids
  simpa using this

/-- The loop over the workloads ends with the first that raises. -/
theorem assignAll_cons_of_error {w : Workload} {cpu : Cpu} {e : PyError}
    (h : (assignThreads (w.threadCount.toNat + 1) w cpu).1 = .error e) (ws : List Workload) :
    assignAll (w :: ws) cpu
      = (.error e, (assignThreads (w.threadCount.toNat + 1) w cpu).2) := by
  rw [assignAll]
  cases hr : assignThreads (w.threadCount.toNat + 1) w cpu with
  | mk res cpu' =>
    rw [hr] at h
    dsimp only at h
    rw [h]

theorem assignAll_cons_of_ok {w : Workload} {cpu : Cpu}
    (h : (assignThreads (w.threadCount.toNat + 1) w cpu).1 = .ok ()) (ws : List Workload) :
    assignAll (w :: ws) cpu = assignAll ws (assignThreads (w.threadCount.toNat + 1) w cpu).2 := by
  rw [assignAll]
  cases hr : assignThreads (w.threadCount.toNat + 1) w cpu with
  | mk res cpu' =>
    rw [hr] at h
    dsimp only at h
    rw [h]

/--
**Every workload in turn.** Whatever the outcome, only threads of the listed
workloads change and none becomes shared. If it goes through, each workload got what
it asked for and as many threads fewer are empty; if it raises, some count is
negative or the counts exceed the empty threads.
-/
theorem assignAll_spec :
    ∀ (ws : List Workload) (cpu : Cpu), (ws.map Workload.taskId).Nodup →
      Placed ws cpu.getThreads (assignAll ws cpu).2.getThreads
        ∧ (((assignAll ws cpu).1 = .ok ()
              ∧ (∀ w ∈ ws, 0 ≤ w.threadCount)
              ∧ totalThreads ws ≤ cpu.getEmptyThreads.length
              ∧ ∀ w ∈ ws, (holdCount (assignAll ws cpu).2.getThreads w.taskId : Int)
                  = holdCount cpu.getThreads w.taskId + w.threadCount)
            ∨ ((∃ e, (assignAll ws cpu).1 = .error e)
              ∧ ((∃ w ∈ ws, w.threadCount < 0)
                  ∨ totalThreads ws > cpu.getEmptyThreads.length)))
  | [], cpu, _ => ⟨Placed.refl _ _, Or.inl ⟨rfl, by simp, by simp [totalThreads], by simp⟩⟩
  | w :: ws, cpu, hnd => by
      rw [List.map_cons, List.nodup_cons] at hnd
      obtain ⟨hw, hnd'⟩ := hnd
      obtain ⟨k, hcl, hres⟩ :=
        assignThreads_spec (w.threadCount.toNat + 1) w cpu (Nat.lt_succ_self _)
      have hemp : (assignThreads (w.threadCount.toNat + 1) w cpu).2.getEmptyThreads.length + k
          = cpu.getEmptyThreads.length := hcl.empties
      have htotal : totalThreads (w :: ws) = w.threadCount + totalThreads ws := rfl
      rcases hres with ⟨hok, hcount⟩ | ⟨⟨e, herr⟩, hwhy⟩
      · -- the rest starts with `k` empty threads fewer
        rw [assignAll_cons_of_ok hok]
        obtain ⟨hplaced, hrest⟩ :=
          assignAll_spec ws (assignThreads (w.threadCount.toNat + 1) w cpu).2 hnd'
        refine ⟨Placed.cons hcl hplaced, ?_⟩
        rcases hrest with ⟨hok', hnn, hle, hhold⟩ | ⟨herr, hneg | hgt⟩
        · refine Or.inl ⟨hok', ?_, by rw [htotal]; omega, ?_⟩
          · intro v hv
            rcases List.mem_cons.mp hv with rfl | hv
            · omega
            · exact hnn v hv
          · intro v hv
            rcases List.mem_cons.mp hv with rfl | hv
            · rw [hplaced.other _ hw, hcl.toNew.holdCount_self]
              push_cast; omega
            · have hne : v.taskId ≠ w.taskId :=
                fun he => hw (he ▸ List.mem_map_of_mem hv)
              rw [hhold v hv, hcl.toNew.holdCount_other hne]
        · obtain ⟨v, hv, hneg⟩ := hneg
          exact Or.inr ⟨herr, Or.inl ⟨v, List.mem_cons_of_mem _ hv, hneg⟩⟩
        · exact Or.inr ⟨herr, Or.inr (by rw [htotal]; omega)⟩
      · rw [assignAll_cons_of_error herr]
        refine ⟨Placed.cons hcl (Placed.refl _ _), Or.inr ⟨⟨e, rfl⟩, ?_⟩⟩
        rcases hwhy with hneg | ⟨hlt, hfull⟩
        · exact Or.inl ⟨w, by simp, hneg⟩
        · -- the CPU is full and this workload alone wanted more
          by_cases hex : ∃ v ∈ ws, v.threadCount < 0
          · obtain ⟨v, hv, hneg⟩ := hex
            exact Or.inl ⟨v, List.mem_cons_of_mem _ hv, hneg⟩
          · right
            have hsum : 0 ≤ totalThreads ws :=
              totalThreads_nonneg (fun v hv => not_lt.mp (fun hneg => hex ⟨v, hv, hneg⟩))
            rw [htotal]
            omega

/-- The condition under which Greedy accepts a request. -/
def GreedyAccepts (cpu : Cpu) (workloads : WorkloadMap) : Prop :=
  (∀ w ∈ workloads.values, 0 ≤ w.threadCount)
    ∧ totalThreads workloads.values ≤ cpu.getThreads.length

instance (cpu : Cpu) (workloads : WorkloadMap) : Decidable (GreedyAccepts cpu workloads) := by
  unfold GreedyAccepts; infer_instance

section

variable {Rng : Type} {ambient : Ambient Rng} {request : AllocateRequest}

/-- A request Greedy answers: the CPU it answers with, and the response around it. -/
theorem greedy_result (ambient : Ambient Rng) (request : AllocateRequest) :
    ∃ cpu, ((greedyCpuAllocator Rng).isolate ambient request).request = { request with cpu }
      ∧ ((greedyCpuAllocator Rng).isolate ambient request).rng = ambient.rng
      ∧ Placed request.workloads.values request.cpu.clear.getThreads cpu.getThreads
      ∧ ((((greedyCpuAllocator Rng).isolate ambient request).result
            = .ok (allocateResponse ambient cpu
                (getWorkloadAllocations ambient.memoryFlags cpu request.workloads.values)
                "GreedyCpuAllocator" OrderedDict.empty)
            ∧ GreedyAccepts request.cpu request.workloads
            ∧ ∀ w ∈ request.workloads.values,
                (holdCount cpu.getThreads w.taskId : Int) = w.threadCount)
          ∨ ((∃ e, ((greedyCpuAllocator Rng).isolate ambient request).result = .error e)
            ∧ ¬ GreedyAccepts request.cpu request.workloads)) := by
  obtain ⟨hplaced, hres⟩ := assignAll_spec request.workloads.values request.cpu.clear
    request.workloads.values_taskId_nodup
  have hempty : request.cpu.clear.getEmptyThreads.length = request.cpu.getThreads.length := by
    unfold Cpu.getEmptyThreads
    rw [Cpu.getThreads_clear, getEmptyThreads_clear]
  simp only [greedyCpuAllocator]
  cases hr : assignAll request.workloads.values request.cpu.clear with
  | mk res cpu =>
    rw [hr] at hplaced hres
    dsimp only at hplaced hres ⊢
    refine ⟨cpu, ?_⟩
    cases res with
    | error e =>
      refine ⟨rfl, rfl, hplaced, Or.inr ⟨⟨e, rfl⟩, ?_⟩⟩
      rcases hres with ⟨hok, _⟩ | ⟨_, hneg | hgt⟩
      · exact absurd hok (by simp)
      · obtain ⟨w, hw, hneg⟩ := hneg
        exact fun h => absurd (h.1 w hw) (by omega)
      · exact fun h => absurd h.2 (by omega)
    | ok _ =>
      refine ⟨rfl, rfl, hplaced, Or.inl ⟨rfl, ?_⟩⟩
      rcases hres with ⟨_, hnn, hle, hhold⟩ | ⟨⟨e, he⟩, _⟩
      · refine ⟨⟨hnn, by omega⟩, ?_⟩
        intro w hw
        rw [hhold w hw, Cpu.getThreads_clear, holdCount_clear]
        simp
      · exact absurd he (by simp)

/-- Greedy answers exactly the requests it accepts. -/
theorem greedy_ok_iff (ambient : Ambient Rng) (request : AllocateRequest) :
    (∃ response, ((greedyCpuAllocator Rng).isolate ambient request).result = .ok response)
      ↔ GreedyAccepts request.cpu request.workloads := by
  obtain ⟨cpu, _, _, _, ⟨hok, hacc, _⟩ | ⟨⟨e, he⟩, hacc⟩⟩ :=
    greedy_result ambient request
  · exact ⟨fun _ => hacc, fun _ => ⟨_, hok⟩⟩
  · rw [he]
    exact ⟨fun ⟨_, h⟩ => absurd h (by simp), fun h => absurd h hacc⟩

/-- What is known of Greedy's answer. -/
structure GreedyAnswer (ambient : Ambient Rng) (request : AllocateRequest)
    (response : AllocateResponse) : Prop where
  allocations : response.workloadAllocations
    = getWorkloadAllocations ambient.memoryFlags response.cpu request.workloads.values
  ids : response.cpu.getThreads.map Thread.id = request.cpu.getThreads.map Thread.id
  exclusive : Exclusive response.cpu.getThreads
  accepts : GreedyAccepts request.cpu request.workloads
  placed : ∀ w ∈ request.workloads.values,
    (holdCount response.cpu.getThreads w.taskId : Int) = w.threadCount
  other : ∀ u, u ∉ request.workloads.keys → holdCount response.cpu.getThreads u = 0

theorem greedy_answer {response : AllocateResponse}
    (h : ((greedyCpuAllocator Rng).isolate ambient request).result = .ok response) :
    GreedyAnswer ambient request response := by
  obtain ⟨cpu, _, _, hplaced, ⟨hok, hacc, hhold⟩ | ⟨⟨e, he⟩, _⟩⟩ :=
    greedy_result ambient request
  · rw [hok] at h
    obtain rfl := Except.ok.inj h
    rw [Cpu.getThreads_clear] at hplaced
    exact
      { allocations := rfl
        ids := by rw [allocateResponse_cpu, hplaced.ids, ids_clear]
        exclusive := hplaced.exclusive exclusive_clear
        accepts := hacc
        placed := hhold
        other := by
          intro u hu
          rw [← WorkloadMap.values_map_taskId] at hu
          rw [allocateResponse_cpu, hplaced.other u hu, holdCount_clear] }
  · rw [he] at h
    exact absurd h (by simp)

/-- Also when it raises, Greedy leaves claims of requested workloads only. -/
theorem greedy_request (ambient : Ambient Rng) (request : AllocateRequest) :
    ((greedyCpuAllocator Rng).isolate ambient request).request.workloads = request.workloads
      ∧ ∀ u, u ∉ request.workloads.keys →
          holdCount ((greedyCpuAllocator Rng).isolate ambient request).request.cpu.getThreads u
            = 0 := by
  obtain ⟨cpu, hreq, _, hplaced, _⟩ := greedy_result ambient request
  rw [hreq]
  refine ⟨rfl, ?_⟩
  intro u hu
  rw [← WorkloadMap.values_map_taskId] at hu
  rw [hplaced.other u hu, Cpu.getThreads_clear, holdCount_clear]

end

end TitusIsolate
