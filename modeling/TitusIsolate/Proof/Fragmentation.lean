import TitusIsolate.Lib.Filling
import TitusIsolate.Lib.Run
import TitusIsolate.Proof.Isolate
import TitusIsolate.Proof.Violations

/-!
# Greedy shares few cores and splits few workloads

Greedy leaves a core before it is full only when the workload has all its threads, and
leaves a package only when the package is full. So a workload leaves room in at most one of
its cores and in at most one of its packages, and what is known of such fillings bounds the
violations of the CPU it answers with: fewer cores are shared than workloads are placed,
and fewer workloads are on two packages than there are packages.
-/

namespace TitusIsolate

open GreedyCpuAllocator

/-! ## Threads as bins -/

/-- Some threads as a bin: who is on them, and how many are empty. -/
def binOf (ts : List Thread) : Bin WorkloadId where
  owners := (ts.flatMap Thread.workloadIds).toFinset
  room := (getEmptyThreads ts).length

/-- The cores of a package as bins. -/
def Package.coreBins (p : Package) : List (Bin WorkloadId) :=
  p.cores.map (fun c => binOf c.getThreads)

/-- The cores as bins. -/
def Cpu.coreBins (cpu : Cpu) : List (Bin WorkloadId) := cpu.packages.flatMap Package.coreBins

/-- The packages as bins. -/
def Cpu.packageBins (cpu : Cpu) : List (Bin WorkloadId) :=
  cpu.packages.map (fun p => binOf p.getThreads)

section

variable {w : WorkloadId} {k : Nat} {ts ts' : List Thread}

theorem mem_owners : w ∈ (binOf ts).owners ↔ 0 < holdCount ts w := by
  unfold binOf
  rw [List.mem_toFinset, List.mem_flatMap, holdCount_pos_iff]

/-- Who claims a thread is an owner from then on. -/
theorem owners_of_claims (h : ClaimsEmpty w k ts ts') (hk : 0 < k) :
    (binOf ts').owners = insert w (binOf ts).owners := by
  ext u
  rw [Finset.mem_insert, mem_owners, mem_owners]
  by_cases hu : u = w
  · subst hu
    rw [h.toNew.holdCount_self]
    simp only [true_or, iff_true]
    omega
  · rw [h.toNew.holdCount_other hu]
    simp [hu]

/-- Threads claimed in one bin, which is left open unless they were its last. -/
theorem fills_of_claims (h : ClaimsEmpty w k ts ts') (hk : 0 < k)
    (hoff : w ∉ (binOf ts).owners) :
    ∃ left ≤ 1, Fills w left [binOf ts] [binOf ts']
      ∧ (left = 0 ∨ 0 < (getEmptyThreads ts').length) := by
  have hempties := h.empties
  have hroom : 0 < (binOf ts).room := by
    show 0 < (getEmptyThreads ts).length
    omega
  have hbin : binOf ts' = ⟨insert w (binOf ts).owners, (getEmptyThreads ts').length⟩ := by
    rw [← owners_of_claims h hk]
    rfl
  rw [hbin]
  rcases Nat.eq_zero_or_pos (getEmptyThreads ts').length with hzero | hpos
  · rw [hzero]
    exact ⟨0, Nat.zero_le _, .fill _ hroom hoff .nil, Or.inl rfl⟩
  · exact ⟨1, Nat.le_refl _, .start _ _ hroom hoff .nil, Or.inr hpos⟩

end

/-! ## The loop over cores -/

section

variable {w : WorkloadId}

/-- One round fills the emptiest core, or has the last of the threads to place. -/
theorem fills_round {n : Nat} {p : Package} (hn : 0 < n) (hp : 0 < p.getEmptyThreads.length)
    (hfull : ∀ b ∈ p.coreBins, w ∈ b.owners → b.room = 0) :
    ∃ left ≤ 1, Fills w left p.coreBins
        (p.modifyCore p.getEmptiestCore (claimOnCore w n)).coreBins
      ∧ (left = 0
          ∨ n - min n (p.cores.get p.getEmptiestCore).getEmptyThreads.length = 0) := by
  have hpos := emptiestCore_pos hp
  have hclaim := claimEmptyThreads_spec w n (p.cores.get p.getEmptiestCore).threads
  have hmin : 0 < min n (getEmptyThreads (p.cores.get p.getEmptiestCore).threads).length :=
    Nat.lt_min.mpr ⟨hn, hpos⟩
  have hoff : w ∉ (binOf (p.cores.get p.getEmptiestCore).threads).owners := by
    intro hw
    have hmem : binOf (p.cores.get p.getEmptiestCore).getThreads ∈ p.coreBins :=
      List.mem_map_of_mem (List.get_mem _ _)
    have hzero : (p.cores.get p.getEmptiestCore).getEmptyThreads.length = 0 := hfull _ hmem hw
    omega
  obtain ⟨left, hleft, hfills, hopen⟩ := fills_of_claims hclaim hmin hoff
  refine ⟨left, hleft, Fills.map_modify p.getEmptiestCore.isLt hfills, ?_⟩
  rcases hopen with hopen | hopen
  · exact Or.inl hopen
  · -- empty threads are left, so the count went down to nothing
    have hempties := hclaim.empties
    have hsame : (p.cores.get p.getEmptiestCore).getEmptyThreads.length
        = (getEmptyThreads (p.cores.get p.getEmptiestCore).threads).length := rfl
    refine Or.inr ?_
    omega

/-- **The loop over a package's cores** leaves none of them open unless it has placed
everything. -/
theorem assignOnPackage_fills :
    ∀ (fuel n : Nat) (p : Package), n ≤ fuel →
      (∀ b ∈ p.coreBins, w ∈ b.owners → b.room = 0) →
      ∃ left ≤ 1, Fills w left p.coreBins (assignOnPackage w fuel n p).1.coreBins
        ∧ (left = 0 ∨ (assignOnPackage w fuel n p).2 = 0)
  | 0, n, p, _, _ => ⟨0, Nat.zero_le _, Fills.refl _, Or.inl rfl⟩
  | fuel + 1, n, p, hn, hfull => by
      unfold assignOnPackage
      by_cases hcond : n > 0 ∧ p.getEmptyThreads.length > 0
      · rw [if_pos hcond]
        obtain ⟨hn0, hempty⟩ := hcond
        have hpos := emptiestCore_pos hempty
        obtain ⟨left, hleft, hround, hstop⟩ := fills_round hn0 hempty hfull
        dsimp only
        rw [List.length_take]
        by_cases hzero : left = 0
        · subst hzero
          obtain ⟨left', hleft', hrest, hstop'⟩ := assignOnPackage_fills fuel
            (n - min n (p.cores.get p.getEmptiestCore).getEmptyThreads.length)
            (p.modifyCore p.getEmptiestCore (claimOnCore w n)) (by omega)
            (hround.full_of_full rfl hfull)
          exact ⟨left', hleft', hround.trans hrest, hstop'⟩
        · -- nothing is left to place, so the loop is over
          have hdone := hstop.resolve_left hzero
          rw [assignOnPackage_stop (Or.inl hdone)]
          exact ⟨left, hleft, hround, Or.inr hdone⟩
      · rw [if_neg hcond]
        exact ⟨0, Nat.zero_le _, Fills.refl _, Or.inl rfl⟩

end

/-! ## The recursion over packages -/

/-- What a call makes of the cores and of the packages. -/
structure FillsCpu (w : WorkloadId) (left : Nat) (cpu cpu' : Cpu) : Prop where
  cores : ∃ l ≤ left, Fills w l cpu.coreBins cpu'.coreBins
  packages : ∃ l ≤ left, Fills w l cpu.packageBins cpu'.packageBins

theorem FillsCpu.refl (w : WorkloadId) (cpu : Cpu) : FillsCpu w 0 cpu cpu where
  cores := ⟨0, Nat.le_refl _, Fills.refl _⟩
  packages := ⟨0, Nat.le_refl _, Fills.refl _⟩

theorem FillsCpu.trans {w : WorkloadId} {left : Nat} {cpu cpu' cpu'' : Cpu}
    (h : FillsCpu w 0 cpu cpu') (h' : FillsCpu w left cpu' cpu'') : FillsCpu w left cpu cpu'' := by
  obtain ⟨⟨l, hl, hcores⟩, ⟨m, hm, hpackages⟩⟩ := h
  obtain ⟨⟨l', hl', hcores'⟩, ⟨m', hm', hpackages'⟩⟩ := h'
  obtain rfl := Nat.le_zero.mp hl
  obtain rfl := Nat.le_zero.mp hm
  exact ⟨⟨l', hl', hcores.trans hcores'⟩, ⟨m', hm', hpackages.trans hpackages'⟩⟩

/-- The packages a workload is on are full. -/
def FullWhere (w : WorkloadId) (cpu : Cpu) : Prop :=
  ∀ b ∈ cpu.packageBins, w ∈ b.owners → b.room = 0

/-- Where a package is full its cores are. -/
theorem FullWhere.cores {w : WorkloadId} {cpu : Cpu} (h : FullWhere w cpu) {p : Package}
    (hp : p ∈ cpu.packages) : ∀ b ∈ p.coreBins, w ∈ b.owners → b.room = 0 := by
  intro b hb hw
  obtain ⟨c, hc, rfl⟩ := List.mem_map.mp hb
  obtain ⟨t, ht, hwt⟩ := holdCount_pos_iff.mp (mem_owners.mp hw)
  have hon : w ∈ (binOf p.getThreads).owners :=
    mem_owners.mpr (holdCount_pos_iff.mpr ⟨t, List.mem_flatMap.mpr ⟨c, hc, ht⟩, hwt⟩)
  have hzero : (getEmptyThreads p.getThreads).length = 0 :=
    h _ (List.mem_map_of_mem hp) hon
  have hnone : getEmptyThreads p.getThreads = [] := List.length_eq_zero_iff.mp hzero
  show (getEmptyThreads c.getThreads).length = 0
  rw [List.length_eq_zero_iff, getEmptyThreads, List.filter_eq_nil_iff]
  intro t ht
  exact (List.filter_eq_nil_iff.mp hnone) t (List.mem_flatMap.mpr ⟨c, hc, ht⟩)

/-- A visit leaves the package full, or nothing to place. -/
theorem visit_fills {w : Workload} {cpu : Cpu} (hpos : 0 < w.threadCount)
    (hcpu : cpu.isCpuFull = false) (hfull : FullWhere w.taskId cpu) :
    ((visited w cpu).2 = 0 ∧ FillsCpu w.taskId 1 cpu (visit w cpu))
      ∨ (FillsCpu w.taskId 0 cpu (visit w cpu) ∧ FullWhere w.taskId (visit w cpu)) := by
  have hroom := emptiestPackage_pos (getEmptyThreads_pos hcpu)
  have hmem : cpu.packages.get cpu.getEmptiestPackage ∈ cpu.packages := List.get_mem _ _
  obtain ⟨k, hk, hcl, hstop⟩ := assignOnPackage_spec w.taskId w.threadCount.toNat
    w.threadCount.toNat (cpu.packages.get cpu.getEmptiestPackage) (Nat.le_refl _)
  have hless := assignOnPackage_lt (w := w.taskId) (n := w.threadCount.toNat) (by omega) hroom
  have hoff : w.taskId ∉ (binOf (cpu.packages.get cpu.getEmptiestPackage).getThreads).owners := by
    intro hw
    have hzero : (cpu.packages.get cpu.getEmptiestPackage).getEmptyThreads.length = 0 :=
      hfull _ (List.mem_map_of_mem hmem) hw
    omega
  obtain ⟨l, hl, hcores, hcoresStop⟩ := assignOnPackage_fills w.threadCount.toNat
    w.threadCount.toNat _ (Nat.le_refl _) (hfull.cores hmem)
  obtain ⟨m, hm, hpackage, hpackageStop⟩ := fills_of_claims hcl (by omega) hoff
  have hcoresCpu : Fills w.taskId l cpu.coreBins (visit w cpu).coreBins :=
    Fills.flatMap_modify (f := fun _ => (visited w cpu).1) cpu.getEmptiestPackage.isLt hcores
  have hpackagesCpu : Fills w.taskId m cpu.packageBins (visit w cpu).packageBins :=
    Fills.map_modify (f := fun _ => (visited w cpu).1) cpu.getEmptiestPackage.isLt hpackage
  by_cases hdone : (visited w cpu).2 = 0
  · exact Or.inl ⟨hdone, ⟨l, hl, hcoresCpu⟩, ⟨m, hm, hpackagesCpu⟩⟩
  · -- threads are left to place, so the package is full and no core of it is open
    have hlzero : l = 0 := hcoresStop.resolve_right hdone
    have hpfull : (visited w cpu).1.getEmptyThreads.length = 0 := hstop.resolve_left hdone
    have hmzero : m = 0 := by
      refine hpackageStop.resolve_right ?_
      intro hopen
      have hsame : (visited w cpu).1.getEmptyThreads.length
          = (getEmptyThreads (assignOnPackage w.taskId w.threadCount.toNat w.threadCount.toNat
              (cpu.packages.get cpu.getEmptiestPackage)).1.getThreads).length := rfl
      omega
    subst hlzero
    subst hmzero
    exact Or.inr ⟨⟨⟨0, Nat.le_refl _, hcoresCpu⟩, ⟨0, Nat.le_refl _, hpackagesCpu⟩⟩,
      hpackagesCpu.full_of_full rfl hfull⟩

theorem assignThreads_zero {w : Workload} (h : w.threadCount = 0) (fuel : Nat) (cpu : Cpu) :
    assignThreads fuel w cpu = (.ok (), cpu) := by
  cases fuel with
  | zero => rfl
  | succ fuel => rw [assignThreads, if_pos h]

/-- **A call that goes through** leaves at most one core and one package open. -/
theorem assignThreads_fills :
    ∀ (fuel : Nat) (w : Workload) (cpu : Cpu), w.threadCount.toNat < fuel →
      (assignThreads fuel w cpu).1 = .ok () → FullWhere w.taskId cpu →
      FillsCpu w.taskId 1 cpu (assignThreads fuel w cpu).2
  | 0, w, cpu, h, _, _ => absurd h (Nat.not_lt_zero _)
  | fuel + 1, w, cpu, h, hok, hfull => by
      cases assignThreads_step fuel w cpu with
      | nothing hcount heq =>
        rw [heq]
        exact ⟨⟨0, Nat.zero_le _, Fills.refl _⟩, ⟨0, Nat.zero_le _, Fills.refl _⟩⟩
      | full hcount hcpu heq =>
        rw [heq] at hok
        exact absurd hok (by simp)
      | refused e hcount hcpu hrefused heq =>
        rw [heq] at hok
        exact absurd hok (by simp)
      | recurse hcount hcpu hless heq =>
        rw [heq] at hok ⊢
        rcases visit_fills hcount hcpu hfull with ⟨hdone, hvisit⟩ | ⟨hvisit, hfull'⟩
        · have hzero : (resume w cpu).threadCount = 0 := by
            show ((visited w cpu).2 : Int) = 0
            omega
          rw [assignThreads_zero hzero]
          exact hvisit
        · exact hvisit.trans (assignThreads_fills fuel (resume w cpu) (visit w cpu) (by omega) hok
            hfull')

/-! ## A whole request -/

/-- The workloads that get threads. -/
def placedIds (ws : List Workload) : List WorkloadId :=
  (ws.filter (fun w => 0 < w.threadCount)).map Workload.taskId

theorem fullWhere_of_unheld {w : WorkloadId} {cpu : Cpu} (h : holdCount cpu.getThreads w = 0) :
    FullWhere w cpu := by
  intro b hb hw
  obtain ⟨p, hp, rfl⟩ := List.mem_map.mp hb
  obtain ⟨t, ht, hwt⟩ := holdCount_pos_iff.mp (mem_owners.mp hw)
  exact absurd hwt (holdCount_eq_zero_iff.mp h t (List.mem_flatMap.mpr ⟨p, hp, ht⟩))

/-- The loop over the workloads fills cores and packages with one of them after another. -/
theorem assignAll_filledBy :
    ∀ (ws : List Workload) (cpu : Cpu), (ws.map Workload.taskId).Nodup →
      (∀ w ∈ ws, holdCount cpu.getThreads w.taskId = 0) → (assignAll ws cpu).1 = .ok () →
      FilledBy (placedIds ws) cpu.coreBins (assignAll ws cpu).2.coreBins
        ∧ FilledBy (placedIds ws) cpu.packageBins (assignAll ws cpu).2.packageBins
  | [], cpu, _, _, _ => ⟨.nil _, .nil _⟩
  | w :: ws, cpu, hnd, hoff, hok => by
      have hw := assignAll_cons_ok hok
      obtain ⟨hfresh, hnd'⟩ := List.nodup_cons.mp hnd
      obtain ⟨k, hcl, _⟩ := assignThreads_spec (w.threadCount.toNat + 1) w cpu (Nat.lt_succ_self _)
      have hoff' : ∀ v ∈ ws, holdCount
          (assignThreads (w.threadCount.toNat + 1) w cpu).2.getThreads v.taskId = 0 := by
        intro v hv
        have hne : v.taskId ≠ w.taskId := fun he => hfresh (he ▸ List.mem_map_of_mem hv)
        rw [hcl.toNew.holdCount_other hne]
        exact hoff v (List.mem_cons_of_mem _ hv)
      rw [assignAll_cons_of_ok hw] at hok ⊢
      obtain ⟨hcores, hpackages⟩ := assignAll_filledBy ws _ hnd' hoff' hok
      by_cases hpos : 0 < w.threadCount
      · have hplaced : placedIds (w :: ws) = w.taskId :: placedIds ws := by simp [placedIds, hpos]
        obtain ⟨⟨l, hl, hc⟩, ⟨m, hm, hp⟩⟩ := assignThreads_fills _ w cpu (Nat.lt_succ_self _) hw
          (fullWhere_of_unheld (hoff w List.mem_cons_self))
        rw [hplaced]
        exact ⟨.cons hl hc hcores, .cons hm hp hpackages⟩
      · -- a count that is not positive and goes through is zero, and nothing is placed
        have hplaced : placedIds (w :: ws) = placedIds ws := by simp [placedIds, hpos]
        have hzero : w.threadCount = 0 := by
          obtain ⟨_, _, ⟨_, hcount⟩ | ⟨⟨e, he⟩, _⟩⟩ :=
            assignThreads_spec (w.threadCount.toNat + 1) w cpu (Nat.lt_succ_self _)
          · omega
          · rw [he] at hw
            exact absurd hw (by simp)
        rw [assignThreads_zero hzero] at hcores hpackages ⊢
        rw [hplaced]
        exact ⟨hcores, hpackages⟩

theorem owners_clear {b : Bin WorkloadId} {cpu : Cpu}
    (h : b ∈ cpu.clear.coreBins ∨ b ∈ cpu.clear.packageBins) : b.owners = ∅ := by
  have hnone : ∀ t ∈ cpu.clear.getThreads, t.workloadIds = [] := by
    intro t ht
    rw [Cpu.getThreads_clear] at ht
    obtain ⟨t', _, rfl⟩ := List.mem_map.mp ht
    rfl
  have hempty : ∀ ts : List Thread, (∀ t ∈ ts, t ∈ cpu.clear.getThreads) →
      (binOf ts).owners = ∅ := by
    intro ts hts
    rw [Finset.eq_empty_iff_forall_notMem]
    intro u hu
    obtain ⟨t, ht, hut⟩ := holdCount_pos_iff.mp (mem_owners.mp hu)
    rw [hnone t (hts t ht)] at hut
    exact absurd hut (List.not_mem_nil)
  rcases h with h | h
  · obtain ⟨p, hp, hb⟩ := List.mem_flatMap.mp h
    obtain ⟨c, hc, rfl⟩ := List.mem_map.mp hb
    exact hempty _ (fun t ht => List.mem_flatMap.mpr ⟨p, hp, List.mem_flatMap.mpr ⟨c, hc, ht⟩⟩)
  · obtain ⟨p, hp, rfl⟩ := List.mem_map.mp h
    exact hempty _ (fun t ht => List.mem_flatMap.mpr ⟨p, hp, ht⟩)

/-! ## Violations as measures of the bins -/

/-- The workloads beyond the first of each core. -/
def companions (cpu : Cpu) : Nat :=
  (cpu.sites.map (fun s => s.2.getUniqueWorkloadIds.length - 1)).sum

theorem coreBins_eq_sites (cpu : Cpu) :
    cpu.coreBins = cpu.sites.map (fun s => binOf s.2.getThreads) := by
  unfold Cpu.coreBins Cpu.sites Package.coreBins
  rw [List.map_flatMap]
  congr 1
  funext p
  rw [List.map_map]
  rfl

theorem card_owners (c : Core) : (binOf c.getThreads).owners.card = c.getUniqueWorkloadIds.length :=
  List.card_toFinset _

theorem companions_eq_excess (cpu : Cpu) : companions cpu = excess cpu.coreBins := by
  unfold companions excess
  rw [coreBins_eq_sites, List.map_map]
  rfl

theorem length_getSharedCoreViolations_le_companions (cpu : Cpu) :
    (getSharedCoreViolations cpu).keys.length ≤ companions cpu := by
  have hcount : cpu.sites.countP (fun s => s.2.Shared) = sharedBins cpu.coreBins := by
    unfold sharedBins
    rw [coreBins_eq_sites, List.countP_map]
    refine List.countP_congr ?_
    intro s _
    simp only [Function.comp_apply, decide_eq_true_eq, card_owners]
    exact Iff.rfl
  rw [companions_eq_excess, getSharedCoreViolations_eq]
  refine Nat.le_trans (OrderedDict.length_keys_ofPairs_le _) ?_
  rw [List.length_map, ← List.countP_eq_length_filter, hcount]
  exact sharedBins_le_excess _

theorem binsOf_packageBins (cpu : Cpu) (w : WorkloadId) :
    binsOf cpu.packageBins w = (getPackagesWithWorkload cpu w).length := by
  unfold binsOf getPackagesWithWorkload Cpu.packageBins Cpu.getPackages
  rw [List.countP_map, ← List.countP_eq_length_filter]
  refine List.countP_congr ?_
  intro p _
  simp only [Function.comp_apply, decide_eq_true_eq]
  rw [mem_owners, isOnPackage_iff]

theorem length_getCrossPackageViolations_le_crossing {cpu : Cpu} (s : Finset WorkloadId)
    (hs : ∀ w, Claimed cpu w → w ∈ s) :
    (getCrossPackageViolations cpu).keys.length
      ≤ (s.filter (fun w => 1 < binsOf cpu.packageBins w)).card := by
  have hnd := (getCrossPackageViolations cpu).keys_nodup
  rw [← List.toFinset_card_of_nodup hnd]
  refine Finset.card_le_card ?_
  intro w hw
  rw [List.mem_toFinset, keys_getCrossPackageViolations, List.mem_filter, decide_eq_true_eq] at hw
  rw [Finset.mem_filter, binsOf_packageBins]
  exact ⟨hs w (mem_getWorkloadIds.mp hw.1), hw.2⟩

/-- What is violated on a CPU on which `placed` workloads have threads. -/
structure LowFragmentation (placed : Nat) (cpu : Cpu) : Prop where
  /-- Over all cores, the workloads beyond the first. -/
  companions : companions cpu ≤ placed - 1
  sharedCore : (getSharedCoreViolations cpu).keys.length ≤ placed - 1
  crossPackage : (getCrossPackageViolations cpu).keys.length ≤ cpu.packages.length - 1

section

variable {Rng : Type} {ambient : Ambient Rng} {request : AllocateRequest}
  {response : AllocateResponse}

/-- Who is claimed on the answer was placed. -/
theorem claimed_iff_mem_placedIds
    (h : ((greedyCpuAllocator Rng).isolate ambient request).result = .ok response) {u : WorkloadId} :
    Claimed response.cpu u ↔ u ∈ placedIds request.workloads.values := by
  have hexact := greedyExact_of_answer h
  unfold placedIds
  simp only [List.mem_map, List.mem_filter, decide_eq_true_eq]
  refine ⟨?_, ?_⟩
  · intro hcl
    have hkey : u ∈ request.workloads.keys := by
      by_contra hnot
      exact hexact.other u hnot hcl
    obtain ⟨w, hw⟩ := WorkloadMap.mem_keys_iff_get?.mp hkey
    have hid := WorkloadMap.taskId_of_get? hw
    have hmem : w ∈ request.workloads.values := WorkloadMap.mem_values_iff.mpr (hid ▸ hw)
    have hplaced := hexact.placed w hmem
    rw [hid] at hplaced
    have hpos := claimed_iff.mp hcl
    exact ⟨w, ⟨hmem, by omega⟩, hid⟩
  · intro hx
    obtain ⟨w, ⟨hmem, hpos⟩, rfl⟩ := hx
    have hplaced := hexact.placed w hmem
    rw [claimed_iff]
    omega

/-- What a request is answered with. -/
theorem lowFragmentation_of_answer
    (h : ((greedyCpuAllocator Rng).isolate ambient request).result = .ok response) :
    LowFragmentation (placedIds request.workloads.values).length response.cpu := by
  have hanswer := assignAll_of_answer h
  have hnd := request.workloads.values_taskId_nodup
  have hplacedNd : (placedIds request.workloads.values).Nodup :=
    hnd.sublist (List.filter_sublist.map _)
  obtain ⟨hcores, hpackages⟩ := assignAll_filledBy request.workloads.values request.cpu.clear hnd
    (fun w _ => by rw [Cpu.getThreads_clear, holdCount_clear]) (by rw [hanswer])
  rw [hanswer] at hcores hpackages
  dsimp only at hcores hpackages
  have hclaimed := fun u => claimed_iff_mem_placedIds h (u := u)
  have hcomp : companions response.cpu ≤ (placedIds request.workloads.values).length - 1 := by
    rw [companions_eq_excess]
    exact hcores.excess_le_of_unowned (fun b hb => owners_clear (Or.inl hb))
  refine ⟨hcomp, Nat.le_trans (length_getSharedCoreViolations_le_companions _) hcomp, ?_⟩
  have hcross := length_getCrossPackageViolations_le_crossing
    (placedIds request.workloads.values).toFinset
    (fun u hu => List.mem_toFinset.mpr ((hclaimed u).mp hu))
  by_cases hne : placedIds request.workloads.values = []
  · rw [hne] at hcross
    exact Nat.le_trans hcross (Nat.zero_le _)
  · have hin : ∀ w ∈ placedIds request.workloads.values, 0 < binsOf response.cpu.packageBins w := by
      intro w hw
      obtain ⟨t, ht, hwt⟩ := (hclaimed w).mpr hw
      obtain ⟨p, hp, htp⟩ := List.mem_flatMap.mp ht
      rw [binsOf_packageBins]
      refine List.length_pos_of_mem (a := p) (List.mem_filter.mpr ⟨hp, ?_⟩)
      exact isOnPackage_iff.mpr (holdCount_pos_iff.mpr ⟨t, htp, hwt⟩)
    have howners : ∀ b ∈ response.cpu.packageBins,
        b.owners ⊆ (placedIds request.workloads.values).toFinset := by
      intro b hb u hu
      obtain ⟨p, hp, rfl⟩ := List.mem_map.mp hb
      obtain ⟨t, ht, hut⟩ := holdCount_pos_iff.mp (mem_owners.mp hu)
      exact List.mem_toFinset.mpr
        ((hclaimed u).mp ⟨t, List.mem_flatMap.mpr ⟨p, hp, ht⟩, hut⟩)
    have hlt := hpackages.crossing_lt hne (fun b hb => owners_clear (Or.inr hb)) hplacedNd
      howners hin
    have hused : usedBins response.cpu.packageBins ≤ response.cpu.packages.length := by
      unfold usedBins Cpu.packageBins
      rw [List.countP_map]
      exact List.countP_le_length
    omega

end

/-! ## A run -/

theorem lowFragmentation_unclaimed {cpu : Cpu} (h : ∀ u, ¬ Claimed cpu u) :
    LowFragmentation 0 cpu := by
  have hcomp : companions cpu = 0 := by
    rw [companions_eq_excess, ← Cpu.clear_of_unclaimed h]
    exact (measures_of_unowned (fun b hb => owners_clear (Or.inl hb))).1
  refine ⟨Nat.le_of_eq hcomp, ?_, ?_⟩
  · have hshared := length_getSharedCoreViolations_le_companions cpu
    omega
  · have hcross := length_getCrossPackageViolations_le ∅
      (fun w hw => absurd hw (h w))
    exact Nat.le_trans hcross (Nat.zero_le _)

/--
**Greedy fragments little.** Whatever the machine, the calls and the workloads, in every
state reached there are fewer shared cores than workloads with threads, also when a core is
counted once for every workload beyond its first, and fewer workloads on two packages than
packages.
-/
theorem reachable_lowFragmentation {Rng : Type}
    (reportCpuEvent : Ambient Rng → AllocateRequest → AllocateResponse → Except PyError Unit)
    (instanceId : Option String) {cpu : Cpu} (hclear : ∀ u, ¬ Claimed cpu u)
    (calls : List (IsolateCall Rng)) :
    Run.Always (WorkloadManager.step (greedyCpuAllocator Rng) reportCpuEvent)
      (fun wm => LowFragmentation (placedIds wm.workloads.values).length wm.cpu)
      (WorkloadManager.init instanceId cpu) calls := by
  refine Run.always_of_step (C := fun _ _ => True) ?_ (lowFragmentation_unclaimed hclear)
    (Run.eachStep_of_mem (fun _ _ _ => trivial))
  intro wm call hwm _
  cases hres : ((greedyCpuAllocator Rng).isolate call.ambient (wm.requestFor call)).result with
  | error e =>
    unfold WorkloadManager.step
    rw [isolate_of_error hres]
    exact hwm
  | ok response =>
    have hinst := isolate_of_ok reportCpuEvent hres
    unfold WorkloadManager.step
    rw [hinst.cpu, hinst.workloads]
    exact lowFragmentation_of_answer hres

/-- `a`, of one thread, is placed on the first package; `b`, of three, fills the other one and
shares the core of `a`. -/
def placeCrossing : List (IsolateCall Unit) :=
  [⟨Ambient.unset (), [⟨"a", "job", 1⟩, ⟨"b", "job", 3⟩], []⟩]

theorem reachable_lowFragmentation_crossing :
    Run.Always (WorkloadManager.step (greedyCpuAllocator Unit) (fun _ _ _ => .ok ()))
      (fun wm => LowFragmentation (placedIds wm.workloads.values).length wm.cpu)
      (WorkloadManager.init none Config.crossed) placeCrossing := by
  refine reachable_lowFragmentation _ none ?_ placeCrossing
  intro u hu
  obtain ⟨t, ht, hw⟩ := hu
  have hnone : ∀ t ∈ Config.crossed.getThreads, t.workloadIds = [] := by decide
  rw [hnone t ht] at hw
  exact absurd hw (List.not_mem_nil)

/-- Both bounds are met there. -/
example : (getSharedCoreViolations (Run.exec
    (WorkloadManager.step (greedyCpuAllocator Unit) (fun _ _ _ => .ok ()))
    (WorkloadManager.init none Config.crossed) placeCrossing).cpu).keys = ["0:0"] := by
  decide +kernel

end TitusIsolate
