import TitusIsolate.Cgroup.Cpuset
import TitusIsolate.Isolate.Detect
import TitusIsolate.Proof.Spread

/-!
# What the violations list

A workload is listed exactly when it is on two packages, with the ids of all it is on, and
a core exactly when two workloads are on it, with all of them. Keys of cores are texts, but
no two cores have the same one while ids are distinct, so the counts of the dictionaries
are the counts of what is violated.

Comparing the counts orders placements, and a machine has no endless sequence of better
and better ones.
-/

namespace TitusIsolate

/-- Packages have distinct ids, and so have the cores of a package. -/
structure DistinctIds (cpu : Cpu) : Prop where
  packages : (cpu.packages.map Package.id).Nodup
  cores : ∀ p ∈ cpu.packages, (p.cores.map Core.id).Nodup

/-- The cores of a CPU, each with its package. -/
def Cpu.sites (cpu : Cpu) : List (Package × Core) :=
  cpu.getPackages.flatMap (fun p => p.getCores.map (fun c => (p, c)))

/-- Two workloads are on the core. -/
def Core.Shared (c : Core) : Prop := 1 < c.getUniqueWorkloadIds.length

instance (c : Core) : Decidable c.Shared := by unfold Core.Shared; infer_instance

/-- A workload is on two packages. -/
def CrossPackage (cpu : Cpu) (w : WorkloadId) : Prop := 1 < (getPackagesWithWorkload cpu w).length

instance (cpu : Cpu) (w : WorkloadId) : Decidable (CrossPackage cpu w) := by
  unfold CrossPackage; infer_instance

/-- The key of a core in the dictionary of shared cores. -/
def siteKey (s : Package × Core) : String := violationKey s.1.id s.2.id

/-! ## Keys -/

theorem repr_inj {n m : Nat} (h : n.repr.toList = m.repr.toList) : n = m := by
  have hread := congrArg (fun ds => Nat.ofDigitChars 10 ds 0) h
  simpa only [Nat.toList_repr, Nat.ofDigitChars_toDigits (by decide : 1 < 10) (Nat.le_refl 10)]
    using hread

theorem colon_not_mem_repr (n : Nat) : ':' ∉ n.repr.toList := by
  intro h
  exact absurd (isDigit_of_mem_repr h) (by decide)

theorem toList_violationKey (p c : Nat) :
    (violationKey p c).toList = p.repr.toList ++ ':' :: c.repr.toList := by
  unfold violationKey
  rw [String.toList_intercalate]
  simp

theorem violationKey_inj {p c p' c' : Nat} (h : violationKey p c = violationKey p' c') :
    p = p' ∧ c = c' := by
  have htext := congrArg String.toList h
  rw [toList_violationKey, toList_violationKey] at htext
  obtain ⟨hp, _, hc⟩ := (List.append_cons_inj_of_notMem (colon_not_mem_repr p)
    (colon_not_mem_repr c)).mp htext
  exact ⟨repr_inj hp, repr_inj hc⟩

theorem DistinctIds.siteKeys_nodup {cpu : Cpu} (h : DistinctIds cpu) :
    (cpu.sites.map siteKey).Nodup := by
  have hpackages : cpu.packages.Pairwise (fun p q => p.id ≠ q.id) :=
    List.pairwise_map.mp h.packages
  unfold Cpu.sites
  rw [List.map_flatMap]
  refine List.nodup_flatMap.mpr ⟨?_, ?_⟩
  · intro p hp
    rw [List.map_map]
    refine List.pairwise_map.mpr ((List.pairwise_map.mp (h.cores p hp)).imp ?_)
    intro c d hcd hkey
    exact hcd (violationKey_inj hkey).2
  · refine hpackages.imp ?_
    intro p q hpq key hp hq
    simp only [List.mem_map, exists_exists_and_eq_and] at hp hq
    obtain ⟨c, _, hc⟩ := hp
    obtain ⟨d, _, hd⟩ := hq
    exact hpq (violationKey_inj (hc.trans hd.symm)).1

theorem distinctIds_of_gridShape {P C T : Nat} {cpu : Cpu} (h : cpu.shape = gridShape P C T) :
    DistinctIds cpu := by
  refine ⟨?_, ?_⟩
  · have hids := congrArg (List.map Prod.fst) h
    unfold Cpu.shape Cpu.view gridShape at hids
    rw [List.map_map, List.map_map] at hids
    have hrange : cpu.packages.map Package.id = (List.range P).map id := hids
    rw [hrange, List.map_id]
    exact List.nodup_range
  · intro p hp
    have hview : p.view Thread.id ∈ gridShape P C T := by
      rw [← h]
      exact List.mem_map_of_mem hp
    obtain ⟨i, _, heq⟩ := List.mem_map.mp hview
    have hids := congrArg (List.map Prod.fst) (Prod.mk.inj heq).2
    rw [List.map_map, List.map_map] at hids
    have hrange : (List.range C).map id = p.cores.map Core.id := hids
    rw [← hrange, List.map_id]
    exact List.nodup_range

/-! ## The dictionaries -/

theorem getCrossPackageViolations_eq (cpu : Cpu) :
    getCrossPackageViolations cpu
      = OrderedDict.ofPairs (((getWorkloadIds cpu).filter (fun w => CrossPackage cpu w)).map
          (fun w => (w, (getPackagesWithWorkload cpu w).map Package.id))) :=
  OrderedDict.foldl_ite_insert (CrossPackage cpu) (fun w => w)
    (fun w => (getPackagesWithWorkload cpu w).map Package.id) (getWorkloadIds cpu)

theorem getSharedCoreViolations_eq (cpu : Cpu) :
    getSharedCoreViolations cpu
      = OrderedDict.ofPairs ((cpu.sites.filter (fun s => s.2.Shared)).map
          (fun s => (siteKey s, s.2.getUniqueWorkloadIds))) := by
  have hloop := OrderedDict.foldl_ite_insert (fun s : Package × Core => s.2.Shared) siteKey
    (fun s => s.2.getUniqueWorkloadIds) cpu.sites
  rw [← hloop]
  unfold Cpu.sites
  rw [List.foldl_flatMap]
  simp only [List.foldl_map]
  rfl

theorem mem_getWorkloadIds {cpu : Cpu} {w : WorkloadId} : w ∈ getWorkloadIds cpu ↔ Claimed cpu w := by
  unfold getWorkloadIds Claimed
  rw [List.mem_dedup, List.mem_flatMap]

theorem CrossPackage.claimed {cpu : Cpu} {w : WorkloadId} (h : CrossPackage cpu w) :
    Claimed cpu w := by
  obtain ⟨p, hp⟩ := List.exists_mem_of_length_pos (Nat.lt_trans Nat.zero_lt_one h)
  obtain ⟨hpc, hon⟩ := List.mem_filter.mp hp
  obtain ⟨t, ht, hw⟩ := holdCount_pos_iff.mp (isOnPackage_iff.mp hon)
  exact ⟨t, List.mem_flatMap.mpr ⟨p, hpc, ht⟩, hw⟩

theorem keys_getCrossPackageViolations (cpu : Cpu) :
    (getCrossPackageViolations cpu).keys
      = (getWorkloadIds cpu).filter (fun w => CrossPackage cpu w) := by
  have hmap : (((getWorkloadIds cpu).filter (fun w => CrossPackage cpu w)).map
      (fun w => (w, (getPackagesWithWorkload cpu w).map Package.id))).map Prod.fst
      = (getWorkloadIds cpu).filter (fun w => CrossPackage cpu w) := by
    rw [List.map_map]
    exact List.map_id _
  rw [getCrossPackageViolations_eq, OrderedDict.keys, OrderedDict.entries_ofPairs, hmap]
  rw [hmap]
  exact (List.nodup_dedup _).filter _

theorem get?_getCrossPackageViolations {cpu : Cpu} {w : WorkloadId} {ids : List Nat} :
    (getCrossPackageViolations cpu).get? w = some ids
      ↔ CrossPackage cpu w ∧ ids = (getPackagesWithWorkload cpu w).map Package.id := by
  have hnd := (getCrossPackageViolations cpu).keys_nodup
  rw [keys_getCrossPackageViolations] at hnd
  rw [getCrossPackageViolations_eq, OrderedDict.get?_ofPairs]
  · simp only [List.mem_map, List.mem_filter, decide_eq_true_eq, Prod.mk.injEq]
    refine ⟨?_, ?_⟩
    · intro h
      obtain ⟨v, ⟨_, hcross⟩, rfl, rfl⟩ := h
      exact ⟨hcross, rfl⟩
    · intro h
      obtain ⟨hcross, rfl⟩ := h
      exact ⟨w, ⟨mem_getWorkloadIds.mpr hcross.claimed, hcross⟩, rfl, rfl⟩
  · rw [List.map_map]
    exact (List.map_id _).symm ▸ hnd

section

variable {cpu : Cpu}

theorem keys_getSharedCoreViolations (h : DistinctIds cpu) :
    (getSharedCoreViolations cpu).keys
      = (cpu.sites.filter (fun s => s.2.Shared)).map siteKey := by
  rw [getSharedCoreViolations_eq, OrderedDict.keys, OrderedDict.entries_ofPairs, List.map_map]
  · rfl
  · rw [List.map_map]
    exact h.siteKeys_nodup.sublist (List.filter_sublist.map _)

theorem get?_getSharedCoreViolations (h : DistinctIds cpu) {s : Package × Core}
    (hs : s ∈ cpu.sites) :
    (getSharedCoreViolations cpu).get? (siteKey s)
      = if s.2.Shared then some s.2.getUniqueWorkloadIds else none := by
  have hentries : (((cpu.sites.filter (fun s => s.2.Shared)).map
      (fun s => (siteKey s, s.2.getUniqueWorkloadIds))).map Prod.fst).Nodup := by
    rw [List.map_map]
    exact h.siteKeys_nodup.sublist (List.filter_sublist.map _)
  by_cases hshared : s.2.Shared
  · rw [if_pos hshared, getSharedCoreViolations_eq, OrderedDict.get?_ofPairs hentries]
    exact List.mem_map.mpr ⟨s, List.mem_filter.mpr ⟨hs, by simpa using hshared⟩, rfl⟩
  · rw [if_neg hshared, OrderedDict.get?_eq_none_iff, keys_getSharedCoreViolations h]
    intro hmem
    obtain ⟨s', hs', hkey⟩ := List.mem_map.mp hmem
    obtain ⟨hsite, hshared'⟩ := List.mem_filter.mp hs'
    -- two cores with one key are one core
    obtain rfl := List.inj_on_of_nodup_map h.siteKeys_nodup hsite hs hkey
    exact hshared (by simpa using hshared')

end

/-! ## Two of them -/

theorem mem_getUniqueWorkloadIds {c : Core} {w : WorkloadId} :
    w ∈ c.getUniqueWorkloadIds ↔ isOnCore c w = true := by
  unfold Core.getUniqueWorkloadIds
  rw [isOnCore_iff, holdCount_pos_iff, List.mem_dedup, List.mem_flatMap]

theorem Core.shared_iff {c : Core} :
    c.Shared ↔ ∃ u v, u ≠ v ∧ isOnCore c u = true ∧ isOnCore c v = true := by
  have hnd : c.getUniqueWorkloadIds.Nodup := List.nodup_dedup _
  unfold Core.Shared
  refine ⟨?_, ?_⟩
  · intro h
    cases hids : c.getUniqueWorkloadIds with
    | nil => rw [hids] at h; exact absurd h (by simp)
    | cons u ids =>
      cases ids with
      | nil => rw [hids] at h; exact absurd h (by simp)
      | cons v ids =>
        rw [hids, List.nodup_cons] at hnd
        refine ⟨u, v, fun he => hnd.1 (he ▸ List.mem_cons_self), ?_, ?_⟩
        · exact mem_getUniqueWorkloadIds.mp (hids ▸ List.mem_cons_self)
        · exact mem_getUniqueWorkloadIds.mp (hids ▸ List.mem_cons_of_mem _ List.mem_cons_self)
  · intro h
    obtain ⟨u, v, huv, hu, hv⟩ := h
    have hsub : [u, v] ⊆ c.getUniqueWorkloadIds := by
      intro x hx
      rcases List.mem_cons.mp hx with rfl | hx
      · exact mem_getUniqueWorkloadIds.mpr hu
      · exact List.mem_singleton.mp hx ▸ mem_getUniqueWorkloadIds.mpr hv
    have hpair : [u, v].Nodup := by simpa using huv
    exact (List.subperm_of_subset hpair hsub).length_le

theorem crossPackage_iff {cpu : Cpu} (h : DistinctIds cpu) {w : WorkloadId} :
    CrossPackage cpu w ↔ ∃ p ∈ cpu.packages, ∃ q ∈ cpu.packages, p.id ≠ q.id
      ∧ isOnPackage p w = true ∧ isOnPackage q w = true := by
  have hnd : ((getPackagesWithWorkload cpu w).map Package.id).Nodup :=
    h.packages.sublist (List.filter_sublist.map _)
  unfold CrossPackage
  refine ⟨?_, ?_⟩
  · intro hlen
    cases hps : getPackagesWithWorkload cpu w with
    | nil => rw [hps] at hlen; exact absurd hlen (by simp)
    | cons p ps =>
      cases ps with
      | nil => rw [hps] at hlen; exact absurd hlen (by simp)
      | cons q ps =>
        have hmem : ∀ x, x ∈ p :: q :: ps → x ∈ cpu.packages ∧ isOnPackage x w = true := by
          intro x hx
          rw [← hps] at hx
          exact List.mem_filter.mp hx
        obtain ⟨hp, hpw⟩ := hmem p List.mem_cons_self
        obtain ⟨hq, hqw⟩ := hmem q (List.mem_cons_of_mem _ List.mem_cons_self)
        rw [hps, List.map_cons, List.map_cons, List.nodup_cons] at hnd
        exact ⟨p, hp, q, hq, fun he => hnd.1 (he ▸ List.mem_cons_self), hpw, hqw⟩
  · intro hx
    obtain ⟨p, hp, q, hq, hpq, hpw, hqw⟩ := hx
    have hne : p ≠ q := fun he => hpq (congrArg Package.id he)
    have hsub : [p, q] ⊆ getPackagesWithWorkload cpu w := by
      intro x hx
      rcases List.mem_cons.mp hx with rfl | hx
      · exact List.mem_filter.mpr ⟨hp, hpw⟩
      · exact List.mem_singleton.mp hx ▸ List.mem_filter.mpr ⟨hq, hqw⟩
    have hpair : [p, q].Nodup := by simpa using hne
    exact (List.subperm_of_subset hpair hsub).length_le

/-- The dictionaries list what is violated, and nothing else. -/
structure ViolationsExact (cpu : Cpu) : Prop where
  /-- A workload on two packages. -/
  crossPackage : ∀ w, w ∈ (getCrossPackageViolations cpu).keys ↔
    ∃ p ∈ cpu.packages, ∃ q ∈ cpu.packages, p.id ≠ q.id
      ∧ isOnPackage p w = true ∧ isOnPackage q w = true
  /-- The ids of all the packages it is on, each once, and nothing else. -/
  packages : ∀ w ids, (getCrossPackageViolations cpu).get? w = some ids →
    ids.Nodup ∧ (∀ i ∈ ids, ∃ p ∈ cpu.packages, p.id = i)
      ∧ ∀ p ∈ cpu.packages, p.id ∈ ids ↔ isOnPackage p w = true
  /-- A core with two workloads. -/
  sharedCore : ∀ p ∈ cpu.packages, ∀ c ∈ p.cores,
    (violationKey p.id c.id ∈ (getSharedCoreViolations cpu).keys ↔
      ∃ u v, u ≠ v ∧ isOnCore c u = true ∧ isOnCore c v = true)
  /-- All the workloads on it, each once. -/
  workloads : ∀ p ∈ cpu.packages, ∀ c ∈ p.cores, ∀ ids,
    (getSharedCoreViolations cpu).get? (violationKey p.id c.id) = some ids →
      ids.Nodup ∧ ∀ w, w ∈ ids ↔ isOnCore c w = true
  /-- No two cores have one key, though keys are texts. -/
  keysApart : (cpu.sites.map siteKey).Nodup
  /-- Every key is that of a core. -/
  keysOfCores : ∀ key ∈ (getSharedCoreViolations cpu).keys, ∃ s ∈ cpu.sites, key = siteKey s
  /-- One key for each core with two workloads. -/
  counted : (getSharedCoreViolations cpu).keys.length
    = cpu.sites.countP (fun s => s.2.Shared)

theorem mem_sites {cpu : Cpu} {p : Package} {c : Core} (hp : p ∈ cpu.packages)
    (hc : c ∈ p.cores) : (p, c) ∈ cpu.sites :=
  List.mem_flatMap.mpr ⟨p, hp, List.mem_map_of_mem hc⟩

/-- **Violations are exact** on a CPU whose packages, and the cores of each package, have
distinct ids. -/
theorem violations_exact {cpu : Cpu} (h : DistinctIds cpu) : ViolationsExact cpu where
  crossPackage w := by
    rw [keys_getCrossPackageViolations, List.mem_filter, decide_eq_true_eq, ← crossPackage_iff h]
    exact ⟨And.right, fun hw => ⟨mem_getWorkloadIds.mpr hw.claimed, hw⟩⟩
  packages w ids hids := by
    obtain ⟨_, rfl⟩ := get?_getCrossPackageViolations.mp hids
    refine ⟨h.packages.sublist (List.filter_sublist.map _), ?_, ?_⟩
    · intro i hi
      obtain ⟨p, hp, hid⟩ := List.mem_map.mp hi
      exact ⟨p, (List.mem_filter.mp hp).1, hid⟩
    intro p hp
    refine ⟨?_, ?_⟩
    · intro hmem
      obtain ⟨q, hq, hid⟩ := List.mem_map.mp hmem
      obtain ⟨hqc, hqw⟩ := List.mem_filter.mp hq
      obtain rfl := List.inj_on_of_nodup_map h.packages hqc hp hid
      exact hqw
    · exact fun hw => List.mem_map_of_mem (List.mem_filter.mpr ⟨hp, hw⟩)
  sharedCore p hp c hc := by
    have hget := get?_getSharedCoreViolations h (mem_sites hp hc)
    rw [← Core.shared_iff, OrderedDict.mem_keys_iff]
    change (∃ v, (getSharedCoreViolations cpu).get? (siteKey (p, c)) = some v) ↔ _
    rw [hget]
    by_cases hs : c.Shared
    · simp [hs]
    · simp [hs]
  workloads p hp c hc ids hids := by
    have hget := get?_getSharedCoreViolations h (mem_sites hp hc)
    change (getSharedCoreViolations cpu).get? (siteKey (p, c)) = some ids at hids
    rw [hget] at hids
    split at hids
    · obtain rfl := Option.some.inj hids
      exact ⟨List.nodup_dedup _, fun _ => mem_getUniqueWorkloadIds⟩
    · exact absurd hids (by simp)
  keysApart := h.siteKeys_nodup
  keysOfCores key hkey := by
    rw [keys_getSharedCoreViolations h] at hkey
    obtain ⟨s, hs, rfl⟩ := List.mem_map.mp hkey
    exact ⟨s, (List.mem_filter.mp hs).1, rfl⟩
  counted := by
    rw [keys_getSharedCoreViolations h, List.length_map, ← List.countP_eq_length_filter]

/-- `a` is on both packages of a CPU of two packages, and `b` shares a core with it. -/
def crossedPair : Cpu :=
  (NaiveCpuAllocator.claimThreads "b" [1] (NaiveCpuAllocator.claimThreads "a" [0, 2] Config.crossed))

theorem violations_exact_crossed : ViolationsExact crossedPair := by
  have hshape : crossedPair.shape = gridShape 2 1 2 := by decide
  exact violations_exact (distinctIds_of_gridShape hshape)

/-! ## Better and better placements -/

theorem hasBetterIsolation_iff {curCpu newCpu : Cpu} :
    hasBetterIsolation curCpu newCpu = true ↔
      (getCrossPackageViolations newCpu).keys.length < (getCrossPackageViolations curCpu).keys.length
        ∨ ((getCrossPackageViolations newCpu).keys.length
              = (getCrossPackageViolations curCpu).keys.length
            ∧ (getSharedCoreViolations newCpu).keys.length
              < (getSharedCoreViolations curCpu).keys.length) := by
  unfold hasBetterIsolation
  dsimp only
  split
  · simp only [true_iff]
    omega
  · split
    · simp only [Bool.false_eq_true, false_iff]
      omega
    · rw [decide_eq_true_iff]
      omega

/-- The cores of a CPU, counted. -/
theorem length_sites (cpu : Cpu) :
    cpu.sites.length = (cpu.shape.map (fun p => p.2.length)).sum := by
  unfold Cpu.sites Cpu.shape Cpu.view
  rw [List.length_flatMap, List.map_map]
  congr 1
  refine List.map_congr_left ?_
  intro p _
  simp [Package.view, Package.getCores]

theorem length_getSharedCoreViolations_le (cpu : Cpu) :
    (getSharedCoreViolations cpu).keys.length ≤ cpu.sites.length := by
  rw [getSharedCoreViolations_eq]
  refine Nat.le_trans (OrderedDict.length_keys_ofPairs_le _) ?_
  rw [List.length_map]
  exact List.length_filter_le _ _

theorem length_getCrossPackageViolations_le {cpu : Cpu} (s : Finset WorkloadId)
    (hs : ∀ w, Claimed cpu w → w ∈ s) :
    (getCrossPackageViolations cpu).keys.length ≤ s.card := by
  have hnd := (getCrossPackageViolations cpu).keys_nodup
  rw [← List.toFinset_card_of_nodup hnd]
  refine Finset.card_le_card ?_
  intro w hw
  rw [List.mem_toFinset, keys_getCrossPackageViolations, List.mem_filter] at hw
  exact hs w (mem_getWorkloadIds.mp hw.1)

/-- The two counts as one number, for a machine of `cores` cores. -/
def violationScore (cores : Nat) (cpu : Cpu) : Nat :=
  (getCrossPackageViolations cpu).keys.length * (cores + 1)
    + (getSharedCoreViolations cpu).keys.length

theorem violationScore_lt {curCpu newCpu : Cpu} {cores : Nat} (hnew : newCpu.sites.length = cores)
    (h : hasBetterIsolation curCpu newCpu = true) :
    violationScore cores newCpu < violationScore cores curCpu := by
  have hle := length_getSharedCoreViolations_le newCpu
  unfold violationScore
  rcases hasBetterIsolation_iff.mp h with hcross | ⟨hcross, hshared⟩
  · -- one workload fewer across packages outweighs all the cores
    have hmul := Nat.mul_le_mul_right (cores + 1) (Nat.succ_le_of_lt hcross)
    rw [Nat.succ_mul] at hmul
    omega
  · rw [hcross]
    omega

/-- A list that goes down at every step is no longer than where it starts is high. -/
theorem length_le_of_descending {α : Type} {f : α → Nat} {x : α} {xs : List α}
    (h : (x :: xs).IsChain (fun a b => f b < f a)) : (x :: xs).length ≤ f x + 1 := by
  induction xs generalizing x with
  | nil => exact Nat.succ_le_succ (Nat.zero_le _)
  | cons y ys ih =>
    obtain ⟨hlt, hrest⟩ := List.isChain_cons_cons.mp h
    have hlen := ih hrest
    rw [List.length_cons]
    omega

/--
**Improvement comes to an end.** A sequence of placements on one machine, each with better
isolation than the one before, is no longer than the machine's cores and the workloads
placed on it allow; each is better than all before it, so none comes back.
-/
theorem better_placements_end {machine : Cpu} {s : Finset WorkloadId} {cpus : List Cpu}
    (hshape : ∀ cpu ∈ cpus, cpu.shape = machine.shape)
    (hclaims : ∀ cpu ∈ cpus, ∀ w, Claimed cpu w → w ∈ s)
    (h : cpus.IsChain (fun cur new => hasBetterIsolation cur new = true)) :
    cpus.length ≤ (s.card + 1) * (machine.sites.length + 1)
      ∧ cpus.Pairwise (fun cur new => hasBetterIsolation cur new = true ∧ cur ≠ new) := by
  have hsites : ∀ cpu ∈ cpus, cpu.sites.length = machine.sites.length := by
    intro cpu hcpu
    rw [length_sites, length_sites, hshape cpu hcpu]
  refine ⟨?_, ?_⟩
  · have hdown : cpus.IsChain (fun a b => violationScore machine.sites.length b
        < violationScore machine.sites.length a) :=
      h.imp_of_mem_imp (fun _ b _ hb hab => violationScore_lt (hsites b hb) hab)
    cases cpus with
    | nil => exact Nat.zero_le _
    | cons cpu cpus =>
      have hlen := length_le_of_descending hdown
      have hshared := length_getSharedCoreViolations_le cpu
      have hcross := length_getCrossPackageViolations_le _ (hclaims cpu List.mem_cons_self)
      rw [hsites cpu List.mem_cons_self] at hshared
      have hmul := Nat.mul_le_mul_right (machine.sites.length + 1) hcross
      unfold violationScore at hlen
      rw [Nat.succ_mul]
      omega
  · have htrans : ∀ a b c : Cpu, hasBetterIsolation a b = true → hasBetterIsolation b c = true →
        hasBetterIsolation a c = true := by
      intro a b c hab hbc
      rw [hasBetterIsolation_iff] at hab hbc ⊢
      omega
    have hpairs : cpus.Pairwise (fun cur new => hasBetterIsolation cur new = true) :=
      haveI : Trans (fun cur new => hasBetterIsolation cur new = true)
        (fun cur new => hasBetterIsolation cur new = true)
        (fun cur new => hasBetterIsolation cur new = true) := ⟨fun hab hbc => htrans _ _ _ hab hbc⟩
      List.isChain_iff_pairwise.mp h
    refine hpairs.imp ?_
    intro cur new hbetter
    refine ⟨hbetter, ?_⟩
    rintro rfl
    rw [hasBetterIsolation_iff] at hbetter
    omega

/-- First `b` leaves the core it shares with `a`, then `a` leaves. -/
def improvements : List Cpu :=
  [crossedPair, NaiveCpuAllocator.claimThreads "a" [0, 2] Config.crossed, Config.crossed]

theorem better_placements_end_crossed :
    improvements.length ≤ (({"a", "b"} : Finset WorkloadId).card + 1)
        * (Config.crossed.sites.length + 1)
      ∧ improvements.Pairwise (fun cur new => hasBetterIsolation cur new = true ∧ cur ≠ new) := by
  refine better_placements_end ?_ ?_ ?_
  · decide
  · intro cpu hcpu w hw
    obtain ⟨t, ht, hwt⟩ := hw
    have hall : ∀ cpu ∈ improvements, ∀ t ∈ cpu.getThreads, ∀ w ∈ t.workloadIds,
        w ∈ ({"a", "b"} : Finset WorkloadId) := by decide +kernel
    exact hall cpu hcpu t ht w hwt
  · exact .cons_cons (by decide +kernel) (.cons_cons (by decide +kernel) (.singleton _))

end TitusIsolate
