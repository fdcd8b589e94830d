import TitusIsolate.Lib.LargestFirst
import TitusIsolate.Proof.GreedyExact
import TitusIsolate.Proof.Naive

/-!
# Greedy spreads a workload as little as it can

Both loops fill the largest first: the one over packages by empty threads of a package,
the one inside a package by empty threads of a core. So each visits the least number that
has room, and a workload ends up exactly where the loops have visited. Placing the other
workloads moves none of its threads.
-/

namespace TitusIsolate

open GreedyCpuAllocator

/-! ## Being on a core, on a package -/

/-- A workload is on a core. -/
def isOnCore (c : Core) (w : WorkloadId) : Bool :=
  decide ((getThreadsWithWorkload c.getThreads w).length > 0)

/-- The cores of a package a workload is on. -/
def getCoresWithWorkload (p : Package) (w : WorkloadId) : List Core :=
  p.getCores.filter (fun c => isOnCore c w)

/-- Which threads list a workload. -/
def listing (w : WorkloadId) (t : Thread) : Bool := decide (w ∈ t.workloadIds)

section

variable {w : WorkloadId}

theorem isOnCore_iff {c : Core} : isOnCore c w = true ↔ 0 < holdCount c.getThreads w := by
  unfold isOnCore getThreadsWithWorkload holdCount
  rw [decide_eq_true_iff, List.countP_eq_length_filter]

theorem isOnPackage_iff {p : Package} : isOnPackage p w = true ↔ 0 < holdCount p.getThreads w := by
  unfold isOnPackage getThreadsWithWorkload holdCount
  rw [decide_eq_true_iff, List.countP_eq_length_filter]

theorem holdCount_eq_countP_map (ts : List Thread) :
    holdCount ts w = (ts.map (listing w)).countP id := by
  unfold holdCount
  rw [List.countP_map]
  rfl

theorem isOnCore_of_view {c d : Core} (h : c.view (listing w) = d.view (listing w)) :
    isOnCore c w = isOnCore d w := by
  have hthreads : c.getThreads.map (listing w) = d.getThreads.map (listing w) :=
    (Prod.mk.inj h).2
  rw [Bool.eq_iff_iff, isOnCore_iff, isOnCore_iff, holdCount_eq_countP_map,
    holdCount_eq_countP_map, hthreads]

theorem holdCount_of_view {p q : Package} (h : p.view (listing w) = q.view (listing w)) :
    holdCount p.getThreads w = holdCount q.getThreads w := by
  rw [holdCount_eq_countP_map, holdCount_eq_countP_map, Package.getThreads_map,
    Package.getThreads_map, h]

theorem length_getCoresWithWorkload_of_view {p q : Package}
    (h : p.view (listing w) = q.view (listing w)) :
    (getCoresWithWorkload p w).length = (getCoresWithWorkload q w).length := by
  have hcores : p.cores.map (fun c => isOnCore c w) = q.cores.map (fun c => isOnCore c w) :=
    map_eq_of_map_eq (fun _ _ => isOnCore_of_view) (Prod.mk.inj h).2
  have hcount := congrArg (List.countP id) hcores
  rw [List.countP_map, List.countP_map] at hcount
  unfold getCoresWithWorkload
  rw [← List.countP_eq_length_filter, ← List.countP_eq_length_filter]
  exact hcount

theorem length_getPackagesWithWorkload_of_view {a b : Cpu}
    (h : a.view (listing w) = b.view (listing w)) :
    (getPackagesWithWorkload a w).length = (getPackagesWithWorkload b w).length := by
  have hon : ∀ p q : Package, p.view (listing w) = q.view (listing w) →
      isOnPackage p w = isOnPackage q w := by
    intro p q hpq
    rw [Bool.eq_iff_iff, isOnPackage_iff, isOnPackage_iff, holdCount_of_view hpq]
  have hpackages : a.packages.map (fun p => isOnPackage p w)
      = b.packages.map (fun p => isOnPackage p w) := map_eq_of_map_eq hon h
  have hcount := congrArg (List.countP id) hpackages
  rw [List.countP_map, List.countP_map] at hcount
  unfold getPackagesWithWorkload
  rw [← List.countP_eq_length_filter, ← List.countP_eq_length_filter]
  exact hcount

end

/-! ## Visited positions, counted -/

/-- When the elements that pass a test are those at some distinct positions, there are as many. -/
theorem countP_eq_length_of_positions {α : Type} {q : α → Bool} {xs : List α} {order : List Nat}
    (hnd : order.Nodup) (hlt : ∀ i ∈ order, i < xs.length)
    (hq : ∀ i x, xs[i]? = some x → (q x = true ↔ i ∈ order)) : xs.countP q = order.length := by
  rw [← length_positions]
  refine List.Perm.length_eq ((List.perm_ext_iff_of_nodup (positions_nodup q xs) hnd).mpr ?_)
  intro i
  rw [mem_positions]
  refine ⟨?_, ?_⟩
  · intro h
    obtain ⟨x, hx, hqx⟩ := h
    exact (hq i x hx).mp hqx
  · intro hi
    have hx := List.getElem?_eq_getElem (hlt i hi)
    exact ⟨_, hx, (hq i _ hx).mpr hi⟩

/-! ## The loop over cores -/

/-- The empty threads of the cores of a package, by position. -/
def coreCapacities (p : Package) : Nat → Nat :=
  capacities (fun c : Core => c.getEmptyThreads.length) p.cores

/-- The empty threads of the packages of a CPU, by position. -/
def packageCapacities (cpu : Cpu) : Nat → Nat :=
  capacities (fun p : Package => p.getEmptyThreads.length) cpu.packages

section

variable {w : WorkloadId}

theorem getElem?_getEmptiestCore (p : Package) :
    p.cores[(p.getEmptiestCore : Nat)]? = some (p.cores.get p.getEmptiestCore) :=
  List.getElem?_eq_getElem p.getEmptiestCore.isLt

theorem getElem?_getEmptiestPackage (cpu : Cpu) :
    cpu.packages[(cpu.getEmptiestPackage : Nat)]?
      = some (cpu.packages.get cpu.getEmptiestPackage) :=
  List.getElem?_eq_getElem cpu.getEmptiestPackage.isLt

/-- A core after one round of the loop: the round fills it as far as the count goes. -/
theorem coreCapacities_round (w : WorkloadId) (n : Nat) (p : Package) :
    coreCapacities (p.modifyCore p.getEmptiestCore (claimOnCore w n))
      = Function.update (coreCapacities p) p.getEmptiestCore
          (coreCapacities p p.getEmptiestCore - n) := by
  have hclaim := claimEmptyThreads_spec w n (p.cores.get p.getEmptiestCore).threads
  have hleft : (claimOnCore w n (p.cores.get p.getEmptiestCore)).getEmptyThreads.length
      + min n (p.cores.get p.getEmptiestCore).getEmptyThreads.length
      = (p.cores.get p.getEmptiestCore).getEmptyThreads.length := hclaim.empties
  have hcap : coreCapacities p p.getEmptiestCore
      = (p.cores.get p.getEmptiestCore).getEmptyThreads.length :=
    capacities_get _ p.cores p.getEmptiestCore
  have hmodify : coreCapacities (p.modifyCore p.getEmptiestCore (claimOnCore w n))
      = Function.update (coreCapacities p) p.getEmptiestCore
          (claimOnCore w n (p.cores.get p.getEmptiestCore)).getEmptyThreads.length :=
    capacities_modify (getElem?_getEmptiestCore p)
  rw [hmodify, hcap]
  congr 1
  omega

/-- What one round puts the workload on. -/
theorem isOnCore_round {n : Nat} {p : Package} (hn : 0 < n) (hp : 0 < p.getEmptyThreads.length)
    {i : Nat} {c c' : Core} (hc : p.cores[i]? = some c)
    (hc' : (p.modifyCore p.getEmptiestCore (claimOnCore w n)).cores[i]? = some c') :
    isOnCore c' w = true ↔ isOnCore c w = true ∨ i = p.getEmptiestCore := by
  have hget : (p.cores.modify p.getEmptiestCore (claimOnCore w n))[i]? = some c' := hc'
  rw [List.getElem?_modify, hc] at hget
  by_cases hi : (p.getEmptiestCore : Nat) = i
  · subst hi
    rw [getElem?_getEmptiestCore] at hc
    have hcore := Option.some.inj hc
    have hpos := emptiestCore_pos hp
    have hclaim := (claimEmptyThreads_spec w n c.threads).toNew.holdCount_self
    have hmin : 0 < min n (getEmptyThreads c.threads).length := by
      rw [hcore] at hpos
      exact Nat.lt_min.mpr ⟨hn, hpos⟩
    have hnew : claimOnCore w n c = c' := by simpa using hget
    have hon : isOnCore c' w = true := by
      rw [isOnCore_iff, ← hnew]
      show 0 < holdCount (claimEmptyThreads w n c.threads) w
      omega
    simp [hon]
  · have hsame : c = c' := by simpa [hi] using hget
    rw [hsame]
    exact ⟨Or.inl, fun h => h.resolve_right (fun he => hi he.symm)⟩

/-- **The loop over cores fills the largest first**, and the workload is then on the cores it
has visited. -/
theorem assignOnPackage_largestFirst (w : WorkloadId) :
    ∀ (fuel n : Nat) (p : Package), n ≤ fuel →
      ∃ order, LargestFirst (coreCapacities p) (n - (assignOnPackage w fuel n p).2) order
        ∧ ∀ i c c', p.cores[i]? = some c → (assignOnPackage w fuel n p).1.cores[i]? = some c' →
            (isOnCore c' w = true ↔ isOnCore c w = true ∨ i ∈ order)
  | 0, n, p, hn => by
      have h0 : n = 0 := Nat.le_zero.mp hn
      subst h0
      refine ⟨[], LargestFirst.done, ?_⟩
      intro i c c' hc hc'
      rw [show (assignOnPackage w 0 0 p).1 = p from rfl, hc] at hc'
      rw [Option.some.inj hc']
      simp
  | fuel + 1, n, p, hn => by
      unfold assignOnPackage
      by_cases hcond : n > 0 ∧ p.getEmptyThreads.length > 0
      · rw [if_pos hcond]
        obtain ⟨hn0, hempty⟩ := hcond
        have hpos := emptiestCore_pos hempty
        have hcap : coreCapacities p p.getEmptiestCore
            = (p.cores.get p.getEmptiestCore).getEmptyThreads.length :=
          capacities_get _ p.cores p.getEmptiestCore
        dsimp only
        rw [List.length_take, ← hcap]
        rw [← hcap] at hpos
        -- the package after the round, and the count the loop goes on with
        have hlen : (p.modifyCore p.getEmptiestCore (claimOnCore w n)).cores.length
            = p.cores.length := List.length_modify ..
        have hround := coreCapacities_round w n p
        have honRound : ∀ (i : Nat) (c c' : Core), p.cores[i]? = some c →
            (p.modifyCore p.getEmptiestCore (claimOnCore w n)).cores[i]? = some c' →
            (isOnCore c' w = true ↔ isOnCore c w = true ∨ i = p.getEmptiestCore) :=
          fun _ _ _ hc hc' => isOnCore_round hn0 hempty hc hc'
        generalize hm : n - min n (coreCapacities p p.getEmptiestCore) = m
        generalize p.modifyCore p.getEmptiestCore (claimOnCore w n) = p1 at hlen hround honRound
        obtain ⟨order, hrun, hon⟩ := assignOnPackage_largestFirst w fuel m p1 (by omega)
        obtain ⟨k, hk, _, _⟩ := assignOnPackage_spec w fuel m p1 (by omega)
        refine ⟨p.getEmptiestCore :: order, ?_, ?_⟩
        · refine LargestFirst.fill (by omega) hpos (capacities_le_firstMaxIdx p.nonempty) ?_
          -- what is left of the core, and to place elsewhere, is the same by either count
          have hleft : coreCapacities p p.getEmptiestCore - (n - (assignOnPackage w fuel m p1).2)
              = coreCapacities p p.getEmptiestCore - n := by omega
          have hrest : n - (assignOnPackage w fuel m p1).2 - coreCapacities p p.getEmptiestCore
              = m - (assignOnPackage w fuel m p1).2 := by omega
          rw [hleft, hrest, ← hround]
          exact hrun
        · intro i c c'' hc hc''
          have hlt : i < p1.cores.length := by
            rw [hlen]
            exact (List.getElem?_eq_some_iff.mp hc).1
          have hc' := List.getElem?_eq_getElem hlt
          rw [hon i _ c'' hc' hc'', honRound i c _ hc hc', List.mem_cons, or_assoc]
      · rw [if_neg hcond]
        refine ⟨[], by simpa using LargestFirst.done, ?_⟩
        intro i c c' hc hc'
        rw [hc] at hc'
        rw [Option.some.inj hc']
        simp

/-! ## The recursion over packages -/

/-- A visit takes from the count, and from the room of the package, the lesser of the two. -/
theorem packageCapacities_visit (w : Workload) (cpu : Cpu) :
    packageCapacities (visit w cpu)
      = Function.update (packageCapacities cpu) cpu.getEmptiestPackage
          (packageCapacities cpu cpu.getEmptiestPackage - w.threadCount.toNat)
    ∧ (visited w cpu).2 = w.threadCount.toNat - packageCapacities cpu cpu.getEmptiestPackage := by
  obtain ⟨k, hk, hcl, hstop⟩ := assignOnPackage_spec w.taskId w.threadCount.toNat
    w.threadCount.toNat (cpu.packages.get cpu.getEmptiestPackage) (Nat.le_refl _)
  have hk' : k + (visited w cpu).2 = w.threadCount.toNat := hk
  have hstop' : (visited w cpu).2 = 0 ∨ (visited w cpu).1.getEmptyThreads.length = 0 := hstop
  have hempties : (visited w cpu).1.getEmptyThreads.length + k
      = (cpu.packages.get cpu.getEmptiestPackage).getEmptyThreads.length := hcl.empties
  have hcap : packageCapacities cpu cpu.getEmptiestPackage
      = (cpu.packages.get cpu.getEmptiestPackage).getEmptyThreads.length :=
    capacities_get _ cpu.packages cpu.getEmptiestPackage
  have hmodify : packageCapacities (visit w cpu)
      = Function.update (packageCapacities cpu) cpu.getEmptiestPackage
          (visited w cpu).1.getEmptyThreads.length :=
    capacities_modify (getElem?_getEmptiestPackage cpu)
  refine ⟨?_, by omega⟩
  rw [hmodify, hcap]
  congr 1
  omega

/-- A visit changes the emptiest package and no other. -/
theorem getElem?_visit (w : Workload) {cpu : Cpu} {i : Nat} {p : Package}
    (hp : cpu.packages[i]? = some p) :
    (i = cpu.getEmptiestPackage ∧ p = cpu.packages.get cpu.getEmptiestPackage
      ∧ (visit w cpu).packages[i]? = some (visited w cpu).1)
    ∨ (i ≠ cpu.getEmptiestPackage ∧ (visit w cpu).packages[i]? = some p) := by
  have hget : (visit w cpu).packages[i]?
      = (cpu.packages.modify cpu.getEmptiestPackage (fun _ => (visited w cpu).1))[i]? := rfl
  rw [List.getElem?_modify, hp] at hget
  by_cases hi : (cpu.getEmptiestPackage : Nat) = i
  · left
    have hsame : p = cpu.packages.get cpu.getEmptiestPackage := by
      rw [← hi, getElem?_getEmptiestPackage] at hp
      exact (Option.some.inj hp).symm
    refine ⟨hi.symm, hsame, ?_⟩
    rw [hget]
    simp [hi]
  · right
    refine ⟨fun he => hi he.symm, ?_⟩
    rw [hget]
    simp [hi]

/-- The loop over cores on a package with nothing to place, or no thread to place it on. -/
theorem assignOnPackage_stop {fuel n : Nat} {p : Package}
    (h : n = 0 ∨ p.getEmptyThreads.length = 0) : assignOnPackage w fuel n p = (p, n) := by
  cases fuel with
  | zero => rfl
  | succ fuel =>
    unfold assignOnPackage
    rw [if_neg (by omega)]

/-- A package with an empty thread hosts a workload that a call brings to it. -/
theorem isOnPackage_visit {n : Nat} {p : Package} (hn : 0 < n)
    (hp : 0 < p.getEmptyThreads.length) : isOnPackage (assignOnPackage w n n p).1 w = true := by
  obtain ⟨k, hk, hcl, _⟩ := assignOnPackage_spec w n n p (Nat.le_refl _)
  have hless := assignOnPackage_lt (w := w) hn hp
  rw [isOnPackage_iff, hcl.toNew.holdCount_self]
  omega

/-- What a call that goes through has done to the packages. -/
structure Visits (w : Workload) (cpu cpu' : Cpu) (order : List Nat) : Prop where
  largestFirst : LargestFirst (packageCapacities cpu) w.threadCount.toNat order
  hosts : ∀ (i : Nat) (p p' : Package), cpu.packages[i]? = some p → cpu'.packages[i]? = some p' →
    (isOnPackage p' w.taskId = true ↔ isOnPackage p w.taskId = true ∨ i ∈ order)
  each : ∀ (i : Nat) (p p' : Package), cpu.packages[i]? = some p → cpu'.packages[i]? = some p' →
    ∃ n, n ≤ w.threadCount.toNat ∧ p' = (assignOnPackage w.taskId n n p).1

theorem visits_nothing {w : Workload} {cpu : Cpu} (h : w.threadCount = 0) :
    Visits w cpu cpu [] where
  largestFirst := by
    rw [h]
    exact LargestFirst.done
  hosts := by
    intro i p p' hp hp'
    rw [hp] at hp'
    rw [Option.some.inj hp']
    simp
  each := by
    intro i p p' hp hp'
    rw [hp] at hp'
    exact ⟨0, Nat.zero_le _, (Option.some.inj hp').symm⟩

/-- **One package visited, then the rest of the call.** -/
theorem Visits.cons {w : Workload} {cpu cpu' : Cpu} {order : List Nat}
    (hpos : 0 < w.threadCount) (hfull : cpu.isCpuFull = false)
    (h : Visits (resume w cpu) (visit w cpu) cpu' order) :
    Visits w cpu cpu' (cpu.getEmptiestPackage :: order) := by
  obtain ⟨hcaps, hleft⟩ := packageCapacities_visit w cpu
  obtain ⟨_, _, _, hstop⟩ := visit_spec w cpu
  have hpkg := emptiestPackage_pos (getEmptyThreads_pos hfull)
  have hn : 0 < w.threadCount.toNat := by omega
  have hcount : (resume w cpu).threadCount.toNat = (visited w cpu).2 := Int.toNat_natCast _
  exact
    { largestFirst := by
        have hcap : packageCapacities cpu cpu.getEmptiestPackage
            = (cpu.packages.get cpu.getEmptiestPackage).getEmptyThreads.length :=
          capacities_get _ cpu.packages cpu.getEmptiestPackage
        refine LargestFirst.fill hn (by omega) (capacities_le_firstMaxIdx cpu.nonempty) ?_
        have hrun := h.largestFirst
        rw [hcaps, hcount, hleft] at hrun
        exact hrun
      hosts := by
        intro i p p' hp hp'
        rcases getElem?_visit w hp with ⟨hi, _, hp1⟩ | ⟨hi, hp1⟩
        · have hvisit : isOnPackage (visited w cpu).1 w.taskId = true := isOnPackage_visit hn hpkg
          have hon : isOnPackage p' w.taskId = true
              ↔ isOnPackage (visited w cpu).1 w.taskId = true ∨ i ∈ order :=
            h.hosts i _ p' hp1 hp'
          rw [hon, hvisit]
          simp [hi]
        · have hon : isOnPackage p' w.taskId = true
              ↔ isOnPackage p w.taskId = true ∨ i ∈ order := h.hosts i p p' hp1 hp'
          rw [hon, List.mem_cons]
          simp [hi]
      each := by
        intro i p p' hp hp'
        rcases getElem?_visit w hp with ⟨_, hsame, hp1⟩ | ⟨_, hp1⟩
        · -- the package visited is not changed again: it is full or nothing is left
          obtain ⟨n, hle, hafter⟩ := h.each i _ p' hp1 hp'
          refine ⟨w.threadCount.toNat, Nat.le_refl _, ?_⟩
          rw [hafter, assignOnPackage_stop (by omega), hsame]
          rfl
        · obtain ⟨n, hle, hafter⟩ := h.each i p p' hp1 hp'
          exact ⟨n, by omega, hafter⟩ }

/-- **The recursion over packages visits the largest first.** -/
theorem assignThreads_visits :
    ∀ (fuel : Nat) (w : Workload) (cpu : Cpu), w.threadCount.toNat < fuel →
      (assignThreads fuel w cpu).1 = .ok () →
      ∃ order, Visits w cpu (assignThreads fuel w cpu).2 order
  | 0, w, cpu, h, _ => absurd h (Nat.not_lt_zero _)
  | fuel + 1, w, cpu, h, hok => by
      cases assignThreads_step fuel w cpu with
      | nothing hcount heq =>
        rw [heq]
        exact ⟨[], visits_nothing hcount⟩
      | full _ _ heq =>
        rw [heq] at hok
        exact absurd hok (by simp)
      | refused _ _ _ _ heq =>
        rw [heq] at hok
        exact absurd hok (by simp)
      | recurse hcount hfull hless heq =>
        rw [heq] at hok ⊢
        obtain ⟨order, hrest⟩ :=
          assignThreads_visits fuel (resume w cpu) (visit w cpu) (by omega) hok
        exact ⟨_, hrest.cons hcount hfull⟩

/-! ## From visits to numbers -/

theorem holdCount_package_le {cpu : Cpu} {p : Package} (hp : p ∈ cpu.packages)
    (h : holdCount cpu.getThreads w = 0) : holdCount p.getThreads w = 0 := by
  rw [holdCount_eq_zero_iff] at h ⊢
  intro t ht
  exact h t (List.mem_flatMap.mpr ⟨p, hp, ht⟩)

theorem holdCount_core_le {p : Package} {c : Core} (hc : c ∈ p.cores)
    (h : holdCount p.getThreads w = 0) : holdCount c.getThreads w = 0 := by
  rw [holdCount_eq_zero_iff] at h ⊢
  intro t ht
  exact h t (List.mem_flatMap.mpr ⟨c, hc, ht⟩)

/-- A package the workload was not on, after the loop over its cores. -/
theorem isLeast_cores {p : Package} (hp : holdCount p.getThreads w = 0) (n : Nat) :
    IsLeast (roomyCounts (fun c : Core => c.getEmptyThreads.length) p.cores
        (holdCount (assignOnPackage w n n p).1.getThreads w))
      (getCoresWithWorkload (assignOnPackage w n n p).1 w).length := by
  obtain ⟨order, hrun, hon⟩ := assignOnPackage_largestFirst w n n p (Nat.le_refl _)
  obtain ⟨k, hk, hcl, _⟩ := assignOnPackage_spec w n n p (Nat.le_refl _)
  -- the loop neither adds nor drops a core
  have hview := assignOnPackage_view (g := Thread.id) (w := w) (fun _ => rfl) n n p
  have hlen : (assignOnPackage w n n p).1.cores.length = p.cores.length := by
    simpa [Package.view] using congrArg (fun v => v.2.length) hview
  have hheld : holdCount (assignOnPackage w n n p).1.getThreads w
      = n - (assignOnPackage w n n p).2 := by
    rw [hcl.toNew.holdCount_self]
    omega
  have hcount : (getCoresWithWorkload (assignOnPackage w n n p).1 w).length = order.length := by
    unfold getCoresWithWorkload
    rw [← List.countP_eq_length_filter]
    refine countP_eq_length_of_positions hrun.nodup ?_ ?_
    · intro i hi
      show i < (assignOnPackage w n n p).1.cores.length
      rw [hlen]
      exact lt_of_capacities_pos (hrun.cap_pos i hi)
    · intro i c' hc'
      have hlt : i < p.cores.length := by
        rw [← hlen]
        exact (List.getElem?_eq_some_iff.mp hc').1
      have hc := List.getElem?_eq_getElem hlt
      have hoff : ¬ isOnCore p.cores[i] w = true := by
        rw [isOnCore_iff, holdCount_core_le (List.getElem_mem hlt) hp]
        exact Nat.lt_irrefl 0
      rw [hon i _ c' hc hc']
      exact ⟨fun h => h.resolve_left hoff, Or.inr⟩
  rw [hheld, hcount]
  exact hrun.isLeast

/-- A CPU the workload was not on, after a call. -/
theorem Visits.isLeast {w : Workload} {cpu cpu' : Cpu} {order : List Nat}
    (h : Visits w cpu cpu' order) (hlen : cpu'.packages.length = cpu.packages.length)
    (hcpu : holdCount cpu.getThreads w.taskId = 0) :
    IsLeast (roomyCounts (fun p : Package => p.getEmptyThreads.length) cpu.packages
        w.threadCount.toNat)
      (getPackagesWithWorkload cpu' w.taskId).length := by
  have hcount : (getPackagesWithWorkload cpu' w.taskId).length = order.length := by
    unfold getPackagesWithWorkload
    rw [← List.countP_eq_length_filter]
    refine countP_eq_length_of_positions h.largestFirst.nodup ?_ ?_
    · intro i hi
      show i < cpu'.packages.length
      rw [hlen]
      exact lt_of_capacities_pos (h.largestFirst.cap_pos i hi)
    · intro i p' hp'
      have hlt : i < cpu.packages.length := by
        rw [← hlen]
        exact (List.getElem?_eq_some_iff.mp hp').1
      have hp := List.getElem?_eq_getElem hlt
      have hoff : ¬ isOnPackage cpu.packages[i] w.taskId = true := by
        rw [isOnPackage_iff, holdCount_package_le (List.getElem_mem hlt) hcpu]
        exact Nat.lt_irrefl 0
      rw [h.hosts i _ p' hp hp']
      exact ⟨fun h => h.resolve_left hoff, Or.inr⟩
  rw [hcount]
  exact h.largestFirst.isLeast

end

/-! ## A whole request -/

/-- A loop that goes through has placed its first workload. -/
theorem assignAll_cons_ok {w : Workload} {ws : List Workload} {cpu : Cpu}
    (h : (assignAll (w :: ws) cpu).1 = .ok ()) :
    (assignThreads (w.threadCount.toNat + 1) w cpu).1 = .ok () := by
  cases hres : (assignThreads (w.threadCount.toNat + 1) w cpu).1 with
  | error e =>
    rw [assignAll_cons_of_error hres] at h
    exact absurd h (by simp)
  | ok _ => rfl

theorem assignAll_append {before rest : List Workload} {cpu : Cpu}
    (h : (assignAll (before ++ rest) cpu).1 = .ok ()) :
    assignAll (before ++ rest) cpu = assignAll rest (assignAll before cpu).2 := by
  induction before generalizing cpu with
  | nil => rfl
  | cons v before ih =>
    rw [List.cons_append] at h ⊢
    have hv := assignAll_cons_ok h
    rw [assignAll_cons_of_ok hv] at h
    rw [assignAll_cons_of_ok hv, assignAll_cons_of_ok hv, ih h]

/-- A workload is spread as little as the CPU before it allowed. -/
structure LeastSpread (w : Workload) (before after : Cpu) : Prop where
  packages : IsLeast (roomyCounts (fun p : Package => p.getEmptyThreads.length) before.packages
      w.threadCount.toNat)
    (getPackagesWithWorkload after w.taskId).length
  /-- It is cross-package only if no package had room for it. -/
  crossPackage : 1 < (getPackagesWithWorkload after w.taskId).length →
    ∀ p ∈ before.packages, (p.getEmptyThreads.length : Int) < w.threadCount
  /-- On each package it is on as few cores as its threads there need. -/
  cores : ∀ (i : Nat) (p p' : Package), before.packages[i]? = some p →
    after.packages[i]? = some p' →
    IsLeast (roomyCounts (fun c : Core => c.getEmptyThreads.length) p.cores
        (holdCount p'.getThreads w.taskId))
      (getCoresWithWorkload p' w.taskId).length

theorem Visits.leastSpread {w : Workload} {cpu cpu1 cpu' : Cpu} {order : List Nat}
    (h : Visits w cpu cpu1 order) (hlen : cpu1.packages.length = cpu.packages.length)
    (hcpu : holdCount cpu.getThreads w.taskId = 0)
    (hview : cpu'.view (listing w.taskId) = cpu1.view (listing w.taskId)) :
    LeastSpread w cpu cpu' := by
  have hleast := h.isLeast hlen hcpu
  rw [← length_getPackagesWithWorkload_of_view hview] at hleast
  exact
    { packages := hleast
      crossPackage := by
        intro hcross p hp
        have hless := lt_of_isLeast_roomyCounts hleast hcross p hp
        omega
      cores := by
        intro i p p' hp hp'
        have hlt : i < cpu1.packages.length := by
          rw [hlen]
          exact (List.getElem?_eq_some_iff.mp hp).1
        have hp1 := List.getElem?_eq_getElem hlt
        obtain ⟨n, _, hvisit⟩ := h.each i p _ hp hp1
        have hsame : p'.view (listing w.taskId) = (cpu1.packages[i]).view (listing w.taskId) := by
          have hget := congrArg (fun v => v[i]?) hview
          simp only [Cpu.view, List.getElem?_map, hp', hp1, Option.map_some] at hget
          exact Option.some.inj hget
        rw [holdCount_of_view hsame, length_getCoresWithWorkload_of_view hsame, hvisit]
        exact isLeast_cores (holdCount_package_le (List.mem_of_getElem? hp) hcpu) n }

/--
**Greedy spreads each workload as little as possible.** Given the workloads handled before
it, a workload ends up on the least number of packages that together had room for it, and
on each package on the least number of cores that had room for its threads there.
-/
theorem greedy_leastSpread {Rng : Type} {ambient : Ambient Rng} {request : AllocateRequest}
    {response : AllocateResponse}
    (h : ((greedyCpuAllocator Rng).isolate ambient request).result = .ok response)
    (before : List Workload) (w : Workload) (after : List Workload)
    (hsplit : request.workloads.values = before ++ w :: after) :
    LeastSpread w (assignAll before request.cpu.clear).2 response.cpu := by
  have hnd := request.workloads.values_taskId_nodup
  rw [hsplit, List.map_append, List.map_cons] at hnd
  obtain ⟨hbefore, hrest, hapart⟩ := List.nodup_append.mp hnd
  obtain ⟨hafter, _⟩ := List.nodup_cons.mp hrest
  have hanswer := assignAll_of_answer h
  rw [hsplit] at hanswer
  have hok : (assignAll (before ++ w :: after) request.cpu.clear).1 = .ok () := by rw [hanswer]
  have hcpu : response.cpu = (assignAll (before ++ w :: after) request.cpu.clear).2 := by
    rw [hanswer]
  rw [assignAll_append hok] at hcpu
  rw [assignAll_append hok] at hok
  generalize hstart : (assignAll before request.cpu.clear).2 = start at hok hcpu ⊢
  have hokw := assignAll_cons_ok hok
  rw [assignAll_cons_of_ok hokw] at hcpu
  obtain ⟨order, hvisits⟩ := assignThreads_visits _ w start (Nat.lt_succ_self _) hokw
  refine hvisits.leastSpread ?_ ?_ ?_
  · have hview := assignThreads_view (g := Thread.id) (w.threadCount.toNat + 1) w start
      (fun _ => rfl)
    simpa [Cpu.view] using congrArg List.length hview
  · obtain ⟨hplaced, _⟩ := assignAll_spec before request.cpu.clear hbefore
    rw [hstart] at hplaced
    have hnot : w.taskId ∉ before.map Workload.taskId :=
      fun hmem => hapart _ hmem _ (List.mem_cons_self) rfl
    rw [hplaced.other _ hnot, Cpu.getThreads_clear, holdCount_clear]
  · rw [hcpu]
    refine assignAll_view after _ ?_
    intro v hv t
    have hne : w.taskId ≠ v.taskId := fun he => hafter (he ▸ List.mem_map_of_mem hv)
    unfold listing
    simp [hne]

/-- A workload of one thread and one of three, on two packages of two threads each. -/
def crossRequest : AllocateRequest where
  cpu := Config.crossed
  workloads := (WorkloadMap.empty.put ⟨"a", "job", 1⟩).put ⟨"b", "job", 3⟩
  metadata := []

theorem greedy_leastSpread_cross : ∃ response,
    ((greedyCpuAllocator Unit).isolate (Ambient.unset ()) crossRequest).result = .ok response
      ∧ (getPackagesWithWorkload response.cpu "b").length = 2
      ∧ LeastSpread ⟨"b", "job", 3⟩ (assignAll [⟨"a", "job", 1⟩] crossRequest.cpu.clear).2
          response.cpu := by
  refine ⟨_, rfl, ?_, ?_⟩
  · decide
  · exact greedy_leastSpread rfl [⟨"a", "job", 1⟩] ⟨"b", "job", 3⟩ [] rfl

end TitusIsolate
