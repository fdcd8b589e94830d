import TitusIsolate.Lib.TextTable
import TitusIsolate.Proof.Symbols

/-!
# How a CPU is drawn

The drawing of a CPU is a table: a group of two rows for each package, each claimed thread
written into the cell of its number, and the legend beside the lines. It is made when the
rows have a cell for every claimed thread, and raises when one of them has none.
-/

namespace TitusIsolate

open TextTable

/-- What the cell of a thread shows. -/
def shown (sym : Finset WorkloadId → String) (t : Thread) : String :=
  if t.isClaimed then sym t.workloads else " "

/-! ## Filling the rows of a package -/

/-- Rows of `k` columns have a cell for every claimed thread from number `j` on. -/
def RoomFrom (j k : Nat) (ts : List Thread) : Prop :=
  ∀ i t, ts[i]? = some t → t.isClaimed = true → (j + i) / 2 < k

section

variable {footprints : OrderedDict String String} {sym : Finset WorkloadId → String} {k : Nat}

/-- The footprints say what the claimed threads are to show. -/
def Named (footprints : OrderedDict String String) (sym : Finset WorkloadId → String)
    (ts : List Thread) : Prop :=
  ∀ t ∈ ts, t.isClaimed = true → footprints.get? (getWorkloadsStr t) = some (sym t.workloads)

theorem Named.tail {t : Thread} {ts : List Thread} (h : Named footprints sym (t :: ts)) :
    Named footprints sym ts := fun u hu => h u (List.mem_cons_of_mem t hu)

theorem roomFrom_cons {j : Nat} {t : Thread} {ts : List Thread} :
    RoomFrom j k (t :: ts) ↔ (t.isClaimed = true → j / 2 < k) ∧ RoomFrom (j + 1) k ts := by
  refine ⟨?_, ?_⟩
  · intro h
    refine ⟨h 0 t rfl, ?_⟩
    intro i u hu hclaimed
    have hlt := h (i + 1) u hu hclaimed
    omega
  · rintro ⟨hhead, htail⟩ i u hu hclaimed
    cases i with
    | zero =>
      obtain rfl := Option.some.inj hu
      exact hhead hclaimed
    | succ i =>
      have hlt := htail i u hu hclaimed
      omega

theorem fillRows_unclaimed {t : Thread} (ht : t.isClaimed = false) (j : Nat) (g : Rows String)
    (ts : List Thread) :
    fillRows footprints j g.1 g.2 (t :: ts) = fillRows footprints (j + 1) g.1 g.2 ts := by
  rw [fillRows, ht]
  rfl

/-- A claimed thread is written into its cell, or there is none. -/
theorem fillRows_claimed {t : Thread} {v : String} (ht : t.isClaimed = true)
    (hv : footprints.get? (getWorkloadsStr t) = some v) {g : Rows String} (hg : Wide k g)
    (j : Nat) (ts : List Thread) :
    fillRows footprints j g.1 g.2 (t :: ts)
      = if j / 2 < k then
          fillRows footprints (j + 1) (setCell g j v).1 (setCell g j v).2 ts
        else .error (.indexError "list assignment index out of range") := by
  rw [fillRows, ht, hv]
  unfold setItem setCell
  rw [hg.1, hg.2]
  by_cases hj : j % 2 = 0
  · simp only [if_pos hj, Bool.not_true, Bool.false_eq_true, if_false]
    split_ifs
    · rfl
    · rfl
  · simp only [if_neg hj, Bool.not_true, Bool.false_eq_true, if_false]
    split_ifs
    · rfl
    · rfl

/-- What filling makes of the rows: the claimed threads from number `j` on are in their cells,
and the other cells are as they were. -/
structure Filled (sym : Finset WorkloadId → String) (j : Nat) (ts : List Thread)
    (g g' : Rows String) : Prop where
  claimed : ∀ i t, ts[i]? = some t → t.isClaimed = true → cell g' (j + i) = some (sym t.workloads)
  others : ∀ m, (∀ i t, ts[i]? = some t → t.isClaimed = true → m ≠ j + i) → cell g' m = cell g m

/-- A thread is handled by writing its own cell at most. -/
theorem Filled.cons {j : Nat} {t : Thread} {ts : List Thread} {g h g' : Rows String}
    (hrest : Filled sym (j + 1) ts h g')
    (hself : t.isClaimed = true → cell h j = some (sym t.workloads))
    (hother : ∀ m, (t.isClaimed = true → m ≠ j) → cell h m = cell g m) :
    Filled sym j (t :: ts) g g' where
  claimed := by
    intro i u hu hcl
    cases i with
    | zero =>
      -- the later threads have other cells
      obtain rfl := Option.some.inj hu
      rw [hrest.others _ (fun i _ _ _ => by omega)]
      exact hself hcl
    | succ i =>
      have hnumber : j + (i + 1) = j + 1 + i := by omega
      rw [hnumber]
      exact hrest.claimed i u hu hcl
  others := by
    intro m hm
    rw [hrest.others m ?_, hother m (hm 0 t rfl)]
    intro i u hu hcl
    have hne := hm (i + 1) u hu hcl
    omega

/-- **With room for the claimed threads** the rows are filled. -/
theorem fillRows_ok {ts : List Thread} {j : Nat} {g : Rows String}
    (hnamed : Named footprints sym ts) (hg : Wide k g) (hroom : RoomFrom j k ts) :
    ∃ g', fillRows footprints j g.1 g.2 ts = .ok g' ∧ Wide k g' ∧ Filled sym j ts g g' := by
  induction ts generalizing j g with
  | nil => exact ⟨g, rfl, hg, fun i t h => absurd h (by simp), fun _ _ => rfl⟩
  | cons t ts ih =>
    obtain ⟨hhead, htail⟩ := roomFrom_cons.mp hroom
    by_cases ht : t.isClaimed = true
    · have hj := hhead ht
      rw [fillRows_claimed ht (hnamed t (by simp) ht) hg, if_pos hj]
      obtain ⟨g', hok, hwide, hrest⟩ := ih hnamed.tail (hg.setCell j (sym t.workloads)) htail
      refine ⟨g', hok, hwide, hrest.cons ?_ ?_⟩
      · exact fun _ => cell_setCell_self hg hj _
      · exact fun m hm => cell_setCell_ne (hm ht) _
    · have hfalse : t.isClaimed = false := by simpa using ht
      rw [fillRows_unclaimed hfalse]
      obtain ⟨g', hok, hwide, hrest⟩ := ih hnamed.tail hg htail
      refine ⟨g', hok, hwide, hrest.cons ?_ ?_⟩
      · exact fun hcl => absurd hcl ht
      · exact fun _ _ => rfl

/-- **Without room** for one of them, writing raises. -/
theorem fillRows_error {ts : List Thread} {j : Nat} {g : Rows String}
    (hnamed : Named footprints sym ts) (hg : Wide k g) (hroom : ¬ RoomFrom j k ts) :
    fillRows footprints j g.1 g.2 ts
      = .error (.indexError "list assignment index out of range") := by
  induction ts generalizing j g with
  | nil => exact absurd (fun i t h => absurd h (by simp)) hroom
  | cons t ts ih =>
    rw [roomFrom_cons] at hroom
    by_cases ht : t.isClaimed = true
    · rw [fillRows_claimed ht (hnamed t (by simp) ht) hg]
      split_ifs with hj
      · exact ih hnamed.tail (hg.setCell j _) (fun h => hroom ⟨fun _ => hj, h⟩)
      · rfl
    · have hfalse : t.isClaimed = false := by simpa using ht
      rw [fillRows_unclaimed hfalse]
      exact ih hnamed.tail hg (fun h => hroom ⟨fun hcl => absurd hcl ht, h⟩)

/-! ## The lines of the packages -/

/-- Rows of a package's threads, `k` columns wide. -/
structure Drawn (sym : Finset WorkloadId → String) (k : Nat) (p : Package) (g : Rows String) :
    Prop where
  wide : Wide k g
  cells : ∀ j t, p.getThreads[j]? = some t → j / 2 < k → cell g j = some (shown sym t)

/-- Rows of `k` columns have a cell for every claimed thread of the CPU. -/
def Room (k : Nat) (ps : List Package) : Prop := ∀ p ∈ ps, RoomFrom 0 k p.getThreads

theorem cell_blank {j : Nat} (h : j / 2 < k) :
    cell (List.replicate k " ", List.replicate k " ") j = some " " := by
  unfold cell
  split
  · rw [List.getElem?_replicate, if_pos h]
  · rw [List.getElem?_replicate, if_pos h]

theorem wide_blank : Wide k (List.replicate k " ", List.replicate k " ") :=
  ⟨List.length_replicate, List.length_replicate⟩

theorem fillRows_package {p : Package} (hnamed : Named footprints sym p.getThreads)
    (hroom : RoomFrom 0 k p.getThreads) :
    ∃ g, fillRows footprints 0 (List.replicate k " ") (List.replicate k " ") p.getThreads = .ok g
      ∧ Drawn sym k p g := by
  obtain ⟨g, hok, hwide, hfilled⟩ := fillRows_ok hnamed wide_blank hroom
  refine ⟨g, hok, hwide, ?_⟩
  intro j t ht hj
  unfold shown
  split_ifs with hcl
  · have hcell := hfilled.claimed j t ht hcl
    rwa [Nat.zero_add] at hcell
  · -- no claimed thread has this number
    rw [hfilled.others j ?_, cell_blank hj]
    rintro i u hu hucl rfl
    rw [Nat.zero_add] at ht
    obtain rfl := Option.some.inj (hu.symm.trans ht)
    exact hcl hucl

/-- A line ends the way the table's lines do. -/
theorem barred_newline (row : String) : "| " ++ row ++ " |\n" = "| " ++ row ++ " |" ++ "\n" := by
  have hend : " |\n" = " |" ++ "\n" := rfl
  rw [hend, ← String.append_assoc]

theorem packageLines_ok {n nPackages : Nat} :
    ∀ {ps : List Package} (ind : Nat), (∀ p ∈ ps, Named footprints sym p.getThreads) →
      Room (n / 2) ps → ind + ps.length = nPackages →
      ∃ gs, packageLines footprints nPackages n ind ps
          = .ok ((lines gs).map (fun l => l ++ "\n"))
        ∧ List.Forall₂ (Drawn sym (n / 2)) ps gs
  | [], _, _, _, _ => ⟨[], rfl, .nil⟩
  | p :: ps, ind, hnamed, hroom, hlen => by
      rw [List.length_cons] at hlen
      obtain ⟨g, hg, hdrawn⟩ := fillRows_package (hnamed p (by simp)) (hroom p (by simp))
      have hrest : ind + 1 + ps.length = nPackages := by omega
      obtain ⟨gs, hgs, hall⟩ := packageLines_ok (ind + 1)
        (fun q hq => hnamed q (List.mem_cons_of_mem p hq))
        (fun q hq => hroom q (List.mem_cons_of_mem p hq)) hrest
      refine ⟨g :: gs, ?_, .cons hdrawn hall⟩
      have hlast : ind + 1 < nPackages ↔ ¬ gs = [] := by
        rw [← List.length_eq_zero_iff, ← hall.length_eq]
        omega
      rw [packageLines, hg, hgs]
      simp only [barred_newline, hlast, lines, List.map_cons, List.map_append]
      split_ifs
      · rfl
      · rfl

theorem packageLines_error {n : Nat} (nPackages : Nat) :
    ∀ {ps : List Package} (ind : Nat), (∀ p ∈ ps, Named footprints sym p.getThreads) →
      ¬ Room (n / 2) ps →
      packageLines footprints nPackages n ind ps
        = .error (.indexError "list assignment index out of range")
  | [], _, _, hroom => absurd (by simp [Room]) hroom
  | p :: ps, ind, hnamed, hroom => by
      have hhead := hnamed p (by simp)
      rw [packageLines]
      by_cases hp : RoomFrom 0 (n / 2) p.getThreads
      · obtain ⟨g, hg, _⟩ := fillRows_package hhead hp
        have htail : ¬ Room (n / 2) ps := fun h => hroom (List.forall_mem_cons.mpr ⟨hp, h⟩)
        have hrest := packageLines_error nPackages (ind + 1)
          (fun q hq => hnamed q (List.mem_cons_of_mem p hq)) htail
        rw [hg, hrest]
      · have herror : fillRows footprints 0 (List.replicate (n / 2) " ")
            (List.replicate (n / 2) " ") p.getThreads = _ := fillRows_error hhead wide_blank hp
        rw [herror]

end

/-! ## The legend -/

/-- What the legend says of a set of workloads. -/
def legendEntry (sym : Finset WorkloadId → String) (s : Finset WorkloadId) : String :=
  sym s ++ ": " ++ setText s

theorem dropLast_newline (l : String) :
    String.ofList (l ++ "\n").toList.dropLast = l := by
  have hend : "\n".toList = ['\n'] := rfl
  rw [String.toList_append, hend, List.dropLast_concat, String.ofList_toList]

theorem blanks_succ (n : Nat) :
    String.ofList (List.replicate (n + 1) ' ') ++ "  " = blanks n ++ "   " := by
  refine String.toList_inj.mp ?_
  unfold blanks
  simp only [String.toList_append, String.toList_ofList, List.replicate_succ', List.append_assoc]
  rfl

/-- **The legend is spliced in** beside the lines from number `i` on. -/
theorem addLegend_eq (n : Nat) (entries : List (String × String)) (before rest : List String) :
    addLegend (n + 1) before.length (before ++ rest.map (fun l => l ++ "\n")) entries
      = before ++ (sideBySide (blanks n) rest
          (entries.map (fun e => e.2 ++ ": " ++ e.1))).map (fun l => l ++ "\n") := by
  induction entries generalizing before rest with
  | nil => cases rest <;> rfl
  | cons e entries ih =>
    obtain ⟨wid, simpleId⟩ := e
    rw [addLegend, List.map_cons]
    cases rest with
    | nil =>
      -- below the last line
      have hnone : before[before.length]? = none := List.getElem?_eq_none (Nat.le_refl _)
      have hstep := ih (before ++ [blanks n ++ "   " ++ (simpleId ++ ": " ++ wid) ++ "\n"]) []
      rw [List.length_append, List.length_singleton, List.map_nil, List.append_nil] at hstep
      rw [List.map_nil, List.append_nil, hnone]
      simp only [blanks_succ, sideBySide, List.map_cons]
      simp only [String.append_assoc] at hstep ⊢
      rw [hstep, List.append_assoc]
      rfl
    | cons l rest =>
      have hsome : (before ++ (l ++ "\n") :: rest.map (fun l => l ++ "\n"))[before.length]?
          = some (l ++ "\n") := by
        rw [List.getElem?_append_right (Nat.le_refl _), Nat.sub_self]
        rfl
      have hstep := ih (before ++ [l ++ "   " ++ (simpleId ++ ": " ++ wid) ++ "\n"]) rest
      rw [List.length_append, List.length_singleton, List.append_assoc] at hstep
      rw [List.map_cons, hsome]
      simp only [dropLast_newline, sideBySide, List.map_cons]
      rw [List.set_append_right _ _ (Nat.le_refl _), Nat.sub_self, List.set_cons_zero]
      simp only [String.append_assoc, List.singleton_append] at hstep ⊢
      rw [hstep, List.append_assoc]
      rfl

/-! ## The picture of one CPU -/

/-- The sets of workloads on a CPU. -/
def Cpu.workloadSets (cpu : Cpu) : Finset (Finset WorkloadId) :=
  (cpu.getClaimedThreads.map Thread.workloads).toFinset

theorem mem_workloadSets {cpu : Cpu} {s : Finset WorkloadId} :
    s ∈ cpu.workloadSets ↔ ∃ t ∈ cpu.getThreads, t.isClaimed = true ∧ t.workloads = s := by
  unfold Cpu.workloadSets Cpu.getClaimedThreads TitusIsolate.getClaimedThreads
  simp only [List.mem_toFinset, List.mem_map, List.mem_filter, and_assoc]

theorem Thread.isClaimed_iff_workloads {t : Thread} :
    t.isClaimed = true ↔ t.workloads.Nonempty := by
  unfold Thread.workloads Finset.Nonempty
  simp only [isClaimed_iff, List.mem_toFinset]

section

variable {cpus : List Cpu} {cpu : Cpu}

/-- The sets of the legend, in the order of the footprints. -/
def legendSets (cpus : List Cpu) (cpu : Cpu) : List (Finset WorkloadId) :=
  (footprintSets cpus).filter (fun s => s ∈ cpu.workloadSets)

theorem mem_footprintSets_of_mem (hcpu : cpu ∈ cpus) {s : Finset WorkloadId}
    (h : s ∈ cpu.workloadSets) : s ∈ footprintSets cpus :=
  mem_footprintSets.mpr ⟨cpu, hcpu, mem_workloadSets.mp h⟩

theorem mem_legendSets (hcpu : cpu ∈ cpus) {s : Finset WorkloadId} :
    s ∈ legendSets cpus cpu ↔ s ∈ cpu.workloadSets := by
  unfold legendSets
  rw [List.mem_filter, decide_eq_true_eq]
  exact ⟨fun h => h.2, fun h => ⟨mem_footprintSets_of_mem hcpu h, h⟩⟩

theorem legendSets_nodup : (legendSets cpus cpu).Nodup :=
  (footprintSets_nodup cpus).filter _

/-- A footprint is in the legend when its text is that of a thread of the CPU. -/
theorem legend_eq :
    (getFootprints cpus).entries.filter (fun e => e.1 ∈ cpu.getThreads.map getWorkloadsStr)
      = (legendSets cpus cpu).map (fun s => (setText s, symbol cpus s)) := by
  rw [getFootprints_entries, List.filter_map]
  congr 1
  refine List.filter_congr ?_
  intro s hs
  refine decide_eq_decide.mpr ?_
  obtain ⟨_, _, u, _, hu, rfl⟩ := mem_footprintSets.mp hs
  rw [mem_workloadSets, List.mem_map]
  refine ⟨?_, ?_⟩
  · rintro ⟨t, ht, heq⟩
    rw [getWorkloadsStr_eq] at heq
    have hsame := setText_injective heq
    refine ⟨t, ht, ?_, hsame⟩
    rw [Thread.isClaimed_iff_workloads, hsame]
    exact Thread.isClaimed_iff_workloads.mp hu
  · rintro ⟨t, ht, _, heq⟩
    exact ⟨t, ht, by rw [getWorkloadsStr_eq, heq]⟩

theorem named_package (hcpu : cpu ∈ cpus) {p : Package} (hp : p ∈ cpu.getPackages) :
    Named (getFootprints cpus) (symbol cpus) p.getThreads := by
  intro t ht hcl
  rw [getWorkloadsStr_eq]
  have hthread : t ∈ cpu.getThreads := List.mem_flatMap.mpr ⟨p, hp, ht⟩
  exact getFootprints_get? (mem_footprintSets.mpr ⟨cpu, hcpu, t, hthread, hcl, rfl⟩)

/-- **With room for its threads** a CPU is drawn as a table. -/
theorem visualizeWith_ok (cpus : List Cpu) (hcpu : cpu ∈ cpus) {n : Nat}
    (hn : cpu.getThreads.length / cpu.getPackages.length = n)
    (hroom : Room (n / 2) cpu.getPackages) :
    ∃ gs, visualizeWith cpu (getFootprints cpus)
        = .ok (draw gs ((legendSets cpus cpu).map (legendEntry (symbol cpus))))
      ∧ List.Forall₂ (Drawn (symbol cpus) (n / 2)) cpu.getPackages gs := by
  obtain ⟨gs, hlines, hall⟩ :=
    packageLines_ok 0 (fun p hp => named_package hcpu hp) hroom (Nat.zero_add _)
  refine ⟨gs, ?_, hall⟩
  -- the first line is there, and by its end longer in the buffer
  have hwidth : (((lines gs).map (fun l => l ++ "\n")).headD "").length
      = ((lines gs).headD "").length + 1 := by
    have hne : gs ≠ [] := by
      rintro rfl
      exact cpu.nonempty (List.forall₂_nil_right_iff.mp hall)
    obtain ⟨g, gs', rfl⟩ := List.exists_cons_of_ne_nil hne
    exact String.length_append _ _
  have hlegend := addLegend_eq ((lines gs).headD "").length
    ((legendSets cpus cpu).map (fun s => (setText s, symbol cpus s))) [] (lines gs)
  simp only [List.nil_append, List.length_nil, List.map_map] at hlegend
  simp only [visualizeWith, hn, hlines, hwidth, legend_eq, hlegend]
  rfl

theorem visualizeWith_error (cpus : List Cpu) (hcpu : cpu ∈ cpus) {n : Nat}
    (hn : cpu.getThreads.length / cpu.getPackages.length = n)
    (hroom : ¬ Room (n / 2) cpu.getPackages) :
    visualizeWith cpu (getFootprints cpus)
      = .error (.indexError "list assignment index out of range") := by
  have herror := packageLines_error cpu.getPackages.length 0
    (fun p hp => named_package hcpu hp) hroom
  simp only [visualizeWith, hn, herror]

end

end TitusIsolate
