import Mathlib.Algebra.Order.BigOperators.Group.List
import TitusIsolate.Proof.Drawing
import TitusIsolate.Proof.Shape

/-!
# What the picture shows

The log's picture of two CPUs of one machine has a table for each, in which every thread has
its cell. It does when the packages have an even number of threads. With an odd number the
rows, half as long rounded down, have no cell for the last thread of a package: the picture
raises if one such thread is claimed, and is drawn without the cells otherwise. That no other
reading of the drawn text has them is seen from its bars, which are fewer than the cells need.
-/

namespace TitusIsolate

open TextTable

/-- Each thread of a package is shown in the cell of its number. -/
def ShowsThreads (sym : Finset WorkloadId → String) (p : Package) (g : Rows String) : Prop :=
  ∀ j t, p.getThreads[j]? = some t → cell g j = some (shown sym t)

/-- A text is a table of a CPU: rows for each package, and a legend of the sets on the CPU. -/
def Pictures (sym : Finset WorkloadId → String) (cpu : Cpu) (text : String) : Prop :=
  ∃ (groups : List (Rows String)) (legend : List (Finset WorkloadId)),
    text = draw groups (legend.map (legendEntry sym))
    ∧ List.Forall₂ (ShowsThreads sym) cpu.getPackages groups
    ∧ legend.Nodup ∧ ∀ s, s ∈ legend ↔ s ∈ cpu.workloadSets

/-- A text shows two CPUs with the same symbols, distinct for distinct sets and not blank. -/
structure Faithful (oldCpu newCpu : Cpu) (sym : Finset WorkloadId → String) (text : String) :
    Prop where
  distinct : ∀ s s', s ∈ oldCpu.workloadSets ∪ newCpu.workloadSets →
    s' ∈ oldCpu.workloadSets ∪ newCpu.workloadSets → sym s = sym s' → s = s'
  notBlank : ∀ s ∈ oldCpu.workloadSets ∪ newCpu.workloadSets, sym s ≠ " "
  pictures : ∃ old new, text = "\n" ++ old ++ "\n" ++ new ∧ Pictures sym oldCpu old
    ∧ Pictures sym newCpu new

/-- The last thread of every package is unclaimed. -/
def LastsUnclaimed (cpu : Cpu) : Prop :=
  ∀ p ∈ cpu.getPackages, ∀ t, p.getThreads.getLast? = some t → t.isClaimed = false

/-! ## Symbols -/

theorem mem_symbol {cpus : List Cpu} {s : Finset WorkloadId} {c : Char}
    (h : c ∈ (symbol cpus s).toList) : c ≠ '|' ∧ c ≠ ' ' := by
  unfold symbol at h
  rw [getStrRepr_toList] at h
  rw [List.eq_of_mem_replicate h]
  have hletters : ∀ k < 26, letter k ≠ '|' ∧ letter k ≠ ' ' := by decide
  exact hletters _ (Nat.mod_lt _ (by omega))

theorem bars_symbol (cpus : List Cpu) (s : Finset WorkloadId) : bars (symbol cpus s) = 0 :=
  List.count_eq_zero.mpr (fun h => (mem_symbol h).1 rfl)

theorem symbol_ne_blank (cpus : List Cpu) (s : Finset WorkloadId) : symbol cpus s ≠ " " := by
  intro h
  have hmem : ' ' ∈ (symbol cpus s).toList := by
    rw [h]
    exact List.mem_singleton_self ' '
  exact (mem_symbol hmem).2 rfl

/-! ## Room -/

section

variable {P C T : Nat} {cpu : Cpu} {sym : Finset WorkloadId → String}

/-- **There is room** for an even number of threads, and when the last ones are unclaimed. -/
theorem room_iff (h : cpu.shape = gridShape P C T) :
    Room (C * T / 2) cpu.getPackages ↔ C * T % 2 = 0 ∨ LastsUnclaimed cpu := by
  refine ⟨?_, ?_⟩
  · intro hroom
    refine or_iff_not_imp_left.mpr ?_
    intro hodd p hp t ht
    have hlen := threads_of_gridShape h hp
    rw [List.getLast?_eq_getElem?, hlen] at ht
    by_contra hcl
    have hlt := hroom p hp _ t ht (by simpa using hcl)
    omega
  · rintro hor p hp i t ht hcl
    have hlen := threads_of_gridShape h hp
    obtain ⟨hi, _⟩ := List.getElem?_eq_some_iff.mp ht
    by_cases hlast : i = C * T - 1
    · -- the last thread is claimed, so the number is even
      rcases hor with heven | hlasts
      · omega
      · have hget : p.getThreads.getLast? = some t := by
          rw [List.getLast?_eq_getElem?, hlen, ← hlast, ht]
        rw [hlasts p hp t hget] at hcl
        exact absurd hcl (by simp)
    · omega

/-- Rows with a cell for each of an even number of threads show them. -/
theorem showsThreads_of_drawn {n : Nat} (hn : n % 2 = 0) {p : Package} {g : Rows String}
    (hlen : p.getThreads.length = n) (h : Drawn sym (n / 2) p g) : ShowsThreads sym p g := by
  intro j t ht
  obtain ⟨hj, _⟩ := List.getElem?_eq_some_iff.mp ht
  exact h.cells j t ht (by omega)

theorem pictures_of_drawn {cpus : List Cpu} (hcpu : cpu ∈ cpus)
    (h : cpu.shape = gridShape P C T) (heven : C * T % 2 = 0) {gs : List (Rows String)}
    (hall : List.Forall₂ (Drawn (symbol cpus) (C * T / 2)) cpu.getPackages gs) :
    Pictures (symbol cpus) cpu
      (draw gs ((legendSets cpus cpu).map (legendEntry (symbol cpus)))) := by
  refine ⟨gs, legendSets cpus cpu, rfl, ?_, legendSets_nodup, fun s => mem_legendSets hcpu⟩
  obtain ⟨hlen, hdrawn⟩ := List.forall₂_iff_zip.mp hall
  refine List.forall₂_iff_zip.mpr ⟨hlen, ?_⟩
  intro p g hpg
  exact showsThreads_of_drawn heven (threads_of_gridShape h (List.of_mem_zip hpg).1) (hdrawn hpg)

/-! ## Too few bars -/

/-- The cells that are drawn have no bars. -/
theorem bars_of_drawn {k : Nat} (hsym : ∀ s, bars (sym s) = 0) {p : Package} {g : Rows String}
    (hlen : 2 * k ≤ p.getThreads.length) (h : Drawn sym k p g) :
    ∀ c ∈ g.1 ++ g.2, bars c = 0 := by
  intro c hc
  obtain ⟨j, hj, hcell⟩ := exists_cell_of_mem h.wide hc
  -- the cell shows a thread
  have hlt : j < p.getThreads.length := by omega
  have hshown := h.cells j _ (List.getElem?_eq_getElem hlt) hj
  rw [Option.some.inj (hcell.symm.trans hshown)]
  unfold shown
  split_ifs
  · exact hsym _
  · rfl

/-- A reading with a cell for each of an odd number of threads needs more bars. -/
theorem groupBars_lt_of_shows {k : Nat} (hk : 0 < k) {sym' : Finset WorkloadId → String}
    (hsym : ∀ s, bars (sym s) = 0) {p : Package} (hlen : p.getThreads.length = 2 * k + 1)
    {g g' : Rows String} (hg : Drawn sym k p g) (hg' : ShowsThreads sym' p g') :
    groupBars g < groupBars g' := by
  have hcells : ∀ j < 2 * k + 1, cell g' j ≠ none := by
    intro j hj
    have hlt : j < p.getThreads.length := by omega
    rw [hg' j _ (List.getElem?_eq_getElem hlt)]
    exact Option.some_ne_none _
  obtain ⟨hupper, hlower⟩ := rows_of_cell hcells
  exact groupBars_lt hk hg.wide (bars_of_drawn hsym (by omega) hg) (by omega) (by omega)

theorem sum_groupBars_lt {k : Nat} (hk : 0 < k) {sym' : Finset WorkloadId → String}
    (hsym : ∀ s, bars (sym s) = 0) {ps : List Package} {gs gs' : List (Rows String)}
    (hlen : ∀ p ∈ ps, p.getThreads.length = 2 * k + 1)
    (hdrawn : List.Forall₂ (Drawn sym k) ps gs)
    (hshows : List.Forall₂ (ShowsThreads sym') ps gs') :
    (gs.map groupBars).sum + ps.length ≤ (gs'.map groupBars).sum := by
  induction hdrawn generalizing gs' with
  | nil =>
    cases hshows
    exact Nat.le_refl _
  | cons hg _ ih =>
    cases hshows with
    | cons hg' hrest =>
      have hhead := groupBars_lt_of_shows hk hsym (hlen _ (by simp)) hg hg'
      have htail := ih (fun p hp => hlen p (List.mem_cons_of_mem _ hp)) hrest
      simp only [List.map_cons, List.sum_cons, List.length_cons]
      omega

/-- Legends of the same sets, one with symbols without bars. -/
theorem sum_legend_le {sym' : Finset WorkloadId → String} (hsym : ∀ s, bars (sym s) = 0)
    {legend legend' : List (Finset WorkloadId)} (hperm : legend.Perm legend') :
    ((legend.map (legendEntry sym)).map bars).sum
      ≤ ((legend'.map (legendEntry sym')).map bars).sum := by
  rw [List.map_map, List.map_map, (hperm.map (bars ∘ legendEntry sym)).sum_nat]
  refine List.sum_le_sum ?_
  intro s _
  show bars (legendEntry sym s) ≤ bars (legendEntry sym' s)
  unfold legendEntry
  simp only [bars_append, hsym]
  omega

/-- **The drawing has too few bars** for a table with a cell for each of an odd number of
threads. -/
theorem bars_lt_of_pictures {k : Nat} (hk : 0 < k) {sym' : Finset WorkloadId → String}
    (hsym : ∀ s, bars (sym s) = 0) (hlen : ∀ p ∈ cpu.getPackages, p.getThreads.length = 2 * k + 1)
    {gs : List (Rows String)} (hdrawn : List.Forall₂ (Drawn sym k) cpu.getPackages gs)
    {legend : List (Finset WorkloadId)} (hnodup : legend.Nodup)
    (hlegend : ∀ s, s ∈ legend ↔ s ∈ cpu.workloadSets) {text : String}
    (hpictures : Pictures sym' cpu text) :
    bars (draw gs (legend.map (legendEntry sym))) < bars text := by
  obtain ⟨gs', legend', rfl, hshows, hnodup', hlegend'⟩ := hpictures
  have hgroups := sum_groupBars_lt hk hsym hlen hdrawn hshows
  have hperm : legend.Perm legend' :=
    (List.perm_ext_iff_of_nodup hnodup hnodup').mpr (fun s => (hlegend s).trans (hlegend' s).symm)
  have hentries : ((legend.map (legendEntry sym)).map bars).sum
      ≤ ((legend'.map (legendEntry sym')).map bars).sum := sum_legend_le hsym hperm
  have hlength : gs.length = gs'.length := hdrawn.length_eq.symm.trans hshows.length_eq
  have hpos : 0 < cpu.getPackages.length := List.length_pos_of_ne_nil cpu.nonempty
  rw [bars_draw, bars_draw, hlength]
  omega

/-- With one thread on each package, none claimed, the first line has no cell, and a table
that shows the threads has a blank one. -/
theorem first_lines_differ {sym' : Finset WorkloadId → String}
    (hlen : ∀ p ∈ cpu.getPackages, p.getThreads.length = 1) (hroom : Room 0 cpu.getPackages)
    {gs : List (Rows String)} (hdrawn : List.Forall₂ (Drawn sym 0) cpu.getPackages gs)
    (entries : List String) {text : String} (hpictures : Pictures sym' cpu text) :
    (∃ rest, draw gs entries = "|  |" ++ rest) ∧ ∃ rest, text = "|   " ++ rest := by
  obtain ⟨gs', legend', rfl, hshows, _, _⟩ := hpictures
  obtain ⟨p, ps, hps⟩ := List.exists_cons_of_ne_nil cpu.nonempty
  have hpackages : cpu.getPackages = p :: ps := hps
  rw [hpackages] at hlen hroom hdrawn hshows
  obtain ⟨g, gs, hg, _, rfl⟩ := List.forall₂_cons_left_iff.mp hdrawn
  obtain ⟨g', gs', hg', _, rfl⟩ := List.forall₂_cons_left_iff.mp hshows
  refine ⟨?_, ?_⟩
  · obtain ⟨rest, hrest⟩ := exists_draw_eq g gs entries
    rw [List.length_eq_zero_iff.mp hg.wide.1] at hrest
    exact ⟨rest, hrest⟩
  · -- the only thread of the package is unclaimed
    obtain ⟨t, ht⟩ := List.length_eq_one_iff.mp (hlen p (by simp))
    have hget : p.getThreads[0]? = some t := by rw [ht]; rfl
    have hunclaimed : t.isClaimed ≠ true := by
      intro hcl
      have hlt := hroom p (by simp) 0 t hget hcl
      omega
    have hcell : g'.1[0]? = some (shown sym' t) := hg' 0 t hget
    unfold shown at hcell
    rw [if_neg hunclaimed] at hcell
    obtain ⟨rest, hrest⟩ := exists_draw_eq g' gs' (legend'.map (legendEntry sym'))
    cases hrow : g'.1 with
    | nil =>
      rw [hrow] at hcell
      exact absurd hcell (by simp)
    | cons c cells =>
      rw [hrow] at hcell hrest
      obtain rfl := Option.some.inj hcell
      obtain ⟨start, hstart⟩ := exists_barred_blank_eq cells
      rw [hstart, String.append_assoc] at hrest
      exact ⟨_, hrest⟩

end

/-! ## Two CPUs -/

section

variable {P C T : Nat} {oldCpu newCpu : Cpu}

/-- **With room on both CPUs** both are drawn. -/
theorem visualizeCpuComparison_ok (hold : oldCpu.shape = gridShape P C T)
    (hnew : newCpu.shape = gridShape P C T) (hroomOld : Room (C * T / 2) oldCpu.getPackages)
    (hroomNew : Room (C * T / 2) newCpu.getPackages) :
    ∃ gs gs', visualizeCpuComparison oldCpu newCpu = .ok ("\n"
          ++ draw gs ((legendSets [oldCpu, newCpu] oldCpu).map
              (legendEntry (symbol [oldCpu, newCpu]))) ++ "\n"
          ++ draw gs' ((legendSets [oldCpu, newCpu] newCpu).map
              (legendEntry (symbol [oldCpu, newCpu]))))
      ∧ List.Forall₂ (Drawn (symbol [oldCpu, newCpu]) (C * T / 2)) oldCpu.getPackages gs
      ∧ List.Forall₂ (Drawn (symbol [oldCpu, newCpu]) (C * T / 2)) newCpu.getPackages gs' := by
  obtain ⟨gs, hgs, hdrawn⟩ :=
    visualizeWith_ok [oldCpu, newCpu] (by simp) (average_of_gridShape hold) hroomOld
  obtain ⟨gs', hgs', hdrawn'⟩ :=
    visualizeWith_ok [oldCpu, newCpu] (by simp) (average_of_gridShape hnew) hroomNew
  refine ⟨gs, gs', ?_, hdrawn, hdrawn'⟩
  simp only [visualizeCpuComparison, hgs, hgs']

theorem visualizeCpuComparison_error (hold : oldCpu.shape = gridShape P C T)
    (hnew : newCpu.shape = gridShape P C T)
    (hroom : ¬ (Room (C * T / 2) oldCpu.getPackages ∧ Room (C * T / 2) newCpu.getPackages)) :
    visualizeCpuComparison oldCpu newCpu
      = .error (.indexError "list assignment index out of range") := by
  by_cases hroomOld : Room (C * T / 2) oldCpu.getPackages
  · obtain ⟨gs, hgs, _⟩ :=
      visualizeWith_ok [oldCpu, newCpu] (by simp) (average_of_gridShape hold) hroomOld
    have herror := visualizeWith_error [oldCpu, newCpu] (by simp)
      (average_of_gridShape hnew) (fun h => hroom ⟨hroomOld, h⟩)
    simp only [visualizeCpuComparison, hgs, herror]
  · have herror := visualizeWith_error [oldCpu, newCpu] (by simp)
      (average_of_gridShape hold) hroomOld
    simp only [visualizeCpuComparison, herror]

/-- **With an even number of threads on a package** the picture shows both CPUs. -/
theorem faithful_of_even (hold : oldCpu.shape = gridShape P C T)
    (hnew : newCpu.shape = gridShape P C T) (heven : C * T % 2 = 0) :
    ∃ text, visualizeCpuComparison oldCpu newCpu = .ok text
      ∧ Faithful oldCpu newCpu (symbol [oldCpu, newCpu]) text := by
  obtain ⟨gs, gs', hok, hdrawn, hdrawn'⟩ := visualizeCpuComparison_ok hold hnew
    ((room_iff hold).mpr (Or.inl heven)) ((room_iff hnew).mpr (Or.inl heven))
  have hmem : ∀ s ∈ oldCpu.workloadSets ∪ newCpu.workloadSets,
      s ∈ footprintSets [oldCpu, newCpu] := by
    intro s hs
    rcases Finset.mem_union.mp hs with hs | hs
    · exact mem_footprintSets_of_mem (by simp) hs
    · exact mem_footprintSets_of_mem (by simp) hs
  refine ⟨_, hok, ?_, fun s _ => symbol_ne_blank _ s, _, _, rfl, ?_, ?_⟩
  · intro s s' hs _ hsame
    exact symbol_injOn _ (hmem s hs) hsame
  · exact pictures_of_drawn (by simp) hold heven hdrawn
  · exact pictures_of_drawn (by simp) hnew heven hdrawn'

/-- **With an odd number** no symbols make what is drawn a picture of the CPUs. -/
theorem not_faithful_of_odd (hold : oldCpu.shape = gridShape P C T)
    (hnew : newCpu.shape = gridShape P C T) (hodd : C * T % 2 ≠ 0)
    {sym : Finset WorkloadId → String} {text : String}
    (hok : visualizeCpuComparison oldCpu newCpu = .ok text) :
    ¬ Faithful oldCpu newCpu sym text := by
  intro hfaithful
  have hroom : Room (C * T / 2) oldCpu.getPackages ∧ Room (C * T / 2) newCpu.getPackages := by
    by_contra hroom
    rw [visualizeCpuComparison_error hold hnew hroom] at hok
    exact absurd hok (by simp)
  obtain ⟨gs, gs', hdrawing, hdrawn, hdrawn'⟩ :=
    visualizeCpuComparison_ok hold hnew hroom.1 hroom.2
  obtain ⟨old, new, htext, hpictures, hpictures'⟩ := hfaithful.pictures
  have hsame := (Except.ok.inj (hdrawing.symm.trans hok)).trans htext
  by_cases hone : C * T / 2 = 0
  · -- no cell where a blank one is needed
    have hlen : ∀ p ∈ oldCpu.getPackages, p.getThreads.length = 1 := by
      intro p hp
      rw [threads_of_gridShape hold hp]
      omega
    rw [hone] at hroom hdrawn
    obtain ⟨⟨rest, hrest⟩, rest', hrest'⟩ :=
      first_lines_differ hlen hroom.1 hdrawn _ hpictures
    have hstart : "|  |".toList = ['|', ' ', ' ', '|'] := rfl
    have hstart' : "|   ".toList = ['|', ' ', ' ', ' '] := rfl
    have hlist := congrArg String.toList hsame
    rw [hrest, hrest'] at hlist
    simp [hstart, hstart'] at hlist
  · -- too few bars
    have hpos : 0 < C * T / 2 := by omega
    have hmem : oldCpu ∈ [oldCpu, newCpu] := by simp
    have hmem' : newCpu ∈ [oldCpu, newCpu] := by simp
    have hlt := bars_lt_of_pictures hpos (bars_symbol _)
      (fun p hp => (threads_of_gridShape hold hp).trans (by omega)) hdrawn legendSets_nodup
      (fun s => mem_legendSets hmem) hpictures
    have hlt' := bars_lt_of_pictures hpos (bars_symbol _)
      (fun p hp => (threads_of_gridShape hnew hp).trans (by omega)) hdrawn' legendSets_nodup
      (fun s => mem_legendSets hmem') hpictures'
    have hbars := congrArg bars hsame
    simp only [bars_append] at hbars
    omega

/-- **When the picture of two CPUs shows them**: with an even number of threads on a package,
whatever is claimed. It is drawn at all in these cases, and when no last thread of a package
is claimed. -/
theorem visualizeCpuComparison_faithful_iff (hP : 0 < P) (hC : 0 < C) (hT : 0 < T) {base : Cpu}
    (hbase : Config.getCpu P C T = .ok base) (hold : oldCpu.shape = base.shape)
    (hnew : newCpu.shape = base.shape) :
    ((∃ sym text, visualizeCpuComparison oldCpu newCpu = .ok text
        ∧ Faithful oldCpu newCpu sym text) ↔ C * T % 2 = 0)
    ∧ ((∃ text, visualizeCpuComparison oldCpu newCpu = .ok text)
        ↔ C * T % 2 = 0 ∨ LastsUnclaimed oldCpu ∧ LastsUnclaimed newCpu) := by
  have hgrid := shape_getCpu hP hC hT hbase
  have hold' := hold.trans hgrid
  have hnew' := hnew.trans hgrid
  refine ⟨⟨?_, ?_⟩, ?_⟩
  · rintro ⟨sym, text, hok, hfaithful⟩
    by_contra hodd
    exact not_faithful_of_odd hold' hnew' hodd hok hfaithful
  · intro heven
    obtain ⟨text, hok, hfaithful⟩ := faithful_of_even hold' hnew' heven
    exact ⟨_, text, hok, hfaithful⟩
  · rw [or_and_left, ← room_iff hold', ← room_iff hnew']
    refine ⟨?_, ?_⟩
    · rintro ⟨text, hok⟩
      by_contra hroom
      rw [visualizeCpuComparison_error hold' hnew' hroom] at hok
      exact absurd hok (by simp)
    · rintro ⟨hroomOld, hroomNew⟩
      obtain ⟨gs, gs', hok, _⟩ := visualizeCpuComparison_ok hold' hnew' hroomOld hroomNew
      exact ⟨_, hok⟩

theorem visualizeCpuComparison_faithful_iff_two :
    ∃ sym text, visualizeCpuComparison Config.twoThreads
        (Config.twoThreads.mapThreadsIdx (fun _ t => t.claim "a")) = .ok text
      ∧ Faithful Config.twoThreads
          (Config.twoThreads.mapThreadsIdx (fun _ t => t.claim "a")) sym text :=
  (visualizeCpuComparison_faithful_iff Nat.one_pos Nat.one_pos Nat.two_pos (by decide) rfl
    (by decide)).1.mpr rfl

/-- One package with one core of one thread, claimed by workload `a`. -/
def oneClaimed : Cpu :=
  ⟨[⟨0, [⟨0, [(Thread.ofId 0).claim "a"], by decide⟩], by decide⟩], by decide⟩

/-- The claimed thread has no cell in rows of half a column, rounded down. -/
theorem visualizeCpuComparison_raises :
    Config.getCpu 1 1 1 = .ok oneClaimed.clear
    ∧ visualizeCpuComparison oneClaimed.clear oneClaimed
        = .error (.indexError "list assignment index out of range")
    ∧ ¬ ∃ sym text, visualizeCpuComparison oneClaimed.clear oneClaimed = .ok text
        ∧ Faithful oneClaimed.clear oneClaimed sym text := by
  have herror : visualizeCpuComparison oneClaimed.clear oneClaimed
      = .error (.indexError "list assignment index out of range") := by decide
  refine ⟨by decide, herror, ?_⟩
  rintro ⟨sym, text, hok, _⟩
  rw [herror] at hok
  exact absurd hok (by simp)

end

end TitusIsolate
