import TitusIsolate.Proof.RemoteRequest

/-!
# The two numberings of a machine's threads

A thread has an id, counted row by row over all cores, and a natural index, its place in
`get_threads()`. The first is computed and the second comes from laying the cores' lists end
to end. Both number the threads of the machine from `0` on without a gap, so the remote
allocator's tables translate each into the other.
-/

namespace TitusIsolate

/-- The threads of `P` packages of `C` cores of `T` threads have one number each, twice. -/
structure ThreadNumbering (P C T : Nat) (cpu : Cpu) : Prop where
  packages : cpu.getPackages.length = P
  cores : ∀ p ∈ cpu.getPackages, p.getCores.length = C
  threads : ∀ p ∈ cpu.getPackages, ∀ c ∈ p.getCores, c.getThreads.length = T
  /-- Each id once. -/
  ids : (cpu.getThreads.map Thread.id).Perm (List.range (P * C * T))
  /-- The id and the natural index of thread `k` of core `i` of package `q`. -/
  place : ∀ {q i k : Nat} {p : Package} {c : Core} {t : Thread},
    cpu.getPackages[q]? = some p → p.getCores[i]? = some c → c.getThreads[k]? = some t →
      t.id = k * P * C + q * C + i
        ∧ cpu.getThreads[(q * C + i) * T + k]? = some t
        ∧ cpu.getNaturalIndexing2OriginalIndexing.get? ((q * C + i) * T + k) = some t.id

/-- Two tables over the numbers below `n`, each the way back of the other. -/
structure UndoEachOther (n : Nat) (table inverse : OrderedDict Nat Nat) : Prop where
  keys : ∀ i, i ∈ table.keys ↔ i < n
  inverseKeys : ∀ o, o ∈ inverse.keys ↔ o < n
  there : ∀ i < n, ∃ o < n, table.get? i = some o ∧ inverse.get? o = some i
  back : ∀ o < n, ∃ i < n, inverse.get? o = some i ∧ table.get? i = some o

section

variable {P C T : Nat} {cpu : Cpu}

/-! ## Where a thread is -/

theorem map_range_getElem? {β : Type} {f : Nat → β} {n i : Nat} {y : β}
    (h : ((List.range n).map f)[i]? = some y) : i < n ∧ f i = y := by
  rw [List.getElem?_map, Option.map_eq_some_iff] at h
  obtain ⟨j, hj, rfl⟩ := h
  obtain ⟨hi, rfl⟩ := List.getElem?_eq_some_iff.mp hj
  rw [List.length_range] at hi
  rw [List.getElem_range]
  exact ⟨hi, rfl⟩

/-- The id that a thread has at its place. -/
theorem id_of_gridShape (h : cpu.shape = gridShape P C T) {q i k : Nat} {p : Package} {c : Core}
    {t : Thread} (hp : cpu.getPackages[q]? = some p) (hc : p.getCores[i]? = some c)
    (ht : c.getThreads[k]? = some t) :
    q < P ∧ i < C ∧ k < T ∧ t.id = Config.threadIndex P C q i k := by
  -- from the CPU down, each list is the image of a range
  have hpackage : (gridShape P C T)[q]? = some (p.view Thread.id) := by
    rw [← h]
    unfold Cpu.shape Cpu.view
    rw [List.getElem?_map, show cpu.packages[q]? = some p from hp]
    rfl
  obtain ⟨hq, hview⟩ := map_range_getElem? hpackage
  obtain ⟨_, hcores⟩ := Prod.mk.inj hview
  have hcore : (p.cores.map (Core.view Thread.id))[i]? = some (c.view Thread.id) := by
    rw [List.getElem?_map, show p.cores[i]? = some c from hc]
    rfl
  rw [← hcores] at hcore
  obtain ⟨hi, hview⟩ := map_range_getElem? hcore
  obtain ⟨_, hthreads⟩ := Prod.mk.inj hview
  have hthread : (c.threads.map Thread.id)[k]? = some t.id := by
    rw [List.getElem?_map, show c.threads[k]? = some t from ht]
    rfl
  rw [← hthreads] at hthread
  obtain ⟨hk, hid⟩ := map_range_getElem? hthread
  exact ⟨hq, hi, hk, hid.symm⟩

/-- The place of a thread in `get_threads()`. -/
theorem getElem?_getThreads_of_gridShape (h : cpu.shape = gridShape P C T) {q i k : Nat}
    {p : Package} {c : Core} {t : Thread} (hp : cpu.getPackages[q]? = some p)
    (hc : p.getCores[i]? = some c) (ht : c.getThreads[k]? = some t) :
    cpu.getThreads[(q * C + i) * T + k]? = some t := by
  obtain ⟨_, hi, hk, _⟩ := id_of_gridShape h hp hc ht
  have hplace : (q * C + i) * T + k = q * (C * T) + (i * T + k) := by
    rw [Nat.add_mul, Nat.mul_assoc, Nat.add_assoc]
  have hmem : p ∈ cpu.getPackages := List.mem_of_getElem? hp
  have hcore : p.getThreads[i * T + k]? = some t := by
    unfold Package.getThreads
    rw [RowMajor.getElem?_flatMap_const
      (fun d hd => ((package_of_gridShape h hmem).2.2 d hd).2) hk, hc]
    exact ht
  unfold Cpu.getThreads
  rw [hplace, RowMajor.getElem?_flatMap_const (fun r hr => threads_of_gridShape h hr)
    (RowMajor.place_lt hi hk), hp]
  exact hcore

theorem length_getPackages_of_gridShape (h : cpu.shape = gridShape P C T) :
    cpu.getPackages.length = P := by
  have := congrArg List.length h
  simpa [Cpu.shape, Cpu.view, Cpu.getPackages, gridShape] using this

theorem length_getThreads_of_gridShape (h : cpu.shape = gridShape P C T) :
    cpu.getThreads.length = P * C * T := by
  unfold Cpu.getThreads
  rw [RowMajor.length_flatMap_const (fun p hp => threads_of_gridShape h hp),
    length_getPackages_of_gridShape h, Nat.mul_assoc]

/-! ## No gap -/

theorem id_lt_of_gridShape (h : cpu.shape = gridShape P C T) {t : Thread}
    (ht : t ∈ cpu.getThreads) : t.id < P * C * T := by
  obtain ⟨p, hp, c, hc, ht⟩ := mem_getThreads_iff.mp ht
  obtain ⟨q, hq⟩ := List.mem_iff_getElem?.mp hp
  obtain ⟨i, hi⟩ := List.mem_iff_getElem?.mp hc
  obtain ⟨k, hk⟩ := List.mem_iff_getElem?.mp ht
  obtain ⟨hqP, hiC, hkT, hid⟩ := id_of_gridShape h hq hi hk
  have hrow : k * P + q < T * P := RowMajor.place_lt hkT hqP
  have hlt : (k * P + q) * C + i < T * P * C := RowMajor.place_lt hrow hiC
  have hsize : T * P * C = P * C * T := by rw [Nat.mul_assoc, Nat.mul_comm]
  rw [hid, ← hsize]
  unfold Config.threadIndex
  rw [← Nat.add_mul]
  exact hlt

/-- **The ids are all the numbers below the number of threads.** -/
theorem ids_perm_range (h : cpu.shape = gridShape P C T)
    (hids : (cpu.getThreads.map Thread.id).Nodup) :
    (cpu.getThreads.map Thread.id).Perm (List.range (P * C * T)) := by
  have hlength : (cpu.getThreads.map Thread.id).length = P * C * T := by
    rw [List.length_map, length_getThreads_of_gridShape h]
  rw [← hlength]
  refine RowMajor.perm_range hids ?_
  intro o ho
  obtain ⟨t, ht, rfl⟩ := List.mem_map.mp ho
  rw [hlength]
  exact id_lt_of_gridShape h ht

theorem threadNumbering_of_gridShape (h : cpu.shape = gridShape P C T)
    (hids : (cpu.getThreads.map Thread.id).Nodup) : ThreadNumbering P C T cpu where
  packages := length_getPackages_of_gridShape h
  cores := fun _ hp => (package_of_gridShape h hp).2.1
  threads := fun _ hp c hc => ((package_of_gridShape h hp).2.2 c hc).2
  ids := ids_perm_range h hids
  place := by
    intro q i k p c t hp hc ht
    have hplace := getElem?_getThreads_of_gridShape h hp hc ht
    exact ⟨(id_of_gridShape h hp hc ht).2.2.2, hplace,
      Cpu.getNaturalIndexing2OriginalIndexing_get?.mpr ⟨t, hplace, rfl⟩⟩

/-! ## The tables -/

/-- A table into the numbers below `n` that reaches them all, and the table that reads it
backwards. -/
theorem UndoEachOther.of_inverse {n : Nat} {table inverse : OrderedDict Nat Nat}
    (hinverse : ∀ {i o}, inverse.get? o = some i ↔ table.get? i = some o)
    (hlt : ∀ {i o}, table.get? i = some o → i < n ∧ o < n)
    (htotal : ∀ i < n, ∃ o, table.get? i = some o)
    (honto : ∀ o < n, ∃ i, table.get? i = some o) : UndoEachOther n table inverse where
  keys := by
    intro i
    rw [OrderedDict.mem_keys_iff]
    refine ⟨?_, htotal i⟩
    intro h
    obtain ⟨o, ho⟩ := h
    exact (hlt ho).1
  inverseKeys := by
    intro o
    simp only [OrderedDict.mem_keys_iff, hinverse]
    refine ⟨?_, honto o⟩
    intro h
    obtain ⟨i, hi⟩ := h
    exact (hlt hi).2
  there := by
    intro i hi
    obtain ⟨o, ho⟩ := htotal i hi
    exact ⟨o, (hlt ho).2, ho, hinverse.mpr ho⟩
  back := by
    intro o ho
    obtain ⟨i, hi⟩ := honto o ho
    exact ⟨i, (hlt hi).1, hinverse.mpr hi, hi⟩

/-- **The allocator's tables undo each other**, where the ids are the numbers below `n`. -/
theorem tables_undoEachOther {a : GrpcRemoteIsolationAllocator} {n : Nat}
    (hids : (a.emptyCpu.getThreads.map Thread.id).Perm (List.range n)) :
    UndoEachOther n a.natural2originalIndexing a.original2naturalIndexing := by
  have hnodup : (a.emptyCpu.getThreads.map Thread.id).Nodup :=
    hids.nodup_iff.mpr List.nodup_range
  have hlength : a.emptyCpu.getThreads.length = n := by
    simpa using hids.length_eq
  refine UndoEachOther.of_inverse (original2natural_get? hnodup) ?_ ?_ ?_
  · intro i o h
    obtain ⟨t, ht, rfl⟩ := natural2original_get?.mp h
    have hid : t.id ∈ a.emptyCpu.getThreads.map Thread.id :=
      List.mem_map_of_mem (List.mem_of_getElem? ht)
    have hi : i < a.emptyCpu.getThreads.length := (List.getElem?_eq_some_iff.mp ht).1
    exact ⟨by omega, List.mem_range.mp (hids.mem_iff.mp hid)⟩
  · intro i hi
    rw [← hlength] at hi
    exact ⟨_, natural2original_get?.mpr ⟨_, List.getElem?_eq_getElem hi, rfl⟩⟩
  · intro o ho
    -- every number below `n` is some thread's id
    obtain ⟨t, ht, rfl⟩ := List.mem_map.mp (hids.mem_iff.mpr (List.mem_range.mpr ho))
    obtain ⟨i, hi⟩ := List.mem_iff_getElem?.mp ht
    exact ⟨i, natural2original_get?.mpr ⟨t, hi, rfl⟩⟩

end

/--
**Every machine's threads are numbered without a gap**, by their ids and by their places,
and the tables between the two numberings undo each other.
-/
theorem thread_numbering {P C T : Nat} (hP : 0 < P) (hC : 0 < C) (hT : 0 < T) :
    ∃ cpu, Config.getCpu P C T = .ok cpu ∧ ThreadNumbering P C T cpu
      ∧ ∀ a : GrpcRemoteIsolationAllocator, a.emptyCpu = cpu →
          UndoEachOther (P * C * T) a.natural2originalIndexing a.original2naturalIndexing := by
  obtain ⟨cpu, hcpu, _⟩ := Config.getCpu_ok hP hC hT
  have hnumbering := threadNumbering_of_gridShape (shape_getCpu hP hC hT hcpu)
    (Config.getCpu_ids_nodup hP hC hT hcpu)
  refine ⟨cpu, hcpu, hnumbering, ?_⟩
  intro a ha
  subst ha
  exact tables_undoEachOther hnumbering.ids

/-- Two packages of three cores of two threads. -/
theorem thread_numbering_small :
    ∃ cpu, Config.getCpu 2 3 2 = .ok cpu ∧ ThreadNumbering 2 3 2 cpu
      ∧ ∀ a : GrpcRemoteIsolationAllocator, a.emptyCpu = cpu →
          UndoEachOther (2 * 3 * 2) a.natural2originalIndexing a.original2naturalIndexing :=
  thread_numbering (by omega) (by omega) (by omega)

end TitusIsolate
