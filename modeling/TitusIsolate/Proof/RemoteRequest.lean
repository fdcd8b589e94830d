import TitusIsolate.Allocate.Remote
import TitusIsolate.Lib.Raising
import TitusIsolate.Proof.Shape

/-!
# What a request says

The two index tables are the two directions of one numbering, because the threads of a
machine have distinct ids. So a request lists under a number what the CPU lists on the
thread of that number. Whether a thread, a core or a package is left out of the request
plays no part: what is left out lists nothing.

A request can be built exactly when the numbers it writes down fit their fields.
-/

namespace TitusIsolate

open GrpcRemoteIsolationAllocator Raising

theorem uint32_eq_ok {n : Nat} {i : UInt32} : Pb.uint32 n = .ok i ↔ i.toNat = n := by
  unfold Pb.uint32
  split
  · rename_i h
    refine ⟨?_, ?_⟩
    · intro he
      rw [← Except.ok.inj he, UInt32.toNat_ofNatLT]
    · intro he
      subst he
      rw [UInt32.ofNatLT_toNat]
  · rename_i h
    refine ⟨fun he => absurd he (by simp), ?_⟩
    intro he
    exact absurd (he ▸ i.toNat_lt) h

/-- A number fits a field when it is below `2 ^ 32`. -/
theorem uint32_ok_iff {n : Nat} : (∃ i, Pb.uint32 n = .ok i) ↔ n < 2 ^ 32 := by
  refine ⟨?_, ?_⟩
  · intro h
    obtain ⟨i, hi⟩ := h
    rw [← uint32_eq_ok.mp hi]
    exact i.toNat_lt
  · intro h
    exact ⟨UInt32.ofNatLT n h, uint32_eq_ok.mpr (UInt32.toNat_ofNatLT ..)⟩

theorem lookup_eq_ok {table : OrderedDict Nat Nat} {i j : Nat} :
    lookup table i = .ok j ↔ table.get? i = some j := by
  unfold lookup
  cases h : table.get? i with
  | none => simp
  | some k => simp

/-! ## The numbering -/

theorem Cpu.entries_getNaturalIndexing2OriginalIndexing (cpu : Cpu) :
    cpu.getNaturalIndexing2OriginalIndexing.entries
      = cpu.getThreads.zipIdx.map (fun e => (e.2, e.1.id)) := by
  refine OrderedDict.entries_ofPairs ?_
  rw [List.map_map]
  show (cpu.getThreads.zipIdx.map Prod.snd).Nodup
  rw [List.zipIdx_map_snd]
  exact List.nodup_range'

/-- A position's thread. -/
theorem Cpu.getNaturalIndexing2OriginalIndexing_get? {cpu : Cpu} {i o : Nat} :
    cpu.getNaturalIndexing2OriginalIndexing.get? i = some o
      ↔ ∃ t, cpu.getThreads[i]? = some t ∧ t.id = o := by
  rw [OrderedDict.get?_eq_some_iff, Cpu.entries_getNaturalIndexing2OriginalIndexing]
  refine ⟨?_, ?_⟩
  · intro h
    obtain ⟨⟨t, j⟩, hmem, he⟩ := List.mem_map.mp h
    obtain ⟨rfl, rfl⟩ := Prod.mk.inj he
    exact ⟨t, List.mem_zipIdx_iff_getElem?.mp hmem, rfl⟩
  · intro h
    obtain ⟨t, ht, rfl⟩ := h
    exact List.mem_map.mpr ⟨(t, i), List.mem_zipIdx_iff_getElem?.mpr ht, rfl⟩

section

variable {a : GrpcRemoteIsolationAllocator}

theorem natural2original_get? {i o : Nat} :
    a.natural2originalIndexing.get? i = some o
      ↔ ∃ t, a.emptyCpu.getThreads[i]? = some t ∧ t.id = o :=
  Cpu.getNaturalIndexing2OriginalIndexing_get?

/-- **The tables are inverse**, where the threads have distinct ids. -/
theorem original2natural_get? (hids : (a.emptyCpu.getThreads.map Thread.id).Nodup) {i o : Nat} :
    a.original2naturalIndexing.get? o = some i ↔ a.natural2originalIndexing.get? i = some o := by
  -- turned around the entries are keyed by the ids
  have hkeys : ((a.natural2originalIndexing.entries.map Prod.swap).map Prod.fst).Nodup := by
    unfold natural2originalIndexing
    rw [Cpu.entries_getNaturalIndexing2OriginalIndexing, List.map_map, List.map_map]
    show (a.emptyCpu.getThreads.zipIdx.map (Thread.id ∘ Prod.fst)).Nodup
    rw [← List.map_map, List.zipIdx_map_fst]
    exact hids
  unfold original2naturalIndexing
  rw [OrderedDict.get?_ofPairs hkeys, OrderedDict.get?_eq_some_iff, List.mem_map]
  refine ⟨?_, ?_⟩
  · intro h
    obtain ⟨e, he, heq⟩ := h
    obtain ⟨rfl, rfl⟩ := Prod.mk.inj heq
    exact he
  · exact fun h => ⟨(i, o), h, rfl⟩

end

/-! ## What a request lists -/

/-- The request lists a workload at a number. -/
def Lists (req : Pb.IsolationRequest) (w : WorkloadId) (i : UInt32) : Prop :=
  ∃ p ∈ req.layout.packages, ∃ c ∈ p.cores, ∃ t ∈ c.threads, t.id = i ∧ w ∈ t.taskIds

section

variable {table : OrderedDict Nat Nat} {w : WorkloadId} {i : UInt32}

theorem buildThreads_lists {ts : List Thread} {threads : List Pb.Thread}
    (h : buildThreads table ts = .ok threads) :
    (∃ t ∈ threads, t.id = i ∧ w ∈ t.taskIds)
      ↔ ∃ t ∈ ts, w ∈ t.workloadIds ∧ table.get? t.id = some i.toNat := by
  induction ts generalizing threads with
  | nil =>
    cases h
    simp
  | cons t ts ih =>
    unfold buildThreads at h
    split at h
    · obtain ⟨natural, hnatural, h⟩ := bind_eq_ok.mp h
      obtain ⟨number, hnumber, h⟩ := bind_eq_ok.mp h
      obtain ⟨rest, hrest, h⟩ := bind_eq_ok.mp h
      cases h
      rw [lookup_eq_ok, ← uint32_eq_ok.mp hnumber] at hnatural
      have hhead : (number = i ∧ w ∈ t.workloadIds)
          ↔ (w ∈ t.workloadIds ∧ table.get? t.id = some i.toNat) := by
        rw [hnatural, Option.some.injEq, UInt32.toNat_inj, and_comm]
      simp only [List.mem_cons, exists_eq_or_imp, ih hrest, hhead]
    · -- an unclaimed thread lists nothing
      rename_i hunclaimed
      have hnil : t.workloadIds = [] := List.length_eq_zero_iff.mp (by omega)
      simp only [List.mem_cons, exists_eq_or_imp, ih h, hnil, List.not_mem_nil, false_and, false_or]

/-- A core is sent exactly when one of its threads is claimed. -/
theorem buildThreads_pos {ts : List Thread} {threads : List Pb.Thread}
    (h : buildThreads table ts = .ok threads) :
    threads.length > 0 ↔ ∃ t ∈ ts, t.isClaimed = true := by
  induction ts generalizing threads with
  | nil =>
    cases h
    simp
  | cons t ts ih =>
    unfold buildThreads at h
    split at h
    · rename_i hclaimed
      obtain ⟨natural, _, h⟩ := bind_eq_ok.mp h
      obtain ⟨number, _, h⟩ := bind_eq_ok.mp h
      obtain ⟨rest, _, h⟩ := bind_eq_ok.mp h
      cases h
      refine ⟨fun _ => ⟨t, by simp, decide_eq_true hclaimed⟩, fun _ => by simp⟩
    · rename_i hunclaimed
      have hno : t.isClaimed = false := decide_eq_false hunclaimed
      rw [ih h]
      simp [hno]

theorem buildCores_lists {cs : List Core} {cores : List Pb.Core}
    (h : buildCores table cs = .ok cores) :
    (∃ c ∈ cores, ∃ t ∈ c.threads, t.id = i ∧ w ∈ t.taskIds)
      ↔ ∃ c ∈ cs, ∃ t ∈ c.getThreads, w ∈ t.workloadIds ∧ table.get? t.id = some i.toNat := by
  induction cs generalizing cores with
  | nil =>
    cases h
    simp
  | cons c cs ih =>
    unfold buildCores at h
    obtain ⟨threads, hthreads, h⟩ := bind_eq_ok.mp h
    have hlists := buildThreads_lists (w := w) (i := i) hthreads
    split at h
    · obtain ⟨number, _, h⟩ := bind_eq_ok.mp h
      obtain ⟨rest, hrest, h⟩ := bind_eq_ok.mp h
      cases h
      simp only [List.mem_cons, exists_eq_or_imp, ih hrest, hlists]
    · -- a core that is left out has no claimed thread
      rename_i hempty
      have hnil : threads = [] := List.length_eq_zero_iff.mp (by omega)
      rw [hnil] at hlists
      have hnone : ¬ ∃ t ∈ c.getThreads, w ∈ t.workloadIds ∧ table.get? t.id = some i.toNat := by
        rw [← hlists]
        simp
      simp only [List.mem_cons, exists_eq_or_imp, ih h, hnone, false_or]

theorem buildPackages_lists {ps : List Package} {packages : List Pb.Package}
    (h : buildPackages table ps = .ok packages) :
    (∃ p ∈ packages, ∃ c ∈ p.cores, ∃ t ∈ c.threads, t.id = i ∧ w ∈ t.taskIds)
      ↔ ∃ p ∈ ps, ∃ c ∈ p.getCores, ∃ t ∈ c.getThreads,
          w ∈ t.workloadIds ∧ table.get? t.id = some i.toNat := by
  induction ps generalizing packages with
  | nil =>
    cases h
    simp
  | cons p ps ih =>
    unfold buildPackages at h
    obtain ⟨cores, hcores, h⟩ := bind_eq_ok.mp h
    obtain ⟨number, _, h⟩ := bind_eq_ok.mp h
    obtain ⟨numCores, _, h⟩ := bind_eq_ok.mp h
    obtain ⟨rest, hrest, h⟩ := bind_eq_ok.mp h
    cases h
    simp only [List.mem_cons, exists_eq_or_imp, ih hrest, buildCores_lists hcores]

/-- **A request lists what the CPU claims**, each thread under its number. -/
theorem buildBaseReq_lists {a : GrpcRemoteIsolationAllocator} {cpu : Cpu}
    {req : Pb.IsolationRequest} (h : a.buildBaseReq cpu = .ok req) :
    Lists req w i ↔ ∃ t ∈ cpu.getThreads, w ∈ t.workloadIds
      ∧ a.original2naturalIndexing.get? t.id = some i.toNat := by
  unfold buildBaseReq at h
  obtain ⟨packages, hpackages, h⟩ := bind_eq_ok.mp h
  obtain ⟨threads, _, h⟩ := bind_eq_ok.mp h
  cases h
  unfold Lists
  rw [buildPackages_lists hpackages]
  simp only [Cpu.getThreads, Package.getThreads, List.mem_flatMap]
  refine ⟨?_, ?_⟩
  · intro hx
    obtain ⟨p, hp, c, hc, t, ht, hw⟩ := hx
    exact ⟨t, ⟨p, hp, c, hc, ht⟩, hw⟩
  · intro hx
    obtain ⟨t, ⟨p, hp, c, hc, ht⟩, hw⟩ := hx
    exact ⟨p, hp, c, hc, t, ht, hw⟩

end

/-! ## When a request can be built -/

section

variable {table : OrderedDict Nat Nat}

/-- A claimed thread has a number that fits its field. -/
def Numbered (table : OrderedDict Nat Nat) (t : Thread) : Prop :=
  t.isClaimed = true → ∃ n, table.get? t.id = some n ∧ n < 2 ^ 32

theorem buildThreads_ok_iff {ts : List Thread} :
    (∃ threads, buildThreads table ts = .ok threads) ↔ ∀ t ∈ ts, Numbered table t := by
  induction ts with
  | nil => exact ⟨fun _ => by simp, fun _ => ⟨[], rfl⟩⟩
  | cons t ts ih =>
    rw [List.forall_mem_cons, ← ih, buildThreads]
    split
    · rename_i hclaimed
      have hclaimed' : t.isClaimed = true := decide_eq_true hclaimed
      refine ⟨?_, ?_⟩
      · intro h
        obtain ⟨threads, h⟩ := h
        obtain ⟨natural, hnatural, h⟩ := bind_eq_ok.mp h
        obtain ⟨number, hnumber, h⟩ := bind_eq_ok.mp h
        obtain ⟨rest, hrest, _⟩ := bind_eq_ok.mp h
        exact ⟨fun _ => ⟨natural, lookup_eq_ok.mp hnatural, uint32_ok_iff.mp ⟨number, hnumber⟩⟩,
          rest, hrest⟩
      · intro h
        obtain ⟨hnumbered, rest, hrest⟩ := h
        obtain ⟨n, hn, hlt⟩ := hnumbered hclaimed'
        obtain ⟨number, hnumber⟩ := uint32_ok_iff.mpr hlt
        exact ⟨_, bind_eq_ok.mpr ⟨n, lookup_eq_ok.mpr hn,
          bind_eq_ok.mpr ⟨number, hnumber, bind_eq_ok.mpr ⟨rest, hrest, rfl⟩⟩⟩⟩
    · rename_i hunclaimed
      have hnumbered : Numbered table t := fun hcl => absurd (of_decide_eq_true hcl) hunclaimed
      exact ⟨fun h => ⟨hnumbered, h⟩, fun h => h.2⟩

/-- The claimed threads of a core have numbers, and its own id fits if it has any. -/
def CoreFits (table : OrderedDict Nat Nat) (c : Core) : Prop :=
  (∀ t ∈ c.getThreads, Numbered table t)
    ∧ ((∃ t ∈ c.getThreads, t.isClaimed = true) → c.id < 2 ^ 32)

theorem buildCores_ok_iff {cs : List Core} :
    (∃ cores, buildCores table cs = .ok cores) ↔ ∀ c ∈ cs, CoreFits table c := by
  induction cs with
  | nil => exact ⟨fun _ => by simp, fun _ => ⟨[], rfl⟩⟩
  | cons c cs ih =>
    rw [List.forall_mem_cons, ← ih, buildCores]
    unfold CoreFits
    refine ⟨?_, ?_⟩
    · intro h
      obtain ⟨cores, h⟩ := h
      obtain ⟨threads, hthreads, h⟩ := bind_eq_ok.mp h
      have hnumbered := buildThreads_ok_iff.mp ⟨threads, hthreads⟩
      rw [← buildThreads_pos hthreads]
      split at h
      · obtain ⟨number, hnumber, h⟩ := bind_eq_ok.mp h
        obtain ⟨rest, hrest, _⟩ := bind_eq_ok.mp h
        exact ⟨⟨hnumbered, fun _ => uint32_ok_iff.mp ⟨number, hnumber⟩⟩, rest, hrest⟩
      · rename_i hempty
        exact ⟨⟨hnumbered, fun hpos => absurd hpos hempty⟩, cores, h⟩
    · intro h
      obtain ⟨⟨hnumbered, hid⟩, rest, hrest⟩ := h
      obtain ⟨threads, hthreads⟩ := buildThreads_ok_iff.mpr hnumbered
      rw [← buildThreads_pos hthreads] at hid
      by_cases hpos : threads.length > 0
      · obtain ⟨number, hnumber⟩ := uint32_ok_iff.mpr (hid hpos)
        refine ⟨{ id := number, threads := threads } :: rest,
          bind_eq_ok.mpr ⟨threads, hthreads, ?_⟩⟩
        rw [if_pos hpos]
        exact bind_eq_ok.mpr ⟨number, hnumber, bind_eq_ok.mpr ⟨rest, hrest, rfl⟩⟩
      · refine ⟨rest, bind_eq_ok.mpr ⟨threads, hthreads, ?_⟩⟩
        rw [if_neg hpos]
        exact hrest

/-- What a package has to write down fits. -/
structure PackageFits (table : OrderedDict Nat Nat) (p : Package) : Prop where
  id : p.id < 2 ^ 32
  numCores : p.getCores.length < 2 ^ 32
  cores : ∀ c ∈ p.getCores, CoreFits table c

theorem buildPackages_ok_iff {ps : List Package} :
    (∃ packages, buildPackages table ps = .ok packages) ↔ ∀ p ∈ ps, PackageFits table p := by
  induction ps with
  | nil => exact ⟨fun _ => by simp, fun _ => ⟨[], rfl⟩⟩
  | cons p ps ih =>
    rw [List.forall_mem_cons, ← ih, buildPackages]
    refine ⟨?_, ?_⟩
    · intro h
      obtain ⟨packages, h⟩ := h
      obtain ⟨cores, hcores, h⟩ := bind_eq_ok.mp h
      obtain ⟨number, hnumber, h⟩ := bind_eq_ok.mp h
      obtain ⟨numCores, hnumCores, h⟩ := bind_eq_ok.mp h
      obtain ⟨rest, hrest, _⟩ := bind_eq_ok.mp h
      exact ⟨⟨uint32_ok_iff.mp ⟨number, hnumber⟩, uint32_ok_iff.mp ⟨numCores, hnumCores⟩,
        buildCores_ok_iff.mp ⟨cores, hcores⟩⟩, rest, hrest⟩
    · intro h
      obtain ⟨hfits, rest, hrest⟩ := h
      obtain ⟨cores, hcores⟩ := buildCores_ok_iff.mpr hfits.cores
      obtain ⟨number, hnumber⟩ := uint32_ok_iff.mpr hfits.id
      obtain ⟨numCores, hnumCores⟩ := uint32_ok_iff.mpr hfits.numCores
      exact ⟨_, bind_eq_ok.mpr ⟨cores, hcores, bind_eq_ok.mpr ⟨number, hnumber,
        bind_eq_ok.mpr ⟨numCores, hnumCores, bind_eq_ok.mpr ⟨rest, hrest, rfl⟩⟩⟩⟩⟩

theorem buildBaseReq_ok_iff {a : GrpcRemoteIsolationAllocator} {cpu : Cpu} :
    (∃ req, a.buildBaseReq cpu = .ok req)
      ↔ (∀ p ∈ cpu.getPackages, PackageFits a.original2naturalIndexing p)
        ∧ threadsPerCore cpu < 2 ^ 32 := by
  rw [← buildPackages_ok_iff, ← uint32_ok_iff]
  unfold buildBaseReq
  refine ⟨?_, ?_⟩
  · intro h
    obtain ⟨req, h⟩ := h
    obtain ⟨packages, hpackages, h⟩ := bind_eq_ok.mp h
    obtain ⟨threads, hthreads, _⟩ := bind_eq_ok.mp h
    exact ⟨⟨packages, hpackages⟩, threads, hthreads⟩
  · intro h
    obtain ⟨⟨packages, hpackages⟩, threads, hthreads⟩ := h
    exact ⟨_, bind_eq_ok.mpr ⟨packages, hpackages, bind_eq_ok.mpr ⟨threads, hthreads, rfl⟩⟩⟩

end

/-! ## The machine -/

section

variable {P C T : Nat}

/-- What is constructed has the CPU of the machine it was counted on. -/
theorem getCpu_of_init {endpoint : Option String} {instanceCtx : Pb.InstanceContext}
    {sysCoreIds sysCoresUsage sysCoresHardIsolate : Option String}
    {a : GrpcRemoteIsolationAllocator}
    (h : init endpoint instanceCtx P C T sysCoreIds sysCoresUsage sysCoresHardIsolate = .ok a) :
    Config.getCpu P C T = .ok a.emptyCpu := by
  cases endpoint with
  | none => exact absurd h (by simp [init])
  | some e =>
    obtain ⟨cpu, hcpu, h⟩ := bind_eq_ok.mp h
    cases h
    exact hcpu

theorem threadsPerCore_of_gridShape {cpu : Cpu} (h : cpu.shape = gridShape P C T) :
    threadsPerCore cpu = T := by
  unfold threadsPerCore
  cases hlast : (cpu.getPackages.flatMap Package.getCores).getLast? with
  | none =>
    -- a CPU has a package and a package a core
    exfalso
    obtain ⟨p, hp⟩ := List.exists_mem_of_ne_nil _ cpu.nonempty
    obtain ⟨c, hc⟩ := List.exists_mem_of_ne_nil _ p.nonempty
    rw [List.getLast?_eq_none_iff] at hlast
    have hmem : c ∈ cpu.getPackages.flatMap Package.getCores :=
      List.mem_flatMap.mpr ⟨p, hp, hc⟩
    rw [hlast] at hmem
    exact absurd hmem (by simp)
  | some c =>
    obtain ⟨p, hp, hc⟩ := List.mem_flatMap.mp (List.mem_of_getLast? hlast)
    exact ((package_of_gridShape h hp).2.2 c hc).2

end

/-! ## Encoding the CPU of the machine -/

/-- Every number that a request of this CPU writes down fits its field. -/
structure Fits (P C T : Nat) (cpu : Cpu) : Prop where
  packages : P ≤ 2 ^ 32
  cores : C < 2 ^ 32
  threads : T < 2 ^ 32
  claimed : ∀ i t, cpu.getThreads[i]? = some t → t.isClaimed = true → i < 2 ^ 32

section

variable {P C T : Nat} {a : GrpcRemoteIsolationAllocator} {cpu : Cpu}

/-- **A thread's number is its position**, on the machine and on any CPU of its shape. -/
theorem number_eq_position (hids : (a.emptyCpu.getThreads.map Thread.id).Nodup)
    (hshape : cpu.shape = a.emptyCpu.shape) {i n : Nat} {t : Thread}
    (ht : cpu.getThreads[i]? = some t) :
    a.original2naturalIndexing.get? t.id = some n ↔ n = i := by
  have hsame := Cpu.ids_of_shape hshape
  -- both CPUs have this id at this position, and ids are distinct
  have hti : (a.emptyCpu.getThreads.map Thread.id)[i]? = some t.id := by
    rw [← hsame, List.getElem?_map, ht]
    rfl
  have htn : a.original2naturalIndexing.get? t.id = some n
      ↔ (a.emptyCpu.getThreads.map Thread.id)[n]? = some t.id := by
    rw [original2natural_get? hids, natural2original_get?, List.getElem?_map,
      Option.map_eq_some_iff]
  rw [htn]
  refine ⟨?_, ?_⟩
  · intro hn
    have hlt : n < (a.emptyCpu.getThreads.map Thread.id).length :=
      (List.getElem?_eq_some_iff.mp hn).1
    exact (List.getElem?_inj hlt hids).mp (hn.trans hti.symm)
  · intro hn
    rw [hn]
    exact hti

theorem numbered_iff (hids : (a.emptyCpu.getThreads.map Thread.id).Nodup)
    (hshape : cpu.shape = a.emptyCpu.shape) {i : Nat} {t : Thread}
    (ht : cpu.getThreads[i]? = some t) :
    Numbered a.original2naturalIndexing t ↔ (t.isClaimed = true → i < 2 ^ 32) := by
  unfold Numbered
  simp only [number_eq_position hids hshape ht, exists_eq_left]

theorem mem_getThreads_iff {t : Thread} :
    t ∈ cpu.getThreads ↔ ∃ p ∈ cpu.getPackages, ∃ c ∈ p.getCores, t ∈ c.getThreads := by
  unfold Cpu.getThreads
  simp only [Package.getThreads, List.mem_flatMap]

/-- **A request can be built exactly when its numbers fit.** -/
theorem buildBaseReq_ok_iff_fits (hP : 0 < P)
    (hids : (a.emptyCpu.getThreads.map Thread.id).Nodup)
    (hgrid : a.emptyCpu.shape = gridShape P C T) (hshape : cpu.shape = a.emptyCpu.shape) :
    (∃ req, a.buildBaseReq cpu = .ok req) ↔ Fits P C T cpu := by
  have hcpu : cpu.shape = gridShape P C T := hshape.trans hgrid
  rw [buildBaseReq_ok_iff, threadsPerCore_of_gridShape hcpu]
  refine ⟨?_, ?_⟩
  · intro h
    obtain ⟨hfits, hT⟩ := h
    -- the last package has the largest id
    obtain ⟨p, hp, hid⟩ := exists_package_of_gridShape hcpu (i := P - 1) (by omega)
    have hlen := (package_of_gridShape hcpu hp).2.1
    refine ⟨?_, ?_, hT, ?_⟩
    · have := (hfits p hp).id
      omega
    · rw [← hlen]
      exact (hfits p hp).numCores
    · intro i t ht
      obtain ⟨q, hq, c, hc, htc⟩ := mem_getThreads_iff.mp (List.mem_of_getElem? ht)
      exact (numbered_iff hids hshape ht).mp (((hfits q hq).cores c hc).1 t htc)
  · intro h
    refine ⟨?_, h.threads⟩
    intro p hp
    obtain ⟨hid, hlen, hcores⟩ := package_of_gridShape hcpu hp
    refine ⟨Nat.lt_of_lt_of_le hid h.packages, hlen ▸ h.cores, ?_⟩
    intro c hc
    refine ⟨?_, fun _ => Nat.lt_trans (hcores c hc).1 h.cores⟩
    intro t ht
    obtain ⟨i, hi⟩ := List.mem_iff_getElem?.mp (mem_getThreads_iff.mpr ⟨p, hp, c, hc, ht⟩)
    exact (numbered_iff hids hshape hi).mpr (h.claimed i t hi)

end

end TitusIsolate
