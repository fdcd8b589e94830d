import TitusIsolate.Proof.RemoteCodec

/-!
# What a placement writes is what it claims

The allocations and the claims on the new CPU are made by two passes over the same
response. The first reads a cpuset's numbers in the table, the second collects, for each
thread id read, the workloads that read it. So a thread is in a workload's allocation
exactly when the workload is among the thread's claims, whatever the cpusets overlap.
-/

namespace TitusIsolate

open GrpcRemoteIsolationAllocator Raising

section

variable {table : OrderedDict Nat Nat}

/-- What an allocation takes over from its cpuset. -/
structure Carries (table : OrderedDict Nat Nat) (war : WorkloadAllocateResponse)
    (wid : WorkloadId) (cpuset : Pb.Cpuset) : Prop where
  workloadId : war.workloadId = wid
  cpuQuota : war.cpuQuota = cpuset.cfsTunables.quotaUs.toInt
  cpuShares : war.cpuShares = cpuset.cfsTunables.shares.toNat
  memoryMigrate : war.memoryMigrate = cpuset.cpusetTunables.memoryMigrate
  memorySpreadPage : war.memorySpreadPage = cpuset.cpusetTunables.memorySpreadPage
  memorySpreadSlab : war.memorySpreadSlab = cpuset.cpusetTunables.memorySpreadSlab
  threadIds : ∀ o, o ∈ war.threadIds ↔ Names table cpuset o

/-- Every number of every cpuset is one of the table's. -/
def Known (table : OrderedDict Nat Nat) (entries : List (WorkloadId × Pb.Cpuset)) : Prop :=
  ∀ e ∈ entries, ∀ tid ∈ e.2.threadIds, ∃ o, table.get? tid.toNat = some o

/-- A loop over the cpusets that went through read only numbers of the table, and made one
allocation out of each cpuset. -/
theorem deserCpusets_carries :
    ∀ {entries : List (WorkloadId × Pb.Cpuset)} {before after : OrderedDict Nat (List WorkloadId)}
      {waResponses : List WorkloadAllocateResponse},
      deserCpusets table entries before = .ok (waResponses, after) →
      Known table entries
        ∧ List.Forall₂ (fun war e => Carries table war e.1 e.2) waResponses entries
  | [], _, _, _, h => by
      cases h
      exact ⟨fun e he => absurd he List.not_mem_nil, .nil⟩
  | (wid, cpuset) :: rest, before, after, waResponses, h => by
      rw [deserCpusets] at h
      obtain ⟨ids, hids, h⟩ := bind_eq_ok.mp h
      obtain ⟨⟨wars, d⟩, hrest, h⟩ := bind_eq_ok.mp h
      obtain ⟨rfl, rfl⟩ := Prod.mk.inj (Except.ok.inj h)
      obtain ⟨hknown, hcarries⟩ := deserCpusets_carries hrest
      have hlookup := ok_of_mapM_ok hids
      -- the list of ids the loop made is the one its spec speaks of
      obtain ⟨ids', hids', hmem⟩ := mapM_eq_ok hlookup
      obtain rfl : ids = ids' := Except.ok.inj (hids.symm.trans hids')
      simp only [lookup_eq_ok] at hmem hlookup
      refine ⟨?_, .cons ⟨rfl, rfl, rfl, rfl, rfl, rfl, hmem⟩ hcarries⟩
      intro e he
      rcases List.mem_cons.mp he with rfl | he
      · exact hlookup
      · exact hknown e he

/-- The loop raises when a number is not one of the table's, and only then. -/
theorem deserCpusets_error_iff {entries : List (WorkloadId × Pb.Cpuset)}
    {before : OrderedDict Nat (List WorkloadId)} :
    (∃ e, deserCpusets table entries before = .error e) ↔ ¬ Known table entries := by
  refine ⟨?_, ?_⟩
  · intro h hknown
    obtain ⟨e, he⟩ := h
    obtain ⟨_, _, hok, _⟩ := deserCpusets_ok entries before hknown
    rw [he] at hok
    cases hok
  · intro hunknown
    cases h : deserCpusets table entries before with
    | error e => exact ⟨e, rfl⟩
    | ok result => exact absurd (deserCpusets_carries h).1 hunknown

/-- Of the allocations made out of cpusets under distinct ids, one has a given id. -/
theorem filter_carries {wars : List WorkloadAllocateResponse}
    {entries : List (WorkloadId × Pb.Cpuset)} (hnodup : (entries.map Prod.fst).Nodup)
    (h : List.Forall₂ (fun war e => Carries table war e.1 e.2) wars entries)
    {wid : WorkloadId} {cpuset : Pb.Cpuset} (hin : (wid, cpuset) ∈ entries) :
    ∃ war, wars.filter (fun war => war.workloadId = wid) = [war]
      ∧ Carries table war wid cpuset := by
  induction h with
  | nil => exact absurd hin List.not_mem_nil
  | @cons war e wars entries hwar hrest ih =>
    obtain ⟨hnew, hnodup⟩ := List.nodup_cons.mp hnodup
    rcases List.mem_cons.mp hin with rfl | hin
    · refine ⟨war, ?_, hwar⟩
      -- no later allocation has this id: its cpuset's key would be the first one's again
      have hnone : wars.filter (fun war => war.workloadId = wid) = [] := by
        rw [List.filter_eq_nil_iff]
        intro war' hwar' hid
        obtain ⟨i, hi, rfl⟩ := List.mem_iff_getElem.mp hwar'
        have hlt : i < entries.length := hrest.length_eq ▸ hi
        have hcarries := hrest.get hi hlt
        refine hnew (List.mem_map.mpr ⟨entries[i], List.getElem_mem hlt, ?_⟩)
        exact hcarries.workloadId.symm.trans (of_decide_eq_true hid)
      have hhead : war.workloadId = wid := hwar.workloadId
      rw [List.filter_cons, if_pos (decide_eq_true hhead), hnone]
    · have hne : ¬ war.workloadId = wid := by
        intro heq
        exact hnew (List.mem_map.mpr ⟨_, hin, heq.symm.trans hwar.workloadId⟩)
      rw [List.filter_cons_of_neg (by simpa using hne)]
      exact ih hnodup hin

end

/-! ## The placement -/

/-- What is written for a workload is what it claims on the CPU that is kept, and the CPU
has no claim but those of the response. -/
structure WrittenAsClaimed (response : Pb.IsolationResponse) (decoded : AllocateResponse) : Prop where
  allocations : ∀ wid cpuset, response.cpusets.get? wid = some cpuset →
    ∃ war, decoded.workloadAllocations.filter (fun war => war.workloadId = wid) = [war]
      ∧ war.cpuQuota = cpuset.cfsTunables.quotaUs.toInt
      ∧ war.cpuShares = cpuset.cfsTunables.shares.toNat
      ∧ war.memoryMigrate = cpuset.cpusetTunables.memoryMigrate
      ∧ war.memorySpreadPage = cpuset.cpusetTunables.memorySpreadPage
      ∧ war.memorySpreadSlab = cpuset.cpusetTunables.memorySpreadSlab
      ∧ ∀ i, i ∈ war.threadIds ↔ i ∈ Update.getThreads decoded.cpu wid
  claimants : ∀ w, Claimed decoded.cpu w → w ∈ response.cpusets.keys

section

variable {Rng : Type} {a : GrpcRemoteIsolationAllocator} {response : Pb.IsolationResponse}
  {ambient : Ambient Rng} {decoded : AllocateResponse}

/-- A number is in the table when the machine has a thread at that position. -/
theorem known_iff : Known a.natural2originalIndexing response.cpusets.entries
    ↔ ∀ wid cpuset, response.cpusets.get? wid = some cpuset → ∀ tid ∈ cpuset.threadIds,
        tid.toNat < a.emptyCpu.getThreads.length := by
  have htable : ∀ tid : UInt32, (∃ o, a.natural2originalIndexing.get? tid.toNat = some o)
      ↔ tid.toNat < a.emptyCpu.getThreads.length := by
    intro tid
    simp only [natural2original_get?]
    refine ⟨?_, ?_⟩
    · intro h
      obtain ⟨_, t, ht, _⟩ := h
      exact (List.getElem?_eq_some_iff.mp ht).1
    · intro h
      exact ⟨_, _, List.getElem?_eq_getElem h, rfl⟩
  unfold Known
  simp only [htable]
  refine ⟨?_, ?_⟩
  · intro h wid cpuset hget
    exact h (wid, cpuset) (OrderedDict.get?_eq_some_iff.mp hget)
  · intro h e he
    exact h e.1 e.2 (OrderedDict.get?_eq_some_iff.mpr he)

theorem deser_error_iff : (∃ e, a.deser ambient response = .error e)
    ↔ ∃ wid cpuset, response.cpusets.get? wid = some cpuset
        ∧ ∃ tid ∈ cpuset.threadIds, a.emptyCpu.getThreads.length ≤ tid.toNat := by
  have hloop : (∃ e, a.deser ambient response = .error e)
      ↔ ∃ e, deserCpusets a.natural2originalIndexing response.cpusets.entries OrderedDict.empty
          = .error e := by
    unfold deser
    cases deserCpusets a.natural2originalIndexing response.cpusets.entries OrderedDict.empty with
    | error e => exact ⟨fun _ => ⟨e, rfl⟩, fun _ => ⟨e, rfl⟩⟩
    | ok result =>
      refine ⟨?_, ?_⟩
      · intro h
        obtain ⟨e, he⟩ := h
        cases he
      · intro h
        obtain ⟨e, he⟩ := h
        cases he
  rw [hloop, deserCpusets_error_iff, known_iff]
  simp only [not_forall, not_lt, exists_prop]

section

variable {id2workloads : OrderedDict Nat (List WorkloadId)}

/-- A thread of the new CPU lists the workloads whose cpusets name it. -/
theorem mem_claimed_thread (hempty : ∀ t ∈ a.emptyCpu.getThreads, t.workloadIds = [])
    (hclaims : ∀ w o, w ∈ (id2workloads.get? o).getD []
      ↔ ∃ cpuset, (w, cpuset) ∈ response.cpusets.entries
          ∧ Names a.natural2originalIndexing cpuset o)
    {t : Thread} (ht : t ∈ a.emptyCpu.getThreads) {w : WorkloadId} :
    w ∈ (claimWorkloads id2workloads t).workloadIds
      ↔ ∃ cpuset, (w, cpuset) ∈ response.cpusets.entries
          ∧ Names a.natural2originalIndexing cpuset t.id := by
  rw [mem_claimWorkloads, hclaims, hempty t ht]
  simp

/-- The threads of a workload on the new CPU are those that its cpuset names. -/
theorem mem_getThreads_claimed (hempty : ∀ t ∈ a.emptyCpu.getThreads, t.workloadIds = [])
    (hclaims : ∀ w o, w ∈ (id2workloads.get? o).getD []
      ↔ ∃ cpuset, (w, cpuset) ∈ response.cpusets.entries
          ∧ Names a.natural2originalIndexing cpuset o)
    {wid : WorkloadId} {cpuset : Pb.Cpuset} (hin : (wid, cpuset) ∈ response.cpusets.entries)
    {i : Nat} :
    i ∈ Update.getThreads (a.emptyCpu.mapThreadsIdx (fun _ t => claimWorkloads id2workloads t)) wid
      ↔ Names a.natural2originalIndexing cpuset i := by
  unfold Update.getThreads
  rw [Cpu.getThreads_mapThreadsIdx_const]
  simp only [List.mem_map, List.mem_filter, decide_eq_true_eq]
  refine ⟨?_, ?_⟩
  · rintro ⟨_, ⟨⟨t, ht, rfl⟩, hlisted⟩, rfl⟩
    obtain ⟨cpuset', hin', hnames⟩ := (mem_claimed_thread hempty hclaims ht).mp hlisted
    obtain rfl := response.cpusets.entry_unique hin hin'
    rw [claimWorkloads_id]
    exact hnames
  · intro hnames
    have hnumber := hnames
    obtain ⟨tid, _, htid⟩ := hnumber
    obtain ⟨t, ht, rfl⟩ := natural2original_get?.mp htid
    have htmem := List.mem_of_getElem? ht
    exact ⟨_, ⟨⟨t, htmem, rfl⟩,
      (mem_claimed_thread hempty hclaims htmem).mpr ⟨cpuset, hin, hnames⟩⟩, claimWorkloads_id _ t⟩

end

/-- **Both passes put a workload on the same threads.** -/
theorem deser_written (hempty : ∀ t ∈ a.emptyCpu.getThreads, t.workloadIds = [])
    (hok : a.deser ambient response = .ok decoded) : WrittenAsClaimed response decoded := by
  obtain ⟨⟨wars, id2workloads⟩, hloop, hdecoded⟩ := bind_eq_ok.mp hok
  obtain rfl := (Except.ok.inj hdecoded).symm
  obtain ⟨hknown, hcarries⟩ := deserCpusets_carries hloop
  obtain ⟨wars', id2workloads', hloop', hcollected⟩ := deserCpusets_ok _ OrderedDict.empty hknown
  obtain ⟨rfl, rfl⟩ := Prod.mk.inj (Except.ok.inj (hloop.symm.trans hloop'))
  -- what the first pass collected, for the second one
  have hclaims : ∀ w o, w ∈ (id2workloads.get? o).getD []
      ↔ ∃ cpuset, (w, cpuset) ∈ response.cpusets.entries
          ∧ Names a.natural2originalIndexing cpuset o := by
    intro w o
    rw [hcollected.claims]
    simp
  refine ⟨?_, ?_⟩
  · intro wid cpuset hget
    have hin := OrderedDict.get?_eq_some_iff.mp hget
    obtain ⟨war, hone, hwar⟩ := filter_carries response.cpusets.nodup hcarries hin
    refine ⟨war, hone, hwar.cpuQuota, hwar.cpuShares, hwar.memoryMigrate, hwar.memorySpreadPage,
      hwar.memorySpreadSlab, ?_⟩
    intro i
    rw [hwar.threadIds, allocateResponse_cpu, mem_getThreads_claimed hempty hclaims hin]
  · rintro w ⟨t, ht, hw⟩
    rw [allocateResponse_cpu, Cpu.getThreads_mapThreadsIdx_const] at ht
    obtain ⟨u, hu, rfl⟩ := List.mem_map.mp ht
    obtain ⟨cpuset, hin, _⟩ := (mem_claimed_thread hempty hclaims hu).mp hw
    exact OrderedDict.mem_keys_iff.mpr ⟨cpuset, OrderedDict.get?_eq_some_iff.mpr hin⟩

/-- **A placement is refused or kept whole.** It is refused when it numbers a thread that the
machine does not have. Otherwise what is written to the cgroups is what the new CPU claims. -/
theorem deser_refused_or_written {P C T : Nat} (hP : 0 < P) (hC : 0 < C) (hT : 0 < T)
    (hmachine : Config.getCpu P C T = .ok a.emptyCpu) :
    ((∃ e, a.deser ambient response = .error e)
        ↔ ∃ wid cpuset, response.cpusets.get? wid = some cpuset
            ∧ ∃ tid ∈ cpuset.threadIds, a.emptyCpu.getThreads.length ≤ tid.toNat)
      ∧ ∀ decoded, a.deser ambient response = .ok decoded → WrittenAsClaimed response decoded :=
  ⟨deser_error_iff, fun _ => deser_written (unclaimed_getCpu hP hC hT hmachine)⟩

/-- Two workloads share thread number `1`, and one of them lists it twice. -/
def overlapping : Pb.IsolationResponse where
  cpusets := OrderedDict.ofPairs
    [("a", ⟨[1, 1], ⟨100000, 100⟩, ⟨true, false, false⟩⟩),
      ("b", ⟨[3, 1], ⟨-1, 200⟩, ⟨false, true, false⟩⟩)]

theorem deser_refused_or_written_overlapping :
    ∃ decoded, crossedAllocator.deser (Ambient.unset ()) overlapping = .ok decoded
      ∧ WrittenAsClaimed overlapping decoded := by
  have hinit : init (some "localhost:8080") crossedAllocator.instanceCtx 2 1 2 none none none
      = .ok crossedAllocator := rfl
  obtain ⟨decoded, hok⟩ : ∃ decoded,
      crossedAllocator.deser (Ambient.unset ()) overlapping = .ok decoded := ⟨_, rfl⟩
  exact ⟨decoded, hok, (deser_refused_or_written (by decide) (by decide) (by decide)
    (getCpu_of_init hinit)).2 decoded hok⟩

end

end TitusIsolate
