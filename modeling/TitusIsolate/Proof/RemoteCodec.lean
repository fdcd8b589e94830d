import TitusIsolate.Proof.RemoteRequest

/-!
# Encoding a CPU and decoding a placement are inverse

A placement that lists a workload where the request lists it puts the workload back on
the threads it came from: the numbers of a request are numbers of the table, and reading
them in the table gives the threads they were made of.
-/

namespace TitusIsolate

open GrpcRemoteIsolationAllocator Raising

/-! ## What a placement puts on a thread -/

section

variable {table : OrderedDict Nat Nat}

/-- A cpuset names a thread, by the thread's own id. -/
def Names (table : OrderedDict Nat Nat) (cpuset : Pb.Cpuset) (o : Nat) : Prop :=
  ∃ tid ∈ cpuset.threadIds, table.get? tid.toNat = some o

theorem mem_appendAll {ids : List Nat} {w u : WorkloadId} {o : Nat}
    {d : OrderedDict Nat (List WorkloadId)} :
    u ∈ ((ids.foldl (fun d tid => d.insert tid ((d.get? tid).getD [] ++ [w])) d).get? o).getD []
      ↔ u ∈ (d.get? o).getD [] ∨ (u = w ∧ o ∈ ids) := by
  induction ids generalizing d with
  | nil => simp
  | cons tid ids ih =>
    rw [List.foldl_cons, ih, OrderedDict.get?_insert]
    by_cases ho : o = tid
    · subst ho
      simp only [if_true, Option.getD_some, List.mem_append, List.mem_cons, true_or, and_true]
      tauto
    · simp [ho]

/-- What the loop over the cpusets yields, when every number it finds is one of the table. -/
structure Collected (table : OrderedDict Nat Nat) (entries : List (WorkloadId × Pb.Cpuset))
    (before : OrderedDict Nat (List WorkloadId)) (waResponses : List WorkloadAllocateResponse)
    (id2workloads : OrderedDict Nat (List WorkloadId)) : Prop where
  listed : waResponses.map WorkloadAllocateResponse.workloadId = entries.map Prod.fst
  threadIds : ∀ war ∈ waResponses, ∃ cpuset, (war.workloadId, cpuset) ∈ entries
    ∧ ∀ o, o ∈ war.threadIds ↔ Names table cpuset o
  claims : ∀ (w : WorkloadId) (o : Nat), w ∈ (id2workloads.get? o).getD []
    ↔ w ∈ (before.get? o).getD [] ∨ ∃ cpuset, (w, cpuset) ∈ entries ∧ Names table cpuset o

theorem deserCpusets_ok :
    ∀ (entries : List (WorkloadId × Pb.Cpuset)) (before : OrderedDict Nat (List WorkloadId)),
      (∀ e ∈ entries, ∀ tid ∈ e.2.threadIds, ∃ o, table.get? tid.toNat = some o) →
      ∃ waResponses id2workloads,
        deserCpusets table entries before = .ok (waResponses, id2workloads)
          ∧ Collected table entries before waResponses id2workloads
  | [], before, _ => ⟨[], before, rfl, rfl, by simp, by simp⟩
  | (wid, cpuset) :: rest, before, hknown => by
      have hlookup : ∀ tid ∈ cpuset.threadIds, ∃ o, lookup table tid.toNat = .ok o := by
        intro tid htid
        obtain ⟨o, ho⟩ := hknown (wid, cpuset) (by simp) tid htid
        exact ⟨o, lookup_eq_ok.mpr ho⟩
      obtain ⟨ids, hids, hmem⟩ := mapM_eq_ok hlookup
      simp only [lookup_eq_ok] at hmem
      obtain ⟨waResponses, id2workloads, hrest, hcollected⟩ := deserCpusets_ok rest
        (ids.foldl (fun d tid => d.insert tid ((d.get? tid).getD [] ++ [wid])) before)
        (fun e he => hknown e (List.mem_cons_of_mem _ he))
      let war : WorkloadAllocateResponse :=
        { workloadId := wid
          threadIds := ids
          cpuShares := cpuset.cfsTunables.shares.toNat
          cpuQuota := cpuset.cfsTunables.quotaUs.toInt
          memoryMigrate := cpuset.cpusetTunables.memoryMigrate
          memorySpreadPage := cpuset.cpusetTunables.memorySpreadPage
          memorySpreadSlab := cpuset.cpusetTunables.memorySpreadSlab }
      refine ⟨war :: waResponses, id2workloads, ?_, ?_, ?_, ?_⟩
      · rw [deserCpusets]
        exact bind_eq_ok.mpr ⟨ids, hids, bind_eq_ok.mpr ⟨_, hrest, rfl⟩⟩
      · rw [List.map_cons, List.map_cons, hcollected.listed]
      · intro war' hwar'
        rcases List.mem_cons.mp hwar' with rfl | hwar'
        · exact ⟨cpuset, by simp [war], hmem⟩
        · obtain ⟨cpuset', hin, hnames⟩ := hcollected.threadIds war' hwar'
          exact ⟨cpuset', List.mem_cons_of_mem _ hin, hnames⟩
      · intro w o
        rw [hcollected.claims, mem_appendAll, hmem, or_assoc]
        refine or_congr_right ?_
        refine ⟨?_, ?_⟩
        · intro h
          rcases h with ⟨rfl, hnames⟩ | ⟨cpuset', hin, hnames⟩
          · exact ⟨cpuset, by simp, hnames⟩
          · exact ⟨cpuset', List.mem_cons_of_mem _ hin, hnames⟩
        · intro h
          obtain ⟨cpuset', hin, hnames⟩ := h
          rcases List.mem_cons.mp hin with heq | hin
          · obtain ⟨rfl, rfl⟩ := Prod.mk.inj heq
            exact Or.inl ⟨rfl, hnames⟩
          · exact Or.inr ⟨cpuset', hin, hnames⟩

end

/-! ## Decoding what was encoded -/

/-- A response that puts every task back where the request lists it. -/
structure Answers (req : Pb.IsolationRequest) (response : Pb.IsolationResponse) : Prop where
  tasks : ∀ w i, Lists req w i → w ∈ response.cpusets.keys
  threadIds : ∀ w cpuset, response.cpusets.get? w = some cpuset →
    ∀ i, i ∈ cpuset.threadIds ↔ Lists req w i

/-- The decoded response is the CPU again, and each allocation the threads of its workload. -/
structure Decoded (cpu : Cpu) (response : Pb.IsolationResponse) (decoded : AllocateResponse) :
    Prop where
  same : decoded.cpu.eq cpu = true
  allocations : decoded.workloadAllocations.map WorkloadAllocateResponse.workloadId
    = response.cpusets.keys
  claimants : ∀ w, Claimed cpu w → w ∈ response.cpusets.keys
  threadIds : ∀ war ∈ decoded.workloadAllocations, ∀ i,
    i ∈ war.threadIds ↔ i ∈ Update.getThreads cpu war.workloadId

/-- Encoding succeeds, and any answer to the request decodes to the CPU. -/
def RoundTrips (a : GrpcRemoteIsolationAllocator) (cpu : Cpu) : Prop :=
  ∃ req, a.buildBaseReq cpu = .ok req
    ∧ ∀ response, Answers req response → ∀ {Rng : Type} (ambient : Ambient Rng),
        ∃ decoded, a.deser ambient response = .ok decoded ∧ Decoded cpu response decoded

section

variable {a : GrpcRemoteIsolationAllocator} {cpu : Cpu} {req : Pb.IsolationRequest}

/-- The threads that the request lists for a workload, under their own ids, are its threads. -/
theorem lists_iff (hids : (a.emptyCpu.getThreads.map Thread.id).Nodup)
    (hreq : a.buildBaseReq cpu = .ok req) {w : WorkloadId} {o : Nat} :
    (∃ i, Lists req w i ∧ a.natural2originalIndexing.get? i.toNat = some o)
      ↔ o ∈ Update.getThreads cpu w := by
  unfold Update.getThreads
  simp only [buildBaseReq_lists hreq, List.mem_map, List.mem_filter, decide_eq_true_eq]
  refine ⟨?_, ?_⟩
  · intro h
    obtain ⟨i, ⟨t, ht, hw, hnumber⟩, ho⟩ := h
    rw [original2natural_get? hids, ho] at hnumber
    exact ⟨t, ⟨ht, hw⟩, (Option.some.inj hnumber).symm⟩
  · intro h
    obtain ⟨t, ⟨ht, hw⟩, rfl⟩ := h
    obtain ⟨p, hp, c, hc, htc⟩ := mem_getThreads_iff.mp ht
    have hfits := (buildBaseReq_ok_iff.mp ⟨req, hreq⟩).1
    -- the number was written down, so it is a number of the wire's
    obtain ⟨n, hn, hlt⟩ := ((hfits p hp).cores c hc).1 t htc (Thread.isClaimed_iff.mpr ⟨w, hw⟩)
    have htoNat : (UInt32.ofNatLT n hlt).toNat = n := UInt32.toNat_ofNatLT ..
    refine ⟨UInt32.ofNatLT n hlt, ⟨t, ht, hw, ?_⟩, ?_⟩
    · rw [htoNat]
      exact hn
    · rw [htoNat]
      exact (original2natural_get? hids).mp hn

@[simp] theorem claimWorkloads_id (d : OrderedDict Nat (List WorkloadId)) (t : Thread) :
    (claimWorkloads d t).id = t.id := by
  unfold claimWorkloads
  split
  · rfl
  · exact Thread.foldl_claim_id

theorem mem_claimWorkloads {d : OrderedDict Nat (List WorkloadId)} {t : Thread} {w : WorkloadId} :
    w ∈ (claimWorkloads d t).workloadIds ↔ w ∈ (d.get? t.id).getD [] ∨ w ∈ t.workloadIds := by
  unfold claimWorkloads
  cases d.get? t.id with
  | none => simp
  | some workloads => exact Thread.mem_foldl_claim

/-- Where ids are distinct, a thread is among a workload's if it lists it. -/
theorem id_mem_getThreads (hids : (cpu.getThreads.map Thread.id).Nodup) {t : Thread}
    (ht : t ∈ cpu.getThreads) {w : WorkloadId} :
    t.id ∈ Update.getThreads cpu w ↔ w ∈ t.workloadIds := by
  refine ⟨?_, ?_⟩
  · intro h
    obtain ⟨u, hu, hid⟩ := List.mem_map.mp h
    obtain ⟨humem, huw⟩ := List.mem_filter.mp hu
    rw [List.inj_on_of_nodup_map hids ht humem hid.symm]
    exact of_decide_eq_true huw
  · intro hw
    exact List.mem_map_of_mem (List.mem_filter.mpr ⟨ht, decide_eq_true hw⟩)

/-- An empty thread, given the workloads that a thread lists, looks like it. -/
theorem claimWorkloads_seen {d : OrderedDict Nat (List WorkloadId)} {t u : Thread}
    (hid : u.id = t.id) (hempty : u.workloadIds = [])
    (hclaims : ∀ w, w ∈ (d.get? u.id).getD [] ↔ w ∈ t.workloadIds) :
    (claimWorkloads d u).seen = t.seen := by
  refine Prod.ext ((claimWorkloads_id d u).trans hid) ?_
  show (claimWorkloads d u).workloadIds.toFinset = t.workloadIds.toFinset
  ext w
  rw [List.mem_toFinset, List.mem_toFinset, mem_claimWorkloads, hclaims, hempty]
  simp

/-- The threads that an answer names for a workload are the workload's. -/
theorem names_iff (hids : (a.emptyCpu.getThreads.map Thread.id).Nodup)
    (hreq : a.buildBaseReq cpu = .ok req) {response : Pb.IsolationResponse}
    (hanswers : Answers req response) {w : WorkloadId} {cpuset : Pb.Cpuset}
    (hin : (w, cpuset) ∈ response.cpusets.entries) {o : Nat} :
    Names a.natural2originalIndexing cpuset o ↔ o ∈ Update.getThreads cpu w := by
  rw [← lists_iff hids hreq]
  unfold Names
  simp only [hanswers.threadIds w cpuset (OrderedDict.get?_eq_some_iff.mpr hin)]

/-- The workloads collected under a thread's id are those that claim it. -/
theorem Collected.claims_iff (hids : (a.emptyCpu.getThreads.map Thread.id).Nodup)
    (hreq : a.buildBaseReq cpu = .ok req) {response : Pb.IsolationResponse}
    (hanswers : Answers req response) {waResponses : List WorkloadAllocateResponse}
    {id2workloads : OrderedDict Nat (List WorkloadId)}
    (h : Collected a.natural2originalIndexing response.cpusets.entries OrderedDict.empty
      waResponses id2workloads) (w : WorkloadId) (o : Nat) :
    w ∈ (id2workloads.get? o).getD [] ↔ o ∈ Update.getThreads cpu w := by
  rw [h.claims]
  simp only [OrderedDict.get?_empty, Option.getD_none, List.not_mem_nil, false_or]
  refine ⟨?_, ?_⟩
  · intro hnamed
    obtain ⟨cpuset, hin, hnames⟩ := hnamed
    exact (names_iff hids hreq hanswers hin).mp hnames
  · intro ho
    obtain ⟨i, hlists, _⟩ := (lists_iff hids hreq).mpr ho
    obtain ⟨cpuset, hget⟩ := OrderedDict.mem_keys_iff.mp (hanswers.tasks w i hlists)
    have hin := OrderedDict.get?_eq_some_iff.mp hget
    exact ⟨cpuset, hin, (names_iff hids hreq hanswers hin).mpr ho⟩

/-- The empty CPU, claimed by the workloads of each thread id, is the CPU again. -/
theorem claimWorkloads_eq (hids : (cpu.getThreads.map Thread.id).Nodup)
    (hempty : ∀ t ∈ a.emptyCpu.getThreads, t.workloadIds = [])
    (hshape : cpu.shape = a.emptyCpu.shape) {d : OrderedDict Nat (List WorkloadId)}
    (hclaims : ∀ w o, w ∈ (d.get? o).getD [] ↔ o ∈ Update.getThreads cpu w) :
    (a.emptyCpu.mapThreadsIdx (fun _ t => claimWorkloads d t)).eq cpu = true := by
  refine Cpu.eq_of_view (Cpu.view_of_shape ?_ ?_)
  · rw [hshape]
    exact Cpu.view_mapThreadsIdx (fun _ t => claimWorkloads_id d t) a.emptyCpu
  · rw [Cpu.getThreads_mapThreadsIdx_const, List.map_map]
    refine map_eq_of_map_eq_on ?_ (Cpu.ids_of_shape hshape).symm
    intro u hu t ht hid
    exact claimWorkloads_seen hid (hempty u hu)
      (fun w => by rw [hclaims, hid, id_mem_getThreads hids ht])

/-- **What was encoded is decoded.** -/
theorem deser_decodes {Rng : Type} (ambient : Ambient Rng)
    (hids : (a.emptyCpu.getThreads.map Thread.id).Nodup)
    (hempty : ∀ t ∈ a.emptyCpu.getThreads, t.workloadIds = [])
    (hshape : cpu.shape = a.emptyCpu.shape) (hreq : a.buildBaseReq cpu = .ok req)
    {response : Pb.IsolationResponse} (hanswers : Answers req response) :
    ∃ decoded, a.deser ambient response = .ok decoded ∧ Decoded cpu response decoded := by
  -- an answer uses only numbers that the request uses, and those are in the table
  have hknown : ∀ e ∈ response.cpusets.entries, ∀ tid ∈ e.2.threadIds,
      ∃ o, a.natural2originalIndexing.get? tid.toNat = some o := by
    intro e he tid htid
    have hlists : Lists req e.1 tid :=
      (hanswers.threadIds e.1 e.2 (OrderedDict.get?_eq_some_iff.mpr he) tid).mp htid
    obtain ⟨t, _, _, hnumber⟩ := (buildBaseReq_lists hreq).mp hlists
    exact ⟨t.id, (original2natural_get? hids).mp hnumber⟩
  obtain ⟨waResponses, id2workloads, hcpusets, hcollected⟩ :=
    deserCpusets_ok response.cpusets.entries OrderedDict.empty hknown
  have hcpuids : (cpu.getThreads.map Thread.id).Nodup := (Cpu.ids_of_shape hshape) ▸ hids
  refine ⟨_, bind_eq_ok.mpr ⟨(waResponses, id2workloads), hcpusets, rfl⟩, ?_, ?_, ?_, ?_⟩
  · exact claimWorkloads_eq hcpuids hempty hshape (hcollected.claims_iff hids hreq hanswers)
  · exact hcollected.listed
  · intro w hw
    obtain ⟨t, ht, hw⟩ := hw
    obtain ⟨i, hlists, _⟩ := (lists_iff hids hreq).mpr ((id_mem_getThreads hcpuids ht).mpr hw)
    exact hanswers.tasks w i hlists
  · intro war hwar o
    obtain ⟨cpuset, hin, hnames⟩ := hcollected.threadIds war hwar
    rw [hnames]
    exact names_iff hids hreq hanswers hin

end

/-- The answer that hands every task the threads it is listed on. -/
def echo (tunables : Pb.CFSTunables) (memory : Pb.CpusetTunables) (req : Pb.IsolationRequest) :
    Pb.IsolationResponse :=
  let threads := req.layout.packages.flatMap (fun p => p.cores.flatMap Pb.Core.threads)
  let cpuset (w : WorkloadId) : Pb.Cpuset :=
    { threadIds := (threads.filter (fun t => w ∈ t.taskIds)).map Pb.Thread.id
      cfsTunables := tunables
      cpusetTunables := memory }
  { cpusets := OrderedDict.ofPairs
      (((threads.flatMap Pb.Thread.taskIds).dedup).map (fun w => (w, cpuset w))) }

/-- Every request has an answer. -/
theorem answers_echo (tunables : Pb.CFSTunables) (memory : Pb.CpusetTunables)
    (req : Pb.IsolationRequest) : Answers req (echo tunables memory req) := by
  have hkeys : ∀ f : WorkloadId → WorkloadId × Pb.Cpuset, (∀ w, (f w).1 = w) →
      ∀ ws : List WorkloadId, ws.Nodup → ((ws.map f).map Prod.fst).Nodup := by
    intro f hf ws hws
    have hid : Prod.fst ∘ f = id := funext hf
    rw [List.map_map, hid, List.map_id]
    exact hws
  have hget : ∀ w cpuset, (echo tunables memory req).cpusets.get? w = some cpuset ↔ _ :=
    fun w cpuset => OrderedDict.get?_ofPairs (hkeys _ (fun _ => rfl) _ (List.nodup_dedup _))
  refine ⟨?_, ?_⟩
  · intro w i h
    obtain ⟨p, hp, c, hc, t, ht, _, hw⟩ := h
    rw [OrderedDict.mem_keys_iff]
    refine ⟨_, (hget w _).mpr (List.mem_map.mpr ⟨w, ?_, rfl⟩)⟩
    rw [List.mem_dedup]
    exact List.mem_flatMap.mpr
      ⟨t, List.mem_flatMap.mpr ⟨p, hp, List.mem_flatMap.mpr ⟨c, hc, ht⟩⟩, hw⟩
  · intro w cpuset h i
    obtain ⟨v, _, heq⟩ := List.mem_map.mp ((hget w cpuset).mp h)
    obtain ⟨rfl, rfl⟩ := Prod.mk.inj heq
    simp only [Lists, List.mem_map, List.mem_filter, List.mem_flatMap, decide_eq_true_eq]
    refine ⟨?_, ?_⟩
    · intro h
      obtain ⟨t, ⟨⟨p, hp, c, hc, ht⟩, hw⟩, hi⟩ := h
      exact ⟨p, hp, c, hc, t, ht, hi, hw⟩
    · intro h
      obtain ⟨p, hp, c, hc, t, ht, hi, hw⟩ := h
      exact ⟨t, ⟨⟨p, hp, c, hc, ht⟩, hw⟩, hi⟩

/-! ## The round trip -/

/-- **The remote codec loses nothing.** Whatever the machine and whatever its threads list,
either the request cannot be built, because a number does not fit its field, or every answer
to it decodes to the same CPU. -/
theorem remote_roundTrip {P C T : Nat} (hP : 0 < P) (hC : 0 < C) (hT : 0 < T)
    {a : GrpcRemoteIsolationAllocator} {cpu : Cpu} (hmachine : Config.getCpu P C T = .ok a.emptyCpu)
    (hshape : cpu.shape = a.emptyCpu.shape) :
    (Fits P C T cpu → RoundTrips a cpu)
      ∧ (¬ Fits P C T cpu → ∃ e, a.buildBaseReq cpu = .error e) := by
  have hids := Config.getCpu_ids_nodup hP hC hT hmachine
  have hempty := unclaimed_getCpu hP hC hT hmachine
  have hok := buildBaseReq_ok_iff_fits hP hids (shape_getCpu hP hC hT hmachine) hshape
  refine ⟨?_, ?_⟩
  · intro hfits
    obtain ⟨req, hreq⟩ := hok.mpr hfits
    refine ⟨req, hreq, ?_⟩
    intro response hanswers Rng ambient
    exact deser_decodes ambient hids hempty hshape hreq hanswers
  · intro hfits
    cases hreq : a.buildBaseReq cpu with
    | error e => exact ⟨e, rfl⟩
    | ok req => exact absurd (hok.mp ⟨req, hreq⟩) hfits

/-- On this machine thread `2` has number `1`. -/
def crossedAllocator : GrpcRemoteIsolationAllocator where
  instanceCtx := ⟨"i-0", "main", "titusagent", "asg", "default", "m5.metal"⟩
  emptyCpu := Config.crossed
  metadata := OrderedDict.empty

/-- Its CPU with one thread shared and one claimed. -/
def crossedClaims : Cpu :=
  ⟨[⟨0, [⟨0, [Thread.ofId 0, ((Thread.ofId 2).claim "a").claim "b"], by decide⟩], by decide⟩,
    ⟨1, [⟨0, [(Thread.ofId 1).claim "b", Thread.ofId 3], by decide⟩], by decide⟩], by decide⟩

theorem remote_roundTrip_crossed :
    ∃ req, crossedAllocator.buildBaseReq crossedClaims = .ok req
      ∧ ∃ decoded,
        crossedAllocator.deser (Ambient.unset ()) (echo ⟨-1, 100⟩ ⟨false, false, false⟩ req)
            = .ok decoded
          ∧ Decoded crossedClaims (echo ⟨-1, 100⟩ ⟨false, false, false⟩ req) decoded := by
  have hinit : init (some "localhost:8080") crossedAllocator.instanceCtx 2 1 2 none none none
      = .ok crossedAllocator := rfl
  have hshape : crossedClaims.shape = crossedAllocator.emptyCpu.shape := by decide
  have hfits : Fits 2 1 2 crossedClaims := by
    refine ⟨by decide, by decide, by decide, ?_⟩
    intro i t ht _
    have hlt : i < crossedClaims.getThreads.length := (List.getElem?_eq_some_iff.mp ht).1
    exact Nat.lt_trans hlt (by decide)
  obtain ⟨req, hreq, hdecoded⟩ :=
    (remote_roundTrip (by decide) (by decide) (by decide)
      (getCpu_of_init hinit) hshape).1 hfits
  exact ⟨req, hreq, hdecoded _ (answers_echo _ _ req) (Ambient.unset ())⟩

/-- A package of `2 ^ 32` cores has more than its field can say. -/
theorem remote_roundTrip_wide :
    ∃ a : GrpcRemoteIsolationAllocator, Config.getCpu 1 (2 ^ 32) 1 = .ok a.emptyCpu
      ∧ (∃ e, a.buildBaseReq a.emptyCpu = .error e) ∧ ¬ RoundTrips a a.emptyCpu := by
  have hC : 0 < 2 ^ 32 := by decide
  obtain ⟨cpu, hcpu, _⟩ := Config.getCpu_ok Nat.one_pos hC Nat.one_pos
  let a : GrpcRemoteIsolationAllocator := { crossedAllocator with emptyCpu := cpu }
  have hraises : ¬ ∃ req, a.buildBaseReq cpu = .ok req := by
    intro h
    have hids := Config.getCpu_ids_nodup Nat.one_pos hC Nat.one_pos hcpu
    have hgrid := shape_getCpu Nat.one_pos hC Nat.one_pos hcpu
    have hfits := (buildBaseReq_ok_iff_fits (a := a) Nat.one_pos hids hgrid rfl).mp h
    exact Nat.lt_irrefl _ hfits.cores
  refine ⟨a, hcpu, ?_, ?_⟩
  · show ∃ e, a.buildBaseReq cpu = .error e
    cases hreq : a.buildBaseReq cpu with
    | error e => exact ⟨e, rfl⟩
    | ok req => exact absurd ⟨req, hreq⟩ hraises
  · intro h
    obtain ⟨req, hreq, _⟩ := h
    exact hraises ⟨req, hreq⟩

end TitusIsolate
