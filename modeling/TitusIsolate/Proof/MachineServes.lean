import TitusIsolate.Proof.MachineFair
import TitusIsolate.Proof.Orphans

/-!
# What runs has threads

With Greedy or Naive configured, and Naive to fall back on, every request is answered, and an
answer gives a thread to each workload that asks for one and to nobody else. So a machine at
rest has isolated each container that runs and asks for a thread, and nothing is held for a
container that is gone. What has to be granted is that pods turn up and writes land in order;
and if threads are scheduled fairly, the machine comes to rest and all this comes about.
-/

namespace TitusIsolate

open Run

variable {Rng Raw Time : Type}

/-! ## Answers that seat everybody -/

/-- Who asks for a thread has one, and nobody else has. -/
structure Seated (cpu : Cpu) (workloads : WorkloadMap) : Prop where
  threads : cpu.getThreads ≠ []
  asked : ∀ w ∈ workloads.values, 1 ≤ w.threadCount → Claimed cpu w.taskId
  held : ∀ u, Claimed cpu u → u ∈ workloads.keys

section

variable {random : RandomSource Rng} {ambient : Ambient Rng} {request : AllocateRequest}
  {response : AllocateResponse}

theorem getThreads_ne_nil_of_ids {cpu cpu' : Cpu}
    (hids : cpu'.getThreads.map Thread.id = cpu.getThreads.map Thread.id)
    (h : cpu.getThreads ≠ []) : cpu'.getThreads ≠ [] := by
  intro hnil
  rw [hnil] at hids
  exact h (List.map_eq_nil_iff.mp hids.symm)

theorem naive_seats (hthreads : request.cpu.getThreads ≠ [])
    (h : ((naiveCpuAllocator random).isolate ambient request).result = .ok response) :
    Seated response.cpu request.workloads := by
  obtain ⟨response', hok, hanswer⟩ := naive_answer random ambient request
  rw [hok] at h
  obtain rfl := Except.ok.inj h
  refine ⟨getThreads_ne_nil_of_ids hanswer.ids hthreads, ?_, ?_⟩
  · intro w hw hcount
    by_cases hcl : Claimed request.cpu w.taskId
    · have hkept := hanswer.kept _ (WorkloadMap.mem_keys_iff.mpr ⟨w, hw, rfl⟩) hcl
      rw [claimed_iff_getThreads] at hcl ⊢
      rw [hkept]
      exact hcl
    · -- new: it gets what it asks for, or all there is
      have hplaced := hanswer.placed w hw hcl (by omega)
      have hpos := List.length_pos_iff.mpr hthreads
      rw [claimed_iff]
      omega
  · intro u hcl
    by_contra hkey
    exact hanswer.other u hkey hcl

theorem greedy_seats (hthreads : request.cpu.getThreads ≠ [])
    (h : ((greedyCpuAllocator Rng).isolate ambient request).result = .ok response) :
    Seated response.cpu request.workloads := by
  have hanswer := greedy_answer h
  refine ⟨getThreads_ne_nil_of_ids hanswer.ids hthreads, ?_, ?_⟩
  · intro w hw hcount
    have hplaced := hanswer.placed w hw
    rw [claimed_iff]
    omega
  · intro u hcl
    by_contra hkey
    have hzero := hanswer.other u hkey
    rw [claimed_iff] at hcl
    omega

/-- What a local allocator that raises makes of the request is one that can be served. -/
theorem build_left {kind : AllocatorKind} {e : PyError} (hthreads : request.cpu.getThreads ≠ [])
    (h : ((kind.build random).isolate ambient request).result = .error e) :
    ((kind.build random).isolate ambient request).request.workloads = request.workloads
      ∧ ((kind.build random).isolate ambient request).request.cpu.getThreads ≠ [] := by
  obtain ⟨rfl, _⟩ := build_result_error h
  obtain ⟨cpu, hreq, _, hplaced, _⟩ := greedy_result ambient request
  refine ⟨(greedy_request ambient request).1, ?_⟩
  show ((greedyCpuAllocator Rng).isolate ambient request).request.cpu.getThreads ≠ []
  rw [hreq]
  refine getThreads_ne_nil_of_ids ?_ hthreads
  rw [hplaced.ids, Cpu.getThreads_clear, ids_clear]

/-- **Greedy or Naive, with Naive to fall back on, seats everybody.** -/
theorem fallback_seats {fallbackQueueDepth : Int} {primary : AllocatorKind}
    (hprimary : primary ≠ .noop) (hthreads : request.cpu.getThreads ≠ [])
    (h : ((fallbackCpuAllocator fallbackQueueDepth (primary.build random)
      (naiveCpuAllocator random)).isolate ambient request).result = .ok response) :
    Seated response.cpu request.workloads := by
  rcases fallback_ok_cases h with h | h | ⟨e, he, h⟩
  · cases primary with
    | greedy => exact greedy_seats hthreads h
    | naive => exact naive_seats hthreads h
    | noop => exact absurd rfl hprimary
  · exact naive_seats hthreads h
  · obtain ⟨hworkloads, hleft⟩ := build_left hthreads he
    have hseated := naive_seats hleft h
    rw [hworkloads] at hseated
    exact hseated

end

/-- An answer of the allocator seats everybody, wherever there are threads. -/
def CpuAllocator.SeatsAll (allocator : CpuAllocator Rng) : Prop :=
  ∀ ambient request response, request.cpu.getThreads ≠ [] →
    (allocator.isolate ambient request).result = .ok response →
    Seated response.cpu request.workloads

section

variable {allocator : CpuAllocator Rng}
  {reportCpuEvent : Ambient Rng → AllocateRequest → AllocateResponse → Except PyError Unit}

/-! ## Everybody stays seated -/

theorem isolate_seated (hseats : allocator.SeatsAll) {wm : WorkloadManager}
    (h : Seated wm.cpu wm.workloads) (call : IsolateCall Rng) :
    Seated (wm.isolate allocator reportCpuEvent call).manager.cpu
      (wm.isolate allocator reportCpuEvent call).manager.workloads := by
  cases hres : (allocator.isolate call.ambient (wm.requestFor call)).result with
  | error e =>
    rw [isolate_of_error hres]
    exact h
  | ok response =>
    have hinstalled := isolate_of_ok reportCpuEvent hres
    rw [hinstalled.cpu, hinstalled.workloads]
    exact hseats call.ambient (wm.requestFor call) response h.threads hres

namespace Host

/-- Everybody is seated, and will be when the call under way has ended. -/
structure AllSeated (h : Host) : Prop where
  now : Seated h.wm.cpu h.wm.workloads
  due : ∀ calls wm, h.inCall = some (calls, wm) → Seated wm.cpu wm.workloads

theorem allSeated_init {cpu : Cpu} (hthreads : cpu.getThreads ≠ [])
    (hclear : ∀ u, ¬ Claimed cpu u) (instanceId : Option String) (files : Files) :
    (init (WorkloadManager.init instanceId cpu) files).AllSeated where
  now := ⟨hthreads, fun _ hw => absurd hw List.not_mem_nil, fun u hcl => absurd hcl (hclear u)⟩
  due := fun _ _ hin => nomatch hin

theorem allSeated_step (hseats : allocator.SeatsAll) (h : Host) (e : HostEvent Rng)
    (hall : h.AllSeated) : (h.step allocator reportCpuEvent e).AllSeated := by
  rcases h.step_cases allocator reportCpuEvent e with ⟨hs, _⟩ | ⟨call, _, _, hs⟩
    | ⟨_, wm, _, hin, hs⟩ | ⟨_, c, cs, wm, _, hin, hs⟩ | ⟨_, _, _, hs⟩
  · rw [hs]
    exact hall
  · rw [hs]
    refine ⟨hall.now, ?_⟩
    intro calls wm hin
    cases hin
    exact isolate_seated hseats hall.now call
  · rw [hs]
    exact ⟨hall.due _ _ hin, fun _ _ hnone => nomatch hnone⟩
  · rw [hs]
    refine ⟨hall.now, ?_⟩
    intro calls wm' hin'
    cases hin'
    exact hall.due _ _ hin
  · rw [hs]
    exact ⟨hall.now, hall.due⟩

end Host

/-! ## Greedy or Naive, with Naive to fall back on -/

/-- The primary allocator that is configured is Greedy or Naive, and the other one is Naive. -/
structure ConfiguredLocally (configManager : ConfigManager String) : Prop where
  primary : AllocatorClass.ofConfig (configManager.getStr cpuAllocatorProperty none)
    ∈ [AllocatorClass.greedy, .naive]
  secondary : AllocatorClass.ofConfig (configManager.getStr fallbackAllocatorProperty
    (some defaultFallbackAllocator)) = .naive

theorem ConfiguredLocally.builds {configManager : ConfigManager String}
    (h : ConfiguredLocally configManager) {random : RandomSource Rng}
    {remote : Except PyError (CpuAllocator Rng)} {fallbackQueueDepth : Int}
    (hbuild : getFallbackAllocator random remote fallbackQueueDepth configManager
      = .ok allocator) :
    ∃ kind : AllocatorKind, kind ≠ .noop
      ∧ allocator = fallbackCpuAllocator fallbackQueueDepth (kind.build random)
          (naiveCpuAllocator random) := by
  unfold getFallbackAllocator getAllocator at hbuild
  simp only [h.secondary] at hbuild
  have hprimary := h.primary
  rw [List.mem_pair] at hprimary
  rcases hprimary with hprimary | hprimary
  · simp only [hprimary] at hbuild
    cases hbuild
    exact ⟨.greedy, by decide, rfl⟩
  · simp only [hprimary] at hbuild
    cases hbuild
    exact ⟨.naive, by decide, rfl⟩

theorem ConfiguredLocally.seatsAll {configManager : ConfigManager String}
    (h : ConfiguredLocally configManager) {random : RandomSource Rng}
    {remote : Except PyError (CpuAllocator Rng)} {fallbackQueueDepth : Int}
    (hbuild : getFallbackAllocator random remote fallbackQueueDepth configManager
      = .ok allocator) : allocator.SeatsAll := by
  obtain ⟨kind, hkind, rfl⟩ := h.builds hbuild
  exact fun _ _ _ hthreads hres => fallback_seats hkind hthreads hres

theorem ConfiguredLocally.answers {configManager : ConfigManager String}
    (h : ConfiguredLocally configManager) {random : RandomSource Rng}
    {remote : Except PyError (CpuAllocator Rng)} {fallbackQueueDepth : Int}
    (hbuild : getFallbackAllocator random remote fallbackQueueDepth configManager
      = .ok allocator) : allocator.Answers := by
  obtain ⟨_, _, rfl⟩ := h.builds hbuild
  exact fallback_answers (naive_answers random)

namespace Machine

variable {parseQuantity : String → Except PyError Decimal}

/-! ## The machine serves what runs -/

variable (allocator) in
/-- The container has threads, and they are those its cpuset shows. -/
structure RunsIsolated (loads : Raw → Except PyError Json) (kernel : String → String)
    (m : Machine Rng Raw Time) (x : WorkloadId) : Prop where
  claimed : Claimed m.dockerHost.agent.workloadManager.cpu x
  shown : ∃ back, (m.world.readBack kernel).getCpuset x = .ok back
    ∧ back.Perm (Update.getThreads m.dockerHost.agent.workloadManager.cpu x)
  marked : m.NeverDied loads x → m.host.isIsolated allocator x = true

variable (allocator) in
/-- What runs and asks for a thread runs isolated, and what is gone has no thread. -/
structure ServesWhatRuns (loads : Raw → Except PyError Json) (kernel : String → String)
    (m : Machine Rng Raw Time) (x : WorkloadId) : Prop where
  runs : x ∈ m.dockerHost.running →
    ∃ w ∈ m.dockerHost.agent.workloadManager.workloads.values, w.taskId = x
      ∧ (1 ≤ w.threadCount → m.RunsIsolated allocator loads kernel x)
  /-- Left out are what Docker lists without a task id, and what started and died in one batch. -/
  gone : x ∉ m.dockerHost.bystanders → m.dockerHost.agent.NeverShared x →
    x ∉ m.dockerHost.running → ¬ Claimed m.dockerHost.agent.workloadManager.cpu x

theorem podsTurnUp_of_workedOff {m : Machine Rng Raw Time} (h : m.dockerHost.WorkedOff)
    {e : MachineStep Rng Raw Time} (he : Own e) : m.PodsTurnUp parseQuantity e := by
  cases e with
  | advance ok => trivial
  | complete i ok => trivial
  | agent e =>
    cases e with
    | pull time => trivial
    | consume time call =>
      intro _ batch event pending hphase
      rw [h.idle] at hphase
      cases hphase
    | docker raw => exact he.elim
    | openStream => exact he.elim
    | isolateCurrent call => exact he.elim
    | startProcessing => exact he.elim
    | schedule action time => exact he.elim
    | stop => exact he.elim

variable [Sub Time] {loads : Raw → Except PyError Json}

theorem Sound.servesWhatRuns {m : Machine Rng Raw Time}
    (h : m.Sound loads parseQuantity allocator reportCpuEvent) (hall : m.host.AllSeated)
    (hrests : m.Rests) {kernel : String → String} (hkernel : ShowsWritten kernel)
    (x : WorkloadId) : m.ServesWhatRuns allocator loads kernel x := by
  have hisolates := h.isolatesWhatRuns hrests hkernel
  constructor
  · intro hrunning
    obtain ⟨w, hw, rfl⟩ := WorkloadMap.mem_keys_iff.mp (hisolates.held x hrunning)
    refine ⟨w, hw, rfl, ?_⟩
    intro hcount
    have hclaimed := hall.now.asked w hw hcount
    exact ⟨hclaimed, h.consistent.readsBack hrests.quiet hkernel hclaimed,
      hisolates.isolated w.taskId hclaimed⟩
  · intro hx hshared hgone hclaimed
    exact hgone (hisolates.gone x hx hshared (hall.now.held x hclaimed))

/-- The two of them hold all along, whatever happens. -/
theorem sound_allSeated_exec {Constraints : Type} {P C T : Nat} {endpoint : Option String}
    {instanceCtx : Pb.InstanceContext} {sysCoreIds sysCoresUsage sysCoresHardIsolate : Option String}
    {service : RemoteService Rng Constraints} {random : RandomSource Rng} {fallbackQueueDepth : Int}
    {configManager : ConfigManager String} (hlocal : ConfiguredLocally configManager)
    (hbuild : getFallbackAllocator random
      ((GrpcRemoteIsolationAllocator.init endpoint instanceCtx P C T sysCoreIds sysCoresUsage
        sysCoresHardIsolate).map (fun a => a.toCpuAllocator service))
      fallbackQueueDepth configManager = .ok allocator) {cpu : Cpu}
    (hthreads : DistinctThreads cpu) (hsome : cpu.getThreads ≠ [])
    (hclear : ∀ u, ¬ Claimed cpu u)
    {running bystanders : List WorkloadId} {instanceId : Option String}
    {reg : EventRegistry Time} {files : Files} {es : List (MachineStep Rng Raw Time)}
    (hpods : EachStep (step parseQuantity allocator reportCpuEvent loads)
      (PodsTurnUp parseQuantity) (init running bystanders instanceId cpu reg files) es)
    (horder : EachStep (step parseQuantity allocator reportCpuEvent loads)
      (InOrder parseQuantity) (init running bystanders instanceId cpu reg files) es) :
    (exec (step parseQuantity allocator reportCpuEvent loads)
        (init running bystanders instanceId cpu reg files) es).Sound loads parseQuantity allocator
        reportCpuEvent
      ∧ (exec (step parseQuantity allocator reportCpuEvent loads)
        (init running bystanders instanceId cpu reg files) es).host.AllSeated := by
  have htruth := configured_truthful hbuild
  have hanswers := hlocal.answers hbuild
  have hseats := hlocal.seatsAll hbuild
  refine exec_of_eachStep
    (I := fun m : Machine Rng Raw Time =>
      m.Sound loads parseQuantity allocator reportCpuEvent ∧ m.host.AllSeated) ?_
    ⟨sound_init hthreads hclear running bystanders instanceId reg files,
      Host.allSeated_init hsome hclear instanceId files⟩ (hpods.and horder)
  intro m e h hC
  refine ⟨sound_step htruth h.1 (hC.1.granted hanswers) hC.2, ?_⟩
  exact ((hostProjection parseQuantity allocator reportCpuEvent loads Host.InOrder).preserves
    (J := Host.AllSeated) (fun d e' hd _ => Host.allSeated_step hseats d e' hd)
    ⟨trivial, h.2⟩ hC.2).2

theorem greedyConfig_locally : ConfiguredLocally Host.greedyConfig where
  primary := by decide
  secondary := by decide

/-- `startsMeanwhile`, up to where only writer threads are left. -/
def stillWriting : List (MachineStep Unit Json Int) := startsMeanwhile.take 23

theorem stillWriting_podsTurnUp (n : Nat) :
    EachStep (step parseListed (fallbackCpuAllocator 20 (greedyCpuAllocator Unit)
        (naiveCpuAllocator RandomSource.reversing)) (fun _ _ _ => .ok ()) Except.ok)
      (PodsTurnUp parseListed)
      (init [] [] none Config.twoThreads EventRegistry.empty (fun _ _ => none))
      (stillWriting ++ firstEvents roundRobin n) := by
  have hwhole := startsMeanwhile_podsTurnUp
  rw [← List.take_append_drop 23 startsMeanwhile, eachStep_append] at hwhole
  refine eachStep_append.mpr ⟨hwhole.1, ?_⟩
  refine eachStep_of_step (C := fun _ e => Own e)
    (I := fun m : Machine Unit Json Int => m.Going Except.ok ∧ m.dockerHost.WorkedOff
      ∧ m.inCall = none) ?_ (fun m e h he => podsTurnUp_of_workedOff h.2.1 he) ?_ ?_
  · rintro m e ⟨hgoing, hworked, hin⟩ he
    refine ⟨(leadsOn hgoing he).going, ?_⟩
    rcases hgoing.onlyWriters parseListed _ _ hworked hin he with hstays | ⟨i, ok, rfl⟩
    · rw [hstays]
      exact ⟨hworked, hin⟩
    · exact ⟨hworked, hin⟩
  · have hstill : Orderly (exec (step parseListed (fallbackCpuAllocator 20
        (greedyCpuAllocator Unit) (naiveCpuAllocator RandomSource.reversing))
        (fun _ _ _ => .ok ()) Except.ok)
        (init [] [] none Config.twoThreads EventRegistry.empty (fun _ _ => none)) stillWriting) :=
      orderly_exec _ _ _ _ [] [] none _ _ _ (by simp [stillWriting, startsMeanwhile])
    exact ⟨hstill.going rfl rfl (fun _ h => absurd h List.not_mem_nil), ⟨rfl, rfl, rfl, rfl⟩, rfl⟩
  · refine eachStep_of_mem (fun _ e he => ?_)
    obtain ⟨i, _, rfl⟩ := List.mem_map.mp he
    exact roundRobin_own i

theorem roundRobin_oldestFirst (n : Nat) : OldestFirst (roundRobin n) := by
  unfold roundRobin
  split
  · trivial
  · trivial
  · rfl
  · exact ⟨rfl, rfl⟩

theorem stillWriting_oldestFirst (n : Nat) :
    ∀ e ∈ stillWriting ++ firstEvents roundRobin n, OldestFirst e := by
  intro e he
  rcases List.mem_append.mp he with he | he
  · exact startsMeanwhile_oldestFirst e (List.mem_of_mem_take he)
  · obtain ⟨i, _, rfl⟩ := List.mem_map.mp he
    exact roundRobin_oldestFirst i

end Machine

end

end TitusIsolate
