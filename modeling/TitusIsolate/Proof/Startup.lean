import TitusIsolate.Event.Startup
import TitusIsolate.Proof.Follows

/-!
# Nothing is missed at startup

The stream is open before the containers are listed, and what it says is processed only
after they were isolated. So whatever starts or dies meanwhile is listed, or waits in the
stream, or both: a container that dies after it was listed is still removed, and one that
starts before it was listed is merely added twice. When the agent has worked off the stream
it holds just the containers that run.
-/

namespace TitusIsolate

open Run

variable {Rng Raw Time : Type}

/-! ## The containers that run at the start -/

section

variable {parseQuantity : String → Except PyError Decimal} {call : HandlerCall Rng}

theorem tryGetPod_taskId {look : Nat → PodManager PodBody} {x : WorkloadId} :
    ∀ {attempts looks looks' : Nat} {w : Workload},
      tryGetPod parseQuantity look x attempts looks = (some w, looks') → w.taskId = x := by
  intro attempts
  induction attempts with
  | zero => intro looks looks' w h; cases h
  | succ attempts ih =>
    intro looks looks' w h
    unfold tryGetPod at h
    cases hlook : (look looks).getPod x with
    | none => rw [hlook] at h; exact ih h
    | some pod =>
      rw [hlook] at h
      have hw := Raising.toOption_eq_some.mp (Prod.mk.inj h).1
      rw [kubernetesWorkload_taskId hw]
      exact PodTable.name_of_get? hlook

theorem getWorkload_taskId {x : WorkloadId} {looks looks' : Nat} {w : Workload}
    (h : getWorkload parseQuantity call x looks = .ok (some w, looks')) : w.taskId = x := by
  unfold getWorkload at h
  rw [if_neg (by decide)] at h
  cases hcount : call.retryCount with
  | error e => rw [hcount] at h; cases h
  | ok count =>
    rw [hcount] at h
    exact tryGetPod_taskId (Except.ok.inj h)

/-- What is found is a workload of a container that was listed. -/
theorem currentWorkloads_listed : ∀ {names : List WorkloadId} {looks : Nat} {x : WorkloadId},
    x ∈ (currentWorkloads parseQuantity call names looks).map Workload.taskId → x ∈ names := by
  intro names
  induction names with
  | nil => intro looks x h; exact absurd h List.not_mem_nil
  | cons name names ih =>
    intro looks x h
    unfold currentWorkloads at h
    split at h
    · exact List.mem_cons_of_mem _ (ih h)
    · exact List.mem_cons_of_mem _ (ih h)
    · rename_i w looks' hget
      rw [List.map_cons] at h
      rcases List.mem_cons.mp h with rfl | h
      · rw [getWorkload_taskId hget]
        exact List.mem_cons_self ..
      · exact List.mem_cons_of_mem _ (ih h)

/-- A container that was listed and whose pod turns up is found. -/
theorem currentWorkloads_found {x : WorkloadId} (hfinds : call.Finds parseQuantity x) :
    ∀ {names : List WorkloadId} {looks : Nat}, x ∈ names →
      x ∈ (currentWorkloads parseQuantity call names looks).map Workload.taskId := by
  intro names
  induction names with
  | nil => intro looks h; exact absurd h List.not_mem_nil
  | cons name names ih =>
    intro looks h
    rcases List.mem_cons.mp h with rfl | h
    · obtain ⟨w, looks', hget, htask⟩ := getWorkload_found hfinds looks
      unfold currentWorkloads
      rw [hget, List.map_cons, htask]
      exact List.mem_cons_self ..
    · unfold currentWorkloads
      split
      · exact ih h
      · exact ih h
      · rw [List.map_cons]
        exact List.mem_cons_of_mem _ (ih h)

end

namespace DockerHost

/-! ## What Docker says -/

variable {loads : Raw → Except PyError Json}

/-- All that was said since the stream was opened. -/
def said (d : DockerHost Raw Time) : List Raw := d.agent.pulled ++ d.stream.getD []

/-- The last word about the container. -/
def lastWord (loads : Raw → Except PyError Json) (messages : List Raw) (x : WorkloadId) :
    Option Event :=
  lastWhere (Event.isAbout x) (messages.filterMap (handledEvent loads))

variable (loads) in
/-- A message about another container, or about none, leaves this one as it is. -/
theorem mem_runningAfter (running : List WorkloadId) (raw : Raw) (x : WorkloadId) :
    x ∈ runningAfter running (readMessage loads raw)
      ↔ match lastWord loads [raw] x with
        | none => x ∈ running
        | some e => e.isStartOf x = true := by
  unfold lastWord handledEvent
  cases hread : readMessage loads raw with
  | error e => simp [runningAfter, lastWhere, hread]
  | ok event =>
    cases event with
    | none => simp [runningAfter, lastWhere, hread]
    | some event =>
      cases event with
      | internal action => simp [runningAfter, lastWhere, Event.isAbout, hread]
      | container e =>
        obtain ⟨action, attributes⟩ := e
        by_cases hname : ContainerEvent.getContainerName ⟨action, attributes⟩ = x
        · cases action with
          | start => simp [runningAfter, lastWhere, Event.isAbout, Event.isStartOf, hread, hname]
          | die => simp [runningAfter, lastWhere, Event.isAbout, Event.isStartOf, hread, hname]
        · cases action with
          | start =>
            simp [runningAfter, lastWhere, Event.isAbout, hread, hname, Ne.symm hname]
          | die => simp [runningAfter, lastWhere, Event.isAbout, hread, hname, Ne.symm hname]

theorem lastWord_append (messages later : List Raw) (x : WorkloadId) :
    lastWord loads (messages ++ later) x
      = (lastWord loads later x).or (lastWord loads messages x) := by
  unfold lastWord
  rw [List.filterMap_append, lastWhere_append]

/-! ## Keeping track -/

/-- Nothing has been processed before the containers are isolated. -/
structure Untouched (d : DockerHost Raw Time) : Prop where
  workloads : d.agent.workloadManager.workloads.keys = []
  handed : d.agent.eventManager.handed = []
  pulled : d.agent.pulled = []
  started : d.started = false

/-- What holds at every step, with what was isolated at the start. -/
structure Tracks (loads : Raw → Except PyError Json) (ids : List WorkloadId)
    (d : DockerHost Raw Time) : Prop where
  follows : d.agent.Follows loads ids
  before : d.isolated = false → d.Untouched
  closed : d.stream = none → d.isolated = false
  /-- The last word about a container is still true. -/
  said : ∀ x e, lastWord loads d.said x = some e → (x ∈ d.running ↔ e.isStartOf x = true)
  /-- What nothing was said about was isolated if it runs, and only then unless it is a
  bystander. -/
  unsaid : d.isolated = true → ∀ x, lastWord loads d.said x = none →
    (x ∈ d.running → x ∈ ids) ∧ (x ∉ d.bystanders → x ∈ ids → x ∈ d.running)

theorem tracks_init (running bystanders : List WorkloadId) (instanceId : Option String)
    (cpu : Cpu) (reg : EventRegistry Time) :
    Tracks loads [] (init running bystanders instanceId cpu reg : DockerHost Raw Time) where
  follows := Agent.follows_init (WorkloadManager.init instanceId cpu) reg
  before := fun _ => ⟨rfl, rfl, rfl, rfl⟩
  closed := fun _ => rfl
  said := fun x e h => by cases h
  unsaid := fun h => by cases h

section

variable {ids : List WorkloadId} {d : DockerHost Raw Time}

theorem Tracks.docker (h : d.Tracks loads ids) (raw : Raw) :
    Tracks loads ids
      { d with
        running := runningAfter d.running (readMessage loads raw)
        stream := d.stream.map (fun messages => messages ++ [raw]) } := by
  cases hstream : d.stream with
  | none =>
    -- nobody listens yet, and nothing is said of what was not heard
    have hisolated := h.closed hstream
    have hpulled := (h.before hisolated).pulled
    refine ⟨h.follows, fun _ => ⟨(h.before hisolated).workloads, (h.before hisolated).handed,
      hpulled, (h.before hisolated).started⟩, fun _ => hisolated, ?_, ?_⟩
    · intro x e hlast
      unfold DockerHost.said at hlast
      dsimp only [Option.map_none, Option.getD_none] at hlast
      rw [hpulled] at hlast
      cases hlast
    · intro hisolated'
      exact absurd (hisolated.symm.trans hisolated') Bool.false_ne_true
  | some messages =>
    have hsaid : d.agent.pulled ++ (messages ++ [raw]) = d.said ++ [raw] := by
      unfold DockerHost.said
      rw [hstream, ← List.append_assoc]
      rfl
    refine ⟨h.follows, fun hisolated => ⟨(h.before hisolated).workloads,
      (h.before hisolated).handed, (h.before hisolated).pulled, (h.before hisolated).started⟩,
      fun hnone => (Option.some_ne_none _ hnone).elim, ?_, ?_⟩
    · intro x e hlast
      change lastWord loads (d.agent.pulled ++ (messages ++ [raw])) x = some e at hlast
      rw [hsaid, lastWord_append] at hlast
      have hmem := mem_runningAfter loads d.running raw x
      cases hword : lastWord loads [raw] x with
      | some e' =>
        rw [hword] at hlast hmem
        cases hlast
        exact hmem
      | none =>
        rw [hword] at hlast hmem
        exact hmem.trans (h.said x e hlast)
    · intro hisolated x hlast
      change lastWord loads (d.agent.pulled ++ (messages ++ [raw])) x = none at hlast
      rw [hsaid, lastWord_append, Option.or_eq_none_iff] at hlast
      have hmem := mem_runningAfter loads d.running raw x
      rw [hlast.1] at hmem
      obtain ⟨hruns, hheld⟩ := h.unsaid hisolated x hlast.2
      exact ⟨fun hrunning => hruns (hmem.mp hrunning), fun hx hid => hmem.mpr (hheld hx hid)⟩

theorem Tracks.openStream (h : d.Tracks loads ids) (hstream : d.stream = none) :
    Tracks loads ids { d with stream := some [] } := by
  have hisolated := h.closed hstream
  have hbefore := h.before hisolated
  refine ⟨h.follows, fun _ => ⟨hbefore.workloads, hbefore.handed, hbefore.pulled, hbefore.started⟩,
    fun hnone => (Option.some_ne_none _ hnone).elim, ?_, ?_⟩
  · intro x e hlast
    unfold DockerHost.said at hlast
    dsimp only [Option.getD_some] at hlast
    rw [hbefore.pulled] at hlast
    cases hlast
  · intro hisolated'
    exact absurd (hisolated.symm.trans hisolated') Bool.false_ne_true

/-- The agent changes, and neither what was said nor what runs does. -/
theorem Tracks.agent (h : d.Tracks loads ids) {a : Agent Raw Time} (stream : Option (List Raw))
    (hfollows : a.Follows loads ids)
    (hbefore : d.isolated = false →
      Untouched { d with agent := a, stream := stream })
    (hstream : stream = none → d.stream = none)
    (hsaid : a.pulled ++ stream.getD [] = d.said) :
    Tracks loads ids { d with agent := a, stream := stream } := by
  refine ⟨hfollows, hbefore, fun hnone => h.closed (hstream hnone), ?_, ?_⟩
  · intro x e hlast
    change lastWord loads (a.pulled ++ stream.getD []) x = some e at hlast
    rw [hsaid] at hlast
    exact h.said x e hlast
  · intro hisolated x hlast
    change lastWord loads (a.pulled ++ stream.getD []) x = none at hlast
    rw [hsaid] at hlast
    exact h.unsaid hisolated x hlast

theorem Tracks.isolated_of_started (h : d.Tracks loads ids) (hstarted : d.started = true) :
    d.isolated = true := by
  cases hisolated : d.isolated with
  | true => rfl
  | false => exact absurd ((h.before hisolated).started.symm.trans hstarted) Bool.false_ne_true

end

section

variable {parseQuantity : String → Except PyError Decimal} {allocator : CpuAllocator Rng}
  {reportCpuEvent : Ambient Rng → AllocateRequest → AllocateResponse → Except PyError Unit}
  {ids : List WorkloadId} {d : DockerHost Raw Time}

/-- What is granted of a step: the pods of the containers that run at the start are found, and
the allocator answers; and what is granted of the agent's steps. -/
def StepGranted (parseQuantity : String → Except PyError Decimal) (allocator : CpuAllocator Rng)
    (d : DockerHost Raw Time) : DockerStep Rng Raw Time → Prop
  | .isolateCurrent call =>
      (∀ x ∈ d.running, call.Finds parseQuantity x)
        ∧ ∃ response, (allocator.isolate call.ambient
          (d.agent.workloadManager.requestFor (d.currentCall parseQuantity call))).result
          = .ok response
  | .consume time call => d.agent.StepGranted parseQuantity allocator (.consume time call)
  | .docker _ => True
  | .openStream => True
  | .startProcessing => True
  | .pull _ => True
  | .schedule _ _ => True
  | .stop => True

/-- What is isolated at the start is what runs, and perhaps a bystander. -/
theorem mem_afterInit {call : HandlerCall Rng} (hempty : d.Untouched)
    (hgranted : d.StepGranted parseQuantity allocator
      (.isolateCurrent call : DockerStep Rng Raw Time)) (x : WorkloadId) :
    (x ∈ d.running → x ∈ (d.afterInit parseQuantity allocator reportCpuEvent call).workloads.keys)
      ∧ (x ∉ d.bystanders →
        x ∈ (d.afterInit parseQuantity allocator reportCpuEvent call).workloads.keys →
          x ∈ d.running) := by
  obtain ⟨hfinds, response, hres⟩ := hgranted
  unfold afterInit
  rw [(isolate_of_ok reportCpuEvent hres).workloads, mem_keys_newWorkloads, hempty.workloads]
  refine ⟨?_, ?_⟩
  · intro h
    exact Or.inl (currentWorkloads_found (hfinds x h) (List.mem_append_left _ h))
  · intro hx h
    rcases h with h | ⟨_, h⟩
    · exact (List.mem_append.mp (currentWorkloads_listed h)).resolve_right hx
    · exact absurd h List.not_mem_nil

theorem Tracks.isolateCurrent (h : d.Tracks loads ids) {call : HandlerCall Rng}
    (hopen : d.stream.isSome = true) (hisolated : d.isolated = false)
    (hgranted : d.StepGranted parseQuantity allocator
      (.isolateCurrent call : DockerStep Rng Raw Time)) :
    Tracks loads (d.afterInit parseQuantity allocator reportCpuEvent call).workloads.keys
      { d with
        isolated := true
        agent :=
          { d.agent with
            workloadManager := d.afterInit parseQuantity allocator reportCpuEvent call } } := by
  have hbefore := h.before hisolated
  refine ⟨⟨h.follows.books, h.follows.handlers, h.follows.enqueued, ?_⟩,
    fun hfalse => Bool.noConfusion hfalse, ?_, h.said, ?_⟩
  · intro x
    dsimp only
    rw [hbefore.handed]
    exact decide_eq_true_iff.symm
  · intro hnone
    dsimp only at hnone
    rw [hnone] at hopen
    exact absurd hopen Bool.false_ne_true
  · intro _ x _
    exact mem_afterInit hbefore hgranted x

theorem pull_pulled (a : Agent Raw Time) (raw : Raw) (time : Time) :
    (a.pull loads raw time).pulled = a.pulled ++ [raw] := by
  unfold Agent.pull
  split
  · rfl
  · rfl

theorem consume_pulled [Sub Time] (a : Agent Raw Time) (time : Time) (call : HandlerCall Rng) :
    (a.consume parseQuantity allocator reportCpuEvent time call).pulled = a.pulled := by
  cases hcalling : EventManager.calling a.eventManager.phase with
  | none => rw [Agent.consume_of_not_calling hcalling]
  | some made =>
    obtain ⟨raises, heq⟩ := Agent.consume_of_calling parseQuantity allocator reportCpuEvent
      hcalling time call
    rw [heq]

theorem step_bystanders [Sub Time] (d : DockerHost Raw Time) (e : DockerStep Rng Raw Time) :
    (d.step parseQuantity allocator reportCpuEvent loads e).bystanders = d.bystanders := by
  cases e with
  | docker raw => rfl
  | openStream =>
    unfold DockerHost.step
    dsimp only
    split
    · rfl
    · rfl
  | isolateCurrent call =>
    unfold DockerHost.step
    dsimp only
    split
    · rfl
    · rfl
  | startProcessing =>
    unfold DockerHost.step
    dsimp only
    split
    · rfl
    · rfl
  | pull time =>
    unfold DockerHost.step
    dsimp only
    split
    · rfl
    · rfl
    · split
      · rfl
      · rfl
  | schedule action time =>
    unfold DockerHost.step
    dsimp only
    split
    · rfl
    · rfl
  | consume time call =>
    unfold DockerHost.step
    dsimp only
    split
    · rfl
    · rfl
  | stop => rfl

/-- **One step keeps track.** -/
theorem Tracks.step [Sub Time] (h : d.Tracks loads ids) (e : DockerStep Rng Raw Time)
    (hgranted : d.StepGranted parseQuantity allocator e) :
    ∃ ids', Tracks loads ids' (d.step parseQuantity allocator reportCpuEvent loads e) := by
  cases e with
  | docker raw => exact ⟨ids, h.docker raw⟩
  | openStream =>
    unfold DockerHost.step
    dsimp only
    split
    · rename_i hstream
      exact ⟨ids, h.openStream hstream⟩
    · exact ⟨ids, h⟩
  | isolateCurrent call =>
    unfold DockerHost.step
    dsimp only
    split
    · rename_i hnow
      rw [Bool.and_eq_true, Bool.not_eq_true'] at hnow
      exact ⟨_, h.isolateCurrent hnow.1 hnow.2 hgranted⟩
    · exact ⟨ids, h⟩
  | startProcessing =>
    unfold DockerHost.step
    dsimp only
    split
    · rename_i hisolated
      exact ⟨ids, h.follows, fun hfalse => absurd (hfalse.symm.trans hisolated) Bool.false_ne_true,
        h.closed, h.said, h.unsaid⟩
    · exact ⟨ids, h⟩
  | pull time =>
    unfold DockerHost.step
    dsimp only
    split
    · exact ⟨ids, h⟩
    · exact ⟨ids, h⟩
    · rename_i raw messages hstream
      split
      · rename_i hnow
        rw [Bool.and_eq_true] at hnow
        have hisolated := h.isolated_of_started hnow.1
        refine ⟨ids, h.agent (some messages) (h.follows.message raw time)
          (fun hfalse => absurd (hfalse.symm.trans hisolated) Bool.false_ne_true)
          (fun hnone => (Option.some_ne_none _ hnone).elim) ?_⟩
        rw [pull_pulled, DockerHost.said, hstream, List.append_assoc]
        rfl
      · exact ⟨ids, h⟩
  | schedule action time =>
    unfold DockerHost.step
    dsimp only
    split
    · refine ⟨ids, h.agent d.stream (h.follows.schedule action time) ?_ id rfl⟩
      intro hisolated
      have hbefore := h.before hisolated
      exact ⟨hbefore.workloads, hbefore.handed, hbefore.pulled, hbefore.started⟩
    · exact ⟨ids, h⟩
  | consume time call =>
    unfold DockerHost.step
    dsimp only
    split
    · rename_i hstarted
      have hisolated := h.isolated_of_started hstarted
      refine ⟨ids, h.agent d.stream (h.follows.consume time call hgranted)
        (fun hfalse => absurd (hfalse.symm.trans hisolated) Bool.false_ne_true) id ?_⟩
      rw [consume_pulled]
      rfl
    · exact ⟨ids, h⟩
  | stop =>
    refine ⟨ids, h.agent d.stream
      ⟨EventManager.invariant_step h.follows.books .stop, h.follows.handlers, h.follows.enqueued,
        h.follows.held⟩ ?_ id rfl⟩
    intro hisolated
    have hbefore := h.before hisolated
    exact ⟨hbefore.workloads, hbefore.handed, hbefore.pulled, hbefore.started⟩

/-- Everything Docker said was pulled and worked off. -/
structure WorkedOff (d : DockerHost Raw Time) : Prop where
  isolated : d.isolated = true
  stream : d.stream = some []
  idle : d.agent.eventManager.phase = .idle
  queue : d.agent.eventManager.queue = []

/-- When all is worked off, what was said was pulled. -/
theorem WorkedOff.said (hdone : d.WorkedOff) : d.said = d.agent.pulled := by
  unfold DockerHost.said
  rw [hdone.stream]
  exact List.append_nil _

/-- **What runs is held**, also what died and started in one batch, whichever came first. -/
theorem Tracks.holdsWhatRuns (h : d.Tracks loads ids) (hdone : d.WorkedOff) {x : WorkloadId}
    (hx : x ∈ d.running) : x ∈ d.agent.workloadManager.workloads.keys := by
  refine h.follows.holdsStarted hdone.idle hdone.queue ?_
  cases hword : lastWord loads d.said x with
  | none =>
    have hid := (h.unsaid hdone.isolated x hword).1 hx
    rw [hdone.said] at hword
    unfold lastWord at hword
    rw [hword]
    exact hid
  | some e =>
    have hstart := (h.said x e hword).mp hx
    rw [hdone.said] at hword
    unfold lastWord at hword
    rw [hword]
    exact hstart

theorem Tracks.workedOff (h : d.Tracks loads ids) (hdone : d.WorkedOff) {x : WorkloadId}
    (hx : d.agent.NeverShared x) (hbystander : x ∉ d.bystanders) :
    x ∈ d.agent.workloadManager.workloads.keys ↔ x ∈ d.running := by
  refine ⟨?_, h.holdsWhatRuns hdone⟩
  rw [h.follows.atRest hdone.idle hdone.queue hx]
  cases hword : lastWord loads d.said x with
  | none =>
    have hunsaid := (h.unsaid hdone.isolated x hword).2 hbystander
    rw [hdone.said] at hword
    unfold lastWord at hword
    rw [hword]
    exact hunsaid
  | some e =>
    have hrunning := h.said x e hword
    rw [hdone.said] at hword
    unfold lastWord at hword
    rw [hword]
    exact hrunning.mpr

end

/-! ## A container that starts meanwhile -/

/-- It is heard of and listed. -/
def startedMeanwhile : List (DockerStep Unit Json Int) :=
  [.openStream, .docker Agent.taskStarts, .isolateCurrent Agent.lateCall, .startProcessing, .pull 0]
    ++ List.replicate 10 (.consume 1 Agent.lateCall)

/-- Nothing is asked of a step that hands out no container batch. -/
theorem stepGranted_of_calling {parseQuantity : String → Except PyError Decimal}
    {allocator : CpuAllocator Rng} {d : DockerHost Raw Time} {time : Time}
    {call : HandlerCall Rng}
    (h : ∀ event, EventManager.calling d.agent.eventManager.phase
      ≠ some (.containerBatch event, 0)) :
    d.StepGranted parseQuantity allocator (.consume time call) := by
  have hagent : d.agent.StepGranted parseQuantity allocator (.consume time call) :=
    Agent.stepGranted_of_calling h
  exact hagent

theorem startedMeanwhile_granted :
    EachStep (DockerHost.step parseListed (noopCpuAllocator Unit) (fun _ _ _ => .ok ()) Except.ok)
      (StepGranted parseListed (noopCpuAllocator Unit))
      (init [] [] none Config.twoThreads EventRegistry.empty) startedMeanwhile := by
  refine ⟨trivial, trivial, ⟨?_, _, rfl⟩, trivial, trivial, ?_, ?_, ?_, ?_, ?_, ?_, ?_, ?_, ?_, ?_,
    trivial⟩
  · intro x hx
    rw [List.mem_singleton.mp (hx : x ∈ ["task"])]
    exact Agent.lateCall_finds
  · exact stepGranted_of_calling (fun event h => nomatch h)
  · exact stepGranted_of_calling (fun event h => nomatch h)
  · exact stepGranted_of_calling (fun event h => nomatch h)
  · intro batch event pending hphase
    cases hphase
    refine ⟨?_, ?_, fun adds _ => ⟨_, rfl⟩⟩
    · intro start hstart
      rw [List.mem_singleton.mp hstart]
      decide
    · intro start hstart
      rw [List.mem_singleton.mp hstart]
      exact Agent.lateCall_finds
  · exact stepGranted_of_calling (fun event h => nomatch h)
  · exact stepGranted_of_calling (fun event h => nomatch h)
  · exact stepGranted_of_calling (fun event h => nomatch h)
  · exact stepGranted_of_calling (fun event h => nomatch h)
  · exact stepGranted_of_calling (fun event h => nomatch h)
  · exact stepGranted_of_calling (fun event h => nomatch h)

end DockerHost

end TitusIsolate
