import TitusIsolate.Proof.MachineViews
import TitusIsolate.Proof.Settled

/-!
# From Docker to the cgroup files

A run of the machine is a run of Docker with the agent and a run of a host, so it has the
properties of both: at rest the containers that run are held, and the cpuset of each container
that was given threads shows those threads. What neither part knows alone is who is released:
the host releases whom it is told to, and the agent tells it of those that died.
-/

namespace TitusIsolate

open Run

variable {Rng Raw Time : Type}

section

variable {parseQuantity : String → Except PyError Decimal} {allocator : CpuAllocator Rng}
  {reportCpuEvent : Ambient Rng → AllocateRequest → AllocateResponse → Except PyError Unit}

/-! ## Allocators that always answer -/

/-- The allocator answers every request: it never raises. -/
def CpuAllocator.Answers (allocator : CpuAllocator Rng) : Prop :=
  ∀ ambient request, ∃ response, (allocator.isolate ambient request).result = .ok response

theorem naive_answers (random : RandomSource Rng) : (naiveCpuAllocator random).Answers :=
  fun ambient request => (naive_answer random ambient request).imp (fun _ h => h.1)

/-- A fallback onto an allocator that always answers always answers. -/
theorem fallback_answers {fallbackQueueDepth : Int} {primary secondary : CpuAllocator Rng}
    (hs : secondary.Answers) :
    (fallbackCpuAllocator fallbackQueueDepth primary secondary).Answers := by
  intro ambient request
  cases hdepth : FallbackCpuAllocator.shouldFallbackImmediately fallbackQueueDepth ambient with
  | error e =>
    rw [fallback_immediate hdepth]
    exact hs ambient request
  | ok _ =>
    cases hprimary : (primary.isolate ambient request).result with
    | ok response =>
      rw [fallback_primary hdepth hprimary]
      exact ⟨response, hprimary⟩
    | error e =>
      rw [fallback_secondary hdepth hprimary]
      exact hs _ _

/-! ## Releases -/

/-- The container batch event of a batch lists the deaths of the batch. -/
theorem died_of_handed {batch : List Event} {event : ContainerBatchEvent} {i n : Nat}
    (h : (HandlerEvent.containerBatch event, i) ∈ handlerCalls n batch) {x : WorkloadId}
    (hx : x ∈ batchRemoves event.dies) : ∃ e ∈ batch, e.isDieOf x = true := by
  obtain ⟨handed, hhanded, hi⟩ := List.mem_flatMap.mp h
  obtain ⟨_, _, hcall⟩ := List.mem_map.mp hi
  cases hcall
  unfold handlerEvents at hhanded
  rcases List.mem_append.mp hhanded with hbatch | hinternal
  · split at hbatch
    · cases List.mem_singleton.mp hbatch
      exact List.any_eq_true.mp (mem_batchRemoves.mp hx)
    · exact absurd hbatch List.not_mem_nil
  · obtain ⟨_, _, hne⟩ := List.mem_map.mp hinternal
    cases hne

/-- What a call of `isolate` releases, it was asked to remove. -/
theorem released_of_isolate {wm : WorkloadManager} {c : IsolateCall Rng} {x : WorkloadId}
    (h : .releaseContainer x ∈ (wm.isolate allocator reportCpuEvent c).cgroupCalls) :
    x ∈ c.removes := by
  have hremoves : .releaseContainer x ∈ c.removes.map CgroupCall.releaseContainer →
      x ∈ c.removes := by
    intro hmem
    obtain ⟨y, hy, heq⟩ := List.mem_map.mp hmem
    cases heq
    exact hy
  cases hres : (allocator.isolate c.ambient (wm.requestFor c)).result with
  | error e =>
    rw [isolate_of_error hres] at h
    exact hremoves h
  | ok response =>
    rw [(isolate_of_ok reportCpuEvent hres).cgroupCalls] at h
    rcases List.mem_append.mp h with h | h
    · exact hremoves h
    · obtain ⟨a, _, ha⟩ := List.mem_flatMap.mp h
      split at ha
      · exact absurd ha List.not_mem_nil
      · simp [WorkloadManager.allocationCalls] at ha

namespace DockerHost

/-- A container is removed when the consumer hands out its death. -/
theorem died_of_isolateCall {d : DockerHost Raw Time} {e : DockerStep Rng Raw Time}
    {c : IsolateCall Rng} {caller : IsolateCaller Rng Time}
    (hbooks : d.agent.eventManager.Invariant)
    (h : d.isolateCall parseQuantity e = some (c, caller)) {x : WorkloadId}
    (hx : x ∈ c.removes) : ∃ event ∈ d.agent.eventManager.enqueued, event.isDieOf x = true := by
  cases caller with
  | init =>
    rw [(isolateCall_init h).1] at hx
    exact absurd hx List.not_mem_nil
  | handler time call =>
    obtain rfl := isolateCall_handler h
    obtain ⟨_, _, batch, event, i, pending, hphase, hc⟩ := isolateCall_consume h
    obtain ⟨hb, batches, hprogress⟩ := hbooks
    unfold EventManager.Progress at hprogress
    rw [hphase] at hprogress
    obtain ⟨hdequeued, ⟨made, _, hmade⟩, _⟩ := hprogress
    unfold isolateCallAt at hc
    split at hc
    · rename_i event
      obtain ⟨adds, _, rfl⟩ := Option.map_eq_some_iff.mp hc
      have hcall : (HandlerEvent.containerBatch event, 0) ∈ handlerCalls
          d.agent.eventManager.handlers.length batch := by
        rw [← hmade]
        exact List.mem_append_right _ (List.mem_cons_self ..)
      obtain ⟨died, hdied, hdie⟩ := died_of_handed hcall hx
      refine ⟨died, ?_, hdie⟩
      rw [hb.queued, hdequeued]
      exact List.mem_append_left _ (List.mem_append_right _ hdied)
    · cases hc
      exact absurd hx List.not_mem_nil
    · cases hc

end DockerHost

namespace Machine

/-- A container that is released, or is about to be, was heard to have died. -/
def ReleasesTheDead (m : Machine Rng Raw Time) : Prop :=
  ∀ x, m.world.released x = true ∨ .releaseContainer x ∈ m.host.due.1 →
    ∃ event ∈ m.dockerHost.agent.eventManager.enqueued, event.isDieOf x = true

/-- Nothing is under way and nothing waits. -/
structure Rests (m : Machine Rng Raw Time) : Prop where
  workedOff : m.dockerHost.WorkedOff
  quiet : m.host.Quiet

variable (loads : Raw → Except PyError Json) in
/-- No message that was pulled says that the container died. -/
def NeverDied (m : Machine Rng Raw Time) (x : WorkloadId) : Prop :=
  ∀ event ∈ m.dockerHost.agent.pulled.filterMap (handledEvent loads), event.isDieOf x = false

variable (loads : Raw → Except PyError Json) (allocator) in
/-- What the machine is for. -/
structure IsolatesWhatRuns (kernel : String → String) (m : Machine Rng Raw Time) : Prop where
  /-- Every container that runs is held. -/
  held : ∀ x ∈ m.dockerHost.running, x ∈ m.dockerHost.agent.workloadManager.workloads.keys
  /-- And no other Titus container, unless it started and died in one batch. -/
  gone : ∀ x, x ∉ m.dockerHost.bystanders → m.dockerHost.agent.NeverShared x →
    x ∈ m.dockerHost.agent.workloadManager.workloads.keys → x ∈ m.dockerHost.running
  settled : m.host.Settled allocator kernel
  isolated : ∀ x, Claimed m.dockerHost.agent.workloadManager.cpu x → m.NeverDied loads x →
    m.host.isIsolated allocator x = true

variable (parseQuantity) in
/-- Writes succeed, and none lands after a later one for its file unless it writes the same. -/
def InOrder (m : Machine Rng Raw Time) (e : MachineStep Rng Raw Time) : Prop :=
  ∀ he, m.hostEvent parseQuantity e = some he → m.host.InOrder he

/-- Writes succeed, and writer threads end in the order in which they were started. -/
def OldestFirst : MachineStep Rng Raw Time → Prop
  | .agent _ => True
  | .advance ok => ok = true
  | .complete i ok => i = 0 ∧ ok = true

theorem oldestFirst_hostEvent {m : Machine Rng Raw Time} {e : MachineStep Rng Raw Time}
    (h : OldestFirst e) (he : HostEvent Rng) (hshown : m.hostEvent parseQuantity e = some he) :
    Host.OldestFirst he := by
  cases e with
  | agent e =>
    unfold hostEvent at hshown
    dsimp only at hshown
    split at hshown
    · obtain ⟨c, _, rfl⟩ := Option.map_eq_some_iff.mp hshown
      trivial
    · cases hshown
  | advance ok => cases hshown; exact h
  | complete i ok => cases hshown; exact h

variable (parseQuantity) in
/-- When a call is to isolate containers, each of them has a name and its pod turns up. -/
def PodsTurnUp (m : Machine Rng Raw Time) : MachineStep Rng Raw Time → Prop
  | .agent (.isolateCurrent call) =>
      m.inCall = none → ∀ x ∈ m.dockerHost.running, call.Finds parseQuantity x
  | .agent (.consume _ call) => m.inCall = none → ∀ batch event pending,
      m.dockerHost.agent.eventManager.phase
          = .handling batch ((.containerBatch event, 0) :: pending) →
        ∀ start ∈ event.starts, start.getContainerName ≠ ""
          ∧ call.Finds parseQuantity start.getContainerName
  | _ => True

theorem PodsTurnUp.granted (hanswers : allocator.Answers) {m : Machine Rng Raw Time}
    {e : MachineStep Rng Raw Time} (h : m.PodsTurnUp parseQuantity e) :
    m.StepGranted parseQuantity allocator e := by
  cases e with
  | advance ok => trivial
  | complete i ok => trivial
  | agent e =>
    intro hin
    cases e with
    | isolateCurrent call => exact ⟨h hin, hanswers _ _⟩
    | consume time call =>
      intro batch event pending hphase
      have hpods := h hin batch event pending hphase
      exact ⟨fun start hstart => (hpods start hstart).1, fun start hstart => (hpods start hstart).2,
        fun adds _ => hanswers _ _⟩
    | docker raw => trivial
    | openStream => trivial
    | startProcessing => trivial
    | pull time => trivial
    | schedule action time => trivial
    | stop => trivial

/-- Nothing is asked of a step that hands out no container batch. -/
theorem podsTurnUp_of_calling {m : Machine Rng Raw Time} {time : Time} {call : HandlerCall Rng}
    (h : ∀ event, EventManager.calling m.dockerHost.agent.eventManager.phase
      ≠ some (.containerBatch event, 0)) :
    m.PodsTurnUp parseQuantity (.agent (.consume time call)) := by
  intro _ batch event pending hphase
  refine absurd ?_ (h event)
  rw [hphase]
  rfl

variable [Sub Time] {loads : Raw → Except PyError Json}

variable (parseQuantity allocator reportCpuEvent loads) in
theorem enqueued_step (d : DockerHost Raw Time) (e : DockerStep Rng Raw Time) {event : Event}
    (h : event ∈ d.agent.eventManager.enqueued) :
    event ∈ (d.step parseQuantity allocator reportCpuEvent loads
      e).agent.eventManager.enqueued := by
  have haside := d.aside_step parseQuantity allocator reportCpuEvent loads (e := e)
  cases e with
  | openStream =>
    unfold DockerHost.step
    dsimp only
    split
    · exact h
    · exact h
  | isolateCurrent call =>
    unfold DockerHost.step
    dsimp only
    split
    · exact h
    · exact h
  | startProcessing =>
    unfold DockerHost.step
    dsimp only
    split
    · exact h
    · exact h
  | consume time call =>
    unfold DockerHost.step
    dsimp only
    split
    · cases hcalling : EventManager.calling d.agent.eventManager.phase with
      | none =>
        rw [Agent.consume_of_not_calling hcalling]
        dsimp only
        rw [(d.agent.eventManager.consume_frame false time).2.1]
        exact h
      | some made =>
        obtain ⟨raises, heq⟩ := Agent.consume_of_calling parseQuantity allocator reportCpuEvent
          hcalling time call
        rw [heq]
        dsimp only
        rw [(d.agent.eventManager.consume_frame raises time).2.1]
        exact h
    · exact h
  | docker raw => exact (haside rfl).enqueued event h
  | pull time => exact (haside rfl).enqueued event h
  | schedule action time => exact (haside rfl).enqueued event h
  | stop => exact (haside rfl).enqueued event h

theorem enqueued_resume (d : DockerHost Raw Time) (manager : WorkloadManager)
    (caller : IsolateCaller Rng Time) :
    (d.resume manager caller).agent.eventManager.enqueued = d.agent.eventManager.enqueued := by
  cases caller with
  | init => rfl
  | handler time call => exact (d.agent.eventManager.consume_frame false time).2.1

theorem releasesTheDead_step {m : Machine Rng Raw Time} {e : MachineStep Rng Raw Time}
    (h : m.ReleasesTheDead) (hbooks : m.dockerHost.agent.eventManager.Invariant) :
    (m.step parseQuantity allocator reportCpuEvent loads e).ReleasesTheDead := by
  rcases m.step_cases parseQuantity allocator reportCpuEvent loads e with
    ⟨hs, _⟩ | ⟨e', rfl, _, _, hs⟩ | ⟨e', c, caller, rfl, hin, hcall, hs⟩
    | ⟨_, manager, caller, rfl, hin, hs⟩ | ⟨ok, c, cs, manager, caller, rfl, hin, hs⟩
    | ⟨i, ok, rfl, hs⟩
  · rw [hs]
    exact h
  · rw [hs]
    intro x hx
    obtain ⟨event, hmem, hdie⟩ := h x (hx.imp_right (fun hdue => by
      unfold host Host.due at hdue ⊢
      cases hin : m.inCall with
      | none => rw [hin] at hdue; exact hdue
      | some u => rw [hin] at hdue; exact hdue))
    exact ⟨event, enqueued_step parseQuantity allocator reportCpuEvent loads m.dockerHost e' hmem,
      hdie⟩
  · rw [hs]
    intro x hx
    rcases hx with hx | hx
    · exact h x (.inl hx)
    · exact DockerHost.died_of_isolateCall hbooks hcall (released_of_isolate hx)
  · rw [hs]
    intro x hx
    dsimp only
    rw [enqueued_resume]
    rcases hx with hx | hx
    · exact h x (.inl hx)
    · exact absurd hx List.not_mem_nil
  · rw [hs]
    intro x hx
    have hdue : m.host.due.1 = c :: cs := by
      unfold host Host.due
      rw [hin]
      rfl
    refine h x ?_
    rw [hdue]
    rcases hx with hx | hx
    · rcases (FileWorld.released_step m.world (.call c ok) x).mp hx with hrel | ⟨hrel, _⟩
      · refine .inr ?_
        cases c with
        | releaseContainer y => cases hrel; exact List.mem_cons_self ..
        | _ => cases hrel
      · exact .inl hrel
    · exact .inr (List.mem_cons_of_mem _ hx)
  · rw [hs]
    intro x hx
    refine h x (hx.imp_left (fun hrel => ?_))
    rcases (FileWorld.released_step m.world (.complete i ok) x).mp hrel with hrel | ⟨hrel, _⟩
    · cases hrel
    · exact hrel

/-! ## The machine at rest -/

/-- What holds of the machine all the time. -/
structure Sound (loads : Raw → Except PyError Json)
    (parseQuantity : String → Except PyError Decimal) (allocator : CpuAllocator Rng)
    (reportCpuEvent : Ambient Rng → AllocateRequest → AllocateResponse → Except PyError Unit)
    (m : Machine Rng Raw Time) : Prop where
  waiting : m.Waiting parseQuantity allocator reportCpuEvent
  tracks : ∃ ids, m.docker.Tracks loads ids
  consistent : m.host.Consistent
  dead : m.ReleasesTheDead

theorem docker_eventManager (m : Machine Rng Raw Time) :
    m.docker.agent.eventManager = m.dockerHost.agent.eventManager := by
  unfold docker
  split
  · rfl
  · rfl
  · rfl

theorem sound_init {cpu : Cpu} (hthreads : DistinctThreads cpu) (hclear : ∀ u, ¬ Claimed cpu u)
    (running bystanders : List WorkloadId) (instanceId : Option String)
    (reg : EventRegistry Time) (files : Files) :
    Sound loads parseQuantity allocator reportCpuEvent
      (init running bystanders instanceId cpu reg files) where
  waiting := fun _ _ _ _ hin => nomatch hin
  tracks := ⟨[], DockerHost.tracks_init running bystanders instanceId cpu reg⟩
  consistent := Host.consistent_init hthreads hclear instanceId files
  dead := fun _ hx => hx.elim (fun h => nomatch h) (fun h => nomatch h)

/-- **Each step keeps what the parts keep**, seen through the part. -/
theorem sound_step (htruth : allocator.IsTruthful) {m : Machine Rng Raw Time}
    {e : MachineStep Rng Raw Time} (h : m.Sound loads parseQuantity allocator reportCpuEvent)
    (hgranted : m.StepGranted parseQuantity allocator e) (horder : m.InOrder parseQuantity e) :
    (m.step parseQuantity allocator reportCpuEvent loads e).Sound loads parseQuantity allocator
      reportCpuEvent := by
  obtain ⟨hwaiting, htracks⟩ :=
    (dockerProjection parseQuantity allocator reportCpuEvent loads).preserves
      (J := fun d => ∃ ids, d.Tracks loads ids)
      (fun d e' h hg => h.elim (fun _ h' => h'.step e' hg)) ⟨h.waiting, h.tracks⟩ hgranted
  obtain ⟨_, hconsistent⟩ :=
    (hostProjection parseQuantity allocator reportCpuEvent loads Host.InOrder).preserves
      (J := Host.Consistent) (fun d e' h ho => Host.consistent_step htruth d e' h ho)
      ⟨trivial, h.consistent⟩ horder
  obtain ⟨ids, htracks'⟩ := h.tracks
  refine ⟨hwaiting, htracks, hconsistent, releasesTheDead_step h.dead ?_⟩
  rw [← m.docker_eventManager]
  exact htracks'.follows.books

theorem Sound.isolatesWhatRuns {m : Machine Rng Raw Time}
    (h : m.Sound loads parseQuantity allocator reportCpuEvent) (hrests : m.Rests)
    {kernel : String → String} (hkernel : ShowsWritten kernel) :
    m.IsolatesWhatRuns allocator loads kernel := by
  obtain ⟨ids, htracks⟩ := h.tracks
  have hdocker : m.docker = m.dockerHost := by
    unfold docker
    rw [Option.map_eq_none_iff.mp hrests.quiet.1]
  rw [hdocker] at htracks
  have hsettled : m.host.Settled allocator kernel :=
    h.consistent.settled hrests.quiet hkernel
  refine ⟨fun x => htracks.holdsWhatRuns hrests.workedOff,
    fun x hx hshared => (htracks.workedOff hrests.workedOff hshared hx).mp, hsettled, ?_⟩
  intro x hclaimed hlives
  refine hsettled.isolated x hclaimed ?_
  by_contra hreleased
  have hreleased : m.host.world.released x = true := by simpa using hreleased
  obtain ⟨event, hmem, hdie⟩ := h.dead x (.inl hreleased)
  cases event with
  | internal action => cases hdie
  | container e =>
    -- a death on the queue is one of a message
    have hcontainer : e ∈ getContainerEvents m.dockerHost.agent.eventManager.enqueued :=
      List.mem_filterMap.mpr ⟨_, hmem, rfl⟩
    rw [htracks.follows.enqueued] at hcontainer
    obtain ⟨event, hpulled, heq⟩ := List.mem_filterMap.mp hcontainer
    cases event with
    | internal action => cases heq
    | container e' =>
      cases heq
      exact absurd ((hlives _ hpulled).symm.trans hdie) Bool.false_ne_true

theorem inOrder_of_oldestFirst (htruth : allocator.IsTruthful) {cpu : Cpu}
    (hthreads : DistinctThreads cpu) (hclear : ∀ u, ¬ Claimed cpu u)
    (running bystanders : List WorkloadId) (instanceId : Option String)
    (reg : EventRegistry Time) (files : Files) {es : List (MachineStep Rng Raw Time)}
    (hfirst : ∀ e ∈ es, OldestFirst e) :
    EachStep (step parseQuantity allocator reportCpuEvent loads) (InOrder parseQuantity)
      (init running bystanders instanceId cpu reg files) es := by
  refine eachStep_of_step
    (I := fun m : Machine Rng Raw Time => m.host.Consistent ∧ m.host.world.Fifo) ?_ ?_
    ⟨Host.consistent_init hthreads hclear instanceId files, FileWorld.fifo_init files⟩
    (eachStep_of_mem (fun _ => hfirst))
  · intro m e h he
    exact ((hostProjection parseQuantity allocator reportCpuEvent loads
      (fun _ => Host.OldestFirst)).preserves (J := fun d => d.Consistent ∧ d.world.Fifo)
      (fun d e' h' he' => Host.consistent_fifo_step htruth d e' h' he') ⟨trivial, h⟩
      (oldestFirst_hostEvent he)).2
  · intro m e h he e' hshown fe hfe
    obtain ⟨hsucceeds, hfirst'⟩ := Host.oldestFirst_fileEvent
      (oldestFirst_hostEvent he e' hshown) hfe
    exact ⟨hsucceeds, h.2.landsInOrder h.1.numbered hfirst'⟩

/-- It is listed by `init()`, and heard of once more when its cpuset is being written. -/
def startsMeanwhile : List (MachineStep Unit Json Int) :=
  [.agent .openStream, .agent (.docker Agent.taskStarts),
      .agent (.isolateCurrent Agent.lateCall)]
    ++ List.replicate 7 (.advance true) ++ [.agent .startProcessing, .agent (.pull 0)]
    ++ List.replicate 4 (.agent (.consume 1 Agent.lateCall)) ++ [.advance true]
    ++ List.replicate 6 (.agent (.consume 1 Agent.lateCall))
    ++ List.replicate 3 (.complete 0 true)

theorem startsMeanwhile_podsTurnUp :
    EachStep (step parseListed (fallbackCpuAllocator 20 (greedyCpuAllocator Unit)
        (naiveCpuAllocator RandomSource.reversing)) (fun _ _ _ => .ok ()) Except.ok)
      (PodsTurnUp parseListed)
      (init [] [] none Config.twoThreads EventRegistry.empty (fun _ _ => none)) startsMeanwhile := by
  refine ⟨trivial, trivial, fun _ => ?_, trivial, trivial, trivial, trivial, trivial, trivial,
    trivial, trivial, trivial, podsTurnUp_of_calling ?_, podsTurnUp_of_calling ?_,
    podsTurnUp_of_calling ?_, fun _ => ?_, trivial, podsTurnUp_of_calling ?_,
    podsTurnUp_of_calling ?_, podsTurnUp_of_calling ?_, podsTurnUp_of_calling ?_,
    podsTurnUp_of_calling ?_, podsTurnUp_of_calling ?_, trivial, trivial, trivial, trivial⟩
  · intro x hx
    rw [List.mem_singleton.mp (hx : x ∈ ["task"])]
    exact Agent.lateCall_finds
  · exact fun event h => nomatch h
  · exact fun event h => nomatch h
  · exact fun event h => nomatch h
  · intro batch event pending hphase
    cases hphase
    intro start hstart
    rw [List.mem_singleton.mp hstart]
    exact ⟨by decide, Agent.lateCall_finds⟩
  · exact fun event h => nomatch h
  · exact fun event h => nomatch h
  · exact fun event h => nomatch h
  · exact fun event h => nomatch h
  · exact fun event h => nomatch h
  · exact fun event h => nomatch h

/-- What `startsMeanwhile` comes to. -/
def isolatedMeanwhile : Machine Unit Json Int :=
  exec (step parseListed (fallbackCpuAllocator 20 (greedyCpuAllocator Unit)
      (naiveCpuAllocator RandomSource.reversing)) (fun _ _ _ => .ok ()) Except.ok)
    (init [] [] none Config.twoThreads EventRegistry.empty (fun _ _ => none)) startsMeanwhile

theorem startsMeanwhile_oldestFirst : ∀ e ∈ startsMeanwhile, OldestFirst e := by
  simp [startsMeanwhile, OldestFirst, or_imp, forall_and]

example : isolatedMeanwhile.world.files "task" .cpuset = some "0,1" := by decide +kernel

end Machine

end

end TitusIsolate
