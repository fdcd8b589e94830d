import TitusIsolate.Event.Machine
import TitusIsolate.Lib.Projection
import TitusIsolate.Proof.Startup

/-!
# The machine seen as each of its parts

The machine is Docker with the agent, and it is a workload manager on the cgroup files. Each
of the two was studied alone: the agent as if `isolate` took no time, the workload manager as
if it were called at random. A run of the machine is a run of both. For the agent the whole
call happens when `init()` makes it, and when a handler is back from it.
-/

namespace TitusIsolate

open Run

variable {Rng Raw Time : Type}

section

variable {parseQuantity : String → Except PyError Decimal} {allocator : CpuAllocator Rng}
  {reportCpuEvent : Ambient Rng → AllocateRequest → AllocateResponse → Except PyError Unit}

/-! ## Calls of `isolate` -/

variable (allocator reportCpuEvent) in
/-- A handler that calls `isolate` leaves what the call leaves. -/
theorem handleEventAt_of_isolateCall (wm : WorkloadManager) {call : HandlerCall Rng}
    {event : HandlerEvent} {i : Nat} {c : IsolateCall Rng}
    (h : isolateCallAt parseQuantity call event i = some c) :
    handleEventAt parseQuantity allocator reportCpuEvent wm call event i
      = .ok (wm.isolate allocator reportCpuEvent c).manager := by
  unfold isolateCallAt at h
  split at h
  · rename_i event
    unfold handleEventAt handleStartsAndDies
    dsimp only
    cases hadds : startedWorkloads parseQuantity call event.starts 0 with
    | error e => rw [hadds] at h; cases h
    | ok adds => rw [hadds] at h; cases h; rfl
  · cases h
    rfl
  · cases h

variable (allocator reportCpuEvent) in
/-- A handler that does not call it leaves the workload manager as it is. -/
theorem managerAfter_of_isolateCall (wm : WorkloadManager) {call : HandlerCall Rng}
    {event : HandlerEvent} {i : Nat} (h : isolateCallAt parseQuantity call event i = none) :
    managerAfter wm (handleEventAt parseQuantity allocator reportCpuEvent wm call event i)
      = wm := by
  match i, event with
  | 0, .containerBatch event =>
    unfold handleEventAt handleStartsAndDies
    dsimp only
    have hnone : (startedWorkloads parseQuantity call event.starts 0).toOption = none :=
      Option.map_eq_none_iff.mp h
    cases hadds : startedWorkloads parseQuantity call event.starts 0 with
    | error e => rfl
    | ok adds => rw [hadds] at hnone; cases hnone
  | 0, .internal _ => rfl
  | 1, .internal .rebalance => cases h
  | 1, .internal .reconcile => rfl
  | 1, .internal .predictUsage => rfl
  | 1, .containerBatch _ => rfl
  | 2, .internal .reconcile => exact managerAfter_map wm call.elsewhere
  | 2, .internal .rebalance => rfl
  | 2, .internal .predictUsage => rfl
  | 2, .containerBatch _ => rfl
  | 3, .internal _ => exact managerAfter_map wm call.elsewhere
  | 3, .containerBatch _ => exact managerAfter_map wm call.elsewhere
  | _ + 4, .internal _ => rfl
  | _ + 4, .containerBatch _ => rfl

namespace DockerHost

/-- The call a step of the consumer comes to is that of the handler it calls. -/
theorem isolateCall_consume {d : DockerHost Raw Time} {time : Time} {call : HandlerCall Rng}
    {c : IsolateCall Rng} {caller : IsolateCaller Rng Time}
    (h : d.isolateCall parseQuantity (.consume time call) = some (c, caller)) :
    d.started = true ∧ caller = .handler time call ∧ ∃ batch event i pending,
      d.agent.eventManager.phase = .handling batch ((event, i) :: pending)
        ∧ isolateCallAt parseQuantity call event i = some c := by
  unfold isolateCall at h
  dsimp only at h
  split at h
  · rename_i hstarted
    split at h
    · rename_i batch event i pending hphase
      obtain ⟨c', hc', heq⟩ := Option.map_eq_some_iff.mp h
      cases heq
      exact ⟨hstarted, rfl, batch, event, i, pending, hphase, hc'⟩
    · cases h
  · cases h

theorem isolateCall_init {d : DockerHost Raw Time} {e : DockerStep Rng Raw Time}
    {c : IsolateCall Rng} (h : d.isolateCall parseQuantity e = some (c, .init)) :
    c.removes = [] ∧ d.stream ≠ none ∧ d.isolated = false := by
  cases e with
  | isolateCurrent call =>
    unfold isolateCall at h
    dsimp only at h
    split at h
    · rename_i hnow
      cases h
      rw [Bool.and_eq_true, Bool.not_eq_true'] at hnow
      exact ⟨rfl, Option.isSome_iff_ne_none.mp hnow.1, hnow.2⟩
    · cases h
  | consume time call =>
    obtain ⟨_, hcaller, _⟩ := isolateCall_consume h
    cases hcaller
  | openStream => cases h
  | startProcessing => cases h
  | docker raw => cases h
  | pull time => cases h
  | schedule action time => cases h
  | stop => cases h

theorem isolateCall_handler {d : DockerHost Raw Time} {e : DockerStep Rng Raw Time}
    {c : IsolateCall Rng} {time : Time} {call : HandlerCall Rng}
    (h : d.isolateCall parseQuantity e = some (c, .handler time call)) :
    e = .consume time call := by
  cases e with
  | isolateCurrent call' =>
    unfold isolateCall at h
    dsimp only at h
    split at h
    · cases h
    · cases h
  | consume time' call' =>
    obtain ⟨_, hcaller, _⟩ := isolateCall_consume h
    cases hcaller
    rfl
  | openStream => cases h
  | startProcessing => cases h
  | docker raw => cases h
  | pull time => cases h
  | schedule action time => cases h
  | stop => cases h

theorem isolateCall_of_not_waits {d : DockerHost Raw Time} {e : DockerStep Rng Raw Time}
    (h : e.waits = false) : d.isolateCall parseQuantity e = none := by
  cases e with
  | openStream => cases h
  | isolateCurrent call => cases h
  | startProcessing => cases h
  | consume time call => cases h
  | docker raw => rfl
  | pull time => rfl
  | schedule action time => rfl
  | stop => rfl

/-- What a step leaves alone that is not taken by a thread that may be waiting. -/
structure Aside (d d' : DockerHost Raw Time) : Prop where
  workloadManager : d'.agent.workloadManager = d.agent.workloadManager
  phase : d'.agent.eventManager.phase = d.agent.eventManager.phase
  isolated : d'.isolated = d.isolated
  started : d'.started = d.started
  enqueued : ∀ event ∈ d.agent.eventManager.enqueued, event ∈ d'.agent.eventManager.enqueued

theorem aside_refl (d : DockerHost Raw Time) : Aside d d := ⟨rfl, rfl, rfl, rfl, fun _ => id⟩

variable [Sub Time] {loads : Raw → Except PyError Json}

/-- A step that calls `isolate` ends where its caller goes on. -/
theorem step_of_isolateCall {d : DockerHost Raw Time} {e : DockerStep Rng Raw Time}
    {c : IsolateCall Rng} {caller : IsolateCaller Rng Time}
    (h : d.isolateCall parseQuantity e = some (c, caller)) :
    d.step parseQuantity allocator reportCpuEvent loads e
      = d.resume (d.agent.workloadManager.isolate allocator reportCpuEvent c).manager caller := by
  cases e with
  | isolateCurrent call =>
    unfold isolateCall at h
    dsimp only at h
    split at h
    · rename_i hnow
      cases h
      unfold DockerHost.step
      dsimp only
      rw [if_pos hnow]
      rfl
    · cases h
  | consume time call =>
    obtain ⟨hstarted, rfl, batch, event, i, pending, hphase, hc⟩ := isolateCall_consume h
    unfold DockerHost.step Agent.consume
    dsimp only
    rw [if_pos hstarted, hphase]
    dsimp only
    rw [handleEventAt_of_isolateCall allocator reportCpuEvent _ hc]
    rfl
  | docker raw => cases h
  | openStream => cases h
  | startProcessing => cases h
  | pull time => cases h
  | schedule action time => cases h
  | stop => cases h

variable (parseQuantity allocator reportCpuEvent loads) in
theorem aside_step (d : DockerHost Raw Time) {e : DockerStep Rng Raw Time}
    (h : e.waits = false) :
    Aside d (d.step parseQuantity allocator reportCpuEvent loads e) := by
  cases e with
  | openStream => cases h
  | isolateCurrent call => cases h
  | startProcessing => cases h
  | consume time call => cases h
  | docker raw => exact ⟨rfl, rfl, rfl, rfl, fun _ => id⟩
  | pull time =>
    unfold DockerHost.step
    dsimp only
    split
    · exact aside_refl d
    · exact aside_refl d
    · split
      · unfold Agent.pull EventManager.putEvent
        split
        · exact ⟨rfl, rfl, rfl, rfl, fun _ => id⟩
        · rename_i m hput
          split at hput
          · cases hput
          · cases hput
            exact ⟨rfl, rfl, rfl, rfl, fun _ => id⟩
          · cases hput
            exact ⟨rfl, rfl, rfl, rfl, fun _ hev => List.mem_append_left _ hev⟩
      · exact aside_refl d
  | schedule action time =>
    unfold DockerHost.step
    dsimp only
    split
    · exact ⟨rfl, rfl, rfl, rfl, fun _ hev => List.mem_append_left _ hev⟩
    · exact aside_refl d
  | stop => exact ⟨rfl, rfl, rfl, rfl, fun _ => id⟩

/-- A step that does not call it leaves the workload manager as it is. -/
theorem step_workloadManager {d : DockerHost Raw Time} {e : DockerStep Rng Raw Time}
    (h : d.isolateCall parseQuantity e = none) :
    (d.step parseQuantity allocator reportCpuEvent loads e).agent.workloadManager
      = d.agent.workloadManager := by
  have haside := d.aside_step parseQuantity allocator reportCpuEvent loads (e := e)
  cases e with
  | openStream =>
    unfold DockerHost.step
    dsimp only
    split
    · rfl
    · rfl
  | isolateCurrent call =>
    unfold isolateCall at h
    dsimp only at h
    split at h
    · cases h
    · rename_i hnot
      unfold DockerHost.step
      dsimp only
      rw [if_neg hnot]
  | startProcessing =>
    unfold DockerHost.step
    dsimp only
    split
    · rfl
    · rfl
  | consume time call =>
    unfold DockerHost.step
    dsimp only
    split
    · rename_i hstarted
      cases hcalling : EventManager.calling d.agent.eventManager.phase with
      | none => rw [Agent.consume_of_not_calling hcalling]
      | some made =>
        obtain ⟨event, i⟩ := made
        obtain ⟨batch, pending, hphase⟩ := EventManager.calling_eq_some hcalling
        obtain ⟨raises, heq⟩ := Agent.consume_of_calling parseQuantity allocator reportCpuEvent
          hcalling time call
        rw [heq]
        unfold isolateCall at h
        dsimp only at h
        rw [if_pos hstarted, hphase] at h
        exact managerAfter_of_isolateCall allocator reportCpuEvent _ (Option.map_eq_none_iff.mp h)
    · rfl
  | docker raw => exact (haside rfl).workloadManager
  | pull time => exact (haside rfl).workloadManager
  | schedule action time => exact (haside rfl).workloadManager
  | stop => exact (haside rfl).workloadManager

end DockerHost

namespace Machine

/-! ## The two views -/

/-- The machine as a host: of the agent there is its workload manager. -/
def host (m : Machine Rng Raw Time) : Host where
  wm := m.dockerHost.agent.workloadManager
  world := m.world
  inCall := m.inCall.map (fun u => (u.cgroupCalls, u.manager))

variable (parseQuantity) in
/-- What the host notices of a step. -/
def hostEvent (m : Machine Rng Raw Time) : MachineStep Rng Raw Time → Option (HostEvent Rng)
  | .agent e =>
      match m.inCall with
      | none => (m.dockerHost.isolateCall parseQuantity e).map (fun c => .isolate c.1)
      | some _ => none
  | .advance ok => some (.advance ok)
  | .complete i ok => some (.complete i ok)

/-- The machine as Docker with the agent, for which `isolate` takes no time: `init()` has
isolated what ran once it has called, a handler once it is back. -/
def docker [Sub Time] (m : Machine Rng Raw Time) : DockerHost Raw Time :=
  match m.inCall with
  | none => m.dockerHost
  | some ⟨_, manager, .init⟩ => m.dockerHost.resume manager (.init : IsolateCaller Rng Time)
  | some ⟨_, _, .handler _ _⟩ => m.dockerHost

variable (parseQuantity) in
/-- What Docker and the agent notice of a step. -/
def dockerEvent (m : Machine Rng Raw Time) :
    MachineStep Rng Raw Time → Option (DockerStep Rng Raw Time)
  | .agent e =>
      match m.inCall with
      | some _ => if e.waits then none else some e
      | none =>
          match m.dockerHost.isolateCall parseQuantity e with
          | none => some e
          | some (_, .init) => some e
          | some (_, .handler _ _) => none
  | .advance _ =>
      match m.inCall with
      | none => none
      | some ⟨[], _, .handler time call⟩ => some (.consume time call)
      | some ⟨[], _, .init⟩ => none
      | some ⟨_ :: _, _, _⟩ => none
  | .complete _ _ => none

/-- What is granted of a step: what is granted of Docker's and the agent's. -/
def StepGranted (parseQuantity : String → Except PyError Decimal) (allocator : CpuAllocator Rng)
    (m : Machine Rng Raw Time) : MachineStep Rng Raw Time → Prop
  | .agent e => m.inCall = none → m.dockerHost.StepGranted parseQuantity allocator e
  | .advance _ => True
  | .complete _ _ => True

variable (parseQuantity allocator reportCpuEvent) in
/-- A handler that waits for `isolate` is still to take the step it called it in. -/
def Waiting (m : Machine Rng Raw Time) : Prop :=
  ∀ cgroupCalls manager time call,
    m.inCall = some ⟨cgroupCalls, manager, .handler time call⟩ →
      m.dockerHost.StepGranted parseQuantity allocator (.consume time call)
        ∧ ∃ c, m.dockerHost.isolateCall parseQuantity (.consume time call)
            = some (c, .handler time call)
          ∧ manager = (m.dockerHost.agent.workloadManager.isolate allocator reportCpuEvent
              c).manager

/-! ## What a step of the machine does -/

variable [Sub Time] {loads : Raw → Except PyError Json}

variable (parseQuantity allocator reportCpuEvent loads) in
/-- Nothing, because a thread waits or nobody does; a thread goes on that does not call
`isolate`; a call of it begins, makes its next cgroup call or returns; a writer thread ends. -/
theorem step_cases (m : Machine Rng Raw Time) (e : MachineStep Rng Raw Time) :
    (m.step parseQuantity allocator reportCpuEvent loads e = m
        ∧ ((∃ e', e = .agent e' ∧ m.inCall ≠ none ∧ e'.waits = true)
          ∨ ∃ ok, e = .advance ok ∧ m.inCall = none))
      ∨ (∃ e', e = .agent e' ∧ m.dockerHost.isolateCall parseQuantity e' = none
          ∧ (m.inCall = none ∨ e'.waits = false)
          ∧ m.step parseQuantity allocator reportCpuEvent loads e
            = { m with
                dockerHost := m.dockerHost.step parseQuantity allocator reportCpuEvent loads e' })
      ∨ (∃ e' c caller, e = .agent e' ∧ m.inCall = none
          ∧ m.dockerHost.isolateCall parseQuantity e' = some (c, caller)
          ∧ m.step parseQuantity allocator reportCpuEvent loads e
            = { m with
                inCall := some
                  ⟨(m.dockerHost.agent.workloadManager.isolate allocator reportCpuEvent
                      c).cgroupCalls,
                    (m.dockerHost.agent.workloadManager.isolate allocator reportCpuEvent
                      c).manager, caller⟩ })
      ∨ (∃ ok manager caller, e = .advance ok ∧ m.inCall = some ⟨[], manager, caller⟩
          ∧ m.step parseQuantity allocator reportCpuEvent loads e
            = { m with dockerHost := m.dockerHost.resume manager caller, inCall := none })
      ∨ (∃ ok c cs manager caller, e = .advance ok ∧ m.inCall = some ⟨c :: cs, manager, caller⟩
          ∧ m.step parseQuantity allocator reportCpuEvent loads e
            = { m with world := m.world.perform c ok, inCall := some ⟨cs, manager, caller⟩ })
      ∨ ∃ i ok, e = .complete i ok
          ∧ m.step parseQuantity allocator reportCpuEvent loads e
            = { m with world := m.world.complete i ok } := by
  cases e with
  | agent e' =>
    cases hin : m.inCall with
    | some u =>
      cases hwaits : e'.waits with
      | true =>
        exact .inl ⟨by simp [step, hin, hwaits], .inl ⟨e', rfl, by simp, hwaits⟩⟩
      | false =>
        exact .inr (.inl ⟨e', rfl, DockerHost.isolateCall_of_not_waits hwaits, .inr hwaits,
          by simp [step, hin, hwaits]⟩)
    | none =>
      cases hcall : m.dockerHost.isolateCall parseQuantity e' with
      | none => exact .inr (.inl ⟨e', rfl, hcall, .inl rfl, by simp [step, hin, hcall]⟩)
      | some made =>
        obtain ⟨c, caller⟩ := made
        exact .inr (.inr (.inl ⟨e', c, caller, rfl, rfl, hcall, by simp [step, hin, hcall]⟩))
  | advance ok =>
    match hin : m.inCall with
    | none => exact .inl ⟨by simp [step, hin], .inr ⟨ok, rfl, rfl⟩⟩
    | some ⟨[], manager, caller⟩ =>
      exact .inr (.inr (.inr (.inl ⟨ok, manager, caller, rfl, rfl, by simp [step, hin]⟩)))
    | some ⟨c :: cs, manager, caller⟩ =>
      exact .inr (.inr (.inr (.inr (.inl
        ⟨ok, c, cs, manager, caller, rfl, rfl, by simp [step, hin]⟩))))
  | complete i ok => exact .inr (.inr (.inr (.inr (.inr ⟨i, ok, rfl, rfl⟩))))

/-! ## The workload manager on the cgroup files -/

theorem resume_workloadManager (d : DockerHost Raw Time) (manager : WorkloadManager)
    (caller : IsolateCaller Rng Time) :
    (d.resume manager caller).agent.workloadManager = manager := by
  cases caller with
  | init => rfl
  | handler time call => rfl

theorem host_step (m : Machine Rng Raw Time) (e : MachineStep Rng Raw Time) :
    (m.step parseQuantity allocator reportCpuEvent loads e).host
      = (m.hostEvent parseQuantity e).elim m.host
          (m.host.step allocator reportCpuEvent) := by
  rcases m.step_cases parseQuantity allocator reportCpuEvent loads e with
    ⟨hs, ⟨e', rfl, hin, _⟩ | ⟨ok, rfl, hin⟩⟩ | ⟨e', rfl, hcall, hwhen, hs⟩
    | ⟨e', c, caller, rfl, hin, hcall, hs⟩ | ⟨ok, manager, caller, rfl, hin, hs⟩
    | ⟨ok, c, cs, manager, caller, rfl, hin, hs⟩ | ⟨i, ok, rfl, hs⟩
  · rw [hs]
    cases hu : m.inCall with
    | none => exact absurd hu hin
    | some u => simp [hostEvent, hu]
  · rw [hs]
    simp [hostEvent, host, Host.step, hin]
  · rw [hs]
    have hnone : m.hostEvent parseQuantity (.agent e') = none := by
      unfold hostEvent
      cases hu : m.inCall with
      | none => simp [hcall]
      | some u => simp
    rw [hnone]
    simp only [Option.elim_none, host]
    rw [DockerHost.step_workloadManager hcall]
  · rw [hs]
    simp [hostEvent, host, Host.step, hin, hcall]
  · rw [hs]
    simp [hostEvent, host, Host.step, hin, resume_workloadManager]
  · rw [hs]
    simp [hostEvent, host, Host.step, hin]
  · rw [hs]
    simp [hostEvent, host, Host.step]

/-! ## Docker with the agent -/

theorem waiting_step {m : Machine Rng Raw Time} {e : MachineStep Rng Raw Time}
    (h : m.Waiting parseQuantity allocator reportCpuEvent)
    (hgranted : m.StepGranted parseQuantity allocator e) :
    (m.step parseQuantity allocator reportCpuEvent loads e).Waiting parseQuantity allocator
      reportCpuEvent := by
  rcases m.step_cases parseQuantity allocator reportCpuEvent loads e with
    ⟨hs, _⟩ | ⟨e', rfl, _, hwhen, hs⟩ | ⟨e', c, caller, rfl, hin, hcall, hs⟩
    | ⟨_, _, _, rfl, _, hs⟩ | ⟨ok, c, cs, manager, caller, rfl, hin, hs⟩ | ⟨i, ok, rfl, hs⟩
  · rw [hs]
    exact h
  · rw [hs]
    intro cgroupCalls manager time call hin'
    have hin : m.inCall = some ⟨cgroupCalls, manager, .handler time call⟩ := hin'
    obtain ⟨hgr, c, hcall, hmanager⟩ := h cgroupCalls manager time call hin
    rcases hwhen with hnone | hwaits
    · rw [hin] at hnone
      cases hnone
    have haside := m.dockerHost.aside_step parseQuantity allocator reportCpuEvent loads hwaits
    refine ⟨?_, c, ?_, ?_⟩
    · intro batch event pending hphase
      rw [haside.workloadManager]
      exact hgr batch event pending (haside.phase ▸ hphase)
    · unfold DockerHost.isolateCall at hcall ⊢
      dsimp only at hcall ⊢
      rw [haside.started, haside.phase]
      exact hcall
    · rw [haside.workloadManager]
      exact hmanager
  · rw [hs]
    intro cgroupCalls manager time call hin'
    cases hin'
    obtain rfl := DockerHost.isolateCall_handler hcall
    exact ⟨hgranted hin, c, hcall, rfl⟩
  · rw [hs]
    intro cgroupCalls manager time call hin'
    cases hin'
  · rw [hs]
    intro cgroupCalls manager' time call hin'
    cases hin'
    exact h _ _ time call hin
  · rw [hs]
    exact h

/-- What `init()` will have done makes no difference to the threads that do not wait for it. -/
theorem resume_step (d : DockerHost Raw Time) (manager : WorkloadManager)
    {e : DockerStep Rng Raw Time} (h : e.waits = false) :
    (d.step parseQuantity allocator reportCpuEvent loads e).resume manager
        (.init : IsolateCaller Rng Time)
      = (d.resume manager (.init : IsolateCaller Rng Time)).step parseQuantity allocator
          reportCpuEvent loads e := by
  cases e with
  | openStream => cases h
  | isolateCurrent call => cases h
  | startProcessing => cases h
  | consume time call => cases h
  | docker raw => rfl
  | pull time =>
    obtain ⟨running, bystanders, stream, isolated, started, agent⟩ := d
    unfold DockerHost.step DockerHost.resume
    match stream with
    | none => rfl
    | some [] => rfl
    | some (raw :: messages) =>
      dsimp only
      split
      · unfold Agent.pull
        dsimp only
        split
        · rfl
        · rfl
      · rfl
  | schedule action time =>
    unfold DockerHost.step DockerHost.resume
    dsimp only
    split
    · rfl
    · rfl
  | stop => rfl

theorem docker_step {m : Machine Rng Raw Time} {e : MachineStep Rng Raw Time}
    (h : m.Waiting parseQuantity allocator reportCpuEvent) :
    (m.step parseQuantity allocator reportCpuEvent loads e).docker
      = (m.dockerEvent parseQuantity e).elim m.docker
          (m.docker.step parseQuantity allocator reportCpuEvent loads) := by
  rcases m.step_cases parseQuantity allocator reportCpuEvent loads e with
    ⟨hs, ⟨e', rfl, hin, hwaits⟩ | ⟨ok, rfl, hin⟩⟩ | ⟨e', rfl, hcall, hwhen, hs⟩
    | ⟨e', c, caller, rfl, hin, hcall, hs⟩ | ⟨ok, manager, caller, rfl, hin, hs⟩
    | ⟨ok, c, cs, manager, caller, rfl, hin, hs⟩ | ⟨i, ok, rfl, hs⟩
  · rw [hs]
    cases hu : m.inCall with
    | none => exact absurd hu hin
    | some u => simp [dockerEvent, hu, hwaits]
  · rw [hs]
    simp [dockerEvent, hin]
  · rw [hs]
    match hu : m.inCall with
    | none => simp [dockerEvent, docker, hu, hcall]
    | some ⟨_, manager, .init⟩ =>
      have hwaits := hwhen.resolve_left (by rw [hu]; exact Option.some_ne_none _)
      simp [dockerEvent, docker, hu, hwaits, resume_step]
    | some ⟨_, _, .handler _ _⟩ =>
      have hwaits := hwhen.resolve_left (by rw [hu]; exact Option.some_ne_none _)
      simp [dockerEvent, docker, hu, hwaits]
  · rw [hs]
    cases caller with
    | init =>
      simp only [dockerEvent, docker, hin, hcall, Option.elim_some]
      exact (DockerHost.step_of_isolateCall hcall).symm
    | handler time call => simp [dockerEvent, docker, hin, hcall]
  · rw [hs]
    cases caller with
    | init => simp [dockerEvent, docker, hin]
    | handler time call =>
      obtain ⟨_, c, hcall, rfl⟩ := h _ _ time call hin
      simp only [dockerEvent, docker, hin, Option.elim_some]
      exact (DockerHost.step_of_isolateCall hcall).symm
  · rw [hs]
    cases caller with
    | init => simp [dockerEvent, docker, hin]
    | handler time call => simp [dockerEvent, docker, hin]
  · rw [hs]
    rfl

/-- What is granted of the machine is granted of Docker and the agent. -/
theorem docker_granted {m : Machine Rng Raw Time} {e : MachineStep Rng Raw Time}
    {e' : DockerStep Rng Raw Time} (h : m.Waiting parseQuantity allocator reportCpuEvent)
    (hgranted : m.StepGranted parseQuantity allocator e)
    (hshown : m.dockerEvent parseQuantity e = some e') :
    m.docker.StepGranted parseQuantity allocator e' := by
  cases e with
  | agent e =>
    unfold dockerEvent at hshown
    cases hin : m.inCall with
    | some u =>
      simp only [hin] at hshown
      split at hshown
      · cases hshown
      · rename_i hwaits
        cases hshown
        cases e' with
        | openStream => trivial
        | isolateCurrent call => exact absurd rfl hwaits
        | startProcessing => trivial
        | consume time call => exact absurd rfl hwaits
        | docker raw => trivial
        | pull time => trivial
        | schedule action time => trivial
        | stop => trivial
    | none =>
      have hsame : e = e' := by
        simp only [hin] at hshown
        split at hshown
        · exact Option.some.inj hshown
        · exact Option.some.inj hshown
        · cases hshown
      have hdocker : m.docker = m.dockerHost := by
        unfold docker
        rw [hin]
      rw [hdocker, ← hsame]
      exact hgranted hin
  | advance ok =>
    unfold dockerEvent at hshown
    dsimp only at hshown
    split at hshown
    · cases hshown
    · rename_i manager time call hin
      cases hshown
      have hdocker : m.docker = m.dockerHost := by
        unfold docker
        rw [hin]
      rw [hdocker]
      exact (h _ _ time call hin).1
    · cases hshown
    · cases hshown
  | complete i ok => cases hshown

/-! ## Runs seen as runs of the parts -/

variable (parseQuantity allocator reportCpuEvent loads) in
/-- A run of the machine is a run of a host, whatever is asked of its steps. -/
def hostProjection (D : Host → HostEvent Rng → Prop) : Projection
    (step parseQuantity allocator reportCpuEvent loads :
      Machine Rng Raw Time → MachineStep Rng Raw Time → Machine Rng Raw Time)
    (fun m e => ∀ he, m.hostEvent parseQuantity e = some he → D m.host he)
    (Host.step allocator reportCpuEvent) D where
  view := host
  shown := hostEvent parseQuantity
  Inv := fun _ => True
  inv_step := fun _ _ _ _ => trivial
  view_step := fun m e _ _ => m.host_step e
  meets := fun _ _ he _ hD hshown => hD he hshown

variable (parseQuantity allocator reportCpuEvent loads) in
/-- A run of the machine is a run of Docker with the agent. -/
def dockerProjection : Projection
    (step parseQuantity allocator reportCpuEvent loads :
      Machine Rng Raw Time → MachineStep Rng Raw Time → Machine Rng Raw Time)
    (StepGranted parseQuantity allocator)
    (DockerHost.step parseQuantity allocator reportCpuEvent loads :
      DockerHost Raw Time → DockerStep Rng Raw Time → DockerHost Raw Time)
    (DockerHost.StepGranted parseQuantity allocator) where
  view := docker
  shown := dockerEvent parseQuantity
  Inv := Waiting parseQuantity allocator reportCpuEvent
  inv_step := fun _ _ h hgranted => waiting_step h hgranted
  view_step := fun _ _ h _ => docker_step h
  meets := fun _ _ _ h hgranted hshown => docker_granted h hgranted hshown

end Machine

end

end TitusIsolate
