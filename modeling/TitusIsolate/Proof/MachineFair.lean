import Mathlib.Data.Prod.Lex
import TitusIsolate.Lib.Fairness
import TitusIsolate.Proof.Draining
import TitusIsolate.Proof.Machine

/-!
# The machine comes to rest

Once Docker and the scheduler have nothing to say there are four kinds of threads left that
can move: the one that pulls the stream, the consumer, whoever has called `isolate`, and the
writer threads. None of them waits for another for ever, so if each has its turn again and
again the machine comes to rest, whatever the handlers find, however the allocator answers
and whichever writes fail.

What falls is, in this order: the messages in the stream, the steps the consumer has before
it, whether `isolate` is still to be called, the cgroup calls to be made, the writer threads.
-/

namespace TitusIsolate

open Run

variable {Rng Raw Time : Type}

section

variable {parseQuantity : String → Except PyError Decimal} {allocator : CpuAllocator Rng}
  {reportCpuEvent : Ambient Rng → AllocateRequest → AllocateResponse → Except PyError Unit}

namespace DockerHost

/-- The agent was started in the order in which `init()` and its caller start it. -/
structure InTurn (d : DockerHost Raw Time) : Prop where
  draining : d.agent.Draining
  isolated : d.started = true → d.isolated = true
  opened : d.isolated = true → d.stream ≠ none

theorem inTurn_init (running bystanders : List WorkloadId) (instanceId : Option String)
    (cpu : Cpu) (reg : EventRegistry Time) :
    InTurn (init running bystanders instanceId cpu reg : DockerHost Raw Time) where
  draining := ⟨EventManager.invariant_init eventHandlers reg, rfl, rfl, fun h => nomatch h⟩
  isolated := fun h => nomatch h
  opened := fun h => nomatch h

variable [Sub Time] {loads : Raw → Except PyError Json}

variable (parseQuantity allocator reportCpuEvent loads) in
theorem opened_step {d : DockerHost Raw Time} (h : d.stream ≠ none)
    (e : DockerStep Rng Raw Time) :
    (d.step parseQuantity allocator reportCpuEvent loads e).stream ≠ none := by
  cases e with
  | docker raw => exact fun hnone => h (Option.map_eq_none_iff.mp hnone)
  | openStream =>
    unfold DockerHost.step
    dsimp only
    split
    · exact Option.some_ne_none _
    · exact h
  | isolateCurrent call =>
    unfold DockerHost.step
    dsimp only
    split
    · exact h
    · exact h
  | startProcessing =>
    unfold DockerHost.step
    dsimp only
    split
    · exact h
    · exact h
  | pull time =>
    unfold DockerHost.step
    dsimp only
    split
    · exact h
    · exact h
    · split
      · exact Option.some_ne_none _
      · exact h
  | schedule action time =>
    unfold DockerHost.step
    dsimp only
    split
    · exact h
    · exact h
  | consume time call =>
    unfold DockerHost.step
    dsimp only
    split
    · exact h
    · exact h
  | stop => exact h

variable (parseQuantity allocator reportCpuEvent loads) in
theorem InTurn.step {d : DockerHost Raw Time} (h : d.InTurn) {e : DockerStep Rng Raw Time}
    (he : e ≠ .stop) :
    (d.step parseQuantity allocator reportCpuEvent loads e).InTurn := by
  have hopened := fun hisolated =>
    opened_step parseQuantity allocator reportCpuEvent loads (h.opened hisolated) e
  cases e with
  | docker raw => exact ⟨h.draining, h.isolated, hopened⟩
  | openStream =>
    unfold DockerHost.step
    dsimp only
    split
    · exact ⟨h.draining, h.isolated, fun _ => Option.some_ne_none _⟩
    · exact h
  | isolateCurrent call =>
    unfold DockerHost.step
    dsimp only
    split
    · rename_i hnow
      rw [Bool.and_eq_true] at hnow
      exact ⟨⟨h.draining.books, h.draining.handlers, h.draining.running⟩, fun _ => rfl,
        fun _ => Option.isSome_iff_ne_none.mp hnow.1⟩
    · exact h
  | startProcessing =>
    unfold DockerHost.step
    dsimp only
    split
    · rename_i hisolated
      exact ⟨h.draining, fun _ => hisolated, h.opened⟩
    · exact h
  | pull time =>
    unfold DockerHost.step
    dsimp only
    split
    · exact h
    · exact h
    · rename_i raw messages _
      split
      · rename_i hnow
        rw [Bool.and_eq_true] at hnow
        have hpull : (d.agent.step parseQuantity allocator reportCpuEvent loads
            (.message raw time)).Draining := h.draining.step (fun hstop => nomatch hstop)
        unfold Agent.step at hpull
        dsimp only at hpull
        rw [if_pos hnow.2] at hpull
        exact ⟨hpull, h.isolated, fun _ => Option.some_ne_none _⟩
      · exact h
  | schedule action time =>
    unfold DockerHost.step
    dsimp only
    split
    · have hschedule : (d.agent.step parseQuantity allocator reportCpuEvent loads
          (.schedule action time)).Draining := h.draining.step (fun hstop => nomatch hstop)
      exact ⟨hschedule, h.isolated, h.opened⟩
    · exact h
  | consume time call =>
    unfold DockerHost.step
    dsimp only
    split
    · exact ⟨(h.draining.consume parseQuantity allocator reportCpuEvent time call).1, h.isolated,
        h.opened⟩
    · exact h
  | stop => exact absurd rfl he

end DockerHost

namespace Machine

/-! ## Threads -/

/-- What can still move when Docker and the scheduler have nothing to say. -/
inductive OwnThread where
  | puller
  | consumer
  /-- Whoever has called `isolate`. -/
  | isolating
  /-- The oldest of the writer threads. -/
  | writer

/-- The steps of a thread. -/
def OwnThread.takes : OwnThread → MachineStep Rng Raw Time → Prop
  | .puller, e => ∃ time, e = .agent (.pull time)
  | .consumer, e => ∃ time call, e = .agent (.consume time call)
  | .isolating, e => ∃ ok, e = .advance ok
  | .writer, e => ∃ ok, e = .complete 0 ok

/-- Neither Docker nor the scheduler says anything, and the agent is not stopped. -/
def Own : MachineStep Rng Raw Time → Prop
  | .agent (.pull _) => True
  | .agent (.consume _ _) => True
  | .agent _ => False
  | .advance _ => True
  | .complete _ _ => True

/-- Events are processed, and what waits in the stream can be read. -/
structure Going (loads : Raw → Except PyError Json) (m : Machine Rng Raw Time) : Prop where
  inTurn : m.dockerHost.InTurn
  started : m.dockerHost.started = true
  pulling : m.dockerHost.agent.pulling = true
  readable : ∀ raw ∈ m.dockerHost.stream.getD [], ∃ event, readMessage loads raw = .ok event
  /-- `isolate` is called by a handler that the consumer is in. -/
  caller : ∀ u, m.inCall = some u → ∃ time call, u.caller = .handler time call
    ∧ ∃ batch made pending,
      m.dockerHost.agent.eventManager.phase = .handling batch (made :: pending)

/-- The thread has nothing to do. -/
def Idles (m : Machine Rng Raw Time) : MachineStep Rng Raw Time → Prop
  | .agent (.pull _) => m.dockerHost.stream = some []
  | .agent (.consume _ _) => m.inCall ≠ none ∨ m.dockerHost.agent.eventManager.remaining = 0
  | .advance _ => m.inCall = none
  | .complete i _ => m.world.manager.threads[i]? = none
  | _ => True

/-- What is left to do. -/
def rank (m : Machine Rng Raw Time) : ℕ ×ₗ ℕ ×ₗ ℕ ×ₗ ℕ ×ₗ ℕ :=
  toLex ((m.dockerHost.stream.getD []).length,
    toLex (m.dockerHost.agent.eventManager.remaining,
      toLex (if m.inCall = none then 1 else 0,
        toLex (m.host.due.1.length, m.world.manager.threads.length))))

theorem rank_lt {m m' : Machine Rng Raw Time} :
    m'.rank < m.rank ↔
      (m'.dockerHost.stream.getD []).length < (m.dockerHost.stream.getD []).length
        ∨ (m'.dockerHost.stream.getD []).length = (m.dockerHost.stream.getD []).length
          ∧ (m'.dockerHost.agent.eventManager.remaining
              < m.dockerHost.agent.eventManager.remaining
            ∨ m'.dockerHost.agent.eventManager.remaining
                = m.dockerHost.agent.eventManager.remaining
              ∧ ((if m'.inCall = none then 1 else 0) < (if m.inCall = none then 1 else 0)
                ∨ (if m'.inCall = none then 1 else 0) = (if m.inCall = none then 1 else 0)
                  ∧ (m'.host.due.1.length < m.host.due.1.length
                    ∨ m'.host.due.1.length = m.host.due.1.length
                      ∧ m'.world.manager.threads.length
                        < m.world.manager.threads.length))) := by
  simp only [rank, Prod.Lex.toLex_lt_toLex]

/-- A step that leads on: its thread has nothing to do, or there is less to do afterwards. -/
structure LeadsOn (loads : Raw → Except PyError Json) (m m' : Machine Rng Raw Time)
    (idle : Prop) : Prop where
  going : m'.Going loads
  nearer : m' = m ∧ idle ∨ m'.rank < m.rank

/-! ## Getting there -/

/-- What holds of a machine that is not stopped. -/
structure Orderly (m : Machine Rng Raw Time) : Prop where
  inTurn : m.dockerHost.InTurn
  caller : ∀ u, m.inCall = some u →
    (u.caller = .init ∧ m.dockerHost.isolated = false ∧ m.dockerHost.stream ≠ none)
      ∨ ∃ time call, u.caller = .handler time call ∧ ∃ batch made pending,
          m.dockerHost.agent.eventManager.phase = .handling batch (made :: pending)

theorem Orderly.going {loads : Raw → Except PyError Json} {m : Machine Rng Raw Time} (h : m.Orderly)
    (hstarted : m.dockerHost.started = true) (hpulling : m.dockerHost.agent.pulling = true)
    (hreadable : ∀ raw ∈ m.dockerHost.stream.getD [], ∃ event, readMessage loads raw = .ok event) :
    m.Going loads where
  inTurn := h.inTurn
  started := hstarted
  pulling := hpulling
  readable := hreadable
  caller := by
    intro u hu
    rcases h.caller u hu with ⟨_, hisolated, _⟩ | hhandler
    · exact absurd (hisolated.symm.trans (h.inTurn.isolated hstarted)) Bool.false_ne_true
    · exact hhandler

/-- A machine at which every thread idles is at rest. -/
theorem Going.rests {loads : Raw → Except PyError Json} {m : Machine Rng Raw Time} (h : m.Going loads)
    (hstream : m.dockerHost.stream = some []) (hin : m.inCall = none)
    (hzero : m.dockerHost.agent.eventManager.remaining = 0)
    (hthreads : m.world.manager.threads = []) : m.Rests := by
  obtain ⟨hidle, hqueue⟩ := EventManager.rests_of_remaining h.inTurn.draining.books
    h.inTurn.draining.running hzero
  refine ⟨⟨h.inTurn.isolated h.started, hstream, hidle, hqueue⟩, ?_, ?_⟩
  · unfold host
    rw [hin]
    rfl
  · show m.world.manager.hasPendingWork = false
    unfold FileCgroupManager.hasPendingWork
    rw [hthreads]
    rfl

/-- Wherever the machine is not at rest, some thread does not idle. -/
theorem Going.busy {loads : Raw → Except PyError Json} {m : Machine Rng Raw Time}
    (h : m.Going loads) (hrests : ¬ m.Rests) :
    ∃ t : OwnThread, ∀ e : MachineStep Rng Raw Time, t.takes e → ¬ m.Idles e := by
  by_cases hstream : m.dockerHost.stream = some []
  · by_cases hin : m.inCall = none
    · by_cases hzero : m.dockerHost.agent.eventManager.remaining = 0
      · refine ⟨.writer, ?_⟩
        intro e htakes hidle
        obtain ⟨ok, rfl⟩ := htakes
        exact hrests (h.rests hstream hin hzero (List.eq_nil_of_length_eq_zero
          (Nat.le_zero.mp (List.getElem?_eq_none_iff.mp hidle))))
      · refine ⟨.consumer, ?_⟩
        intro e htakes hidle
        obtain ⟨time, call, rfl⟩ := htakes
        exact hidle.elim (fun hbusy => hbusy hin) hzero
    · refine ⟨.isolating, ?_⟩
      intro e htakes hidle
      obtain ⟨ok, rfl⟩ := htakes
      exact hin hidle
  · refine ⟨.puller, ?_⟩
    intro e htakes hidle
    obtain ⟨time, rfl⟩ := htakes
    exact hstream hidle

variable [Sub Time] {loads : Raw → Except PyError Json}

theorem inTurn_resume {d : DockerHost Raw Time} (h : d.InTurn) (manager : WorkloadManager)
    {caller : IsolateCaller Rng Time} (hopened : caller = .init → d.stream ≠ none) :
    (d.resume manager caller).InTurn := by
  cases caller with
  | init =>
    exact ⟨⟨h.draining.books, h.draining.handlers, h.draining.running⟩, fun _ => rfl,
      fun _ => hopened rfl⟩
  | handler time call =>
    exact ⟨⟨EventManager.invariant_consume h.draining.books false time,
      (d.agent.eventManager.consume_frame false time).1.trans h.draining.handlers,
      h.draining.running.consume false time⟩, h.isolated, h.opened⟩

theorem orderly_step {m : Machine Rng Raw Time} {e : MachineStep Rng Raw Time} (h : m.Orderly)
    (he : e ≠ .agent .stop) :
    (m.step parseQuantity allocator reportCpuEvent loads e).Orderly := by
  rcases m.step_cases parseQuantity allocator reportCpuEvent loads e with
    ⟨hs, _⟩ | ⟨e', rfl, _, hwhen, hs⟩ | ⟨e', c, caller, rfl, hin, hcall, hs⟩
    | ⟨_, manager, caller, rfl, hin, hs⟩ | ⟨ok, c, cs, manager, caller, rfl, hin, hs⟩
    | ⟨i, ok, rfl, hs⟩
  · rw [hs]
    exact h
  · rw [hs]
    refine ⟨h.inTurn.step parseQuantity allocator reportCpuEvent loads
      (fun hstop => he (hstop ▸ rfl)), ?_⟩
    intro u hu
    have hin : m.inCall = some u := hu
    have haside := m.dockerHost.aside_step parseQuantity allocator reportCpuEvent loads
      (hwhen.resolve_left (by rw [hin]; exact Option.some_ne_none _))
    rcases h.caller u hin with ⟨hinit, hisolated, hopened⟩ | ⟨time, call, hhandler, hphase⟩
    · exact .inl ⟨hinit, haside.isolated.trans hisolated,
        DockerHost.opened_step parseQuantity allocator reportCpuEvent loads hopened e'⟩
    · refine .inr ⟨time, call, hhandler, ?_⟩
      dsimp only
      rw [haside.phase]
      exact hphase
  · rw [hs]
    refine ⟨h.inTurn, ?_⟩
    intro u hu
    cases hu
    cases caller with
    | init =>
      obtain ⟨_, hopened, hisolated⟩ := DockerHost.isolateCall_init hcall
      exact .inl ⟨rfl, hisolated, hopened⟩
    | handler time call =>
      obtain rfl := DockerHost.isolateCall_handler hcall
      obtain ⟨_, _, batch, event, i, pending, hphase, _⟩ := DockerHost.isolateCall_consume hcall
      exact .inr ⟨time, call, rfl, batch, (event, i), pending, hphase⟩
  · rw [hs]
    refine ⟨inTurn_resume h.inTurn manager ?_, fun u hu => nomatch hu⟩
    rintro rfl
    rcases h.caller _ hin with ⟨_, _, hopened⟩ | ⟨_, _, hcaller, _⟩
    · exact hopened
    · cases hcaller
  · rw [hs]
    refine ⟨h.inTurn, ?_⟩
    intro u hu
    cases hu
    exact h.caller ⟨c :: cs, manager, caller⟩ hin
  · rw [hs]
    exact ⟨h.inTurn, h.caller⟩

/-! ## Each step goes on towards rest -/

variable (parseQuantity allocator reportCpuEvent) in
theorem consume_pulling (a : Agent Raw Time) (time : Time) (call : HandlerCall Rng) :
    (a.consume parseQuantity allocator reportCpuEvent time call).pulling = a.pulling := by
  cases hcalling : EventManager.calling a.eventManager.phase with
  | none => rw [Agent.consume_of_not_calling hcalling]
  | some made =>
    obtain ⟨raises, heq⟩ := Agent.consume_of_calling parseQuantity allocator reportCpuEvent
      hcalling time call
    rw [heq]

/-- The pulling thread takes a message off the stream. -/
theorem leadsOn_pull {m : Machine Rng Raw Time} (h : m.Going loads) (time : Time) :
    m.LeadsOn loads (m.step parseQuantity allocator reportCpuEvent loads (.agent (.pull time)))
      (m.dockerHost.stream = some []) := by
  have hstep : m.step parseQuantity allocator reportCpuEvent loads (.agent (.pull time))
      = { m with
          dockerHost := m.dockerHost.step parseQuantity allocator reportCpuEvent loads
            (.pull time) } := by
    unfold step
    cases hin : m.inCall with
    | none => rfl
    | some u => rfl
  have hturn := h.inTurn.step parseQuantity allocator reportCpuEvent loads (e := .pull time)
    (fun hstop => nomatch hstop)
  have haside := m.dockerHost.aside_step parseQuantity allocator reportCpuEvent loads
    (e := .pull time) rfl
  rw [hstep]
  match hstream : m.dockerHost.stream with
  | none => exact absurd hstream (h.inTurn.opened (h.inTurn.isolated h.started))
  | some [] =>
    have hstays : m.dockerHost.step parseQuantity allocator reportCpuEvent loads (.pull time)
        = m.dockerHost := by
      unfold DockerHost.step
      dsimp only
      rw [hstream]
    rw [hstays]
    exact ⟨h, .inl ⟨rfl, rfl⟩⟩
  | some (raw :: messages) =>
    have htakes : m.dockerHost.step parseQuantity allocator reportCpuEvent loads (.pull time)
        = { m.dockerHost with
            stream := some messages, agent := m.dockerHost.agent.pull loads raw time } := by
      unfold DockerHost.step
      dsimp only
      rw [hstream]
      dsimp only
      rw [if_pos (by rw [h.started, h.pulling]; rfl)]
    have hreadable := h.readable
    rw [hstream] at hreadable
    obtain ⟨event, hread⟩ := hreadable raw (List.mem_cons_self ..)
    have hpulling : (m.dockerHost.agent.pull loads raw time).pulling = true := by
      unfold Agent.pull EventManager.putEvent
      rw [hread]
      cases event with
      | none => exact h.pulling
      | some event => exact h.pulling
    refine ⟨⟨hturn, haside.started.trans h.started, ?_, ?_, ?_⟩, .inr ?_⟩
    · rw [htakes]
      exact hpulling
    · rw [htakes]
      exact fun raw hraw => hreadable raw (List.mem_cons_of_mem _ hraw)
    · intro u hu
      dsimp only
      rw [haside.phase]
      exact h.caller u hu
    · rw [rank_lt, htakes, hstream]
      exact .inl (Nat.lt_succ_self _)

/-- The consumer goes on, or calls `isolate`. -/
theorem leadsOn_consume {m : Machine Rng Raw Time} (h : m.Going loads) (time : Time)
    (call : HandlerCall Rng) :
    m.LeadsOn loads
      (m.step parseQuantity allocator reportCpuEvent loads (.agent (.consume time call)))
      (m.inCall ≠ none ∨ m.dockerHost.agent.eventManager.remaining = 0) := by
  rcases m.step_cases parseQuantity allocator reportCpuEvent loads (.agent (.consume time call)) with
    ⟨hs, ⟨e', _, hin, _⟩ | ⟨_, he, _⟩⟩ | ⟨e', he, hcall, hwhen, hs⟩
    | ⟨e', c, caller, he, hin, hcall, hs⟩ | ⟨_, _, _, he, _⟩ | ⟨_, _, _, _, _, he, _⟩
    | ⟨_, _, he, _⟩
  · rw [hs]
    exact ⟨h, .inl ⟨rfl, .inl hin⟩⟩
  · cases he
  · obtain rfl := MachineStep.agent.inj he
    have hin : m.inCall = none := hwhen.resolve_right (fun hwaits => Bool.noConfusion hwaits)
    have hstep : m.dockerHost.step parseQuantity allocator reportCpuEvent loads
        (.consume time call) = { m.dockerHost with
          agent := m.dockerHost.agent.consume parseQuantity allocator reportCpuEvent time call } := by
      unfold DockerHost.step
      dsimp only
      rw [if_pos h.started]
    rcases Nat.eq_zero_or_pos m.dockerHost.agent.eventManager.remaining with hzero | hbusy
    · rw [hs, hstep, h.inTurn.draining.stays parseQuantity allocator reportCpuEvent hzero]
      exact ⟨h, .inl ⟨rfl, .inr hzero⟩⟩
    · have hnearer := (h.inTurn.draining.consume parseQuantity allocator reportCpuEvent time
        call).2 hbusy
      have hturn := h.inTurn.step parseQuantity allocator reportCpuEvent loads
        (e := .consume time call) (fun hstop => nomatch hstop)
      rw [hs]
      refine ⟨⟨hturn, ?_, ?_, ?_, ?_⟩, .inr ?_⟩
      · rw [hstep]
        exact h.started
      · rw [hstep]
        exact (consume_pulling parseQuantity allocator reportCpuEvent _ time call).trans h.pulling
      · rw [hstep]
        exact h.readable
      · intro u hu
        exact absurd (hin.symm.trans hu) (Option.some_ne_none u).symm
      · rw [rank_lt, hstep]
        exact .inr ⟨rfl, .inl hnearer⟩
  · obtain rfl := MachineStep.agent.inj he
    obtain ⟨_, rfl, batch, event, i, pending, hphase, _⟩ := DockerHost.isolateCall_consume hcall
    rw [hs]
    refine ⟨⟨h.inTurn, h.started, h.pulling, h.readable, ?_⟩, .inr ?_⟩
    · intro u hu
      cases hu
      exact ⟨time, call, rfl, batch, (event, i), pending, hphase⟩
    · rw [rank_lt]
      refine .inr ⟨rfl, .inr ⟨rfl, .inl ?_⟩⟩
      rw [if_neg (Option.some_ne_none _), if_pos hin]
      exact Nat.one_pos
  · cases he
  · cases he
  · cases he

/-- A call of `isolate` makes its next cgroup call, or its handler goes on. -/
theorem leadsOn_advance {m : Machine Rng Raw Time} (h : m.Going loads) (ok : Bool) :
    m.LeadsOn loads (m.step parseQuantity allocator reportCpuEvent loads (.advance ok))
      (m.inCall = none) := by
  rcases m.step_cases parseQuantity allocator reportCpuEvent loads (.advance ok) with
    ⟨hs, ⟨_, he, _⟩ | ⟨_, _, hin⟩⟩ | ⟨_, he, _⟩ | ⟨_, _, _, he, _⟩
    | ⟨_, manager, caller, _, hin, hs⟩ | ⟨_, c, cs, manager, caller, he, hin, hs⟩ | ⟨_, _, he, _⟩
  · cases he
  · rw [hs]
    exact ⟨h, .inl ⟨rfl, hin⟩⟩
  · cases he
  · cases he
  · obtain ⟨time, call, hcaller, batch, made, pending, hphase⟩ := h.caller _ hin
    obtain rfl : caller = .handler time call := hcaller
    have hbusy : 0 < m.dockerHost.agent.eventManager.remaining := by
      unfold EventManager.remaining
      rw [hphase]
      exact Nat.succ_pos _
    have hnearer := EventManager.remaining_consume
      (by rw [h.inTurn.draining.handlers]; rfl) h.inTurn.draining.running.1 hbusy false time
    rw [hs]
    have hturn : (m.dockerHost.resume manager
        (.handler time call : IsolateCaller Rng Time)).InTurn :=
      inTurn_resume h.inTurn manager (fun hinit => nomatch hinit)
    refine ⟨⟨hturn, h.started, h.pulling, h.readable, fun u hu => nomatch hu⟩, .inr ?_⟩
    rw [rank_lt]
    exact .inr ⟨rfl, .inl hnearer⟩
  · rw [hs]
    refine ⟨⟨h.inTurn, h.started, h.pulling, h.readable, ?_⟩, .inr ?_⟩
    · intro u hu
      cases hu
      exact h.caller ⟨c :: cs, manager, caller⟩ hin
    · rw [rank_lt]
      refine .inr ⟨rfl, .inr ⟨rfl, .inr ⟨?_, .inl ?_⟩⟩⟩
      · rw [if_neg (Option.some_ne_none _), if_neg (by rw [hin]; exact Option.some_ne_none _)]
      · have hdue : m.host.due.1 = c :: cs := by
          unfold host Host.due
          rw [hin]
          rfl
        rw [hdue]
        exact Nat.lt_succ_self _
  · cases he

/-- A writer thread ends. -/
theorem leadsOn_complete {m : Machine Rng Raw Time} (h : m.Going loads) (i : Nat) (ok : Bool) :
    m.LeadsOn loads (m.step parseQuantity allocator reportCpuEvent loads (.complete i ok))
      (m.world.manager.threads[i]? = none) := by
  have hs : m.step parseQuantity allocator reportCpuEvent loads (.complete i ok)
      = { m with world := m.world.complete i ok } := rfl
  have hgoing : Going loads { m with world := m.world.complete i ok } :=
    ⟨h.inTurn, h.started, h.pulling, h.readable, h.caller⟩
  rw [hs]
  rcases FileWorld.step_cases m.world (.complete i ok) with ⟨_, _, he, _⟩ | ⟨_, _, _, he, _⟩
    | ⟨_, _, _, he, _⟩ | ⟨_, _, t, he, hi, hw⟩ | ⟨_, _, he, hi, hw⟩
  · cases he
  · cases he
  · cases he
  · cases he
    refine ⟨hgoing, .inr ?_⟩
    have hfewer : (m.world.complete i ok).manager.threads.length
        < m.world.manager.threads.length := by
      have hw' : m.world.complete i ok = _ := hw
      rw [hw', FileWorld.threads_set]
      show (m.world.manager.threads.eraseIdx i).length < _
      have hlt := List.getElem?_eq_some_iff.mp hi
      rw [List.length_eraseIdx_of_lt hlt.1]
      have hpos := hlt.1
      omega
    rw [rank_lt]
    exact .inr ⟨rfl, .inr ⟨rfl, .inr ⟨rfl, .inr ⟨rfl, hfewer⟩⟩⟩⟩
  · cases he
    have hw' : m.world.complete i ok = m.world := hw
    rw [hw']
    exact ⟨h, .inl ⟨rfl, hi⟩⟩

theorem leadsOn {m : Machine Rng Raw Time} (h : m.Going loads)
    {e : MachineStep Rng Raw Time} (he : Own e) :
    m.LeadsOn loads (m.step parseQuantity allocator reportCpuEvent loads e) (m.Idles e) := by
  cases e with
  | agent e =>
    cases e with
    | pull time => exact leadsOn_pull h time
    | consume time call => exact leadsOn_consume h time call
    | docker raw => exact he.elim
    | openStream => exact he.elim
    | isolateCurrent call => exact he.elim
    | startProcessing => exact he.elim
    | schedule action time => exact he.elim
    | stop => exact he.elim
  | advance ok => exact leadsOn_advance h ok
  | complete i ok => exact leadsOn_complete h i ok

variable (parseQuantity allocator reportCpuEvent) in
/-- Where nothing waits and `isolate` is not called, only writer threads go on. -/
theorem Going.onlyWriters {m : Machine Rng Raw Time} (h : m.Going loads)
    (hworked : m.dockerHost.WorkedOff) (hin : m.inCall = none)
    {e : MachineStep Rng Raw Time} (he : Own e) :
    m.step parseQuantity allocator reportCpuEvent loads e = m ∨ ∃ i ok, e = .complete i ok := by
  cases e with
  | advance ok => exact .inl (by simp [step, hin])
  | complete i ok => exact .inr ⟨i, ok, rfl⟩
  | agent e =>
    refine .inl ?_
    cases e with
    | pull time =>
      have hidle : m.dockerHost.step parseQuantity allocator reportCpuEvent loads (.pull time)
          = m.dockerHost := by
        unfold DockerHost.step
        dsimp only
        rw [hworked.stream]
      have hs : m.step parseQuantity allocator reportCpuEvent loads (.agent (.pull time))
          = { m with
              dockerHost := m.dockerHost.step parseQuantity allocator reportCpuEvent loads
                (.pull time) } := by
        simp [step, hin, DockerHost.isolateCall]
      rw [hs, hidle]
    | consume time call =>
      have hzero : m.dockerHost.agent.eventManager.remaining = 0 := by
        unfold EventManager.remaining
        rw [hworked.idle, hworked.queue]
        rfl
      have hidle : m.dockerHost.step parseQuantity allocator reportCpuEvent loads
          (.consume time call) = m.dockerHost := by
        unfold DockerHost.step
        dsimp only
        rw [if_pos h.started, h.inTurn.draining.stays parseQuantity allocator reportCpuEvent hzero]
      have hs : m.step parseQuantity allocator reportCpuEvent loads (.agent (.consume time call))
          = { m with
              dockerHost := m.dockerHost.step parseQuantity allocator reportCpuEvent loads
                (.consume time call) } := by
        simp [step, hin, DockerHost.isolateCall, hworked.idle]
      rw [hs, hidle]
    | docker raw => exact he.elim
    | openStream => exact he.elim
    | isolateCurrent call => exact he.elim
    | startProcessing => exact he.elim
    | schedule action time => exact he.elim
    | stop => exact he.elim

variable (parseQuantity allocator reportCpuEvent) in
/-- At rest nothing happens any more. -/
theorem Going.stays {m : Machine Rng Raw Time} (h : m.Going loads) (hrests : m.Rests)
    {e : MachineStep Rng Raw Time} (he : Own e) :
    m.step parseQuantity allocator reportCpuEvent loads e = m := by
  have hin : m.inCall = none := Option.map_eq_none_iff.mp hrests.quiet.1
  rcases h.onlyWriters parseQuantity allocator reportCpuEvent hrests.workedOff hin he with
    hstays | ⟨i, ok, rfl⟩
  · exact hstays
  · have hthreads : m.world.manager.threads = [] := hrests.quiet.threads
    have hcomplete : m.world.complete i ok = m.world := by
      unfold FileWorld.complete
      rw [hthreads]
      rfl
    show { m with world := m.world.complete i ok } = m
    rw [hcomplete]

variable (parseQuantity allocator reportCpuEvent) in
/-- **From every state from which the machine goes on, a fair schedule comes to rest.** -/
theorem Going.comesToRest {m : Machine Rng Raw Time} (h : m.Going loads)
    {schedule : Nat → MachineStep Rng Raw Time} (hown : ∀ n, Own (schedule n))
    (hfair : Fair OwnThread.takes schedule) :
    ∃ n, (after (step parseQuantity allocator reportCpuEvent loads) m schedule n).Going loads
      ∧ (after (step parseQuantity allocator reportCpuEvent loads) m schedule n).Rests := by
  refine fair_rests rank (I := fun m : Machine Rng Raw Time => m.Going loads)
    (R := fun m => m.Going loads ∧ m.Rests) (A := Own) ?_ ?_ h hown hfair
  · intro m e hm he
    obtain ⟨hgoing, hnearer⟩ := leadsOn hm he
    exact ⟨hgoing, hnearer.imp_left And.left⟩
  · intro m hm hrests
    obtain ⟨t, ht⟩ := hm.busy (fun hrest => hrests ⟨hm, hrest⟩)
    refine ⟨t, fun e he htakes hstays => ?_⟩
    rcases (leadsOn hm he).nearer with ⟨_, hidle⟩ | hlt
    · exact ht e htakes hidle
    · rw [hstays] at hlt
      exact lt_irrefl _ hlt

variable (parseQuantity allocator reportCpuEvent loads) in
theorem orderly_exec (running bystanders : List WorkloadId) (instanceId : Option String)
    (cpu : Cpu) (reg : EventRegistry Time) (files : Files)
    {es : List (MachineStep Rng Raw Time)} (hes : .agent .stop ∉ es) :
    (exec (step parseQuantity allocator reportCpuEvent loads)
      (init running bystanders instanceId cpu reg files) es).Orderly := by
  refine exec_of_mem (I := fun m : Machine Rng Raw Time => m.Orderly) ?_
    ⟨DockerHost.inTurn_init running bystanders instanceId cpu reg, fun u hu => nomatch hu⟩
  intro m e he hm
  exact orderly_step hm (fun hstop => hes (hstop ▸ he))

/-- **The machine comes to rest.** From every state that a machine reaches that was not stopped
and processes events, if what waits in the stream can be read and Docker and the scheduler add
nothing to it (`Own`), every schedule on which the puller, the consumer, the caller of `isolate`
and the oldest writer thread each have their turn again and again comes to rest, whatever the
handlers find and raise, whatever the allocator answers, whichever writes fail and whichever
other writer threads end meanwhile. -/
theorem reachable_comesToRestFairly (running bystanders : List WorkloadId)
    (instanceId : Option String) (cpu : Cpu) (reg : EventRegistry Time) (files : Files)
    (es : List (MachineStep Rng Raw Time)) (hes : .agent .stop ∉ es)
    (hstarted : (exec (step parseQuantity allocator reportCpuEvent loads)
      (init running bystanders instanceId cpu reg files) es).dockerHost.started = true)
    (hpulling : (exec (step parseQuantity allocator reportCpuEvent loads)
      (init running bystanders instanceId cpu reg files) es).dockerHost.agent.pulling = true)
    (hreadable : ∀ raw ∈ (exec (step parseQuantity allocator reportCpuEvent loads)
        (init running bystanders instanceId cpu reg files) es).dockerHost.stream.getD [],
      ∃ event, readMessage loads raw = .ok event)
    (schedule : Nat → MachineStep Rng Raw Time) (hown : ∀ n, Own (schedule n))
    (hfair : Fair OwnThread.takes schedule) :
    ∃ n, (after (step parseQuantity allocator reportCpuEvent loads)
      (exec (step parseQuantity allocator reportCpuEvent loads)
        (init running bystanders instanceId cpu reg files) es) schedule n).Rests := by
  have horderly := orderly_exec parseQuantity allocator reportCpuEvent loads running bystanders
    instanceId cpu reg files hes
  obtain ⟨n, _, hrests⟩ := (horderly.going hstarted hpulling hreadable).comesToRest
    parseQuantity allocator reportCpuEvent hown hfair
  exact ⟨n, hrests⟩

end Machine

end

namespace Machine

/-- The threads take turns. -/
def roundRobin (n : Nat) : MachineStep Unit Json Int :=
  match n % 4 with
  | 0 => .agent (.pull 0)
  | 1 => .agent (.consume 1 Agent.lateCall)
  | 2 => .advance true
  | _ => .complete 0 true

theorem roundRobin_own (n : Nat) : Own (roundRobin n) := by
  unfold roundRobin
  split
  · trivial
  · trivial
  · trivial
  · trivial

theorem roundRobin_fair : Fair OwnThread.takes roundRobin := by
  intro t n
  have hturn : ∀ i < 4, (4 * n + i) % 4 = i := by omega
  cases t with
  | puller =>
    refine ⟨4 * n + 0, by omega, 0, ?_⟩
    unfold roundRobin
    rw [hturn 0 (by decide)]
    rfl
  | consumer =>
    refine ⟨4 * n + 1, by omega, 1, Agent.lateCall, ?_⟩
    unfold roundRobin
    rw [hturn 1 (by decide)]
    rfl
  | isolating =>
    refine ⟨4 * n + 2, by omega, true, ?_⟩
    unfold roundRobin
    rw [hturn 2 (by decide)]
    rfl
  | writer =>
    refine ⟨4 * n + 3, by omega, true, ?_⟩
    unfold roundRobin
    rw [hturn 3 (by decide)]
    rfl

/-- Events are about to be processed, and a start waits in the stream. -/
def aboutToProcess : List (MachineStep Unit Json Int) :=
  [.agent .openStream, .agent (.docker Agent.taskStarts),
    .agent (.isolateCurrent Agent.lateCall), .advance true, .agent .startProcessing]

theorem reachable_comesToRestFairly_roundRobin :
    ∃ n, (after (step parseListed (noopCpuAllocator Unit) (fun _ _ _ => .ok ()) Except.ok)
      (exec (step parseListed (noopCpuAllocator Unit) (fun _ _ _ => .ok ()) Except.ok)
        (init [] [] none Config.twoThreads EventRegistry.empty (fun _ _ => none))
        aboutToProcess) roundRobin n).Rests := by
  refine reachable_comesToRestFairly [] [] none Config.twoThreads EventRegistry.empty _
    aboutToProcess ?_ rfl rfl ?_ roundRobin roundRobin_own roundRobin_fair
  · simp [aboutToProcess]
  · intro raw hraw
    rw [List.mem_singleton.mp (hraw : raw ∈ [Agent.taskStarts])]
    exact ⟨_, rfl⟩

end Machine

end TitusIsolate
