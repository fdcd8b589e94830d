import TitusIsolate.Proof.Follows

/-!
# The agent comes to rest

Once nothing more is put on the queue the consumer works it off: a batch of any size costs
it ten of its own steps for each event at most, whatever the handlers do. So the table of
the workload manager catches up with Docker's stream in a number of steps that the events
not yet processed give.
-/

namespace TitusIsolate

open Run

variable {Rng Raw Time : Type}

namespace EventManager

/-- How many steps the consumer has before it at most. -/
def remaining (m : EventManager Time) : Nat :=
  match m.phase with
  | .idle => 10 * m.queue.length
  | .sizing _ => 10 * m.queue.length + 9
  | .gathering batch _ => 10 * m.queue.length + 5 * batch.length + 3
  | .handling batch pending => 10 * m.queue.length + pending.length + batch.length + 2
  | .counting n => 10 * m.queue.length + n + 1
  | .exited => 0
  | .died _ => 0

/-- A batch is handed out as no more events than it has. -/
theorem length_handlerEvents_le (batch : List Event) :
    (handlerEvents batch).length ≤ batch.length := by
  have hparts := length_internal_add_container batch
  unfold handlerEvents
  simp only [List.length_append, List.length_map]
  split
  · simp only [List.length_singleton]
    omega
  · simp only [List.length_nil]
    omega

theorem length_handlerCalls_le (n : Nat) (batch : List Event) :
    (handlerCalls n batch).length ≤ n * batch.length := by
  have hlength : (handlerCalls n batch).length = n * (handlerEvents batch).length := by
    unfold handlerCalls
    induction handlerEvents batch with
    | nil => rfl
    | cons event events ih =>
      rw [List.flatMap_cons, List.length_append, ih, List.length_map, List.length_range,
        List.length_cons, Nat.mul_add, Nat.mul_one, Nat.add_comm]
  rw [hlength]
  exact Nat.mul_le_mul_left n (length_handlerEvents_le batch)

theorem remaining_handOut {m : EventManager Time} (hhandlers : m.handlers.length = 4)
    (batch : List Event) :
    (m.handOut batch).remaining < 10 * m.queue.length + 5 * batch.length + 3 := by
  have hcalls := length_handlerCalls_le 4 batch
  unfold remaining handOut
  dsimp only
  rw [hhandlers]
  omega

/-- Every step of a consumer that is not at rest brings it nearer to it. -/
theorem remaining_consume [Sub Time] {m : EventManager Time} (hhandlers : m.handlers.length = 4)
    (hstopped : m.stopped = false) (hbusy : 0 < m.remaining) (raises : Bool) (time : Time) :
    (m.consume raises time).remaining < m.remaining := by
  unfold consume
  cases hphase : m.phase with
  | idle =>
    unfold remaining at hbusy ⊢
    rw [hphase] at hbusy ⊢
    dsimp only at hbusy ⊢
    unfold dequeueEvent
    rw [if_neg (by rw [hstopped]; exact Bool.false_ne_true)]
    cases hq : m.queue with
    | nil => rw [hq] at hbusy; exact absurd hbusy (Nat.lt_irrefl 0)
    | cons q queue =>
      simp only [List.length_cons]
      omega
  | sizing first =>
    unfold remaining
    rw [hphase]
    simp only [List.length_singleton]
    omega
  | gathering batch n =>
    have hsize : m.remaining = 10 * m.queue.length + 5 * batch.length + 3 := by
      unfold remaining; rw [hphase]
    rw [hsize]
    cases n with
    | zero => exact remaining_handOut hhandlers batch
    | succ n =>
      cases hq : m.queue with
      | nil =>
        rw [dequeueEvent_nil hq, ← hq]
        exact remaining_handOut hhandlers batch
      | cons q queue =>
        unfold dequeueEvent
        rw [hq]
        unfold remaining
        simp only [List.length_append, List.length_cons, List.length_nil]
        omega
  | handling batch pending =>
    have hparts := length_internal_add_container batch
    unfold remaining
    rw [hphase]
    cases pending with
    | nil =>
      simp only [List.length_nil]
      omega
    | cons call pending =>
      unfold callHandler
      simp only [List.length_cons]
      omega
  | counting n =>
    cases n with
    | zero =>
      unfold remaining
      rw [hphase]
      unfold reportDepth
      cases m.reg with
      | none => exact Nat.succ_pos _
      | some reg => exact Nat.lt_succ_self _
    | succ n =>
      unfold remaining
      rw [hphase]
      unfold countProcessed
      cases m.reg with
      | none => exact Nat.succ_pos _
      | some reg =>
        unfold taskDone
        cases m.unfinishedTasks with
        | zero => exact Nat.succ_pos _
        | succ k => dsimp only; omega
  | exited =>
    unfold remaining at hbusy
    rw [hphase] at hbusy
    exact absurd hbusy (Nat.lt_irrefl 0)
  | died e =>
    unfold remaining at hbusy
    rw [hphase] at hbusy
    exact absurd hbusy (Nat.lt_irrefl 0)

/-- The loop has not been told to end, and has not ended. -/
def Running (m : EventManager Time) : Prop := m.stopped = false ∧ m.phase ≠ .exited

theorem Running.consume [Sub Time] {m : EventManager Time} (h : m.Running) (raises : Bool)
    (time : Time) : (m.consume raises time).Running := by
  obtain ⟨hstopped, hphase⟩ := h
  unfold EventManager.consume
  cases hp : m.phase with
  | idle =>
    dsimp only
    rw [if_neg (by rw [hstopped]; exact Bool.false_ne_true)]
    unfold dequeueEvent
    cases m.queue with
    | nil => exact ⟨hstopped, hphase⟩
    | cons q queue => exact ⟨hstopped, fun h => nomatch h⟩
  | sizing first => exact ⟨hstopped, fun h => nomatch h⟩
  | gathering batch n =>
    cases n with
    | zero => exact ⟨hstopped, fun h => nomatch h⟩
    | succ n =>
      unfold dequeueEvent
      cases m.queue with
      | nil => exact ⟨hstopped, fun h => nomatch h⟩
      | cons q queue => exact ⟨hstopped, fun h => nomatch h⟩
  | handling batch pending =>
    cases pending with
    | nil => exact ⟨hstopped, fun h => nomatch h⟩
    | cons call pending =>
      obtain ⟨event, i⟩ := call
      refine ⟨hstopped, ?_⟩
      show ConsumerPhase.handling batch pending ≠ .exited
      exact fun h => nomatch h
  | counting n =>
    cases n with
    | zero =>
      unfold reportDepth
      cases m.reg with
      | none => exact ⟨hstopped, fun h => nomatch h⟩
      | some reg => exact ⟨hstopped, fun h => nomatch h⟩
    | succ n =>
      unfold countProcessed
      cases m.reg with
      | none => exact ⟨hstopped, fun h => nomatch h⟩
      | some reg =>
        unfold taskDone
        cases m.unfinishedTasks with
        | zero => exact ⟨hstopped, fun h => nomatch h⟩
        | succ k => exact ⟨hstopped, fun h => nomatch h⟩
  | exited => exact absurd hp hphase
  | died e => exact ⟨hstopped, hphase⟩

/-- A running event manager with nothing before it is idle and has an empty queue. -/
theorem rests_of_remaining {m : EventManager Time} (hinv : m.Invariant) (hrun : m.Running)
    (h : m.remaining = 0) : m.phase = .idle ∧ m.queue = [] := by
  obtain ⟨_, batches, hprogress⟩ := hinv
  unfold Progress at hprogress
  unfold remaining at h
  cases hphase : m.phase with
  | idle =>
    rw [hphase] at h
    exact ⟨rfl, List.eq_nil_of_length_eq_zero (by dsimp only at h; omega)⟩
  | sizing first => rw [hphase] at h; exact absurd h (Nat.succ_ne_zero _)
  | gathering batch n => rw [hphase] at h; exact absurd h (Nat.succ_ne_zero _)
  | handling batch pending => rw [hphase] at h; exact absurd h (Nat.succ_ne_zero _)
  | counting n => rw [hphase] at h; exact absurd h (Nat.succ_ne_zero _)
  | exited => exact absurd hphase hrun.2
  | died e => rw [hphase] at hprogress; exact hprogress.elim

/-- Ten steps for each event that is not processed, and three. -/
theorem remaining_le {m : EventManager Time} (hinv : m.Invariant)
    (hhandlers : m.handlers.length = 4) :
    m.remaining ≤ 10 * (m.enqueued.length - m.processedCount) + 3 := by
  obtain ⟨hb, batches, hprogress⟩ := hinv
  have hqueued := congrArg List.length hb.queued
  rw [List.length_append, List.length_map] at hqueued
  have hprocessed := hb.processed
  unfold Progress at hprogress
  unfold remaining
  cases hphase : m.phase with
  | idle =>
    rw [hphase] at hprogress
    have hdone := hprogress.2.2
    dsimp only
    omega
  | sizing first =>
    rw [hphase] at hprogress
    have hdone := hprogress.2.2
    have hdequeued := congrArg List.length hprogress.1
    rw [List.length_append, List.length_singleton] at hdequeued
    dsimp only
    omega
  | gathering batch n =>
    rw [hphase] at hprogress
    have hdone := hprogress.2.2
    have hdequeued := congrArg List.length hprogress.1
    rw [List.length_append] at hdequeued
    dsimp only
    omega
  | handling batch pending =>
    rw [hphase] at hprogress
    obtain ⟨hdequeued, ⟨made, _, hmade⟩, hdone⟩ := hprogress
    replace hdequeued := congrArg List.length hdequeued
    replace hmade := congrArg List.length hmade
    rw [List.length_append] at hdequeued hmade
    rw [hhandlers] at hmade
    have hcalls := length_handlerCalls_le 4 batch
    dsimp only
    omega
  | counting n =>
    rw [hphase] at hprogress
    have hdone := hprogress.2.2
    dsimp only
    omega
  | exited => exact Nat.zero_le _
  | died e => exact Nat.zero_le _

end EventManager

namespace Agent

variable {loads : Raw → Except PyError Json} {parseQuantity : String → Except PyError Decimal}
  {allocator : CpuAllocator Rng}
  {reportCpuEvent : Ambient Rng → AllocateRequest → AllocateResponse → Except PyError Unit}

/-- The consumer has nothing to do. -/
def AtRest (a : Agent Raw Time) : Prop :=
  a.eventManager.phase = .idle ∧ a.eventManager.queue = []

/-- What the draining of an agent goes on from. -/
structure Draining (a : Agent Raw Time) : Prop where
  books : a.eventManager.Invariant
  handlers : a.eventManager.handlers = eventHandlers
  running : a.eventManager.Running

variable (parseQuantity allocator reportCpuEvent) in
theorem Draining.consume [Sub Time] {a : Agent Raw Time} (h : a.Draining) (time : Time)
    (call : HandlerCall Rng) :
    (a.consume parseQuantity allocator reportCpuEvent time call).Draining
      ∧ (0 < a.eventManager.remaining →
        (a.consume parseQuantity allocator reportCpuEvent time call).eventManager.remaining
          < a.eventManager.remaining) := by
  have hmoves : ∃ raises,
      (a.consume parseQuantity allocator reportCpuEvent time call).eventManager
        = a.eventManager.consume raises time := by
    cases hcalling : EventManager.calling a.eventManager.phase with
    | none => exact ⟨false, by rw [consume_of_not_calling hcalling]⟩
    | some made =>
      obtain ⟨raises, heq⟩ := consume_of_calling parseQuantity allocator reportCpuEvent
        hcalling time call
      exact ⟨raises, by rw [heq]⟩
  obtain ⟨raises, hmoves⟩ := hmoves
  refine ⟨⟨?_, ?_, ?_⟩, ?_⟩
  · rw [hmoves]; exact EventManager.invariant_consume h.books raises time
  · rw [hmoves]; exact (a.eventManager.consume_frame raises time).1.trans h.handlers
  · rw [hmoves]; exact h.running.consume raises time
  · intro hbusy
    rw [hmoves]
    exact EventManager.remaining_consume (by rw [h.handlers]; rfl) h.running.1 hbusy raises time

theorem Draining.step [Sub Time] {a : Agent Raw Time} (h : a.Draining)
    {e : AgentStep Rng Raw Time} (he : e ≠ .stop) :
    (a.step parseQuantity allocator reportCpuEvent loads e).Draining := by
  cases e with
  | message raw time =>
    show Draining (if a.pulling then a.pull loads raw time else a)
    split
    · unfold pull EventManager.putEvent
      cases readMessage loads raw with
      | error e => exact ⟨h.books, h.handlers, h.running⟩
      | ok event =>
        cases event with
        | none => exact ⟨h.books, h.handlers, h.running⟩
        | some event =>
          exact ⟨EventManager.invariant_enqueue h.books event time, h.handlers, h.running⟩
    · exact h
  | schedule action time =>
    exact ⟨EventManager.invariant_enqueue h.books _ time, h.handlers, h.running⟩
  | consume time call => exact (h.consume parseQuantity allocator reportCpuEvent time call).1
  | stop => exact absurd rfl he

variable (parseQuantity allocator reportCpuEvent) in
/-- At rest the dequeue times out and the consumer stays where it is. -/
theorem Draining.stays [Sub Time] {a : Agent Raw Time} (h : a.Draining)
    (hzero : a.eventManager.remaining = 0) (time : Time) (call : HandlerCall Rng) :
    a.consume parseQuantity allocator reportCpuEvent time call = a := by
  obtain ⟨hidle, hqueue⟩ := EventManager.rests_of_remaining h.books h.running hzero
  have hstays : a.eventManager.consume false time = a.eventManager := by
    unfold EventManager.consume
    rw [hidle]
    dsimp only
    rw [if_neg (by rw [h.running.1]; exact Bool.false_ne_true),
      EventManager.dequeueEvent_nil hqueue]
  have hcalling : EventManager.calling a.eventManager.phase = none := by rw [hidle]; rfl
  rw [consume_of_not_calling hcalling, hstays]

/-- The consumer alone works off what there is. -/
theorem Draining.rests [Sub Time] {fs : List (AgentStep Rng Raw Time)}
    (hfs : ∀ e ∈ fs, ∃ time call, e = .consume time call) :
    ∀ {a : Agent Raw Time}, a.Draining → a.eventManager.remaining ≤ fs.length →
      (exec (Agent.step parseQuantity allocator reportCpuEvent loads) a fs).AtRest := by
  induction fs with
  | nil =>
    intro a h hle
    exact EventManager.rests_of_remaining h.books h.running (Nat.le_zero.mp hle)
  | cons e fs ih =>
    intro a h hle
    obtain ⟨time, call, rfl⟩ := hfs _ (List.mem_cons_self ..)
    obtain ⟨hnext, hnearer⟩ := h.consume parseQuantity allocator reportCpuEvent time call
    refine ih (fun e he => hfs e (List.mem_cons_of_mem _ he)) hnext ?_
    rw [List.length_cons] at hle
    rcases Nat.eq_zero_or_pos a.eventManager.remaining with hzero | hpos
    · show (a.consume parseQuantity allocator reportCpuEvent time call).eventManager.remaining ≤ _
      rw [h.stays parseQuantity allocator reportCpuEvent hzero, hzero]
      exact Nat.zero_le _
    · exact Nat.le_of_lt_succ (Nat.lt_of_lt_of_le (hnearer hpos) hle)

/-- **The agent comes to rest.** From every reachable state of an agent that was not stopped,
ten steps of the consumer for each event not yet processed, and three more, leave it idle with
an empty queue, whatever the handlers raise and the allocator does. -/
theorem reachable_comesToRest [Sub Time] (wm : WorkloadManager) (reg : EventRegistry Time)
    (es fs : List (AgentStep Rng Raw Time)) (hes : .stop ∉ es)
    (hfs : ∀ e ∈ fs, ∃ time call, e = .consume time call)
    (hlength : 10 * ((exec (step parseQuantity allocator reportCpuEvent loads)
        (init wm reg) es).eventManager.enqueued.length
      - (exec (step parseQuantity allocator reportCpuEvent loads)
        (init wm reg) es).eventManager.processedCount) + 3 ≤ fs.length) :
    (exec (step parseQuantity allocator reportCpuEvent loads) (init wm reg) (es ++ fs)).AtRest := by
  have h : (exec (step parseQuantity allocator reportCpuEvent loads)
      (init wm reg : Agent Raw Time) es).Draining := by
    refine exec_of_mem (I := fun a : Agent Raw Time => a.Draining) ?_
      ⟨EventManager.invariant_init eventHandlers reg, rfl, rfl, fun h => nomatch h⟩
    intro a e he ha
    exact ha.step (fun hstop => hes (hstop ▸ he))
  rw [exec_append]
  refine h.rests hfs ?_
  exact (EventManager.remaining_le h.books (by rw [h.handlers]; rfl)).trans hlength

theorem reachable_comesToRest_oneStart :
    (exec (step parseListed (noopCpuAllocator Unit) (fun _ _ _ => .ok ()) Except.ok)
      (init (WorkloadManager.init none Config.twoThreads) EventRegistry.empty)
      (.message taskStarts 0 :: List.replicate 13 (.consume (1 : Int) lateCall))).AtRest := by
  refine reachable_comesToRest (WorkloadManager.init none Config.twoThreads) EventRegistry.empty
    [.message taskStarts 0] (List.replicate 13 (.consume 1 lateCall)) ?_ ?_ (Nat.le_refl 13)
  · intro h
    cases List.mem_singleton.mp h
  · intro e he
    exact ⟨1, lateCall, List.eq_of_mem_replicate he⟩

end Agent

end TitusIsolate
