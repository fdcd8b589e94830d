import Mathlib.Data.Prod.Lex
import TitusIsolate.Lib.Run
import TitusIsolate.Event.Manager

/-!
# Every event is processed exactly once

The consumer's bookkeeping is by sizes: it dequeues as many events as the queue held, and
counts as many as the two parts of the batch add up to. What makes this exact whatever the
producers do is that only the consumer removes from the queue, and that every handled
action is either a container's or internal, so the parts of a batch are the batch.

The invariant says what the consumer has done at each point of its loop, in terms of the
batches it has finished and the one it is at.
-/

namespace TitusIsolate

open Run

/-! ## What a batch hands out -/

namespace HandlerEvent

/-- The start events inside. -/
def starts : HandlerEvent → List ContainerEvent
  | containerBatch event => event.starts
  | internal _ => []

/-- The die events inside. -/
def dies : HandlerEvent → List ContainerEvent
  | containerBatch event => event.dies
  | internal _ => []

/-- The internal event it is, if it is one. -/
def internals : HandlerEvent → List InternalAction
  | containerBatch _ => []
  | internal action => [action]

end HandlerEvent

/-- The start events among these, in order. -/
def startEvents (events : List Event) : List ContainerEvent :=
  events.filterMap (fun
    | .container e => if e.action = .start then some e else none
    | .internal _ => none)

/-- The die events among these, in order. -/
def dieEvents (events : List Event) : List ContainerEvent :=
  events.filterMap (fun
    | .container e => if e.action = .die then some e else none
    | .internal _ => none)

/-- The internal events among these, in order. -/
def internalEvents (events : List Event) : List InternalAction :=
  events.filterMap (fun
    | .container _ => none
    | .internal action => some action)

/-- The container batch built of a batch starts what the batch starts. -/
theorem getContainerBatchEvent_starts (batch : List Event) :
    (getContainerBatchEvent (getContainerEvents batch)).starts = startEvents batch := by
  unfold getContainerBatchEvent getContainerEvents startEvents
  induction batch with
  | nil => rfl
  | cons e batch ih =>
    cases e with
    | container e => by_cases h : e.action = .start <;> simpa [h] using ih
    | internal _ => simpa using ih

theorem getContainerBatchEvent_dies (batch : List Event) :
    (getContainerBatchEvent (getContainerEvents batch)).dies = dieEvents batch := by
  unfold getContainerBatchEvent getContainerEvents dieEvents
  induction batch with
  | nil => rfl
  | cons e batch ih =>
    cases e with
    | container e => by_cases h : e.action = .die <;> simpa [h] using ih
    | internal _ => simpa using ih

theorem getInternalEvents_eq (batch : List Event) :
    getInternalEvents batch = internalEvents batch := rfl

/-- The two parts of a batch are the batch. -/
theorem length_internal_add_container (batch : List Event) :
    (getInternalEvents batch).length + (getContainerEvents batch).length = batch.length := by
  unfold getInternalEvents getContainerEvents
  induction batch with
  | nil => rfl
  | cons e batch ih =>
    cases e with
    | container c => simp only [List.filterMap_cons, List.length_cons]; omega
    | internal a => simp only [List.filterMap_cons, List.length_cons]; omega

/-- What the events handed out add up to, for a reading that finds nothing in an empty
container batch. -/
theorem handlerEvents_flatMap {β : Type} {f : HandlerEvent → List β}
    (hempty : f (.containerBatch ⟨[], []⟩) = []) (batch : List Event) :
    (handlerEvents batch).flatMap f
      = f (.containerBatch (getContainerBatchEvent (getContainerEvents batch)))
        ++ (getInternalEvents batch).flatMap (fun a => f (.internal a)) := by
  unfold handlerEvents
  rw [List.flatMap_append, List.flatMap_map]
  by_cases h : (getContainerEvents batch).length > 0
  · simp [h]
  · -- no start and no die: the batch event is not built, and would have been empty
    have hnil : getContainerEvents batch = [] := List.length_eq_zero_iff.mp (by omega)
    have hbatch : getContainerBatchEvent [] = ⟨[], []⟩ := rfl
    simp [hnil, hbatch, hempty]

theorem handlerEvents_starts (batch : List Event) :
    (handlerEvents batch).flatMap HandlerEvent.starts = startEvents batch := by
  rw [handlerEvents_flatMap rfl, ← getContainerBatchEvent_starts]
  simp [HandlerEvent.starts]

theorem handlerEvents_dies (batch : List Event) :
    (handlerEvents batch).flatMap HandlerEvent.dies = dieEvents batch := by
  rw [handlerEvents_flatMap rfl, ← getContainerBatchEvent_dies]
  simp [HandlerEvent.dies]

theorem handlerEvents_internals (batch : List Event) :
    (handlerEvents batch).flatMap HandlerEvent.internals = internalEvents batch := by
  rw [handlerEvents_flatMap rfl, ← getInternalEvents_eq]
  simp [HandlerEvent.internals]

/-! ## Batches one after another -/

theorem startEvents_append (events events' : List Event) :
    startEvents (events ++ events') = startEvents events ++ startEvents events' :=
  List.filterMap_append

theorem dieEvents_append (events events' : List Event) :
    dieEvents (events ++ events') = dieEvents events ++ dieEvents events' :=
  List.filterMap_append

theorem internalEvents_append (events events' : List Event) :
    internalEvents (events ++ events') = internalEvents events ++ internalEvents events' :=
  List.filterMap_append

/-- A reading of events that goes through appending goes through batching. -/
theorem flatten_of_append {β : Type} {f : List Event → List β} (hnil : f [] = [])
    (happend : ∀ events events', f (events ++ events') = f events ++ f events')
    (batches : List (List Event)) : f batches.flatten = batches.flatMap f := by
  induction batches with
  | nil => exact hnil
  | cons batch batches ih => rw [List.flatten_cons, happend, ih, List.flatMap_cons]

namespace EventManager

variable {Time : Type}

/-- What the handler with this index has been called with, in order. -/
def givenTo (m : EventManager Time) (i : Nat) : List HandlerEvent :=
  m.handed.filterMap (fun call => if call.2 = i then some call.1 else none)

/-- Of the calls of a batch, each handler gets every event. -/
theorem handlerCalls_givenTo {n i : Nat} (hi : i < n) (batch : List Event) :
    (handlerCalls n batch).filterMap (fun call => if call.2 = i then some call.1 else none)
      = handlerEvents batch := by
  have hone : ∀ event : HandlerEvent,
      ((List.range n).map (fun j => (event, j))).filterMap
        (fun call => if call.2 = i then some call.1 else none) = [event] := by
    intro event
    rw [List.filterMap_map]
    have hcomp : ((fun call : HandlerEvent × Nat => if call.2 = i then some call.1 else none)
        ∘ fun j => (event, j)) = fun j => if j = i then some event else none := rfl
    rw [hcomp]
    induction n with
    | zero => omega
    | succ n ih =>
      rw [List.range_succ, List.filterMap_append]
      by_cases h : i = n
      · subst h
        have hnone : (List.range i).filterMap (fun j => if j = i then some event else none)
            = [] := by
          rw [List.filterMap_eq_nil_iff]
          intro j hj
          rw [if_neg (by have := List.mem_range.mp hj; omega)]
        rw [hnone]
        simp
      · rw [ih (by omega)]
        simp [Ne.symm h]
  unfold handlerCalls
  induction handlerEvents batch with
  | nil => rfl
  | cons event events ih =>
    rw [List.flatMap_cons, List.filterMap_append, hone, ih]
    rfl

/-! ## The invariant -/

/-- What the consumer has done when it is at this point of its loop: which batches it has
finished, and how far it is with the one at hand. -/
def Progress (m : EventManager Time) (batches : List (List Event)) : Prop :=
  let finished := batches.flatMap (handlerCalls m.handlers.length)
  match m.phase with
  | .idle | .exited =>
      m.dequeued = batches.flatten ∧ m.handed = finished ∧ m.taskDoneCalls = m.dequeued.length
  | .sizing first =>
      m.dequeued = batches.flatten ++ [first] ∧ m.handed = finished
        ∧ m.taskDoneCalls = batches.flatten.length
  | .gathering batch _ =>
      m.dequeued = batches.flatten ++ batch ∧ m.handed = finished
        ∧ m.taskDoneCalls = batches.flatten.length
  | .handling batch pending =>
      m.dequeued = batches.flatten ++ batch
        ∧ (∃ made, m.handed = finished ++ made
            ∧ made ++ pending = handlerCalls m.handlers.length batch)
        ∧ m.taskDoneCalls = batches.flatten.length
  | .counting remaining =>
      m.dequeued = batches.flatten ∧ m.handed = finished
        ∧ m.taskDoneCalls + remaining = m.dequeued.length
  | .died _ => False

/-- The books of an event manager that has a registry. -/
structure Books (m : EventManager Time) : Prop where
  /-- The queue holds what has been put and not been dequeued, in order. -/
  queued : m.enqueued = m.dequeued ++ m.queue.map (fun q => q.event)
  /-- The queue's own count is right. -/
  tasks : m.unfinishedTasks + m.taskDoneCalls = m.enqueued.length
  processed : m.processedCount = m.taskDoneCalls
  registered : m.reg ≠ none

/-- The invariant: the books are right, and the consumer has done what its place in the loop
says. -/
def Invariant (m : EventManager Time) : Prop := m.Books ∧ ∃ batches, m.Progress batches

theorem Books.withPhase {m : EventManager Time} (h : m.Books) (phase : ConsumerPhase) :
    Books { m with phase := phase } :=
  ⟨h.queued, h.tasks, h.processed, h.registered⟩

theorem invariant_init (handlers : List String) (reg : EventRegistry Time) :
    (init handlers (some reg)).Invariant :=
  ⟨⟨rfl, rfl, rfl, by simp [init]⟩, [], rfl, rfl, rfl⟩

theorem invariant_enqueue {m : EventManager Time} (h : m.Invariant) (event : Event)
    (time : Time) : (m.enqueue event time).Invariant := by
  obtain ⟨hb, hp⟩ := h
  refine ⟨⟨?_, ?_, hb.processed, ?_⟩, hp⟩
  · simp [enqueue, hb.queued]
  · have := hb.tasks
    simp only [enqueue, List.length_append, List.length_singleton]
    omega
  · have := hb.registered
    simpa [enqueue] using this

theorem dequeueEvent_nil [Sub Time] {m : EventManager Time} (h : m.queue = []) (time : Time) :
    m.dequeueEvent time = (none, m) := by
  unfold dequeueEvent
  simp only [h]

/-- Some events have been taken from the queue, and nothing else done since the batches. -/
def Gathered (m : EventManager Time) (batches : List (List Event)) (batch : List Event) : Prop :=
  m.dequeued = batches.flatten ++ batch
    ∧ m.handed = batches.flatMap (handlerCalls m.handlers.length)
    ∧ m.taskDoneCalls = batches.flatten.length

theorem Progress.gathered {m : EventManager Time} {batches : List (List Event)}
    {batch : List Event} {n : Nat} (h : m.Progress batches) (hphase : m.phase = .gathering batch n) :
    m.Gathered batches batch := by
  unfold Progress at h
  rw [hphase] at h
  exact h

/-- A dequeue from a queue that is not empty, which only this consumer can empty. -/
theorem Books.dequeue [Sub Time] {m : EventManager Time} (h : m.Books)
    {batches : List (List Event)} {batch : List Event} (hg : m.Gathered batches batch)
    {q : QueuedEvent Time} {rest : List (QueuedEvent Time)} (hq : m.queue = q :: rest)
    (time : Time) :
    ∃ m' : EventManager Time, m.dequeueEvent time = (some q.event, m') ∧ m'.Books
      ∧ m'.Gathered batches (batch ++ [q.event]) := by
  obtain ⟨hdequeued, hhanded, hdone⟩ := hg
  unfold dequeueEvent
  simp only [hq, Prod.mk.injEq, true_and]
  refine ⟨_, rfl, ⟨?_, h.tasks, h.processed, ?_⟩, ?_, hhanded, hdone⟩
  · simp [h.queued, hq]
  · have := h.registered
    simpa using this
  · show m.dequeued ++ [q.event] = _
    rw [hdequeued, List.append_assoc]

/-- The regrouped batch is ready to be handed out, with none of its calls made. -/
theorem Gathered.handOut {m : EventManager Time} {batches : List (List Event)}
    {batch : List Event} (h : m.Gathered batches batch) : (m.handOut batch).Progress batches := by
  obtain ⟨hdequeued, hhanded, hdone⟩ := h
  refine ⟨hdequeued, ⟨[], ?_, rfl⟩, hdone⟩
  rw [List.append_nil]
  exact hhanded

/-- A round of the counting loop: with a registry, and a task that is not done, it counts
one event. -/
theorem countProcessed_spec {m : EventManager Time} (h : m.Books) {remaining : Nat}
    (hdone : m.taskDoneCalls + (remaining + 1) = m.dequeued.length) :
    (m.countProcessed remaining).Books
      ∧ (m.countProcessed remaining).phase = .counting remaining
      ∧ (m.countProcessed remaining).dequeued = m.dequeued
      ∧ (m.countProcessed remaining).handed = m.handed
      ∧ (m.countProcessed remaining).taskDoneCalls = m.taskDoneCalls + 1
      ∧ (m.countProcessed remaining).handlers = m.handlers := by
  have htasks := h.tasks
  have hlength : m.dequeued.length ≤ m.enqueued.length := by
    rw [h.queued, List.length_append]
    omega
  obtain ⟨reg, hreg⟩ := Option.ne_none_iff_exists'.mp h.registered
  -- an event of this batch is not done yet, so `task_done` does not raise
  obtain ⟨n, hn⟩ : ∃ n, m.unfinishedTasks = n + 1 := ⟨m.unfinishedTasks - 1, by omega⟩
  unfold countProcessed taskDone
  simp only [hreg, hn]
  refine ⟨⟨h.queued, ?_, ?_, by simp⟩, by simp⟩
  · show n + (m.taskDoneCalls + 1) = m.enqueued.length
    omega
  · show m.processedCount + 1 = m.taskDoneCalls + 1
    rw [h.processed]

theorem invariant_idle [Sub Time] {m : EventManager Time} (hb : m.Books)
    {batches : List (List Event)} (hphase : m.phase = .idle) (hp : m.Progress batches)
    (raises : Bool) (time : Time) : (m.consume raises time).Invariant := by
  have hp' := hp
  unfold Progress at hp'
  rw [hphase] at hp'
  obtain ⟨hdequeued, hhanded, hdone⟩ := hp'
  unfold consume
  rw [hphase]
  show Invariant (if m.stopped then _ else _)
  by_cases hstop : m.stopped = true
  · rw [if_pos hstop]
    exact ⟨hb.withPhase _, batches, hdequeued, hhanded, hdone⟩
  · rw [if_neg hstop]
    cases hq : m.queue with
    | nil =>
      rw [dequeueEvent_nil hq]
      exact ⟨hb, batches, hp⟩
    | cons q rest =>
      -- between batches everything dequeued is done
      have hgathered : m.Gathered batches [] := by
        refine ⟨?_, hhanded, ?_⟩
        · rw [List.append_nil, hdequeued]
        · rw [hdone, hdequeued]
      obtain ⟨m', hm', hb', hg'⟩ := hb.dequeue hgathered hq time
      rw [hm']
      exact ⟨hb'.withPhase _, batches, hg'⟩

theorem invariant_gathering [Sub Time] {m : EventManager Time} (hb : m.Books)
    {batches : List (List Event)} {batch : List Event} {n : Nat}
    (hphase : m.phase = .gathering batch n) (hp : m.Progress batches) (raises : Bool)
    (time : Time) : (m.consume raises time).Invariant := by
  have hg := hp.gathered hphase
  unfold consume
  rw [hphase]
  cases n with
  | zero => exact ⟨hb.withPhase _, batches, hg.handOut⟩
  | succ n =>
    cases hq : m.queue with
    | nil =>
      simp only [dequeueEvent_nil hq]
      exact ⟨hb.withPhase _, batches, hg.handOut⟩
    | cons q rest =>
      obtain ⟨m', hm', hb', hg'⟩ := hb.dequeue hg hq time
      simp only [hm']
      exact ⟨hb'.withPhase _, batches, hg'⟩

theorem invariant_handling [Sub Time] {m : EventManager Time} (hb : m.Books)
    {batches : List (List Event)} {batch : List Event} {pending : List (HandlerEvent × Nat)}
    (hphase : m.phase = .handling batch pending) (hp : m.Progress batches) (raises : Bool)
    (time : Time) : (m.consume raises time).Invariant := by
  unfold Progress at hp
  rw [hphase] at hp
  obtain ⟨hdequeued, ⟨made, hhanded, hcalls⟩, hdone⟩ := hp
  unfold consume
  rw [hphase]
  cases pending with
  | nil =>
    -- all calls of the batch are made: it joins the finished ones
    refine ⟨hb.withPhase _, batches ++ [batch], ?_, ?_, ?_⟩
    · simpa using hdequeued
    · rw [List.append_nil] at hcalls
      simpa [hcalls] using hhanded
    · show m.taskDoneCalls + _ = m.dequeued.length
      rw [hdequeued, hdone, length_internal_add_container, List.length_append]
  | cons call pending =>
    obtain ⟨event, i⟩ := call
    refine ⟨⟨hb.queued, hb.tasks, hb.processed, ?_⟩, batches, hdequeued,
      ⟨made ++ [(event, i)], ?_, ?_⟩, hdone⟩
    · have := hb.registered
      simpa [callHandler] using this
    · simp [callHandler, hhanded]
    · simpa [callHandler] using hcalls

theorem invariant_counting [Sub Time] {m : EventManager Time} (hb : m.Books)
    {batches : List (List Event)} {remaining : Nat} (hphase : m.phase = .counting remaining)
    (hp : m.Progress batches) (raises : Bool) (time : Time) :
    (m.consume raises time).Invariant := by
  unfold Progress at hp
  rw [hphase] at hp
  obtain ⟨hdequeued, hhanded, hdone⟩ := hp
  unfold consume
  rw [hphase]
  cases remaining with
  | zero =>
    obtain ⟨reg, hreg⟩ := Option.ne_none_iff_exists'.mp hb.registered
    simp only [reportDepth, hreg]
    exact ⟨⟨hb.queued, hb.tasks, hb.processed, by simp⟩, batches, hdequeued, hhanded, hdone⟩
  | succ n =>
    obtain ⟨hb', hphase', hdequeued', hhanded', hdone', hhandlers'⟩ :=
      countProcessed_spec hb hdone
    refine ⟨hb', batches, ?_⟩
    unfold Progress
    rw [hphase', hdequeued', hhanded', hdone', hhandlers']
    exact ⟨hdequeued, hhanded, by omega⟩

/-- **The consumer keeps the invariant**, whatever a handler does. -/
theorem invariant_consume [Sub Time] {m : EventManager Time} (h : m.Invariant) (raises : Bool)
    (time : Time) : (m.consume raises time).Invariant := by
  obtain ⟨hb, batches, hp⟩ := h
  cases hphase : m.phase with
  | idle => exact invariant_idle hb hphase hp raises time
  | sizing first =>
    unfold consume
    rw [hphase]
    refine ⟨hb.withPhase _, batches, ?_⟩
    unfold Progress at hp ⊢
    rw [hphase] at hp
    exact hp
  | gathering batch n => exact invariant_gathering hb hphase hp raises time
  | handling batch pending => exact invariant_handling hb hphase hp raises time
  | counting remaining => exact invariant_counting hb hphase hp raises time
  | exited =>
    unfold consume
    rw [hphase]
    exact ⟨hb, batches, hp⟩
  | died e =>
    unfold Progress at hp
    rw [hphase] at hp
    exact absurd hp id

theorem invariant_step [Sub Time] {m : EventManager Time} (h : m.Invariant) (e : ManagerStep Time) :
    (m.step e).Invariant := by
  cases e with
  | put event time => exact invariant_enqueue h event time
  | consume raises time => exact invariant_consume h raises time
  | stop => exact ⟨⟨h.1.queued, h.1.tasks, h.1.processed, h.1.registered⟩, h.2⟩

/-! ## A batch comes to its end -/

/-- How far the consumer is from the end of its batch: the part of the loop it is in, and the
rounds left there. -/
def toGo (m : EventManager Time) : Nat ×ₗ Nat :=
  match m.phase with
  | .sizing _ => toLex (4, 0)
  | .gathering _ n => toLex (3, n)
  | .handling _ pending => toLex (2, pending.length)
  | .counting n => toLex (1, n)
  | .idle | .exited | .died _ => toLex (0, 0)

/-- Inside a batch, each step of the consumer brings it nearer to the end. -/
theorem toGo_consume [Sub Time] {m : EventManager Time} (h : m.Invariant) (hidle : m.phase ≠ .idle)
    (hexited : m.phase ≠ .exited) (raises : Bool) (time : Time) :
    (m.consume raises time).toGo < m.toGo := by
  obtain ⟨hb, batches, hp⟩ := h
  unfold consume
  cases hphase : m.phase with
  | idle => exact absurd hphase hidle
  | exited => exact absurd hphase hexited
  | died e =>
    unfold Progress at hp
    rw [hphase] at hp
    exact absurd hp id
  | sizing first => simp [toGo, hphase, Prod.Lex.toLex_lt_toLex]
  | gathering batch n =>
    cases n with
    | zero => simp [toGo, hphase, handOut, Prod.Lex.toLex_lt_toLex]
    | succ n =>
      cases hq : m.queue with
      | nil =>
        simp [dequeueEvent_nil hq, toGo, hphase, handOut, Prod.Lex.toLex_lt_toLex]
      | cons q rest =>
        obtain ⟨m', hm', _⟩ := hb.dequeue (hp.gathered hphase) hq time
        simp [hm', toGo, hphase, Prod.Lex.toLex_lt_toLex]
  | handling batch pending =>
    cases pending with
    | nil => simp [toGo, hphase, Prod.Lex.toLex_lt_toLex]
    | cons call pending => simp [toGo, hphase, Prod.Lex.toLex_lt_toLex]
  | counting remaining =>
    cases remaining with
    | zero =>
      obtain ⟨reg, hreg⟩ := Option.ne_none_iff_exists'.mp hb.registered
      simp [reportDepth, hreg, toGo, hphase, Prod.Lex.toLex_lt_toLex]
    | succ n =>
      unfold Progress at hp
      rw [hphase] at hp
      obtain ⟨_, hphase', _⟩ := countProcessed_spec hb hp.2.2
      simp [toGo, hphase, hphase', Prod.Lex.toLex_lt_toLex]

/-- **Every batch is finished**: left to itself the consumer gets back to the top of its
loop, whichever handlers raise. -/
theorem batch_finishes [Sub Time] {m : EventManager Time} (h : m.Invariant) (raises : Bool)
    (time : Time) :
    ∃ n, (exec step m (List.replicate n (.consume raises time))).phase = .idle
      ∨ (exec step m (List.replicate n (.consume raises time))).phase = .exited := by
  induction hd : m.toGo using WellFoundedLT.induction generalizing m with
  | ind d ih =>
    by_cases hidle : m.phase = .idle
    · exact ⟨0, Or.inl hidle⟩
    · by_cases hexited : m.phase = .exited
      · exact ⟨0, Or.inr hexited⟩
      · have hlt := toGo_consume h hidle hexited raises time
        rw [hd] at hlt
        obtain ⟨n, hn⟩ := ih _ hlt (invariant_consume h raises time) rfl
        refine ⟨n + 1, ?_⟩
        rw [List.replicate_succ, exec_cons]
        exact hn

/-! ## The law -/

/-- What holds between batches. -/
structure ExactlyOnce (m : EventManager Time) : Prop where
  /-- The container batches a handler was given contain every dequeued start once, in order. -/
  starts : ∀ i < m.handlers.length,
    (m.givenTo i).flatMap HandlerEvent.starts = startEvents m.dequeued
  dies : ∀ i < m.handlers.length,
    (m.givenTo i).flatMap HandlerEvent.dies = dieEvents m.dequeued
  internals : ∀ i < m.handlers.length,
    (m.givenTo i).flatMap HandlerEvent.internals = internalEvents m.dequeued
  /-- What has been dequeued is the front of what has been enqueued. -/
  order : m.enqueued = m.dequeued ++ m.queue.map (fun q => q.event)
  processed : m.processedCount = m.dequeued.length
  depth : m.processedCount + m.getQueueDepth = m.enqueued.length
  tasks : m.taskDoneCalls = m.dequeued.length

theorem givenTo_of_finished {m : EventManager Time} {batches : List (List Event)}
    (h : m.handed = batches.flatMap (handlerCalls m.handlers.length)) {i : Nat}
    (hi : i < m.handlers.length) : m.givenTo i = batches.flatMap handlerEvents := by
  unfold givenTo
  rw [h, List.filterMap_flatMap]
  exact congrArg batches.flatMap (funext (handlerCalls_givenTo hi))

/-- At the top of the loop the invariant is the law. -/
theorem exactlyOnce_of_invariant {m : EventManager Time} (h : m.Invariant)
    (hphase : m.phase = .idle ∨ m.phase = .exited) : m.ExactlyOnce := by
  obtain ⟨hb, batches, hp⟩ := h
  have hfinished : m.dequeued = batches.flatten
      ∧ m.handed = batches.flatMap (handlerCalls m.handlers.length)
      ∧ m.taskDoneCalls = m.dequeued.length := by
    unfold Progress at hp
    rcases hphase with hphase | hphase
    · rw [hphase] at hp; exact hp
    · rw [hphase] at hp; exact hp
  obtain ⟨hdeq, hhanded, hdone⟩ := hfinished
  -- what a reading of the events given finds is what it finds in the batches
  have hread : ∀ {β : Type} {f : HandlerEvent → List β} {g : List Event → List β},
      (∀ batch, (handlerEvents batch).flatMap f = g batch) → g [] = [] →
      (∀ events events', g (events ++ events') = g events ++ g events') →
      ∀ i < m.handlers.length, (m.givenTo i).flatMap f = g m.dequeued := by
    intro β f g hfg hnil happend i hi
    rw [givenTo_of_finished hhanded hi, List.flatMap_assoc, hdeq, flatten_of_append hnil happend]
    exact congrArg batches.flatMap (funext hfg)
  have hlength : m.enqueued.length = m.dequeued.length + m.queue.length := by
    rw [hb.queued, List.length_append, List.length_map]
  exact
    { starts := hread handlerEvents_starts rfl startEvents_append
      dies := hread handlerEvents_dies rfl dieEvents_append
      internals := hread handlerEvents_internals rfl internalEvents_append
      order := hb.queued
      processed := by rw [hb.processed, hdone]
      depth := by
        rw [hb.processed, hdone, hlength]
        rfl
      tasks := hdone }

/--
**Exactly-once processing.** Whatever handlers there are, in every run of puts, steps of the
consumer and raising handlers from the start of an event manager that has a registry: no
exception ever leaves the consumer's loop, and whenever a batch is finished every dequeued
event has been given to every handler exactly once and in order, and every count is exact.
-/
theorem exactlyOnce_reachable [Sub Time] (handlers : List String) (reg : EventRegistry Time)
    (es : List (ManagerStep Time)) :
    (∀ e, (exec step (init handlers (some reg)) es).phase ≠ .died e)
      ∧ ((exec step (init handlers (some reg)) es).phase = .idle →
          (exec step (init handlers (some reg)) es).ExactlyOnce) := by
  have hinv := exec_invariant (I := Invariant) (fun _ e h => invariant_step h e)
    (invariant_init handlers reg) es
  refine ⟨?_, fun hphase => exactlyOnce_of_invariant hinv (Or.inl hphase)⟩
  intro e hdied
  obtain ⟨_, batches, hp⟩ := hinv
  unfold Progress at hp
  rw [hdied] at hp
  exact hp

/-- A start, a die and a rebalance in one batch, a handler that raises, and an event that
comes too late for the batch. -/
def threeEvents : List (ManagerStep Int) :=
  [ .put (.container ⟨.start, OrderedDict.empty⟩) 0,
    .put (.internal .rebalance) 1,
    .put (.container ⟨.die, OrderedDict.empty⟩) 2,
    .consume false 3, .consume false 3,
    .put (.internal .reconcile) 3,
    .consume false 4, .consume false 4, .consume false 4,
    .consume true 5, .consume false 5, .consume false 5,
    .consume false 6, .consume false 6, .consume false 6, .consume false 6 ]

theorem exactlyOnce_reachable_threeEvents :
    (exec step (init ["ContainerBatchEventHandler"] (some EventRegistry.empty))
      threeEvents).ExactlyOnce
    ∧ (exec step (init ["ContainerBatchEventHandler"] (some EventRegistry.empty))
        threeEvents).processedCount = 3
    ∧ (exec step (init ["ContainerBatchEventHandler"] (some EventRegistry.empty))
        threeEvents).getQueueDepth = 1 :=
  ⟨(exactlyOnce_reachable ["ContainerBatchEventHandler"] EventRegistry.empty threeEvents).2 rfl,
    rfl, rfl⟩

end EventManager

/-! ## The batches of the workload manager -/

/-- A batch does to the workload manager what its events, handed out in this order, do. -/
theorem processBatch_eq_foldl {Rng : Type} (allocator : CpuAllocator Rng)
    (reportCpuEvent : Ambient Rng → AllocateRequest → AllocateResponse → Except PyError Unit)
    (wm : WorkloadManager) (d : Delivery Rng) :
    processBatch allocator reportCpuEvent wm d
      = (handlerEvents d.events).foldl (fun wm event =>
          match event with
          | .containerBatch event => handleContainerBatch allocator reportCpuEvent wm d event
          | .internal action => handleInternal allocator reportCpuEvent wm d action) wm := by
  unfold processBatch handlerEvents
  rw [List.foldl_append, List.foldl_map]
  by_cases h : (getContainerEvents d.events).length > 0
  · simp only [h, if_true, List.foldl_cons, List.foldl_nil]
  · simp only [h, if_false, List.foldl_nil]

end TitusIsolate
