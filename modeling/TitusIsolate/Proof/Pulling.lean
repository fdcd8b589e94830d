import TitusIsolate.Event.Manager

/-!
# What a malformed message does to the stream

Nothing in the pulling loop catches an exception, so the first message that cannot be
read ends the thread: what comes after it is never pulled. The well-formed events are put
on the queue, each once and in stream order, exactly when no message but possibly the
last is malformed.
-/

namespace TitusIsolate

variable {Raw : Type} {loads : Raw → Except PyError Json}

/-! ## Reading one message -/

theorem readMessage_of_internal {message : Raw} {fields : List (String × Json)}
    {a : InternalAction} (hl : loads message = .ok (.obj fields))
    (ha : fields.lookup "Action" = some (.str (Action.internal a).name)) :
    readMessage loads message = .ok (some (.internal a)) := by
  unfold readMessage shouldHandle
  simp only [hl, getItem_obj _ _ ha, Action.ofJson_eq_some_iff.mpr rfl]

theorem readMessage_of_container {message : Raw} {fields attributes : List (String × Json)}
    {a : ContainerAction} (hl : loads message = .ok (.obj fields))
    (ha : fields.lookup "Action" = some (.str (Action.container a).name))
    (hattrs : getAttributes (.obj fields) = .ok attributes) :
    readMessage loads message
      = if (getValue attributes "titus.task_id").isEmptyStr then .ok none
        else .ok (some (.container ⟨a, stringAttributes attributes⟩)) := by
  unfold readMessage shouldHandle
  simp only [hl, getItem_obj _ _ ha, Action.ofJson_eq_some_iff.mpr rfl, hattrs]

/-- A malformed message raises. -/
theorem Malformed.readMessage_error {message : Raw} (h : Malformed loads message) :
    ∃ e, readMessage loads message = .error e := by
  cases h with
  | @undecodable e hl => exact ⟨e, by unfold readMessage; simp only [hl]⟩
  | @noObject event hl hno =>
    cases hg : event.getItem "Action" with
    | error e => exact ⟨e, by unfold readMessage shouldHandle; simp only [hl, hg]⟩
    | ok v =>
      obtain ⟨fields, hf, _⟩ := getItem_ok hg
      exact absurd hf (hno fields)
  | @noAction fields hl hnone =>
    refine ⟨.keyError "Action", ?_⟩
    unfold readMessage shouldHandle Json.getItem
    simp only [hl, hnone]
  | @noAttributes fields a hl ha hno =>
    obtain ⟨e, he⟩ := getAttributes_error hno
    refine ⟨e, ?_⟩
    unfold readMessage shouldHandle
    simp only [hl, getItem_obj _ _ ha, Action.ofJson_eq_some_iff.mpr rfl, he]

/-- **What can happen to a message**: it is malformed, it is none of the manager's business,
or it is a handled event. -/
theorem readMessage_cases (loads : Raw → Except PyError Json) (message : Raw) :
    Malformed loads message
      ∨ readMessage loads message = .ok none
      ∨ ∃ event, Handled loads message event
          ∧ readMessage loads message = .ok (some event) := by
  cases hl : loads message with
  | error e => exact Or.inl (.undecodable hl)
  | ok json =>
    cases json with
    | obj fields =>
      cases haction : fields.lookup "Action" with
      | none => exact Or.inl (.noAction hl haction)
      | some action =>
        cases ha : Action.ofJson action with
        | none =>
          -- an action that is not handled is passed over
          refine Or.inr (Or.inl ?_)
          unfold readMessage shouldHandle
          simp only [hl, getItem_obj _ _ haction, ha]
        | some a =>
          rw [Action.ofJson_eq_some_iff.mp ha] at haction
          cases a with
          | internal a =>
            exact Or.inr (Or.inr ⟨_, .internal hl haction, readMessage_of_internal hl haction⟩)
          | container a =>
            cases hattrs : getAttributes (.obj fields) with
            | error e =>
              refine Or.inl (.noAttributes hl haction ?_)
              intro hx
              obtain ⟨actor, attributes, hactor, h⟩ := hx
              rw [getAttributes_ok_iff.mpr ⟨actor, hactor, h⟩] at hattrs
              exact absurd hattrs (by simp)
            | ok attributes =>
              -- a start or die is kept if its task id is a string that is not empty
              have hread := readMessage_of_container hl haction hattrs
              obtain ⟨actor, hactor, h⟩ := getAttributes_ok_iff.mp hattrs
              cases htask : (getValue attributes "titus.task_id").isEmptyStr with
              | true => exact Or.inr (Or.inl (by rw [hread, htask]; rfl))
              | false =>
                refine Or.inr (Or.inr ⟨_, .container hl haction hactor h htask, ?_⟩)
                rw [hread, htask]
                rfl
    | null => exact Or.inl (.noObject hl (by simp))
    | bool b => exact Or.inl (.noObject hl (by simp))
    | num l => exact Or.inl (.noObject hl (by simp))
    | str s => exact Or.inl (.noObject hl (by simp))
    | arr xs => exact Or.inl (.noObject hl (by simp))

/-- A message raises exactly when it is malformed. -/
theorem readMessage_error_iff {message : Raw} :
    (∃ e, readMessage loads message = .error e) ↔ Malformed loads message := by
  refine ⟨?_, Malformed.readMessage_error⟩
  intro h
  obtain ⟨e, he⟩ := h
  rcases readMessage_cases loads message with hbad | hnone | ⟨event, _, hsome⟩
  · exact hbad
  · rw [hnone] at he; exact absurd he (by simp)
  · rw [hsome] at he; exact absurd he (by simp)

/-- A message is kept as an event exactly when it is that handled event. -/
theorem readMessage_some_iff {message : Raw} {event : Event} :
    readMessage loads message = .ok (some event) ↔ Handled loads message event := by
  refine ⟨?_, ?_⟩
  · intro h
    rcases readMessage_cases loads message with hbad | hnone | ⟨event', hhandled, hsome⟩
    · obtain ⟨e, he⟩ := hbad.readMessage_error
      rw [he] at h; exact absurd h (by simp)
    · rw [hnone] at h; exact absurd h (by simp)
    · rw [hsome] at h
      obtain rfl := Option.some.inj (Except.ok.inj h)
      exact hhandled
  · intro h
    cases h with
    | internal hl ha => exact readMessage_of_internal hl ha
    | container hl ha hactor hattrs htask =>
      rw [readMessage_of_container hl ha (getAttributes_ok_iff.mpr ⟨_, hactor, hattrs⟩), htask]
      rfl

/-- The well-formed handled event a message carries, if it carries one. -/
def handledEvent (loads : Raw → Except PyError Json) (message : Raw) : Option Event :=
  match readMessage loads message with
  | .ok event => event
  | .error _ => none

theorem handledEvent_eq_some_iff {message : Raw} {event : Event} :
    handledEvent loads message = some event ↔ Handled loads message event := by
  rw [← readMessage_some_iff]
  unfold handledEvent
  cases readMessage loads message with
  | error e => simp
  | ok event' => simp

theorem handledEvent_eq_none_iff {message : Raw} :
    handledEvent loads message = none ↔ ∀ event, ¬ Handled loads message event := by
  rw [Option.eq_none_iff_forall_ne_some]
  exact forall_congr' (fun event => not_congr handledEvent_eq_some_iff)

/-! ## The stream -/

/-- The well-formed handled events that messages carry, each once and in order. -/
inductive HandledEvents {Time : Type} (loads : Raw → Except PyError Json) :
    List (Raw × Time) → List Event → Prop where
  | nil : HandledEvents loads [] []
  | handled {message : Raw} {time : Time} {rest : List (Raw × Time)} {event : Event}
      {events : List Event} (h : Handled loads message event)
      (hrest : HandledEvents loads rest events) :
      HandledEvents loads ((message, time) :: rest) (event :: events)
  | passedOver {message : Raw} {time : Time} {rest : List (Raw × Time)} {events : List Event}
      (h : ∀ event, ¬ Handled loads message event) (hrest : HandledEvents loads rest events) :
      HandledEvents loads ((message, time) :: rest) events

theorem handledEvents_iff {Time : Type} {messages : List (Raw × Time)} {events : List Event} :
    HandledEvents loads messages events
      ↔ events = messages.filterMap (fun message => handledEvent loads message.1) := by
  refine ⟨?_, ?_⟩
  · intro h
    induction h with
    | nil => rfl
    | handled h _ ih => rw [List.filterMap_cons, handledEvent_eq_some_iff.mpr h, ← ih]
    | passedOver h _ ih => rw [List.filterMap_cons, handledEvent_eq_none_iff.mpr h, ← ih]
  · rintro rfl
    induction messages with
    | nil => exact .nil
    | cons head rest ih =>
      obtain ⟨message, time⟩ := head
      cases h : handledEvent loads message with
      | none =>
        rw [List.filterMap_cons, h]
        exact .passedOver (handledEvent_eq_none_iff.mp h) ih
      | some event =>
        rw [List.filterMap_cons, h]
        exact .handled (handledEvent_eq_some_iff.mp h) ih

namespace EventManager

variable {Time : Type}

/-- The whole stream is read, and what it puts on the queue is the well-formed handled
events of the stream, each once and in order. -/
def PullsAll (loads : Raw → Except PyError Json) (m : EventManager Time)
    (messages : List (Raw × Time)) : Prop :=
  (m.pullEvents loads messages).unread = []
    ∧ ∃ events, HandledEvents loads messages events
      ∧ (m.pullEvents loads messages).manager.queue.map (fun q => q.event)
        = m.queue.map (fun q => q.event) ++ events

/-- The handled events of a stream are read off it one message at a time. -/
theorem pullsAll_iff_filterMap {m : EventManager Time} {messages : List (Raw × Time)} :
    m.PullsAll loads messages
      ↔ (m.pullEvents loads messages).unread = []
        ∧ (m.pullEvents loads messages).manager.queue.map (fun q => q.event)
          = m.queue.map (fun q => q.event)
            ++ messages.filterMap (fun message => handledEvent loads message.1) := by
  unfold PullsAll
  simp only [handledEvents_iff, exists_eq_left]

theorem forall_mem_dropLast_cons {α : Type} {P : α → Prop} {x : α} {xs : List α} :
    (∀ y ∈ (x :: xs).dropLast, P y) ↔ xs = [] ∨ (P x ∧ ∀ y ∈ xs.dropLast, P y) := by
  cases xs with
  | nil => simp
  | cons z zs => simp

/-- A malformed message ends the thread there. -/
theorem pullEvents_of_malformed {message : Raw} (h : Malformed loads message)
    (m : EventManager Time) (time : Time) (rest : List (Raw × Time)) :
    (m.pullEvents loads ((message, time) :: rest)).manager = m
      ∧ (m.pullEvents loads ((message, time) :: rest)).unread = rest := by
  obtain ⟨e, he⟩ := h.readMessage_error
  unfold pullEvents putEvent
  simp only [he, and_self]

/-- Any other message leaves the thread pulling. -/
theorem pullEvents_of_not_malformed {message : Raw} (h : ¬ Malformed loads message)
    (m : EventManager Time) (time : Time) (rest : List (Raw × Time)) :
    ∃ m' : EventManager Time,
      m.pullEvents loads ((message, time) :: rest) = m'.pullEvents loads rest
        ∧ m'.queue.map (fun q => q.event)
          = m.queue.map (fun q => q.event) ++ (handledEvent loads message).toList := by
  unfold handledEvent
  rcases readMessage_cases loads message with hbad | hnone | ⟨event, _, hsome⟩
  · exact absurd hbad h
  · refine ⟨m, ?_, ?_⟩
    · rw [pullEvents, putEvent, hnone]
    · rw [hnone]; simp
  · refine ⟨m.enqueue event time, ?_, ?_⟩
    · rw [pullEvents, putEvent, hsome]
    · rw [hsome]; simp [enqueue]

/--
**When a bad message hurts.** The stream is read to its end, with every well-formed handled
event put on the queue once and in stream order, if and only if no message before the
last is malformed.
-/
theorem pullsAll_iff (loads : Raw → Except PyError Json) (m : EventManager Time)
    (messages : List (Raw × Time)) :
    m.PullsAll loads messages ↔ ∀ message ∈ messages.dropLast, ¬ Malformed loads message.1 := by
  induction messages generalizing m with
  | nil => simp [pullsAll_iff_filterMap, pullEvents]
  | cons head rest ih =>
    obtain ⟨message, time⟩ := head
    rw [forall_mem_dropLast_cons]
    by_cases hbad : Malformed loads message
    · -- the thread ends here, which is harmless only at the end of the stream
      obtain ⟨hmanager, hunread⟩ := pullEvents_of_malformed hbad m time rest
      obtain ⟨e, he⟩ := hbad.readMessage_error
      rw [pullsAll_iff_filterMap, hmanager, hunread]
      refine ⟨fun h => Or.inl h.1, ?_⟩
      intro h
      rcases h with rfl | ⟨hgood, _⟩
      · exact ⟨rfl, by simp [handledEvent, he]⟩
      · exact absurd hbad hgood
    · obtain ⟨m', hpull, hqueue⟩ := pullEvents_of_not_malformed hbad m time rest
      have hstep : m.PullsAll loads ((message, time) :: rest) ↔ m'.PullsAll loads rest := by
        rw [pullsAll_iff_filterMap, pullsAll_iff_filterMap, hpull, hqueue, List.filterMap_cons]
        cases handledEvent loads message with
        | none => simp
        | some event => simp
      rw [hstep, ih m']
      refine ⟨fun h => Or.inr ⟨hbad, h⟩, ?_⟩
      intro h
      rcases h with rfl | ⟨_, hrest⟩
      · simp
      · exact hrest

/-- A start event of a Titus container. -/
def startMessage : Json :=
  .obj [("Action", .str "start"),
    ("Actor", .obj [("Attributes", .obj [("name", .str "a"), ("titus.task_id", .str "a")])])]

/-- An object without an action, then the start of a container: the start is never pulled. -/
theorem actionless_stops_pulling :
    ¬ (init [] none : EventManager Int).PullsAll Except.ok [(.obj [], 0), (startMessage, 1)]
      ∧ ¬ Malformed Except.ok startMessage
      ∧ ((init [] none : EventManager Int).pullEvents Except.ok
          [(.obj [], 0), (startMessage, 1)]).unread = [(startMessage, 1)] := by
  refine ⟨?_, ?_, rfl⟩
  · intro h
    exact absurd h.1 (by simp [pullEvents, putEvent, readMessage, shouldHandle, Json.getItem])
  · intro h
    obtain ⟨e, he⟩ := h.readMessage_error
    have hread : readMessage Except.ok startMessage
        = .ok (some (.container ⟨.start, stringAttributes
            [("name", .str "a"), ("titus.task_id", .str "a")]⟩)) := rfl
    rw [hread] at he
    exact absurd he (by simp)

end EventManager

end TitusIsolate
