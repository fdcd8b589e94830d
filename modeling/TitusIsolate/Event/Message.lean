import TitusIsolate.Event.Batch

/-!
# Docker messages

The event manager decodes each message of Docker's stream and keeps it if its action is
one of five; a start or die is kept only if its actor carries a Titus task id. Reading
the message is done with plain subscripts, so a message of another shape raises.
-/

namespace TitusIsolate

/-- What `json.loads` gives. An object is a dictionary: its keys are taken to be distinct. -/
inductive Json where
  | null
  | bool (value : Bool)
  | num (literal : String)
  | str (value : String)
  | arr (items : List Json)
  | obj (fields : List (String × Json))

namespace Json

/-- `type(value).__name__` -/
def typeName : Json → String
  | null => "NoneType"
  | bool _ => "bool"
  | num literal => if literal.any (fun c => c == '.' || c == 'e' || c == 'E') then "float" else "int"
  | str _ => "str"
  | arr _ => "list"
  | obj _ => "dict"

/-- What a subscript with a string raises on a value that is no dictionary. -/
def subscriptError : Json → PyError
  | str _ => .exception "string indices must be integers"
  | arr _ => .exception "list indices must be integers or slices, not str"
  | value => .exception s!"'{value.typeName}' object is not subscriptable"

/-- `value[key]` -/
def getItem (value : Json) (key : String) : Except PyError Json :=
  match value with
  | obj fields =>
      match fields.lookup key with
      | some v => .ok v
      | none => .error (.keyError key)
  | _ => .error value.subscriptError

/-- `value == ''` -/
def isEmptyStr : Json → Bool
  | str s => s == ""
  | _ => false

end Json

/-! ## Actions -/

/-- An action of `HANDLED_ACTIONS`. -/
inductive Action where
  | container (action : ContainerAction)
  | internal (action : InternalAction)
  deriving DecidableEq, Repr

namespace Action

/-- The text of the action. -/
def name : Action → String
  | container .start => "start"
  | container .die => "die"
  | internal .rebalance => "rebalance"
  | internal .reconcile => "reconcile"
  | internal .predictUsage => "predict_usage"

/-- `HANDLED_ACTIONS` -/
def handledActions : List Action :=
  [container .start, container .die, internal .rebalance, internal .reconcile,
    internal .predictUsage]

/-- The handled action a value names. -/
def ofJson : Json → Option Action
  | .str s => handledActions.find? (fun a => a.name = s)
  | _ => none

theorem mem_handledActions (a : Action) : a ∈ handledActions := by
  cases a with
  | container a => cases a <;> decide
  | internal a => cases a <;> decide

theorem name_inj {a b : Action} (h : a.name = b.name) : a = b := by
  have hall : ∀ a ∈ handledActions, ∀ b ∈ handledActions, a.name = b.name → a = b := by decide
  exact hall a (mem_handledActions a) b (mem_handledActions b) h

theorem ofJson_eq_some_iff {value : Json} {a : Action} :
    ofJson value = some a ↔ value = .str a.name := by
  cases value with
  | str s =>
    unfold ofJson
    refine ⟨?_, ?_⟩
    · intro h
      have hs : a.name = s := by simpa using List.find?_some h
      rw [hs]
    · intro h
      have hs : s = a.name := Json.str.inj h
      show handledActions.find? (fun b => b.name = s) = some a
      cases hf : handledActions.find? (fun b => b.name = s) with
      | none =>
        have hno := List.find?_eq_none.mp hf a (mem_handledActions a)
        exact absurd hs.symm (by simpa using hno)
      | some b =>
        have hb : b.name = s := by simpa using List.find?_some hf
        exact congrArg some (name_inj (hb.trans hs))
  | null => simp [ofJson]
  | bool b => simp [ofJson]
  | num l => simp [ofJson]
  | arr xs => simp [ofJson]
  | obj fs => simp [ofJson]

end Action

/-! ## Reading a message -/

/-- `event[ACTOR][ATTRIBUTES]`, which has to be a dictionary for `.get` to be called on it. -/
def getAttributes (event : Json) : Except PyError (List (String × Json)) :=
  match event.getItem "Actor" with
  | .error e => .error e
  | .ok actor =>
      match actor.getItem "Attributes" with
      | .error e => .error e
      | .ok (.obj attributes) => .ok attributes
      | .ok value => .error (.exception s!"'{value.typeName}' object has no attribute 'get'")

/-- `attributes.get(key, '')` -/
def getValue (attributes : List (String × Json)) (key : String) : Json :=
  (attributes.lookup key).getD (.str "")

/-- The attributes as the handlers read them. Docker's attributes are strings. -/
def stringAttributes (attributes : List (String × Json)) : OrderedDict String String :=
  attributes.foldl (fun d (key, value) =>
    match value with
    | .str s => d.insert key s
    | _ => d) OrderedDict.empty

/-- `__should_handle(event)`: when it is true, the event as it will be processed. -/
def shouldHandle (event : Json) : Except PyError (Option Event) :=
  match event.getItem "Action" with
  | .error e => .error e
  | .ok action =>
      match Action.ofJson action with
      | none => .ok none
      | some (.internal a) => .ok (some (.internal a))
      | some (.container a) =>
          match getAttributes event with
          | .error e => .error e
          | .ok attributes =>
              if (getValue attributes "titus.task_id").isEmptyStr then .ok none
              else .ok (some (.container ⟨a, stringAttributes attributes⟩))

variable {Raw : Type} (loads : Raw → Except PyError Json)

/-- `json.loads(event.decode("utf-8"))`, then `__should_handle`. -/
def readMessage (message : Raw) : Except PyError (Option Event) :=
  match loads message with
  | .error e => .error e
  | .ok event => shouldHandle event

/-! ## Malformed messages -/

/-- The message's attributes cannot be had: it has no actor, or one without attributes. -/
def WithoutAttributes (fields : List (String × Json)) : Prop :=
  ¬ ∃ actor attributes, fields.lookup "Actor" = some (.obj actor)
    ∧ actor.lookup "Attributes" = some (.obj attributes)

/-- The message does not decode to an object, has no action, or is a start or die whose
actor has no attributes. -/
inductive Malformed (message : Raw) : Prop where
  | undecodable {e : PyError} : loads message = .error e → Malformed message
  | noObject {event : Json} : loads message = .ok event → (∀ fields, event ≠ .obj fields) →
      Malformed message
  | noAction {fields : List (String × Json)} : loads message = .ok (.obj fields) →
      fields.lookup "Action" = none → Malformed message
  | noAttributes {fields : List (String × Json)} {a : ContainerAction} :
      loads message = .ok (.obj fields) →
      fields.lookup "Action" = some (.str (Action.container a).name) →
      WithoutAttributes fields → Malformed message

/-- The message is an internal event, or a start or die with a task id that is not empty. -/
inductive Handled (message : Raw) : Event → Prop where
  | internal {fields : List (String × Json)} {a : InternalAction} :
      loads message = .ok (.obj fields) →
      fields.lookup "Action" = some (.str (Action.internal a).name) →
      Handled message (.internal a)
  | container {fields actor attributes : List (String × Json)} {a : ContainerAction} :
      loads message = .ok (.obj fields) →
      fields.lookup "Action" = some (.str (Action.container a).name) →
      fields.lookup "Actor" = some (.obj actor) →
      actor.lookup "Attributes" = some (.obj attributes) →
      (getValue attributes "titus.task_id").isEmptyStr = false →
      Handled message (.container ⟨a, stringAttributes attributes⟩)

theorem getItem_obj (fields : List (String × Json)) (key : String) {v : Json}
    (h : fields.lookup key = some v) : (Json.obj fields).getItem key = .ok v := by
  unfold Json.getItem
  simp only [h]

theorem getItem_ok {value v : Json} {key : String} (h : value.getItem key = .ok v) :
    ∃ fields, value = .obj fields ∧ fields.lookup key = some v := by
  unfold Json.getItem at h
  cases value with
  | obj fields =>
    cases hl : fields.lookup key with
    | none => simp [hl] at h
    | some v' =>
      simp only [hl, Except.ok.injEq] at h
      exact ⟨fields, rfl, by rw [h] at hl; exact hl⟩
  | null => simp at h
  | bool b => simp at h
  | num l => simp at h
  | str s => simp at h
  | arr xs => simp at h

theorem getAttributes_ok_iff {fields attributes : List (String × Json)} :
    getAttributes (.obj fields) = .ok attributes ↔
      ∃ actor, fields.lookup "Actor" = some (.obj actor)
        ∧ actor.lookup "Attributes" = some (.obj attributes) := by
  unfold getAttributes
  refine ⟨?_, ?_⟩
  · intro h
    cases hactor : (Json.obj fields).getItem "Actor" with
    | error e => simp [hactor] at h
    | ok actor =>
      simp only [hactor] at h
      cases hattrs : actor.getItem "Attributes" with
      | error e => simp [hattrs] at h
      | ok attrs =>
        simp only [hattrs] at h
        obtain ⟨actorFields, rfl, hl⟩ := getItem_ok hattrs
        obtain ⟨fields', hf, hl'⟩ := getItem_ok hactor
        obtain rfl := Json.obj.inj hf
        cases attrs with
        | obj attributes' => exact ⟨actorFields, hl', by rw [hl, Except.ok.inj h]⟩
        | null => simp at h
        | bool b => simp at h
        | num l => simp at h
        | str s => simp at h
        | arr xs => simp at h
  · intro h
    obtain ⟨actor, hactor, hattrs⟩ := h
    simp only [getItem_obj _ _ hactor, getItem_obj _ _ hattrs]

theorem getAttributes_error {fields : List (String × Json)} (h : WithoutAttributes fields) :
    ∃ e, getAttributes (.obj fields) = .error e := by
  cases hg : getAttributes (.obj fields) with
  | error e => exact ⟨e, rfl⟩
  | ok attributes =>
    obtain ⟨actor, hactor, hattrs⟩ := getAttributes_ok_iff.mp hg
    exact absurd ⟨actor, attributes, hactor, hattrs⟩ h

end TitusIsolate
