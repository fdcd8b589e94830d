import TitusIsolate.Crd.Publish
import TitusIsolate.Lib.Run

/-!
# Publishing under a lock

Each prediction event has a thread of its own, and a publishing takes as long as the
services it asks. The lock covers all of it, from the first look at the pods to the answer
of Kubernetes. So the requests made are one publishing after another, no publishing is made
from an older view of the pods than the one before it, and a resource is created only right
after the patch of the same publishing did not find it.
-/

namespace TitusIsolate

open Run

variable {V α : Type}

/-- The body is what a publishing makes of these two looks at the pods, the second no earlier
than the first, and of what it finds outside the pod manager. -/
def Publisher.MadeAt [Add V] (publisher : Publisher V α)
    (views : List (List (V1Pod LivePodBody))) (body : ResourceUsagePredictionsResource V)
    (call : PublishCall V α) (firstView secondView : Nat) : Prop :=
  firstView ≤ secondView ∧ ∃ first second, views[firstView]? = some first
    ∧ views[secondView]? = some second ∧ publisher.prepare call first second = .ok body

theorem Publisher.MadeAt.append [Add V] {publisher : Publisher V α}
    {views : List (List (V1Pod LivePodBody))} {body : ResourceUsagePredictionsResource V}
    {call : PublishCall V α} {firstView secondView : Nat}
    (h : publisher.MadeAt views body call firstView secondView)
    (later : List (List (V1Pod LivePodBody))) :
    publisher.MadeAt (views ++ later) body call firstView secondView := by
  obtain ⟨hle, first, second, hfirst, hsecond, hprepare⟩ := h
  refine ⟨hle, first, second, ?_, ?_, hprepare⟩
  · rwa [List.getElem?_append_left (List.getElem?_eq_some_iff.mp hfirst).1]
  · rwa [List.getElem?_append_left (List.getElem?_eq_some_iff.mp hsecond).1]

theorem Publisher.MadeAt.second_lt [Add V] {publisher : Publisher V α}
    {views : List (List (V1Pod LivePodBody))} {body : ResourceUsagePredictionsResource V}
    {call : PublishCall V α} {firstView secondView : Nat}
    (h : publisher.MadeAt views body call firstView secondView) :
    secondView < views.length := by
  obtain ⟨-, first, second, -, hsecond, -⟩ := h
  exact (List.getElem?_eq_some_iff.mp hsecond).1

/-- A publishing as Kubernetes saw it. -/
structure Publishing (V α : Type) where
  body : ResourceUsagePredictionsResource V
  call : PublishCall V α
  firstView : Nat
  secondView : Nat
  patched : ApiAnswer
  created : Option ApiAnswer

namespace Publishing

/-- Its requests: the patch, then the creation if there was one. -/
def requests (p : Publishing V α) : List (ApiRequest V α) :=
  ⟨.patch, p.body, p.call, p.firstView, p.secondView, p.patched⟩ ::
    (p.created.map (ApiRequest.mk .create p.body p.call p.firstView p.secondView)).toList

/-- There was a creation exactly where the patch did not find the resource. -/
def Complete (p : Publishing V α) : Prop := p.created.isSome ↔ p.patched = .refused 404

end Publishing

namespace PublishPhase

/-- The thread is inside the lock. -/
def inside : PublishPhase V α → Bool
  | .waiting => false
  | .looking => true
  | .gathering _ _ => true
  | .patching _ _ _ _ => true
  | .creating _ _ _ _ => true
  | .leaving _ => false

/-- The request the thread is about to make. -/
def requesting : PublishPhase V α →
    Option (ApiVerb × ResourceUsagePredictionsResource V × PublishCall V α × Nat × Nat)
  | .patching body call firstView secondView => some (.patch, body, call, firstView, secondView)
  | .creating body call firstView secondView => some (.create, body, call, firstView, secondView)
  | _ => none

theorem requesting_eq_some {phase : PublishPhase V α} {verb : ApiVerb}
    {body : ResourceUsagePredictionsResource V} {call : PublishCall V α}
    {firstView secondView : Nat}
    (h : phase.requesting = some (verb, body, call, firstView, secondView)) :
    verb = .patch ∧ phase = .patching body call firstView secondView
      ∨ verb = .create ∧ phase = .creating body call firstView secondView := by
  cases phase with
  | patching => cases h; exact Or.inl ⟨rfl, rfl⟩
  | creating => cases h; exact Or.inr ⟨rfl, rfl⟩
  | waiting => cases h
  | looking => cases h
  | gathering => cases h
  | leaving => cases h

theorem inside_of_requesting {phase : PublishPhase V α}
    {r : ApiVerb × ResourceUsagePredictionsResource V × PublishCall V α × Nat × Nat}
    (h : phase.requesting = some r) : phase.inside = true := by
  obtain ⟨verb, body, call, firstView, secondView⟩ := r
  rcases requesting_eq_some h with ⟨_, rfl⟩ | ⟨_, rfl⟩
  · rfl
  · rfl

/-- The patch that found nothing, while the creation is still to come. -/
def pending : PublishPhase V α → List (ApiRequest V α)
  | .creating body call firstView secondView =>
      [⟨.patch, body, call, firstView, secondView, .refused 404⟩]
  | _ => []

/-- What holds of what the thread has in its hands, after these publishings. -/
def Ready [Add V] (publisher : Publisher V α) (views : List (List (V1Pod LivePodBody)))
    (done : List (Publishing V α)) : PublishPhase V α → Prop
  | .gathering first view => views[view]? = some first ∧ ∀ p ∈ done, p.secondView ≤ view
  | .patching body call firstView secondView =>
      publisher.MadeAt views body call firstView secondView ∧ ∀ p ∈ done, p.secondView ≤ firstView
  | .creating body call firstView secondView =>
      publisher.MadeAt views body call firstView secondView ∧ ∀ p ∈ done, p.secondView ≤ firstView
  | _ => True

section

variable [Add V] {publisher : Publisher V α} {views : List (List (V1Pod LivePodBody))}
  {done : List (Publishing V α)} {phase : PublishPhase V α}

theorem ready_of_outside (h : phase.inside = false) (done : List (Publishing V α)) :
    phase.Ready publisher views done := by
  cases phase with
  | waiting => trivial
  | leaving => trivial
  | looking => cases h
  | gathering => cases h
  | patching => cases h
  | creating => cases h

theorem Ready.append (h : phase.Ready publisher views done)
    (later : List (List (V1Pod LivePodBody))) :
    phase.Ready publisher (views ++ later) done := by
  cases phase with
  | waiting => trivial
  | looking => trivial
  | leaving => trivial
  | gathering first view =>
    exact ⟨by rw [List.getElem?_append_left (List.getElem?_eq_some_iff.mp h.1).1]; exact h.1, h.2⟩
  | patching => exact ⟨h.1.append later, h.2⟩
  | creating => exact ⟨h.1.append later, h.2⟩

theorem Ready.of_requesting (h : phase.Ready publisher views done) {verb : ApiVerb}
    {body : ResourceUsagePredictionsResource V} {call : PublishCall V α}
    {firstView secondView : Nat}
    (hphase : phase.requesting = some (verb, body, call, firstView, secondView)) :
    publisher.MadeAt views body call firstView secondView
      ∧ ∀ p ∈ done, p.secondView ≤ firstView := by
  rcases requesting_eq_some hphase with ⟨_, rfl⟩ | ⟨_, rfl⟩
  · exact h
  · exact h

end

end PublishPhase

/-- What a publishing comes to with this answer: it returns, it raises, or it goes on. A patch
that is refused for another reason than 404 lets it return. -/
def ApiVerb.outcome : ApiVerb → ApiAnswer → Option Bool
  | _, .done => some true
  | _, .raised _ => some false
  | .patch, .refused status => if status = 404 then none else some true
  | .create, .refused _ => some false

namespace PublishWorld

/-! ## What a step can do -/

/-- What this step does, guards included. -/
inductive Stepped [Add V] (publisher : Publisher V α) (w : PublishWorld V α) :
    PublishStep V α → PublishWorld V α → Prop where
  | stays {e} : Stepped publisher w e w
  | podEvent {e} (event : WatchEvent LivePodBody) :
      Stepped publisher w e
        { w with
          podManager := w.podManager.handleEvent event
          views := w.views ++ [(w.podManager.handleEvent event).getPods] }
  | begun {e} (t) (h : w.threads.get? t = none) :
      Stepped publisher w e { w.enter t .waiting with asked := w.asked + 1 }
  | locked {e} (t) (h : w.threads.get? t = some .waiting) (hfree : w.publishLock = none) :
      Stepped publisher w e { w.enter t .looking with publishLock := some t }
  | looked {e} (t) (h : w.threads.get? t = some .looking) :
      Stepped publisher w e (w.enter t (.gathering w.podManager.getPods w.view))
  | gathered (t first view body) (h : w.threads.get? t = some (.gathering first view))
      (call answer)
      (hbody : publisher.prepare call first w.podManager.getPods = .ok body) :
      Stepped publisher w (.go t call answer) (w.enter t (.patching body call view w.view))
  | failed {e} (t first view) (h : w.threads.get? t = some (.gathering first view)) :
      Stepped publisher w e (w.leaveRaised t)
  | missing {e} (t body call firstView secondView)
      (h : w.threads.get? t = some (.patching body call firstView secondView)) :
      Stepped publisher w e
        ((w.log ⟨.patch, body, call, firstView, secondView, .refused 404⟩).enter t
          (.creating body call firstView secondView))
  | returned {e} (t phase verb body call firstView secondView answer)
      (h : w.threads.get? t = some phase)
      (hphase : phase.requesting = some (verb, body, call, firstView, secondView))
      (houtcome : verb.outcome answer = some true) :
      Stepped publisher w e
        ((w.log ⟨verb, body, call, firstView, secondView, answer⟩).leaveReturned t)
  | raised {e} (t phase verb body call firstView secondView answer)
      (h : w.threads.get? t = some phase)
      (hphase : phase.requesting = some (verb, body, call, firstView, secondView))
      (houtcome : verb.outcome answer = some false) :
      Stepped publisher w e
        ((w.log ⟨verb, body, call, firstView, secondView, answer⟩).leaveRaised t)
  | counted {e} (t returned) (h : w.threads.get? t = some (.leaving returned)) :
      Stepped publisher w e (w.count t returned)
  | reported {e} : Stepped publisher w e w.reportMetrics

theorem stepped_handle [Add V] (publisher : Publisher V α) (w : PublishWorld V α) (t : Nat)
    (event : HandlerEvent) : Stepped publisher w (.handle t event) (w.handle t event) := by
  cases event with
  | containerBatch event => exact .stays
  | internal action =>
    cases action with
    | rebalance => exact .stays
    | reconcile => exact .stays
    | predictUsage =>
      unfold handle
      cases h : w.threads.get? t with
      | none => exact .begun t h
      | some phase => exact .stays

theorem stepped_patch [Add V] (publisher : Publisher V α) {w : PublishWorld V α} {t : Nat}
    {body : ResourceUsagePredictionsResource V} {call : PublishCall V α}
    {firstView secondView : Nat}
    (h : w.threads.get? t = some (.patching body call firstView secondView)) (answer : ApiAnswer)
    (e : PublishStep V α) :
    Stepped publisher w e (w.patch t body call firstView secondView answer) := by
  cases answer with
  | done => exact .returned t _ .patch body call firstView secondView .done h rfl rfl
  | raised err =>
    exact .raised t _ .patch body call firstView secondView (.raised err) h rfl rfl
  | refused status =>
    unfold patch
    dsimp only
    split
    · rename_i hstatus
      subst hstatus
      exact .missing t body call firstView secondView h
    · rename_i hstatus
      exact .returned t _ .patch body call firstView secondView (.refused status) h rfl
        (if_neg hstatus)

theorem stepped_create [Add V] (publisher : Publisher V α) {w : PublishWorld V α} {t : Nat}
    {body : ResourceUsagePredictionsResource V} {call : PublishCall V α}
    {firstView secondView : Nat}
    (h : w.threads.get? t = some (.creating body call firstView secondView)) (answer : ApiAnswer)
    (e : PublishStep V α) :
    Stepped publisher w e (w.create t body call firstView secondView answer) := by
  cases answer with
  | done => exact .returned t _ .create body call firstView secondView .done h rfl rfl
  | raised err =>
    exact .raised t _ .create body call firstView secondView (.raised err) h rfl rfl
  | refused status =>
    exact .raised t _ .create body call firstView secondView (.refused status) h rfl rfl

theorem stepped_go [Add V] (publisher : Publisher V α) (w : PublishWorld V α) (t : Nat)
    (call : PublishCall V α) (answer : ApiAnswer) :
    Stepped publisher w (.go t call answer) (w.go publisher t call answer) := by
  unfold go
  cases h : w.threads.get? t with
  | none => exact .stays
  | some phase =>
    cases phase with
    | waiting =>
      dsimp only
      cases hlock : w.publishLock with
      | none => exact .locked t h hlock
      | some holder => exact .stays
    | looking => exact .looked t h
    | gathering first view =>
      dsimp only
      unfold gather
      cases hbody : publisher.prepare call first w.podManager.getPods with
      | error e => exact .failed t first view h
      | ok body => exact .gathered t first view body h call answer hbody
    | patching body call firstView secondView => exact stepped_patch publisher h answer _
    | creating body call firstView secondView => exact stepped_create publisher h answer _
    | leaving returned => exact .counted t returned h

theorem stepped [Add V] (publisher : Publisher V α) (w : PublishWorld V α) (e : PublishStep V α) :
    Stepped publisher w e (w.step publisher e) := by
  cases e with
  | podEvent event => exact .podEvent event
  | handle t event => exact stepped_handle publisher w t event
  | go t call answer => exact stepped_go publisher w t call answer
  | report => exact .reported

/-! ## One publishing after another -/

/-- The patch that found nothing, of the thread that holds the lock. -/
def pending (w : PublishWorld V α) : List (ApiRequest V α) :=
  ((w.publishLock.bind w.threads.get?).map PublishPhase.pending).getD []

theorem pending_of_free {w : PublishWorld V α} (h : w.publishLock = none) : w.pending = [] := by
  unfold pending
  rw [h]
  rfl

theorem pending_of_held {w : PublishWorld V α} {t : Nat} {phase : PublishPhase V α}
    (hlock : w.publishLock = some t) (h : w.threads.get? t = some phase) :
    w.pending = phase.pending := by
  unfold pending
  rw [hlock, Option.bind_some, h]
  rfl

/-- One thread moves, and takes or gives back the lock at most for itself. -/
structure Moves (t : Nat) (w w' : PublishWorld V α) : Prop where
  views : w'.views = w.views
  podManager : w'.podManager = w.podManager
  others : ∀ t', t' ≠ t → w'.threads.get? t' = w.threads.get? t'
  lock : ∀ t', t' ≠ t → (w'.publishLock = some t' ↔ w.publishLock = some t')

/-- A thread that is outside before and after is not seen in what is pending. -/
theorem Moves.pending {t : Nat} {w w' : PublishWorld V α} (h : Moves t w w')
    (hlock : w.publishLock ≠ some t) (hlock' : w'.publishLock ≠ some t) :
    w'.pending = w.pending := by
  cases hw : w.publishLock with
  | none =>
    refine (pending_of_free ?_).trans (pending_of_free hw).symm
    cases hw' : w'.publishLock with
    | none => rfl
    | some t' =>
      have hne : t' ≠ t := fun heq => hlock' (heq ▸ hw')
      have := (h.lock t' hne).mp hw'
      rw [hw] at this
      exact this.symm
  | some t' =>
    have hne : t' ≠ t := fun heq => hlock (heq ▸ hw)
    unfold PublishWorld.pending
    rw [hw, (h.lock t' hne).mpr hw, Option.bind_some, Option.bind_some, h.others t' hne]

theorem view_concat {w : PublishWorld V α} (pods : List (V1Pod LivePodBody)) :
    (w.views ++ [pods])[(w.views ++ [pods]).length - 1]? = some pods := by
  rw [List.length_append]
  exact List.getElem?_concat_length

/-- The requests made are those of the publishings that are over, and what the thread inside
has asked. -/
structure Orderly [Add V] (publisher : Publisher V α) (w : PublishWorld V α)
    (done : List (Publishing V α)) : Prop where
  now : w.views[w.view]? = some w.podManager.getPods
  lock : ∀ t phase, w.threads.get? t = some phase →
    (phase.inside = true ↔ w.publishLock = some t)
  held : ∀ t, w.publishLock = some t → w.threads.get? t ≠ none
  requests : w.requests = done.flatMap Publishing.requests ++ w.pending
  complete : ∀ p ∈ done, p.Complete
  made : ∀ p ∈ done, publisher.MadeAt w.views p.body p.call p.firstView p.secondView
  /-- No publishing looks before the one before it has looked for the last time. -/
  order : done.Pairwise (fun p q => p.secondView ≤ q.firstView)
  hands : ∀ t phase, w.threads.get? t = some phase → phase.Ready publisher w.views done

section

variable [Add V] {publisher : Publisher V α} {w w' : PublishWorld V α}
  {done done' : List (Publishing V α)} {t : Nat}

theorem orderly_init (publisher : Publisher V α) (podManager : PodManager LivePodBody) :
    (init podManager).Orderly publisher [] where
  now := rfl
  lock := fun t phase h => by cases h
  held := fun t h => by cases h
  requests := rfl
  complete := fun p hp => by cases hp
  made := fun p hp => by cases hp
  order := List.Pairwise.nil
  hands := fun t phase h => by cases h

theorem Orderly.podEvent (h : w.Orderly publisher done) (event : WatchEvent LivePodBody) :
    Orderly publisher
      { w with
        podManager := w.podManager.handleEvent event
        views := w.views ++ [(w.podManager.handleEvent event).getPods] } done where
  now := view_concat _
  lock := h.lock
  held := h.held
  requests := h.requests
  complete := h.complete
  made := fun p hp => (h.made p hp).append _
  order := h.order
  hands := fun t phase ht => (h.hands t phase ht).append _

theorem Orderly.seen (h : w.Orderly publisher done) {p : Publishing V α} (hp : p ∈ done) :
    p.secondView ≤ w.view := Nat.le_sub_one_of_lt (h.made p hp).second_lt

/-- What has to be seen of the thread that moved, for all else to stay in order. -/
theorem Orderly.moves (h : w.Orderly publisher done) (hmoves : Moves t w w')
    (hself : ∀ phase, w'.threads.get? t = some phase →
      (phase.inside = true ↔ w'.publishLock = some t) ∧ phase.Ready publisher w.views done')
    (hheld : w'.publishLock = some t → w'.threads.get? t ≠ none)
    (hdone : done' = done ∨ w.publishLock = some t)
    (hrequests : w'.requests = done'.flatMap Publishing.requests ++ w'.pending)
    (hcomplete : ∀ p ∈ done', p.Complete)
    (hmade : ∀ p ∈ done', publisher.MadeAt w.views p.body p.call p.firstView p.secondView)
    (horder : done'.Pairwise (fun p q => p.secondView ≤ q.firstView)) :
    w'.Orderly publisher done' := by
  have hview : w'.view = w.view := congrArg (fun views => views.length - 1) hmoves.views
  refine ⟨?_, ?_, ?_, hrequests, hcomplete, ?_, horder, ?_⟩
  · rw [hview, hmoves.views, hmoves.podManager]
    exact h.now
  · intro t' phase hphase
    by_cases ht : t' = t
    · subst ht
      exact (hself phase hphase).1
    · rw [hmoves.others t' ht] at hphase
      exact (h.lock t' phase hphase).trans (hmoves.lock t' ht).symm
  · intro t' hlock
    by_cases ht : t' = t
    · subst ht
      exact hheld hlock
    · rw [hmoves.others t' ht]
      exact h.held t' ((hmoves.lock t' ht).mp hlock)
  · rw [hmoves.views]
    exact hmade
  · intro t' phase hphase
    rw [hmoves.views]
    by_cases ht : t' = t
    · subst ht
      exact (hself phase hphase).2
    · rw [hmoves.others t' ht] at hphase
      rcases hdone with rfl | hlock
      · exact h.hands t' phase hphase
      · -- the lock was held by the thread that moved, so this one is outside
        refine PublishPhase.ready_of_outside (Bool.eq_false_iff.mpr (fun hin => ht ?_)) done'
        have hlock' := (h.lock t' phase hphase).mp hin
        rw [hlock] at hlock'
        exact (Option.some.inj hlock').symm

/-- A thread outside the lock comes or goes. -/
theorem Orderly.comesOrGoes (h : w.Orderly publisher done) (hmoves : Moves t w w')
    (hlock : w.publishLock ≠ some t) (hlock' : w'.publishLock = w.publishLock)
    (hrequests : w'.requests = w.requests)
    (hself : ∀ phase, w'.threads.get? t = some phase → phase.inside = false) :
    w'.Orderly publisher done := by
  rw [← hlock'] at hlock
  refine h.moves hmoves ?_ (fun heq => absurd heq hlock) (Or.inl rfl) ?_ h.complete h.made h.order
  · intro phase hphase
    have houtside := hself phase hphase
    refine ⟨?_, PublishPhase.ready_of_outside houtside done⟩
    rw [houtside]
    exact ⟨fun hin => absurd hin Bool.false_ne_true, fun heq => absurd heq hlock⟩
  · rw [hrequests, hmoves.pending (hlock' ▸ hlock) hlock]
    exact h.requests

/-- The thread inside the lock goes on. -/
theorem Orderly.goesOn (h : w.Orderly publisher done) (hmoves : Moves t w w')
    {phase : PublishPhase V α} (hget : w'.threads.get? t = some phase)
    (hlock' : w'.publishLock = some t) (hinside : phase.inside = true)
    (hready : phase.Ready publisher w.views done)
    (hrequests : w'.requests = done.flatMap Publishing.requests ++ phase.pending) :
    w'.Orderly publisher done := by
  refine h.moves hmoves ?_ ?_ (Or.inl rfl) ?_ h.complete h.made h.order
  · intro phase' hphase'
    rw [hget] at hphase'
    cases hphase'
    exact ⟨⟨fun _ => hlock', fun _ => hinside⟩, hready⟩
  · intro _
    rw [hget]
    exact Option.some_ne_none _
  · rw [hrequests, pending_of_held hlock' hget]

/-- The thread inside lets the lock go. -/
theorem Orderly.released (h : w.Orderly publisher done) (hmoves : Moves t w w')
    (hlock : w.publishLock = some t) (hlock' : w'.publishLock = none)
    (hself : ∀ phase, w'.threads.get? t = some phase → phase.inside = false)
    (hrequests : w'.requests = done'.flatMap Publishing.requests)
    (hcomplete : ∀ p ∈ done', p.Complete)
    (hmade : ∀ p ∈ done', publisher.MadeAt w.views p.body p.call p.firstView p.secondView)
    (horder : done'.Pairwise (fun p q => p.secondView ≤ q.firstView)) :
    w'.Orderly publisher done' := by
  have hfree : w'.publishLock ≠ some t := by rw [hlock']; exact (Option.some_ne_none t).symm
  refine h.moves hmoves ?_ (fun heq => absurd heq hfree) (Or.inr hlock) ?_ hcomplete hmade horder
  · intro phase hphase
    have houtside := hself phase hphase
    refine ⟨?_, PublishPhase.ready_of_outside houtside done'⟩
    rw [houtside]
    exact ⟨fun hin => absurd hin Bool.false_ne_true, fun heq => absurd heq hfree⟩
  · rw [hrequests, pending_of_free hlock', List.append_nil]

/-- A publishing is over with its last answer. -/
theorem Orderly.answered (h : w.Orderly publisher done) (hmoves : Moves t w w')
    {phase : PublishPhase V α} (hget : w.threads.get? t = some phase) {verb : ApiVerb}
    {body : ResourceUsagePredictionsResource V} {call : PublishCall V α}
    {firstView secondView : Nat}
    {answer : ApiAnswer}
    (hphase : phase.requesting = some (verb, body, call, firstView, secondView))
    (hover : verb.outcome answer ≠ none) (hlock' : w'.publishLock = none)
    (hself : ∀ phase, w'.threads.get? t = some phase → phase.inside = false)
    (hrequests : w'.requests = w.requests ++ [⟨verb, body, call, firstView, secondView, answer⟩]) :
    ∃ done', w'.Orderly publisher done' := by
  have hlock := (h.lock t phase hget).mp (PublishPhase.inside_of_requesting hphase)
  obtain ⟨hmade, hafter⟩ := (h.hands t phase hget).of_requesting hphase
  -- what the patch was answered, and the creation if it is the creation that ends it
  obtain ⟨patched, created, hcomplete, hlogged⟩ : ∃ patched created,
      Publishing.Complete ⟨body, call, firstView, secondView, patched, created⟩
        ∧ w'.requests = done.flatMap Publishing.requests
          ++ Publishing.requests ⟨body, call, firstView, secondView, patched, created⟩ := by
    rw [hrequests, h.requests, pending_of_held hlock hget]
    rcases PublishPhase.requesting_eq_some hphase with ⟨rfl, rfl⟩ | ⟨rfl, rfl⟩
    · refine ⟨answer, none, ⟨fun hcreated => absurd hcreated Bool.false_ne_true, ?_⟩, ?_⟩
      · intro hmissing
        dsimp only at hmissing
        subst hmissing
        exact absurd rfl hover
      · rw [List.append_assoc]
        rfl
    · refine ⟨.refused 404, some answer, ⟨fun _ => rfl, fun _ => rfl⟩, ?_⟩
      rw [List.append_assoc]
      rfl
  refine ⟨done ++ [⟨body, call, firstView, secondView, patched, created⟩],
    h.released hmoves hlock hlock' hself ?_ ?_ ?_ ?_⟩
  · rw [hlogged, List.flatMap_append, List.flatMap_singleton]
  · intro p hp
    rcases List.mem_append.mp hp with hp | hp
    · exact h.complete p hp
    · rw [List.mem_singleton.mp hp]; exact hcomplete
  · intro p hp
    rcases List.mem_append.mp hp with hp | hp
    · exact h.made p hp
    · rw [List.mem_singleton.mp hp]; exact hmade
  · refine List.pairwise_append.mpr ⟨h.order, List.pairwise_singleton _ _, ?_⟩
    intro p hp q hq
    rw [List.mem_singleton.mp hq]
    exact hafter p hp

end

theorem get?_enter (w : PublishWorld V α) (t t' : Nat) (phase : PublishPhase V α) :
    (w.enter t phase).threads.get? t' = if t' = t then some phase else w.threads.get? t' :=
  OrderedDict.get?_insert _ _ _ _

theorem get?_enter_self (w : PublishWorld V α) (t : Nat) (phase : PublishPhase V α) :
    (w.enter t phase).threads.get? t = some phase := (get?_enter w t t phase).trans (if_pos rfl)

/-- A thread that entered a phase is there. -/
theorem outside_enter {w : PublishWorld V α} {t : Nat} {phase : PublishPhase V α}
    (h : phase.inside = false) (phase' : PublishPhase V α)
    (hget : (w.enter t phase).threads.get? t = some phase') : phase'.inside = false := by
  rw [get?_enter_self] at hget
  exact Option.some.inj hget ▸ h

theorem moves_enter (w : PublishWorld V α) (t : Nat) (phase : PublishPhase V α) :
    Moves t w (w.enter t phase) :=
  ⟨rfl, rfl, fun t' ht => (get?_enter w t t' phase).trans (if_neg ht), fun _ _ => Iff.rfl⟩

/-- A thread that lets the lock go. -/
theorem moves_leaving {w w' : PublishWorld V α} {t : Nat} {phase : PublishPhase V α}
    (hlock : w.publishLock = some t) (hviews : w'.views = w.views)
    (hpods : w'.podManager = w.podManager) (hthreads : w'.threads = w.threads.insert t phase)
    (hlock' : w'.publishLock = none) : Moves t w w' := by
  refine ⟨hviews, hpods, fun t' ht => ?_, fun t' ht => ?_⟩
  · rw [hthreads]
    exact (moves_enter w t phase).others t' ht
  · rw [hlock, hlock']
    exact ⟨fun h => absurd h.symm (Option.some_ne_none t'),
      fun h => absurd (Option.some.inj h).symm ht⟩

/-- **One step keeps the order.** -/
theorem Orderly.stepped [Add V] {publisher : Publisher V α} {w w' : PublishWorld V α}
    {done : List (Publishing V α)} (h : w.Orderly publisher done)
    {e : PublishStep V α} (hstep : Stepped publisher w e w') :
    ∃ done', w'.Orderly publisher done' := by
  cases hstep with
  | stays => exact ⟨done, h⟩
  | podEvent event => exact ⟨done, h.podEvent event⟩
  | reported => exact ⟨done, h.now, h.lock, h.held, h.requests, h.complete, h.made, h.order, h.hands⟩
  | begun t ht =>
    refine ⟨done, h.comesOrGoes ?_ (fun hlock => h.held t hlock ht) rfl rfl
      (outside_enter (w := w) rfl)⟩
    exact ⟨rfl, rfl, (moves_enter w t .waiting).others, fun _ _ => Iff.rfl⟩
  | locked t ht hfree =>
    refine ⟨done, h.goesOn ?_ (get?_enter_self w t .looking) rfl rfl trivial ?_⟩
    · refine ⟨rfl, rfl, (moves_enter w t .looking).others, fun t' hne => ?_⟩
      rw [hfree]
      exact ⟨fun heq => absurd (Option.some.inj heq).symm hne,
        fun heq => absurd heq.symm (Option.some_ne_none t')⟩
    · exact h.requests.trans (by rw [pending_of_free hfree]; rfl)
  | looked t ht =>
    have hlock := (h.lock t _ ht).mp rfl
    refine ⟨done, h.goesOn (moves_enter ..) (get?_enter_self ..) hlock rfl
      ⟨h.now, fun p hp => h.seen hp⟩ ?_⟩
    exact h.requests.trans (by rw [pending_of_held hlock ht]; rfl)
  | gathered t first view body ht call answer hbody =>
    have hlock := (h.lock t _ ht).mp rfl
    obtain ⟨hfirst, hafter⟩ := h.hands t _ ht
    have hview : view ≤ w.view := Nat.le_sub_one_of_lt (List.getElem?_eq_some_iff.mp hfirst).1
    refine ⟨done, h.goesOn (moves_enter ..) (get?_enter_self ..) hlock rfl
      ⟨⟨hview, first, _, hfirst, h.now, hbody⟩, hafter⟩ ?_⟩
    exact h.requests.trans (by rw [pending_of_held hlock ht]; rfl)
  | failed t first view ht =>
    have hlock := (h.lock t _ ht).mp rfl
    refine ⟨done, h.released (moves_leaving hlock rfl rfl rfl rfl) hlock rfl
      (outside_enter (w := w) rfl) ?_ h.complete h.made h.order⟩
    exact h.requests.trans (by rw [pending_of_held hlock ht]; exact List.append_nil _)
  | missing t body call firstView secondView ht =>
    have hlock := (h.lock t _ ht).mp rfl
    obtain ⟨hmade, hafter⟩ := h.hands t _ ht
    refine ⟨done, h.goesOn ?_ (get?_enter_self ..) hlock rfl ⟨hmade, hafter⟩ ?_⟩
    · exact ⟨rfl, rfl, (moves_enter w t _).others, fun _ _ => Iff.rfl⟩
    · show w.requests ++ _ = _
      rw [h.requests, pending_of_held hlock ht]
      exact congrArg (· ++ _) (List.append_nil _)
  | returned t phase verb body call firstView secondView answer ht hphase houtcome =>
    have hlock := (h.lock t phase ht).mp (PublishPhase.inside_of_requesting hphase)
    refine h.answered (moves_leaving hlock rfl rfl rfl rfl) ht hphase ?_ rfl
      (outside_enter (w := w) rfl) rfl
    rw [houtcome]
    exact Option.some_ne_none true
  | raised t phase verb body call firstView secondView answer ht hphase houtcome =>
    have hlock := (h.lock t phase ht).mp (PublishPhase.inside_of_requesting hphase)
    refine h.answered (moves_leaving hlock rfl rfl rfl rfl) ht hphase ?_ rfl
      (outside_enter (w := w) rfl) rfl
    rw [houtcome]
    exact Option.some_ne_none false
  | counted t returned ht =>
    have hfree : w.publishLock ≠ some t := fun hlock =>
      absurd ((h.lock t _ ht).mpr hlock) Bool.false_ne_true
    have hget : ∀ t', (w.threads.erase t).get? t' = if t' = t then none else w.threads.get? t' :=
      fun t' => OrderedDict.get?_erase _ _ _
    have hgone : ∀ phase, (w.threads.erase t).get? t = some phase → phase.inside = false := by
      intro phase hphase
      rw [hget, if_pos rfl] at hphase
      cases hphase
    cases returned with
    | true =>
      exact ⟨done, h.comesOrGoes ⟨rfl, rfl, fun t' ht' => (hget t').trans (if_neg ht'),
        fun _ _ => Iff.rfl⟩ hfree rfl rfl hgone⟩
    | false =>
      exact ⟨done, h.comesOrGoes ⟨rfl, rfl, fun t' ht' => (hget t').trans (if_neg ht'),
        fun _ _ => Iff.rfl⟩ hfree rfl rfl hgone⟩

/-- The publishing of a patch that found nothing is made as those that are over were, and comes
after them. -/
theorem Orderly.pending_ready [Add V] {publisher : Publisher V α} {w : PublishWorld V α}
    {done : List (Publishing V α)} (h : w.Orderly publisher done) {r : ApiRequest V α}
    (hr : r ∈ w.pending) : publisher.MadeAt w.views r.body r.call r.firstView r.secondView
      ∧ ∀ p ∈ done, p.secondView ≤ r.firstView := by
  cases hlock : w.publishLock with
  | none => rw [pending_of_free hlock] at hr; exact absurd hr List.not_mem_nil
  | some t =>
    cases hget : w.threads.get? t with
    | none => exact absurd hget (h.held t hlock)
    | some phase =>
      rw [pending_of_held hlock hget] at hr
      have hready := h.hands t phase hget
      cases phase with
      | creating body call firstView secondView =>
        obtain rfl := List.mem_singleton.mp hr
        exact hready
      | waiting => exact absurd hr List.not_mem_nil
      | looking => exact absurd hr List.not_mem_nil
      | gathering => exact absurd hr List.not_mem_nil
      | patching => exact absurd hr List.not_mem_nil
      | leaving => exact absurd hr List.not_mem_nil

/-- Every request is made of two looks at the pods, also the one whose publishing is not over. -/
theorem Orderly.madeAt [Add V] {publisher : Publisher V α} {w : PublishWorld V α}
    {done : List (Publishing V α)} (h : w.Orderly publisher done) {r : ApiRequest V α}
    (hr : r ∈ w.requests) :
    publisher.MadeAt w.views r.body r.call r.firstView r.secondView := by
  rw [h.requests] at hr
  rcases List.mem_append.mp hr with hr | hr
  · obtain ⟨p, hp, hr⟩ := List.mem_flatMap.mp hr
    have hmade := h.made p hp
    rcases List.mem_cons.mp hr with rfl | hr
    · exact hmade
    · rw [Option.mem_toList, Option.map_eq_some_iff] at hr
      obtain ⟨answer, _, rfl⟩ := hr
      exact hmade
  · exact (h.pending_ready hr).1

theorem exists_orderly [Add V] (publisher : Publisher V α) (podManager : PodManager LivePodBody)
    (es : List (PublishStep V α)) :
    ∃ done, (exec (step publisher) (init podManager) es).Orderly publisher done :=
  exec_invariant (I := fun w : PublishWorld V α => ∃ done, w.Orderly publisher done)
    (fun w e ⟨_, h⟩ => h.stepped (stepped publisher w e)) ⟨[], orderly_init publisher podManager⟩ es

/-- The requests made are one publishing after another, in the order of the views they are
made of. -/
structure OneAfterAnother [Add V] (publisher : Publisher V α) (w : PublishWorld V α)
    (publishings : List (Publishing V α)) : Prop where
  requests : w.requests = publishings.flatMap Publishing.requests ++ w.pending
  complete : ∀ p ∈ publishings, p.Complete
  made : ∀ p ∈ publishings, publisher.MadeAt w.views p.body p.call p.firstView p.secondView
  order : publishings.Pairwise (fun p q => p.secondView ≤ q.firstView)
  /-- The publishing whose creation is still to come is like the others, and after them. -/
  last : ∀ r ∈ w.pending, publisher.MadeAt w.views r.body r.call r.firstView r.secondView
    ∧ ∀ p ∈ publishings, p.secondView ≤ r.firstView
  exclusive : ∀ t t' phase phase', w.threads.get? t = some phase →
    w.threads.get? t' = some phase' → phase.inside = true → phase'.inside = true → t = t'

/-- **Publishings do not mix.** However the prediction events, their threads, the watch of the
pods and the reports take turns, and whatever the services answer: Kubernetes sees one
publishing after another. Each is a patch, and a creation exactly where the patch found
nothing; its body is what the publisher makes of two looks at the pods, the second no earlier
than the first; and no publishing looks before the one before it has looked for the last
time. -/
theorem reachable_orderly [Add V] (publisher : Publisher V α)
    (podManager : PodManager LivePodBody) (es : List (PublishStep V α)) :
    ∃ publishings, OneAfterAnother publisher (exec (step publisher) (init podManager) es)
      publishings := by
  obtain ⟨done, h⟩ := exists_orderly publisher podManager es
  refine ⟨done, h.requests, h.complete, h.made, h.order, fun _ => h.pending_ready, ?_⟩
  intro t t' phase phase' hphase hphase' hin hin'
  have hlock := (h.lock t phase hphase).mp hin
  rw [(h.lock t' phase' hphase').mp hin'] at hlock
  exact (Option.some.inj hlock).symm

end PublishWorld

end TitusIsolate
