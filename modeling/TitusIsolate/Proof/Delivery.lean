import TitusIsolate.Isolate.Keystone

/-!
# Delivery of the event log

Every message that got into the queue is in one place: acknowledged, lost, dropped, in the
worker's hand or queued. The queue is first in, first out, so a message the service keeps
refusing does not hold up those behind it, and each is posted within a number of the
worker's own steps that its place in the line gives.

The count of the failures is raised without a lock. It may say too little, never too much.
-/

namespace TitusIsolate

namespace KeystoneEventLogManager

variable {Payload : Type}

/-- What the worker has in its hand. -/
def held (m : KeystoneEventLogManager Payload) : List (KeystoneMsg Payload) :=
  match m.phase with
  | .holding msg => [msg]
  | .idle => []
  | .storing => []

/-- What is still to be dealt with, in order. -/
def line (m : KeystoneEventLogManager Payload) : List (KeystoneMsg Payload) := m.held ++ m.q

/-- What the worker has dealt with, in order: an enabled manager drops nothing and a
disabled one posts nothing. -/
def dealtWith (m : KeystoneEventLogManager Payload) : List (KeystoneMsg Payload) :=
  m.posted ++ m.dropped

/-- The reports and the posts that ended in an `except` clause. -/
def failures (m : KeystoneEventLogManager Payload) : Nat := m.refused + m.lost.length

/-- The service answered, and its answer can be read. -/
def Answered : Except PyError KeystoneResponse → Prop
  | .error _ => False
  | .ok response => ∃ content, response.content = .ok content

/-- What came of a message the worker was holding. -/
inductive Outcome (m : KeystoneEventLogManager Payload) (msg : KeystoneMsg Payload)
    (answer : Except PyError KeystoneResponse) : KeystoneEventLogManager Payload → Prop where
  | dropped (h : m.enabled = false) :
      Outcome m msg answer { m with phase := .idle, dropped := m.dropped ++ [msg] }
  | lost (h : m.enabled = true) (ha : ¬ Answered answer) : Outcome m msg answer (m.fail msg)
  | retried (h : m.enabled = true) :
      Outcome m msg answer
        { m with
          retryMsgCount := m.retryMsgCount + 1
          q := m.q ++ [msg]
          phase := .idle
          put := m.put ++ [msg]
          posted := m.posted ++ [msg] }
  | acknowledged (h : m.enabled = true) :
      Outcome m msg answer
        { m with
          succeededMsgCount := m.succeededMsgCount + 1
          phase := .idle
          posted := m.posted ++ [msg]
          acknowledged := m.acknowledged ++ [msg] }

theorem handle_outcome (m : KeystoneEventLogManager Payload) (msg : KeystoneMsg Payload)
    (answer : Except PyError KeystoneResponse) : Outcome m msg answer (m.handle msg answer) := by
  unfold handle
  rcases Bool.eq_false_or_eq_true m.enabled with hen | hen
  · rw [if_neg (by rw [hen]; exact Bool.false_ne_true)]
    cases answer with
    | error e => exact .lost hen (fun h => h)
    | ok response =>
      dsimp only
      split
      · cases hc : response.content with
        | error e =>
          refine .lost hen ?_
          rintro ⟨content, h⟩
          rw [hc] at h
          cases h
        | ok content => exact .retried hen
      · exact .acknowledged hen
  · rw [if_pos (by rw [hen]; rfl)]
    exact .dropped hen

/-- What one step does. -/
inductive Stepped (m : KeystoneEventLogManager Payload) :
    KeystoneStep Payload → KeystoneEventLogManager Payload → Prop where
  /-- A thread that is still storing, or a worker at an empty queue. -/
  | stays (e) (hwork : ∀ answer, e = .work answer → m.phase = .idle ∧ m.q = []) : Stepped m e m
  | refused (thread payload now uuid hostName) :
      Stepped m (.report thread payload now uuid hostName)
        { m with
          failedMsgCount := m.failedMsgCount.load (.reporter thread)
          refused := m.refused + 1 }
  | accepted (thread payload now uuid hostName) (msg : KeystoneMsg Payload)
      (hmsg : msg.event = [{ uuid := uuid, ts := now, payload := payload }]) :
      Stepped m (.report thread payload now uuid hostName)
        { m with
          q := m.q ++ [msg]
          accepted := m.accepted ++ [msg]
          put := m.put ++ [msg] }
  | stored (thread) :
      Stepped m (.storeFailed thread)
        { m with failedMsgCount := m.failedMsgCount.store (.reporter thread) }
  | took (answer) (msg : KeystoneMsg Payload) (rest) (hphase : m.phase = .idle)
      (hq : m.q = msg :: rest) :
      Stepped m (.work answer) { m with q := rest, phase := .holding msg }
  | handled (answer) (msg : KeystoneMsg Payload) (m') (hphase : m.phase = .holding msg)
      (h : Outcome m msg answer m') : Stepped m (.work answer) m'
  | workerStored (answer) (hphase : m.phase = .storing) :
      Stepped m (.work answer)
        { m with failedMsgCount := m.failedMsgCount.store .worker, phase := .idle }

/-- **What a step can do**, guards included. -/
theorem stepped (m : KeystoneEventLogManager Payload) (e : KeystoneStep Payload) :
    Stepped m e (m.step e) := by
  cases e with
  | report thread payload now uuid hostName =>
    unfold step
    dsimp only
    split
    · exact .stays _ (by intro answer h; cases h)
    · cases hostName with
      | error e => exact .refused thread payload now uuid _
      | ok hostName => exact .accepted thread payload now uuid _ _ rfl
  | storeFailed thread => exact .stored thread
  | work answer =>
    unfold step processEvents
    dsimp only
    split
    · rename_i hphase
      split
      · rename_i hq
        exact .stays _ (fun _ _ => ⟨hphase, hq⟩)
      · rename_i msg rest hq
        exact .took answer msg rest hphase hq
    · rename_i msg hphase
      exact .handled answer msg _ hphase (m.handle_outcome msg answer)
    · rename_i hphase
      exact .workerStored answer hphase

theorem line_of_idle {m : KeystoneEventLogManager Payload} (h : m.phase = .idle) :
    m.line = m.q := by
  unfold line held; rw [h]; rfl

theorem line_of_storing {m : KeystoneEventLogManager Payload} (h : m.phase = .storing) :
    m.line = m.q := by
  unfold line held; rw [h]; rfl

theorem line_of_holding {m : KeystoneEventLogManager Payload} {msg : KeystoneMsg Payload}
    (h : m.phase = .holding msg) : m.line = msg :: m.q := by
  unfold line held; rw [h]; rfl

/-! ## The books -/

/-- **The books of the event log.** -/
structure Ledger (m : KeystoneEventLogManager Payload) : Prop where
  /-- Every accepted message is in one place. -/
  accounted : m.accepted.Perm (m.acknowledged ++ m.lost ++ m.dropped ++ m.line)
  /-- First in, first out. -/
  order : m.put = m.dealtWith ++ m.line
  /-- A message is put again once for every refusal that was counted, and never otherwise. -/
  puts : m.put.length = m.accepted.length + m.retryMsgCount
  succeeded : m.succeededMsgCount = m.acknowledged.length
  enabled : m.enabled = true → m.dropped = []
  disabled : m.enabled = false → m.posted = []
  /-- The count of the failures is never too high. -/
  failed : m.failedMsgCount.Bounded m.failures
  /-- Once a failure has been counted it does not go back to zero. -/
  noticed : m.failedMsgCount.Noticed m.failures

variable (Payload) in
theorem ledger_init (address : Option String) :
    (init address : KeystoneEventLogManager Payload).Ledger where
  accounted := List.Perm.refl _
  order := rfl
  puts := rfl
  succeeded := rfl
  enabled := fun _ => rfl
  disabled := fun _ => rfl
  failed := SharedCount.Bounded.zero
  noticed := SharedCount.Noticed.zero

theorem Ledger.refused {m : KeystoneEventLogManager Payload} (h : m.Ledger) (t : KeystoneThread) :
    Ledger { m with failedMsgCount := m.failedMsgCount.load t, refused := m.refused + 1 } := by
  have hfailures : m.refused + 1 + m.lost.length = m.failures + 1 := by
    unfold failures; omega
  refine ⟨h.accounted, h.order, h.puts, h.succeeded, h.enabled, h.disabled, ?_, ?_⟩
  · have := h.failed.load t
    rwa [← hfailures] at this
  · have := h.noticed.load t
    rwa [← hfailures] at this

theorem Ledger.accepted {m : KeystoneEventLogManager Payload} (h : m.Ledger)
    (msg : KeystoneMsg Payload) :
    Ledger
      { m with q := m.q ++ [msg], accepted := m.accepted ++ [msg], put := m.put ++ [msg] } := by
  have hline : m.held ++ (m.q ++ [msg]) = m.line ++ [msg] := by
    unfold line; rw [List.append_assoc]
  refine ⟨?_, ?_, ?_, h.succeeded, h.enabled, h.disabled, h.failed, h.noticed⟩
  · show (m.accepted ++ [msg]).Perm (_ ++ (m.held ++ (m.q ++ [msg])))
    rw [hline, ← List.append_assoc]
    exact h.accounted.append_right [msg]
  · show m.put ++ [msg] = m.dealtWith ++ (m.held ++ (m.q ++ [msg]))
    rw [hline, ← List.append_assoc, h.order]
  · have := h.puts
    simp only [List.length_append, List.length_singleton]
    omega

theorem Ledger.stored {m : KeystoneEventLogManager Payload} (h : m.Ledger) (t : KeystoneThread) :
    Ledger { m with failedMsgCount := m.failedMsgCount.store t } :=
  ⟨h.accounted, h.order, h.puts, h.succeeded, h.enabled, h.disabled, h.failed.store t,
    h.noticed.store t⟩

/-- Two managers that differ in the worker's phase and the queue alone keep the same books,
as long as the line is the same. -/
theorem Ledger.sameLine {m : KeystoneEventLogManager Payload} (h : m.Ledger)
    (q : List (KeystoneMsg Payload)) (phase : KeystonePhase Payload)
    (hline : line { m with q := q, phase := phase } = m.line) :
    Ledger { m with q := q, phase := phase } := by
  refine ⟨?_, ?_, h.puts, h.succeeded, h.enabled, h.disabled, h.failed, h.noticed⟩
  · rw [hline]; exact h.accounted
  · rw [hline]; exact h.order

/-- The message in the worker's hand, moved to where it ends up. -/
theorem Ledger.inHand {m : KeystoneEventLogManager Payload} (h : m.Ledger)
    {msg : KeystoneMsg Payload} (hphase : m.phase = .holding msg) :
    m.accepted.Perm (msg :: (m.acknowledged ++ m.lost ++ m.dropped ++ m.q))
      ∧ m.put = m.dealtWith ++ msg :: m.q := by
  have haccounted := h.accounted
  have horder := h.order
  rw [line_of_holding hphase] at haccounted horder
  exact ⟨haccounted.trans List.perm_middle, horder⟩

theorem Ledger.dropped {m : KeystoneEventLogManager Payload} (h : m.Ledger)
    {msg : KeystoneMsg Payload} (hphase : m.phase = .holding msg) (hen : m.enabled = false) :
    Ledger { m with phase := .idle, dropped := m.dropped ++ [msg] } := by
  obtain ⟨haccounted, horder⟩ := h.inHand hphase
  refine ⟨?_, ?_, h.puts, h.succeeded, ?_, h.disabled, h.failed, h.noticed⟩
  · refine haccounted.trans ?_
    show (_ :: _).Perm (m.acknowledged ++ m.lost ++ (m.dropped ++ [msg]) ++ m.q)
    rw [← List.append_assoc, List.append_assoc _ [msg]]
    exact List.perm_middle.symm
  · show m.put = m.posted ++ (m.dropped ++ [msg]) ++ m.q
    rw [horder]
    unfold dealtWith
    simp only [List.append_assoc, List.singleton_append]
  · intro hen'
    exact absurd (hen.symm.trans hen') Bool.false_ne_true

/-- An enabled manager has dealt with what it posted. -/
theorem Ledger.posts {m : KeystoneEventLogManager Payload} (h : m.Ledger)
    {msg : KeystoneMsg Payload} (hphase : m.phase = .holding msg) (hen : m.enabled = true) :
    m.put = m.posted ++ [msg] ++ m.dropped ++ m.q := by
  have horder := (h.inHand hphase).2
  unfold dealtWith at horder
  rw [horder, h.enabled hen]
  simp only [List.append_nil, List.append_assoc, List.singleton_append]

theorem Ledger.lost {m : KeystoneEventLogManager Payload} (h : m.Ledger)
    {msg : KeystoneMsg Payload} (hphase : m.phase = .holding msg) (hen : m.enabled = true) :
    Ledger (m.fail msg) := by
  obtain ⟨haccounted, -⟩ := h.inHand hphase
  have hfailures : m.refused + (m.lost ++ [msg]).length = m.failures + 1 := by
    unfold failures
    simp only [List.length_append, List.length_singleton]
    omega
  refine ⟨?_, h.posts hphase hen, h.puts, h.succeeded, h.enabled, ?_, ?_, ?_⟩
  · refine haccounted.trans ?_
    show (_ :: _).Perm (m.acknowledged ++ (m.lost ++ [msg]) ++ m.dropped ++ m.q)
    rw [← List.append_assoc, List.append_assoc _ [msg], List.append_assoc _ ([msg] ++ _),
      List.append_assoc _ m.dropped, List.append_assoc [msg]]
    exact List.perm_middle.symm
  · intro hen'
    exact absurd (hen'.symm.trans hen) Bool.false_ne_true
  · have := h.failed.load .worker
    rwa [← hfailures] at this
  · have := h.noticed.load .worker
    rwa [← hfailures] at this

theorem Ledger.retried {m : KeystoneEventLogManager Payload} (h : m.Ledger)
    {msg : KeystoneMsg Payload} (hphase : m.phase = .holding msg) (hen : m.enabled = true) :
    Ledger
      { m with
        retryMsgCount := m.retryMsgCount + 1
        q := m.q ++ [msg]
        phase := .idle
        put := m.put ++ [msg]
        posted := m.posted ++ [msg] } := by
  obtain ⟨haccounted, -⟩ := h.inHand hphase
  refine ⟨?_, ?_, ?_, h.succeeded, h.enabled, ?_, h.failed, h.noticed⟩
  · refine haccounted.trans ?_
    show (_ :: _).Perm (m.acknowledged ++ m.lost ++ m.dropped ++ (m.q ++ [msg]))
    rw [← List.append_assoc]
    exact @List.perm_append_comm _ [msg] _
  · show m.put ++ [msg] = m.posted ++ [msg] ++ m.dropped ++ (m.q ++ [msg])
    rw [h.posts hphase hen]
    simp only [List.append_assoc]
  · have := h.puts
    simp only [List.length_append, List.length_singleton]
    omega
  · intro hen'
    exact absurd (hen'.symm.trans hen) Bool.false_ne_true

theorem Ledger.acknowledged {m : KeystoneEventLogManager Payload} (h : m.Ledger)
    {msg : KeystoneMsg Payload} (hphase : m.phase = .holding msg) (hen : m.enabled = true) :
    Ledger
      { m with
        succeededMsgCount := m.succeededMsgCount + 1
        phase := .idle
        posted := m.posted ++ [msg]
        acknowledged := m.acknowledged ++ [msg] } := by
  obtain ⟨haccounted, -⟩ := h.inHand hphase
  refine ⟨?_, h.posts hphase hen, h.puts, ?_, h.enabled, ?_, h.failed, h.noticed⟩
  · refine haccounted.trans ?_
    show (_ :: _).Perm (m.acknowledged ++ [msg] ++ m.lost ++ m.dropped ++ m.q)
    simp only [List.append_assoc, List.singleton_append]
    exact List.perm_middle.symm
  · have := h.succeeded
    simp only [List.length_append, List.length_singleton]
    omega
  · intro hen'
    exact absurd (hen'.symm.trans hen) Bool.false_ne_true

/-- **Every step keeps the books.** -/
theorem ledger_step {m : KeystoneEventLogManager Payload} (h : m.Ledger)
    (e : KeystoneStep Payload) : (m.step e).Ledger := by
  have hstep := m.stepped e
  generalize m.step e = m' at hstep ⊢
  cases hstep with
  | stays => exact h
  | refused => exact h.refused _
  | accepted _ _ _ _ _ msg _ => exact h.accepted msg
  | stored => exact h.stored _
  | took _ msg rest hphase hq =>
    refine h.sameLine rest (.holding msg) ?_
    rw [line_of_holding rfl, line_of_idle hphase, hq]
  | handled _ msg _ hphase hout =>
    cases hout with
    | dropped hen => exact h.dropped hphase hen
    | lost hen _ => exact h.lost hphase hen
    | retried hen => exact h.retried hphase hen
    | acknowledged hen => exact h.acknowledged hphase hen
  | workerStored _ hphase =>
    exact (h.stored .worker).sameLine m.q .idle
      ((line_of_idle rfl).trans (line_of_storing hphase).symm)

theorem ledger_exec {m : KeystoneEventLogManager Payload} (h : m.Ledger)
    (es : List (KeystoneStep Payload)) : (Run.exec step m es).Ledger :=
  Run.exec_invariant (I := Ledger) (fun _ e hm => ledger_step hm e) h es

/-! ## At most once -/

/-- The uuids of a message's events. -/
def uuids (msg : KeystoneMsg Payload) : List String := msg.event.map (fun e => e.uuid)

/-- The uuid that a report draws. -/
def drawn : KeystoneStep Payload → Option String
  | .report _ _ _ uuid _ => some uuid
  | .storeFailed _ => none
  | .work _ => none

theorem accepted_step (m : KeystoneEventLogManager Payload) (e : KeystoneStep Payload) :
    (m.step e).accepted = m.accepted
      ∨ ∃ msg uuid, drawn e = some uuid ∧ uuids msg = [uuid]
        ∧ (m.step e).accepted = m.accepted ++ [msg] := by
  have hstep := m.stepped e
  generalize m.step e = m' at hstep ⊢
  cases hstep with
  | stays => exact .inl rfl
  | refused => exact .inl rfl
  | accepted _ _ _ uuid _ msg hmsg =>
    refine .inr ⟨msg, uuid, rfl, ?_, rfl⟩
    unfold uuids
    rw [hmsg]
    rfl
  | stored => exact .inl rfl
  | took => exact .inl rfl
  | handled _ _ _ _ hout => cases hout <;> exact .inl rfl
  | workerStored => exact .inl rfl

/-- The accepted messages carry uuids that were drawn, in that order. -/
theorem accepted_sublist (m : KeystoneEventLogManager Payload) (es : List (KeystoneStep Payload)) :
    ((Run.exec step m es).accepted.map uuids).Sublist
      (m.accepted.map uuids ++ (es.filterMap drawn).map (fun u => [u])) := by
  induction es generalizing m with
  | nil => simp
  | cons e es ih =>
    refine (ih (m.step e)).trans ?_
    rcases m.accepted_step e with hsame | ⟨msg, uuid, hdrawn, huuids, happ⟩
    · rw [hsame, List.filterMap_cons]
      refine List.Sublist.append_left ?_ _
      cases drawn e with
      | none => exact List.Sublist.refl _
      | some u => exact List.sublist_cons_self _ _
    · rw [happ, List.filterMap_cons, hdrawn, List.map_append, List.append_assoc]
      simp only [List.map_cons, List.map_nil, huuids, List.singleton_append]
      exact List.Sublist.refl _

theorem accepted_nodup {address : Option String} {es : List (KeystoneStep Payload)}
    (huuid : (es.filterMap drawn).Nodup) :
    (Run.exec step (init address : KeystoneEventLogManager Payload) es).accepted.Nodup := by
  have hsub := accepted_sublist (init address : KeystoneEventLogManager Payload) es
  refine List.Nodup.of_map uuids (hsub.nodup ?_)
  show (List.map (fun u => [u]) (es.filterMap drawn)).Nodup
  exact huuid.map (fun u v h => by simpa using h)

/-- A step that counts a failure finds no other count under way. -/
def RaisesAlone (m : KeystoneEventLogManager Payload) (e : KeystoneStep Payload) : Prop :=
  (m.step e).failures = m.failures ∨ m.failedMsgCount.inFlight = []

theorem exact_step {m : KeystoneEventLogManager Payload} {e : KeystoneStep Payload}
    (h : m.failedMsgCount.Exact m.failures) (halone : m.RaisesAlone e) :
    (m.step e).failedMsgCount.Exact (m.step e).failures := by
  unfold RaisesAlone at halone
  have hstep := m.stepped e
  generalize m.step e = m' at hstep halone ⊢
  cases hstep with
  | stays => exact h
  | refused thread =>
    have hfailures : m.refused + 1 + m.lost.length = m.failures + 1 := by
      unfold failures; omega
    rcases halone with hsame | hfree
    · exact absurd (hfailures.symm.trans hsame) (Nat.succ_ne_self _)
    · have := h.load hfree (.reporter thread)
      rwa [← hfailures] at this
  | accepted => exact h
  | stored thread => exact h.store _
  | took => exact h
  | handled _ msg _ _ hout =>
    cases hout with
    | dropped => exact h
    | lost =>
      have hfailures : m.refused + (m.lost ++ [msg]).length = m.failures + 1 := by
        unfold failures
        simp only [List.length_append, List.length_singleton]
        omega
      rcases halone with hsame | hfree
      · exact absurd (hfailures.symm.trans hsame) (Nat.succ_ne_self _)
      · have := h.load hfree .worker
        rwa [← hfailures] at this
    | retried => exact h
    | acknowledged => exact h
  | workerStored => exact h.store _

/-- The service takes the message. -/
def taken : Except PyError KeystoneResponse := .ok { statusCode := 200, content := .ok "" }

/-- The service has no time for it. -/
def busy : Except PyError KeystoneResponse := .ok { statusCode := 503, content := .ok "busy" }

/-- Two reports of three get into the queue, and the worker takes the first. -/
def threeReports : List (KeystoneStep Unit) :=
  [.report 0 () "12:00" "a" (.ok "host"),
   .report 1 () "12:01" "b" (.error (.exception "no host name")),
   .storeFailed 1,
   .report 1 () "12:02" "c" (.ok "host"),
   .work taken]

/-- A step of the worker. -/
def isWork : KeystoneStep Payload → Bool
  | .report _ _ _ _ _ => false
  | .storeFailed _ => false
  | .work _ => true

/-- How many of the worker's steps it takes to deal with what is `j` places from the head of
the line: three for each message before it, and what the phase leaves of its own. -/
def dueIn (m : KeystoneEventLogManager Payload) (j : Nat) : Nat :=
  match m.phase with
  | .holding _ => 3 * j + 1
  | .idle => 3 * j + 2
  | .storing => 3 * j + 3

theorem dueIn_of_holding {m : KeystoneEventLogManager Payload} {msg : KeystoneMsg Payload}
    (h : m.phase = .holding msg) (j : Nat) : m.dueIn j = 3 * j + 1 := by
  unfold dueIn; rw [h]

theorem dueIn_of_idle {m : KeystoneEventLogManager Payload} (h : m.phase = .idle) (j : Nat) :
    m.dueIn j = 3 * j + 2 := by
  unfold dueIn; rw [h]

theorem dueIn_of_storing {m : KeystoneEventLogManager Payload} (h : m.phase = .storing)
    (j : Nat) : m.dueIn j = 3 * j + 3 := by
  unfold dueIn; rw [h]

theorem dueIn_le (m : KeystoneEventLogManager Payload) (j : Nat) : m.dueIn j ≤ 3 * j + 3 := by
  unfold dueIn
  split <;> omega

/-- Whatever comes of it, the message in the worker's hand has been dealt with. -/
theorem Outcome.dealt {m m' : KeystoneEventLogManager Payload} {msg : KeystoneMsg Payload}
    {answer : Except PyError KeystoneResponse} (h : Outcome m msg answer m') :
    m'.dealtWith.length = m.dealtWith.length + 1 := by
  unfold dealtWith
  cases h with
  | dropped => simp only [List.length_append, List.length_singleton]; omega
  | lost =>
    unfold fail
    simp only [List.length_append, List.length_singleton]
    omega
  | retried => simp only [List.length_append, List.length_singleton]; omega
  | acknowledged => simp only [List.length_append, List.length_singleton]; omega

/-- A step of a worker that has something to do brings it nearer, or deals with the head of
the line. -/
theorem work_step {m : KeystoneEventLogManager Payload} (hline : m.line ≠ [])
    (answer : Except PyError KeystoneResponse) :
    ((m.step (.work answer)).dealtWith.length = m.dealtWith.length
        ∧ ∀ j, (m.step (.work answer)).dueIn j + 1 = m.dueIn j)
      ∨ ((m.step (.work answer)).dealtWith.length = m.dealtWith.length + 1
        ∧ ∀ j, (m.step (.work answer)).dueIn j + 1 ≤ m.dueIn (j + 1)) := by
  have hstep := m.stepped (.work answer)
  generalize m.step (.work answer) = m' at hstep ⊢
  cases hstep with
  | stays _ hwork =>
    obtain ⟨hphase, hq⟩ := hwork answer rfl
    exact absurd ((line_of_idle hphase).trans hq) hline
  | took _ msg rest hphase hq =>
    refine .inl ⟨rfl, fun j => ?_⟩
    rw [dueIn_of_holding rfl, dueIn_of_idle hphase]
  | handled _ msg _ hphase hout =>
    refine .inr ⟨hout.dealt, fun j => ?_⟩
    have := m'.dueIn_le j
    rw [dueIn_of_holding hphase]
    omega
  | workerStored _ hphase =>
    refine .inl ⟨rfl, fun j => ?_⟩
    rw [dueIn_of_idle rfl, dueIn_of_storing hphase]

/-- The steps of the other threads leave the worker where it is. -/
theorem other_step (m : KeystoneEventLogManager Payload) {e : KeystoneStep Payload}
    (he : isWork e = false) :
    (m.step e).dealtWith = m.dealtWith ∧ ∀ j, (m.step e).dueIn j = m.dueIn j := by
  have hstep := m.stepped e
  generalize m.step e = m' at hstep ⊢
  cases hstep with
  | stays => exact ⟨rfl, fun _ => rfl⟩
  | refused => exact ⟨rfl, fun _ => rfl⟩
  | accepted => exact ⟨rfl, fun _ => rfl⟩
  | stored => exact ⟨rfl, fun _ => rfl⟩
  | took => cases he
  | handled => cases he
  | workerStored => cases he

/-- What one step does to what has been put: nothing, or one more at the end. -/
theorem put_step (m : KeystoneEventLogManager Payload) (e : KeystoneStep Payload) :
    m.put <+: (m.step e).put := by
  have hstep := m.stepped e
  generalize m.step e = m' at hstep ⊢
  cases hstep with
  | stays => exact List.prefix_refl _
  | refused => exact List.prefix_refl _
  | accepted => exact List.prefix_append _ _
  | stored => exact List.prefix_refl _
  | took => exact List.prefix_refl _
  | handled _ _ _ _ hout =>
    cases hout with
    | dropped => exact List.prefix_refl _
    | lost => exact List.prefix_refl _
    | retried => exact List.prefix_append _ _
    | acknowledged => exact List.prefix_refl _
  | workerStored => exact List.prefix_refl _

theorem put_exec (m : KeystoneEventLogManager Payload) (es : List (KeystoneStep Payload)) :
    m.put <+: (Run.exec step m es).put :=
  Run.exec_invariant (I := fun m' : KeystoneEventLogManager Payload => m.put <+: m'.put)
    (fun m' e h => h.trans (m'.put_step e)) (List.prefix_refl _) es

theorem dealtWith_step (m : KeystoneEventLogManager Payload) (e : KeystoneStep Payload) :
    m.dealtWith.length ≤ (m.step e).dealtWith.length := by
  have hstep := m.stepped e
  generalize m.step e = m' at hstep ⊢
  cases hstep with
  | stays => exact Nat.le_refl _
  | refused => exact Nat.le_refl _
  | accepted => exact Nat.le_refl _
  | stored => exact Nat.le_refl _
  | took => exact Nat.le_refl _
  | handled _ _ _ _ hout => rw [hout.dealt]; exact Nat.le_succ _
  | workerStored => exact Nat.le_refl _

theorem dealtWith_exec (m : KeystoneEventLogManager Payload) (es : List (KeystoneStep Payload)) :
    m.dealtWith.length ≤ (Run.exec step m es).dealtWith.length :=
  Run.exec_invariant
    (I := fun m' : KeystoneEventLogManager Payload => m.dealtWith.length ≤ m'.dealtWith.length)
    (fun m' e h => h.trans (m'.dealtWith_step e)) (Nat.le_refl _) es

/-- The worker ran out of messages on the way, after dealing with `n` of them at most. -/
def RanOut (m : KeystoneEventLogManager Payload) (es : List (KeystoneStep Payload)) (n : Nat) :
    Prop :=
  ∃ before after, es = before ++ after ∧ (Run.exec step m before).line = []
    ∧ (Run.exec step m before).dealtWith.length ≤ n

theorem RanOut.cons {m : KeystoneEventLogManager Payload} {e : KeystoneStep Payload}
    {es : List (KeystoneStep Payload)} {n : Nat} (h : (m.step e).RanOut es n) :
    m.RanOut (e :: es) n := by
  obtain ⟨before, after, hes, hline, hn⟩ := h
  exact ⟨e :: before, after, by rw [hes]; rfl, hline, hn⟩

/-- **The worker gets on.** In `dueIn j` of its own steps it has dealt with `j + 1` messages,
unless it ran out of them on the way. -/
theorem progress (es : List (KeystoneStep Payload)) :
    ∀ (m : KeystoneEventLogManager Payload) (j : Nat), m.dueIn j ≤ es.countP isWork →
      m.dealtWith.length + j < (Run.exec step m es).dealtWith.length
        ∨ m.RanOut es (m.dealtWith.length + j) := by
  induction es with
  | nil =>
    intro m j hdue
    unfold dueIn at hdue
    split at hdue <;> simp at hdue
  | cons e es ih =>
    intro m j hdue
    by_cases hline : m.line = []
    · exact .inr ⟨[], e :: es, rfl, hline, Nat.le_add_right _ _⟩
    rw [Run.exec_cons]
    cases he : isWork e with
    | false =>
      obtain ⟨hdealt, hsame⟩ := m.other_step he
      rw [List.countP_cons_of_neg (by rw [he]; exact Bool.false_ne_true), ← hsame] at hdue
      rcases ih (m.step e) j hdue with h | h
      · rw [hdealt] at h; exact .inl h
      · rw [hdealt] at h; exact .inr h.cons
    | true =>
      rw [List.countP_cons_of_pos he] at hdue
      cases e with
      | report => cases he
      | storeFailed => cases he
      | work answer =>
        rcases work_step hline answer with ⟨hdealt, hnear⟩ | ⟨hdealt, hnear⟩
        · have hj := hnear j
          rcases ih (m.step (.work answer)) j (by omega) with h | h
          · rw [hdealt] at h; exact .inl h
          · rw [hdealt] at h; exact .inr h.cons
        · cases j with
          | zero =>
            -- The head of the line was all that was asked for.
            refine .inl ?_
            have := (m.step (.work answer)).dealtWith_exec es
            omega
          | succ j =>
            have hj := hnear j
            rcases ih (m.step (.work answer)) j (by omega) with h | h
            · refine .inl ?_
              omega
            · refine .inr ?_
              rw [hdealt, Nat.add_assoc, Nat.add_comm 1 j] at h
              exact h.cons

theorem Ledger.length_put {m : KeystoneEventLogManager Payload} (h : m.Ledger) :
    m.put.length = m.dealtWith.length + m.line.length := by
  rw [h.order, List.length_append]

/-- **No message starves.** In every reachable state, the message `j` places from the head of
the line is the `j`-th that is dealt with from there on, and the worker gets to it within
`dueIn j` of its own steps: whatever is reported meanwhile, however the threads take turns
and whatever the service answers. -/
theorem reachable_served (address : Option String) (es fs : List (KeystoneStep Payload)) (j : Nat)
    (hj : j < (Run.exec step (init address : KeystoneEventLogManager Payload) es).line.length)
    (hfs : (Run.exec step (init address : KeystoneEventLogManager Payload) es).dueIn j
      ≤ fs.countP isWork) :
    (Run.exec step (init address : KeystoneEventLogManager Payload) (es ++ fs)).dealtWith[
        (Run.exec step (init address : KeystoneEventLogManager Payload) es).dealtWith.length + j]?
      = (Run.exec step (init address : KeystoneEventLogManager Payload) es).line[j]? := by
  have hledger := ledger_exec (ledger_init Payload address) es
  rw [Run.exec_append]
  generalize Run.exec step (init address : KeystoneEventLogManager Payload) es = m at *
  have hledger' := ledger_exec hledger fs
  have hlt : m.dealtWith.length + j < (Run.exec step m fs).dealtWith.length := by
    rcases progress fs m j hfs with h | ⟨before, after, -, hline, hn⟩
    · exact h
    · -- What was put does not go away, so the line cannot have been empty.
      exfalso
      have hbefore := (ledger_exec hledger before).length_put
      have hput := (m.put_exec before).length_le
      rw [hledger.length_put, hbefore, hline, List.length_nil] at hput
      omega
  have hget : (Run.exec step m fs).put[m.dealtWith.length + j]? = m.line[j]? := by
    have hlen := hledger.length_put
    obtain ⟨more, hmore⟩ := m.put_exec fs
    rw [← hmore, List.getElem?_append_left (by omega), hledger.order,
      List.getElem?_append_right (by omega), Nat.add_sub_cancel_left]
  rw [hledger'.order, List.getElem?_append_left hlt] at hget
  exact hget

/-- The second message is posted in four steps, though the service refuses the first. -/
theorem reachable_served_threeReports :
    ((Run.exec step (init (some "keystone"))
        (threeReports ++ [.work busy, .work busy, .work busy, .work taken])).dealtWith[1]?).map uuids
      = some ["c"] := by
  have hserved := reachable_served (some "keystone") threeReports
    [.work busy, .work busy, .work busy, .work taken] 1 (by decide) (by decide)
  exact (congrArg (Option.map uuids) hserved).trans rfl

/-! ## Delivery -/

/-- The part of a run in which nobody reports and every post is answered. -/
def Quiet : KeystoneStep Payload → Prop
  | .report _ _ _ _ _ => False
  | .storeFailed _ => True
  | .work answer => Answered answer

/-- `__enabled` is set once and for all. -/
theorem enabled_exec (m : KeystoneEventLogManager Payload) (es : List (KeystoneStep Payload)) :
    (Run.exec step m es).enabled = m.enabled := by
  refine Run.exec_invariant (I := fun m' : KeystoneEventLogManager Payload =>
    m'.enabled = m.enabled) ?_ rfl es
  intro m' e h
  have hstep := m'.stepped e
  generalize m'.step e = m'' at hstep ⊢
  cases hstep with
  | handled _ _ _ _ hout => cases hout <;> exact h
  | _ => exact h

/-- In a quiet step nothing is accepted and nothing is lost, and an empty line stays empty. -/
theorem quiet_step {m : KeystoneEventLogManager Payload} {e : KeystoneStep Payload}
    (he : Quiet e) :
    (m.step e).accepted = m.accepted ∧ (m.step e).lost = m.lost
      ∧ (m.line = [] → (m.step e).line = []) := by
  have hstep := m.stepped e
  generalize m.step e = m' at hstep ⊢
  cases hstep with
  | stays => exact ⟨rfl, rfl, fun h => h⟩
  | refused => exact he.elim
  | accepted => exact he.elim
  | stored => exact ⟨rfl, rfl, fun h => h⟩
  | took _ msg rest hphase hq =>
    refine ⟨rfl, rfl, fun h => ?_⟩
    rw [line_of_idle hphase, hq] at h
    cases h
  | handled _ msg _ hphase hout =>
    have hline : m.line ≠ [] := by rw [line_of_holding hphase]; exact List.cons_ne_nil _ _
    cases hout with
    | dropped => exact ⟨rfl, rfl, fun h => absurd h hline⟩
    | lost _ hlost => exact absurd he hlost
    | retried => exact ⟨rfl, rfl, fun h => absurd h hline⟩
    | acknowledged => exact ⟨rfl, rfl, fun h => absurd h hline⟩
  | workerStored _ hphase =>
    exact ⟨rfl, rfl, fun h => (line_of_storing hphase).symm.trans h⟩

theorem quiet_exec {m : KeystoneEventLogManager Payload} {es : List (KeystoneStep Payload)}
    (hes : ∀ e ∈ es, Quiet e) :
    (Run.exec step m es).accepted = m.accepted ∧ (Run.exec step m es).lost = m.lost
      ∧ (m.line = [] → (Run.exec step m es).line = []) := by
  refine Run.exec_of_mem
    (I := fun m' : KeystoneEventLogManager Payload => m'.accepted = m.accepted
      ∧ m'.lost = m.lost ∧ (m.line = [] → m'.line = [])) ?_ ⟨rfl, rfl, fun h => h⟩
  intro m' e he h
  obtain ⟨hacc, hlost, hline⟩ := quiet_step (m := m') (hes e he)
  exact ⟨hacc.trans h.1, hlost.trans h.2.1, fun hm => hline (h.2.2 hm)⟩

/-- A quiet run with steps enough for the line and for every message that came back to it
ends with the line empty. -/
theorem drained {m : KeystoneEventLogManager Payload} (h : m.Ledger)
    {es : List (KeystoneStep Payload)} (hes : ∀ e ∈ es, Quiet e) {retries : Nat}
    (hretries : (Run.exec step m es).retryMsgCount = m.retryMsgCount + retries)
    (hwork : 3 * (m.line.length + retries) ≤ es.countP isWork) :
    (Run.exec step m es).line = [] := by
  have h' := ledger_exec h es
  obtain ⟨haccepted, -, hempty⟩ := quiet_exec (m := m) hes
  by_cases hnil : m.line = []
  · exact hempty hnil
  have hpos := List.length_pos_of_ne_nil hnil
  have hdue := m.dueIn_le (m.line.length + retries - 1)
  rcases progress es m (m.line.length + retries - 1) (by omega) with hdealt | hout
  · -- As many were dealt with as were ever put.
    have hput := h.length_put
    have hput' := h'.length_put
    have hputs := h.puts
    have hputs' := h'.puts
    rw [haccepted, hretries] at hputs'
    exact List.eq_nil_of_length_eq_zero (by omega)
  · obtain ⟨before, after, hsplit, hline, -⟩ := hout
    rw [hsplit, Run.exec_append]
    refine (quiet_exec ?_).2.2 hline
    intro e he
    exact hes e (by rw [hsplit]; exact List.mem_append_right _ he)

end KeystoneEventLogManager

end TitusIsolate
