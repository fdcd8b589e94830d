import TitusIsolate.Cgroup.File
import TitusIsolate.Lib.Run

/-!
# Writes in flight

One step of a file cgroup manager is a release, a write handed to a thread, a write made
by the caller, or the end of a thread (`step_cases`). Calls are numbered, so a write in
flight is older than the latest call for its file or is that call's own.

A file ends with the value of its latest call when no write lands on it after that
call's write has landed, unless it writes the same value. Nothing in the manager sees to
that: the threads are not ordered and not joined.
-/

namespace TitusIsolate

namespace FileWorld

/-! ## One step -/

theorem write_eq_none_iff {c : CgroupCall} :
    c.write = none ↔ ∃ w, c = .releaseContainer w := by
  cases c with
  | releaseContainer w => simp [CgroupCall.write]
  | setCpuset _ _ => simp [CgroupCall.write]
  | setQuota _ _ => simp [CgroupCall.write]
  | setShares _ _ => simp [CgroupCall.write]
  | setMemoryMigrate _ _ => simp [CgroupCall.write]
  | setMemorySpreadPage _ _ => simp [CgroupCall.write]
  | setMemorySpreadSlab _ _ => simp [CgroupCall.write]

theorem perform_of_write {s : FileWorld} {c : CgroupCall} {w : Write} {ok : Bool}
    (h : c.write = some w) :
    s.perform c ok = if w.file.isThreaded then
        { s.note w with manager := s.manager.start ⟨s.clock, w⟩ }
      else (s.note w).set s.clock w ok := by
  cases c with
  | releaseContainer c => exact absurd h (by simp [CgroupCall.write])
  | setCpuset _ _ => obtain rfl := Option.some.inj h; rfl
  | setQuota _ _ => obtain rfl := Option.some.inj h; rfl
  | setShares _ _ => obtain rfl := Option.some.inj h; rfl
  | setMemoryMigrate _ _ => obtain rfl := Option.some.inj h; rfl
  | setMemorySpreadPage _ _ => obtain rfl := Option.some.inj h; rfl
  | setMemorySpreadSlab _ _ => obtain rfl := Option.some.inj h; rfl

/-- The world without the thread at position `i`. -/
def endThread (s : FileWorld) (i : Nat) : FileWorld :=
  { s with manager := { s.manager with threads := s.manager.threads.eraseIdx i } }

/-- **What one step can be.** -/
theorem step_cases (s : FileWorld) (e : FileEvent) :
    (∃ c ok, e = .call (.releaseContainer c) ok
        ∧ s.step e = { s with
            manager := s.manager.releaseContainer c
            released := fun u => if u = c then true else s.released u })
      ∨ (∃ c ok w, e = .call c ok ∧ c.write = some w ∧ w.file.isThreaded = true
        ∧ s.step e = { s.note w with manager := s.manager.start ⟨s.clock, w⟩ })
      ∨ (∃ c ok w, e = .call c ok ∧ c.write = some w ∧ w.file.isThreaded = false
        ∧ s.step e = (s.note w).set s.clock w ok)
      ∨ (∃ i ok t, e = .complete i ok ∧ s.manager.threads[i]? = some t
        ∧ s.step e = (s.endThread i).set t.number t.write ok)
      ∨ ∃ i ok, e = .complete i ok ∧ s.manager.threads[i]? = none ∧ s.step e = s := by
  cases e with
  | call c ok =>
    cases hw : c.write with
    | none =>
      obtain ⟨u, rfl⟩ := write_eq_none_iff.mp hw
      exact Or.inl ⟨u, ok, rfl, rfl⟩
    | some w =>
      have hstep : s.step (.call c ok) = s.perform c ok := rfl
      rw [hstep, perform_of_write hw]
      by_cases ht : w.file.isThreaded = true
      · rw [if_pos ht]
        exact Or.inr (Or.inl ⟨c, ok, w, rfl, hw, ht, rfl⟩)
      · rw [if_neg ht]
        exact Or.inr (Or.inr (Or.inl ⟨c, ok, w, rfl, hw, by simpa using ht, rfl⟩))
  | complete i ok =>
    have hstep : s.step (.complete i ok) = s.complete i ok := rfl
    rw [hstep, complete]
    cases ht : s.manager.threads[i]? with
    | none => exact Or.inr (Or.inr (Or.inr (Or.inr ⟨i, ok, rfl, ht, rfl⟩)))
    | some t => exact Or.inr (Or.inr (Or.inr (Or.inl ⟨i, ok, t, rfl, ht, rfl⟩)))

/-! ## What the end of a write changes -/

theorem files_set (s : FileWorld) (k : Nat) (w : Write) (ok : Bool) :
    (s.set k w ok).files = if ok then s.files.write w else s.files := by
  cases ok <;> rfl

theorem landed_set (s : FileWorld) (k : Nat) (w : Write) (c : WorkloadId) (f : CgroupFile) :
    (s.set k w true).landed c f
      = if c = w.container ∧ f = w.file then some (max k ((s.landed c f).getD 0))
        else s.landed c f := rfl

theorem isolated_set (s : FileWorld) (k : Nat) (w : Write) (ok : Bool) :
    (s.set k w ok).manager.isolatedWorkloadIds
      = if ok then insert w.container s.manager.isolatedWorkloadIds
        else s.manager.isolatedWorkloadIds := by
  cases ok <;> rfl

theorem threads_set (s : FileWorld) (k : Nat) (w : Write) (ok : Bool) :
    (s.set k w ok).manager.threads = s.manager.threads := by
  cases ok <;> rfl

theorem latest_set (s : FileWorld) (k : Nat) (w : Write) (ok : Bool) :
    (s.set k w ok).latest = s.latest := by
  cases ok <;> rfl

theorem released_set (s : FileWorld) (k : Nat) (w : Write) (ok : Bool) :
    (s.set k w ok).released = s.released := by
  cases ok <;> rfl

/-! ## The record of calls -/

/-- What the numbering of calls gives in every state. -/
structure Numbered (s : FileWorld) : Prop where
  distinct : (s.manager.threads.map WriterThread.number).Nodup
  below : ∀ t ∈ s.manager.threads, t.number < s.clock
  /-- A write in flight belongs to the latest call for its file or to an older one. -/
  noted : ∀ t ∈ s.manager.threads, ∃ n v, s.latest t.write.container t.write.file = some (n, v)
    ∧ t.number ≤ n ∧ (t.number = n → t.write.value = v)
  latestBelow : ∀ c f n v, s.latest c f = some (n, v) → n < s.clock
  landedLe : ∀ c f m, s.landed c f = some m → ∃ n v, s.latest c f = some (n, v) ∧ m ≤ n

theorem latest_note (s : FileWorld) (w : Write) (c : WorkloadId) (f : CgroupFile) :
    (s.note w).latest c f
      = if c = w.container ∧ f = w.file then some (s.clock, w.value) else s.latest c f := rfl

/-- A new call is newer than whatever was recorded for its file. -/
theorem Numbered.note {s : FileWorld} (h : Numbered s) (w : Write) : Numbered (s.note w) where
  distinct := h.distinct
  below := fun t ht => Nat.lt_succ_of_lt (h.below t ht)
  noted := by
    intro t ht
    rw [latest_note]
    split
    · have hlt := h.below t ht
      exact ⟨s.clock, w.value, rfl, Nat.le_of_lt hlt, fun he => absurd he (Nat.ne_of_lt hlt)⟩
    · exact h.noted t ht
  latestBelow := by
    intro c f n v hl
    rw [latest_note] at hl
    split at hl
    · obtain ⟨rfl, _⟩ := Prod.mk.inj (Option.some.inj hl)
      exact Nat.lt_succ_self _
    · exact Nat.lt_succ_of_lt (h.latestBelow c f n v hl)
  landedLe := by
    intro c f m hm
    obtain ⟨n, v, hl, hle⟩ := h.landedLe c f m hm
    rw [latest_note]
    split
    · have hlt := h.latestBelow c f n v hl
      exact ⟨s.clock, w.value, rfl, by omega⟩
    · exact ⟨n, v, hl, hle⟩

/-- Handing the write of the call just recorded to a thread. -/
theorem Numbered.start {s : FileWorld} (h : Numbered s) (w : Write) :
    Numbered { s.note w with manager := s.manager.start ⟨s.clock, w⟩ } := by
  have hn := h.note w
  have hthreads :
      ({ s.note w with manager := s.manager.start ⟨s.clock, w⟩ } : FileWorld).manager.threads
        = s.manager.threads ++ [⟨s.clock, w⟩] := rfl
  refine ⟨?_, ?_, ?_, hn.latestBelow, hn.landedLe⟩
  · rw [hthreads, List.map_append, List.map_singleton]
    refine List.nodup_append.mpr ⟨h.distinct, List.nodup_singleton _, ?_⟩
    intro n hn m hm
    obtain rfl := List.mem_singleton.mp hm
    obtain ⟨t, ht, rfl⟩ := List.mem_map.mp hn
    exact Nat.ne_of_lt (h.below t ht)
  · intro t ht
    rw [hthreads] at ht
    rcases List.mem_append.mp ht with ht | ht
    · exact hn.below t ht
    · obtain rfl := List.mem_singleton.mp ht
      exact Nat.lt_succ_self _
  · intro t ht
    rw [hthreads] at ht
    rcases List.mem_append.mp ht with ht | ht
    · exact hn.noted t ht
    · obtain rfl := List.mem_singleton.mp ht
      refine ⟨s.clock, w.value, ?_, Nat.le_refl _, fun _ => rfl⟩
      exact if_pos ⟨rfl, rfl⟩

theorem mem_endThread {s : FileWorld} {i : Nat} {t : WriterThread}
    (h : t ∈ (s.endThread i).manager.threads) : t ∈ s.manager.threads :=
  List.mem_of_mem_eraseIdx h

/-- A thread other than the one that ends goes on. -/
theorem mem_endThread_of_ne {s : FileWorld} {i : Nat} {t u : WriterThread}
    (hi : s.manager.threads[i]? = some t) (hu : u ∈ s.manager.threads) (hne : u ≠ t) :
    u ∈ (s.endThread i).manager.threads := by
  obtain ⟨j, hj⟩ := List.mem_iff_getElem?.mp hu
  refine List.mem_eraseIdx_iff_getElem?.mpr ⟨j, ?_, hj⟩
  intro heq
  subst heq
  rw [hi] at hj
  exact hne (Option.some.inj hj).symm

theorem Numbered.endThread {s : FileWorld} (h : Numbered s) (i : Nat) :
    Numbered (s.endThread i) where
  distinct := h.distinct.sublist ((List.eraseIdx_sublist _ _).map _)
  below := fun t ht => h.below t (mem_endThread ht)
  noted := fun t ht => h.noted t (mem_endThread ht)
  latestBelow := h.latestBelow
  landedLe := h.landedLe

/-- A write by a recorded call, landed or failed. -/
theorem Numbered.set {s : FileWorld} (h : Numbered s) {k : Nat} {w : Write} (ok : Bool)
    (hw : ∃ n v, s.latest w.container w.file = some (n, v) ∧ k ≤ n) :
    Numbered (s.set k w ok) := by
  unfold FileWorld.set
  cases ok with
  | false => exact ⟨h.distinct, h.below, h.noted, h.latestBelow, h.landedLe⟩
  | true =>
    refine ⟨h.distinct, h.below, h.noted, h.latestBelow, ?_⟩
    intro c f m hm
    simp only [if_true] at hm
    split at hm
    · rename_i hcf
      obtain ⟨rfl, rfl⟩ := hcf
      obtain ⟨n, v, hl, hle⟩ := hw
      refine ⟨n, v, hl, ?_⟩
      obtain rfl := Option.some.inj hm
      -- what had landed on the file is no newer than its latest call
      cases hold : s.landed w.container w.file with
      | none => simpa using hle
      | some m' =>
        obtain ⟨n', v', hl', hle'⟩ := h.landedLe _ _ _ hold
        rw [hl] at hl'
        obtain ⟨rfl, _⟩ := Prod.mk.inj (Option.some.inj hl')
        simp only [Option.getD_some]
        omega
    · exact h.landedLe c f m hm

theorem numbered_init (files : Files) : Numbered (init files) where
  distinct := List.nodup_nil
  below := fun t ht => absurd ht (List.not_mem_nil)
  noted := fun t ht => absurd ht (List.not_mem_nil)
  latestBelow := fun c f n v h => absurd h (by simp [init])
  landedLe := fun c f m h => absurd h (by simp [init])

theorem numbered_step (s : FileWorld) (e : FileEvent) (h : Numbered s) : Numbered (s.step e) := by
  rcases step_cases s e with ⟨c, ok, _, hs⟩ | ⟨c, ok, w, _, _, _, hs⟩ | ⟨c, ok, w, _, _, _, hs⟩
    | ⟨i, ok, t, _, ht, hs⟩ | ⟨i, ok, _, _, hs⟩
  · rw [hs]
    exact ⟨h.distinct, h.below, h.noted, h.latestBelow, h.landedLe⟩
  · rw [hs]
    exact h.start w
  · rw [hs]
    exact (h.note w).set ok ⟨s.clock, w.value, if_pos ⟨rfl, rfl⟩, Nat.le_refl _⟩
  · rw [hs]
    obtain ⟨n, v, hl, hle, _⟩ := h.noted t (List.mem_of_getElem? ht)
    exact (h.endThread i).set ok ⟨n, v, hl, hle⟩
  · rw [hs]
    exact h

end FileWorld

end TitusIsolate
