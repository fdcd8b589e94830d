import TitusIsolate.Proof.Writes

/-!
# The last write

When no write fails, a file with no write in flight holds the value of some call for it,
and of the latest one as long as no older write lands after the latest one's.
-/

namespace TitusIsolate

/-- The write the event ends succeeds. -/
def FileEvent.succeeds : FileEvent → Prop
  | .call _ ok => ok = true
  | .complete _ ok => ok = true

namespace FileWorld

/-- A thread that ends after the write of the latest call for its file has landed writes
the same value. -/
def LandsInOrder (s : FileWorld) : FileEvent → Prop
  | .call _ _ => True
  | .complete i _ => ∀ t, s.manager.threads[i]? = some t →
      ∀ n v, s.latest t.write.container t.write.file = some (n, v) →
        s.landed t.write.container t.write.file = some n → t.write.value = v

/-- The write of the latest call for each file is in flight, or has landed and stands. -/
def Standing (s : FileWorld) : Prop :=
  ∀ c f n v, s.latest c f = some (n, v) →
    (∃ t ∈ s.manager.threads, t.number = n ∧ t.write = ⟨c, f, v⟩)
      ∨ (s.landed c f = some n ∧ s.files c f = some v)

/-- With no work pending, every file holds the value of the latest call for it. -/
structure LastWriteWins (s : FileWorld) : Prop where
  files : s.manager.hasPendingWork = false →
    ∀ c f n v, s.latest c f = some (n, v) → s.files c f = some v
  /-- The cpuset read back is the one of the latest call. -/
  cpuset : s.manager.hasPendingWork = false → ∀ c n threadIds, threadIds ≠ [] →
    s.latest c .cpuset = some (n, getThreadIdsStr threadIds) → s.getCpuset c = .ok threadIds

/-- When the write numbered like the latest call lands, it is what was last to land. -/
theorem landed_set_latest {s : FileWorld} (h : Numbered s) {w : Write} {n : Nat} {v : String}
    (hl : s.latest w.container w.file = some (n, v)) :
    (s.set n w true).landed w.container w.file = some n := by
  rw [landed_set, if_pos ⟨rfl, rfl⟩]
  cases hold : s.landed w.container w.file with
  | none => simp
  | some m =>
    obtain ⟨n', v', hl', hle⟩ := h.landedLe _ _ _ hold
    rw [hl] at hl'
    obtain ⟨rfl, _⟩ := Prod.mk.inj (Option.some.inj hl')
    simp only [Option.getD_some, Nat.max_eq_left hle]

/-- A write that lands leaves the other files and what landed in them. -/
theorem set_other {s : FileWorld} {k n : Nat} {w : Write} {c : WorkloadId} {f : CgroupFile}
    {v : String} (hcf : ¬ (c = w.container ∧ f = w.file))
    (h : s.landed c f = some n ∧ s.files c f = some v) :
    (s.set k w true).landed c f = some n ∧ (s.set k w true).files c f = some v := by
  refine ⟨?_, ?_⟩
  · rw [landed_set, if_neg hcf]
    exact h.1
  · rw [files_set, if_pos rfl, Files.write_other _ hcf]
    exact h.2

theorem standing_call {s : FileWorld} {c : CgroupCall} {ok : Bool} (hn : Numbered s)
    (h : Standing s) (hok : ok = true) : Standing (s.step (.call c ok)) := by
  rcases step_cases s (.call c ok) with ⟨_, _, _, hs⟩ | ⟨_, _, w, _, _, _, hs⟩
    | ⟨_, ok', w, he, _, _, hs⟩ | ⟨i, _, _, he, _⟩ | ⟨i, _, he, _⟩
  · rw [hs]
    exact h
  · -- handed to a thread: the latest call for its file is now in flight
    rw [hs]
    intro c f n v hl
    have hl' : (s.note w).latest c f = some (n, v) := hl
    rw [latest_note] at hl'
    split at hl'
    · rename_i hcf
      obtain ⟨rfl, rfl⟩ := hcf
      obtain ⟨rfl, rfl⟩ := Prod.mk.inj (Option.some.inj hl')
      exact Or.inl ⟨⟨s.clock, w⟩, List.mem_append_right _ (by simp), rfl, rfl⟩
    · rcases h c f n v hl' with ⟨t, ht, hnum⟩ | hstand
      · exact Or.inl ⟨t, List.mem_append_left _ ht, hnum⟩
      · exact Or.inr hstand
  · -- written by the caller: it lands at once
    obtain ⟨_, rfl⟩ := FileEvent.call.inj he
    subst hok
    rw [hs]
    intro c f n v hl
    rw [latest_set, latest_note] at hl
    split at hl
    · rename_i hcf
      obtain ⟨rfl, rfl⟩ := hcf
      obtain ⟨rfl, rfl⟩ := Prod.mk.inj (Option.some.inj hl)
      refine Or.inr ⟨landed_set_latest (hn.note w) (if_pos ⟨rfl, rfl⟩), ?_⟩
      rw [files_set, if_pos rfl]
      exact Files.write_self _ _
    · rename_i hcf
      rcases h c f n v hl with ⟨t, ht, hnum⟩ | hstand
      · exact Or.inl ⟨t, by rw [threads_set]; exact ht, hnum⟩
      · exact Or.inr (set_other hcf hstand)
  · exact absurd he (by simp)
  · exact absurd he (by simp)

/-- A thread ends. If the latest call for its file has landed, the value stands because
the thread writes it again; if not, the latest call's thread is this one or goes on. -/
theorem standing_complete {s : FileWorld} {i : Nat} {ok : Bool} (hn : Numbered s)
    (h : Standing s) (hok : ok = true) (horder : LandsInOrder s (.complete i ok)) :
    Standing (s.step (.complete i ok)) := by
  rcases step_cases s (.complete i ok) with ⟨_, _, he, _⟩ | ⟨_, _, _, he, _⟩ | ⟨_, _, _, he, _⟩
    | ⟨i', ok', t, he, ht, hs⟩ | ⟨_, _, _, _, hs⟩
  · exact absurd he (by simp)
  · exact absurd he (by simp)
  · exact absurd he (by simp)
  · obtain ⟨rfl, rfl⟩ := FileEvent.complete.inj he
    subst hok
    rw [hs]
    obtain ⟨n₀, v₀, hl₀, hle, heq⟩ := hn.noted t (List.mem_of_getElem? ht)
    intro c f n v hl
    rw [latest_set] at hl
    have hl' : s.latest c f = some (n, v) := hl
    by_cases hcf : c = t.write.container ∧ f = t.write.file
    · obtain ⟨rfl, rfl⟩ := hcf
      rw [hl₀] at hl'
      obtain ⟨rfl, rfl⟩ := Prod.mk.inj (Option.some.inj hl')
      -- the latest call for this file is still in flight, or has landed before
      rcases h _ _ _ _ hl₀ with ⟨u, hu, hnum, hwrite⟩ | ⟨hland, hfile⟩
      · by_cases hut : u = t
        · subst hut
          subst hnum
          refine Or.inr ⟨landed_set_latest (hn.endThread i) hl₀, ?_⟩
          rw [files_set, if_pos rfl, hwrite]
          exact Files.write_self _ ⟨_, _, v₀⟩
        · refine Or.inl ⟨u, ?_, hnum, hwrite⟩
          rw [threads_set]
          exact mem_endThread_of_ne ht hu hut
      · have hval : t.write.value = v₀ := horder t ht n₀ v₀ hl₀ hland
        refine Or.inr ⟨?_, ?_⟩
        · have hland' : (s.endThread i).landed t.write.container t.write.file = some n₀ := hland
          rw [landed_set, if_pos ⟨rfl, rfl⟩, hland', Option.getD_some, Nat.max_eq_right hle]
        · rw [files_set, if_pos rfl, ← hval]
          exact Files.write_self _ _
    · -- another file: its latest call is not the thread that ends
      rcases h c f n v hl' with ⟨u, hu, hnum, hwrite⟩ | hstand
      · have hut : u ≠ t := by
          intro hsame
          subst hsame
          exact hcf (by rw [hwrite]; exact ⟨rfl, rfl⟩)
        refine Or.inl ⟨u, ?_, hnum, hwrite⟩
        rw [threads_set]
        exact mem_endThread_of_ne ht hu hut
      · exact Or.inr (set_other hcf hstand)
  · rw [hs]
    exact h

theorem standing_step (s : FileWorld) (e : FileEvent) (h : Numbered s ∧ Standing s)
    (hok : e.succeeds ∧ LandsInOrder s e) : Numbered (s.step e) ∧ Standing (s.step e) := by
  refine ⟨numbered_step s e h.1, ?_⟩
  cases e with
  | call c ok => exact standing_call h.1 h.2 hok.1
  | complete i ok => exact standing_complete h.1 h.2 hok.1 hok.2

theorem Standing.lastWriteWins {s : FileWorld} (h : Standing s) : LastWriteWins s := by
  have hfiles : s.manager.hasPendingWork = false →
      ∀ c f n v, s.latest c f = some (n, v) → s.files c f = some v := by
    intro hquiet c f n v hl
    have hnone : s.manager.threads = [] := by
      unfold FileCgroupManager.hasPendingWork at hquiet
      simpa using hquiet
    rcases h c f n v hl with ⟨t, ht, _⟩ | ⟨_, hfile⟩
    · rw [hnone] at ht
      exact absurd ht (List.not_mem_nil)
    · exact hfile
  refine ⟨hfiles, ?_⟩
  intro hquiet c n threadIds hne hl
  unfold getCpuset
  rw [hfiles hquiet c .cpuset n _ hl]
  exact parseCpuset_getThreadIdsStr hne

/--
**The last write wins** in every run in which no write fails and none lands after the
latest call for its file has landed, unless it writes the same value.
-/
theorem reachable_lastWriteWins (files : Files) (events : List FileEvent)
    (hok : Run.EachStep FileWorld.step (fun _ e => e.succeeds) (init files) events)
    (horder : Run.EachStep FileWorld.step LandsInOrder (init files) events) :
    Run.Always FileWorld.step LastWriteWins (init files) events := by
  have hinit : Numbered (init files) ∧ Standing (init files) :=
    ⟨numbered_init files, fun c f n v h => absurd h (by simp [init])⟩
  exact (Run.always_of_step standing_step hinit (hok.and horder)).mono
    (fun _ h => h.2.lastWriteWins)

end FileWorld

/-! ## Two cpusets for one container -/

/-- The cpuset of `a` is set to thread 0 and then to thread 1. -/
def setTwice : List FileEvent := [.call (.setCpuset "a" [0]) true, .call (.setCpuset "a" [1]) true]

theorem reachable_lastWriteWins_ordered :
    Run.Always FileWorld.step FileWorld.LastWriteWins (FileWorld.init (fun _ _ => none))
      (setTwice ++ [.complete 0 true, .complete 0 true]) := by
  refine FileWorld.reachable_lastWriteWins _ _ ⟨rfl, rfl, rfl, rfl, trivial⟩
    ⟨trivial, trivial, ?_, ?_, trivial⟩
  · intro t _ n v _ hland
    have hnone : (none : Option Nat) = some n := hland
    exact absurd hnone (by simp)
  · intro t ht n v hl _
    obtain rfl := Option.some.inj ht
    obtain ⟨_, rfl⟩ := Prod.mk.inj (Option.some.inj hl)
    rfl

/-- The newer write lands first: with no work pending the cpuset is the older one. -/
theorem older_write_wins :
    (Run.exec FileWorld.step (FileWorld.init (fun _ _ => none))
        (setTwice ++ [.complete 1 true, .complete 0 true])).manager.hasPendingWork = false
      ∧ (Run.exec FileWorld.step (FileWorld.init (fun _ _ => none))
        (setTwice ++ [.complete 1 true, .complete 0 true])).latest "a" .cpuset
          = some (1, getThreadIdsStr [1])
      ∧ (Run.exec FileWorld.step (FileWorld.init (fun _ _ => none))
        (setTwice ++ [.complete 1 true, .complete 0 true])).getCpuset "a" = .ok [0] :=
  ⟨by decide +kernel, by decide +kernel, by decide +kernel⟩

end TitusIsolate
