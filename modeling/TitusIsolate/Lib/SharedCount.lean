import Mathlib.Data.List.Basic

/-!
# A count that several threads raise without a lock

`count += 1` is a load and a store. Between the two another thread can do its own, and
whichever stores last wins, so a raise can be lost. What survives: the count never says
more than has happened, once a raise is through it never says zero again, and where no two
raises overlap it is exact.

A raise is begun when its thread loads. `Bounded`, `Noticed` and `Exact` are what the count
is worth after `begun` raises were begun; each has a rule for a load and one for a store.
-/

/-- The count, and for each thread inside a raise what it has loaded. -/
structure SharedCount (τ : Type) where
  value : Nat
  inFlight : List (τ × Nat)

namespace SharedCount

variable {τ : Type}

/-- A count nobody has raised. -/
def zero : SharedCount τ := ⟨0, []⟩

/-- A thread loads the count. -/
def load (c : SharedCount τ) (t : τ) : SharedCount τ :=
  { c with inFlight := c.inFlight ++ [(t, c.value)] }

/-- A thread that has loaded nothing stores nothing. -/
def store [DecidableEq τ] (c : SharedCount τ) (t : τ) : SharedCount τ :=
  match c.inFlight.find? (fun p => p.1 = t) with
  | none => c
  | some (_, n) => { value := n + 1, inFlight := c.inFlight.eraseP (fun p => p.1 = t) }

/-- What a store finds: nothing of this thread, or a value it loaded. -/
theorem store_cases [DecidableEq τ] (c : SharedCount τ) (t : τ) :
    c.store t = c ∨
      ∃ n rest, (t, n) ∈ c.inFlight ∧ (∀ p ∈ rest, p ∈ c.inFlight)
        ∧ rest.length + 1 = c.inFlight.length ∧ c.store t = ⟨n + 1, rest⟩ := by
  unfold store
  cases hfind : c.inFlight.find? (fun p => p.1 = t) with
  | none => exact .inl rfl
  | some p =>
    obtain ⟨u, n⟩ := p
    have hmem := List.mem_of_find?_eq_some hfind
    have hu : u = t := by simpa using List.find?_some hfind
    subst hu
    refine .inr ⟨n, _, hmem, fun p hp => List.mem_of_mem_eraseP hp, ?_, rfl⟩
    have hlen := List.length_eraseP_of_mem (p := fun p : τ × Nat => p.1 = u) hmem (by simp)
    have hpos := List.length_pos_of_mem hmem
    omega

/-- The count and every value loaded are at most the raises that are through. -/
structure Bounded (c : SharedCount τ) (begun : Nat) : Prop where
  value : c.value + c.inFlight.length ≤ begun
  loaded : ∀ p ∈ c.inFlight, p.2 + c.inFlight.length ≤ begun

theorem Bounded.zero : Bounded (zero : SharedCount τ) 0 where
  value := Nat.le_refl 0
  loaded := by intro p hp; cases hp

theorem Bounded.load {c : SharedCount τ} {begun : Nat} (h : c.Bounded begun) (t : τ) :
    (c.load t).Bounded (begun + 1) where
  value := by
    have hv := h.value
    unfold SharedCount.load
    simp only [List.length_append, List.length_singleton]
    omega
  loaded := by
    intro p hp
    unfold SharedCount.load at hp ⊢
    simp only [List.length_append, List.length_singleton]
    rcases List.mem_append.mp hp with hp | hp
    · have := h.loaded p hp
      omega
    · have hv := h.value
      rw [List.mem_singleton.mp hp]
      dsimp only
      omega

theorem Bounded.store [DecidableEq τ] {c : SharedCount τ} {begun : Nat} (h : c.Bounded begun)
    (t : τ) :
    (c.store t).Bounded begun := by
  rcases c.store_cases t with hsame | ⟨n, rest, hn, hsub, hlen, hstore⟩
  · rw [hsame]; exact h
  · rw [hstore]
    have hloaded := h.loaded _ hn
    refine ⟨?_, ?_⟩
    · dsimp only at hloaded ⊢
      omega
    · intro p hp
      have := h.loaded p (hsub p hp)
      dsimp only
      omega

/-- Once a raise is through the count is not zero. -/
def Noticed (c : SharedCount τ) (begun : Nat) : Prop := c.inFlight.length < begun → 0 < c.value

theorem Noticed.zero : Noticed (zero : SharedCount τ) 0 := fun h => absurd h (Nat.not_lt_zero _)

theorem Noticed.load {c : SharedCount τ} {begun : Nat} (h : c.Noticed begun) (t : τ) :
    (c.load t).Noticed (begun + 1) := by
  intro hlt
  unfold SharedCount.load at hlt ⊢
  simp only [List.length_append, List.length_singleton] at hlt
  exact h (by omega)

theorem Noticed.store [DecidableEq τ] {c : SharedCount τ} {begun : Nat} (h : c.Noticed begun)
    (t : τ) :
    (c.store t).Noticed begun := by
  rcases c.store_cases t with hsame | ⟨n, rest, _, _, _, hstore⟩
  · rw [hsame]; exact h
  · rw [hstore]
    exact fun _ => Nat.succ_pos n

/-- One raise is under way at most, and it has loaded what the count still says. -/
structure Exact (c : SharedCount τ) (begun : Nat) : Prop where
  value : c.value + c.inFlight.length = begun
  single : c.inFlight.length ≤ 1
  loaded : ∀ p ∈ c.inFlight, p.2 = c.value

theorem Exact.zero : Exact (zero : SharedCount τ) 0 where
  value := rfl
  single := Nat.zero_le 1
  loaded := by intro p hp; cases hp

/-- A load keeps the count exact where no other raise is under way. -/
theorem Exact.load {c : SharedCount τ} {begun : Nat} (h : c.Exact begun) (hfree : c.inFlight = [])
    (t : τ) : (c.load t).Exact (begun + 1) where
  value := by
    have hv := h.value
    unfold SharedCount.load
    rw [hfree] at hv ⊢
    simp only [List.nil_append, List.length_singleton, List.length_nil] at hv ⊢
    omega
  single := by
    unfold SharedCount.load
    rw [hfree]
    exact Nat.le_refl 1
  loaded := by
    intro p hp
    unfold SharedCount.load at hp ⊢
    rw [hfree] at hp
    rw [List.mem_singleton.mp hp]

theorem Exact.store [DecidableEq τ] {c : SharedCount τ} {begun : Nat} (h : c.Exact begun) (t : τ) :
    (c.store t).Exact begun := by
  rcases c.store_cases t with hsame | ⟨n, rest, hn, hsub, hlen, hstore⟩
  · rw [hsame]; exact h
  · have hval := h.value
    have hsingle := h.single
    have hnval : n = c.value := h.loaded _ hn
    have hrest : rest = [] := List.eq_nil_of_length_eq_zero (by omega)
    rw [hstore, hrest]
    refine ⟨?_, Nat.zero_le 1, ?_⟩
    · simp only [List.length_nil]
      omega
    · intro p hp
      cases hp

end SharedCount
