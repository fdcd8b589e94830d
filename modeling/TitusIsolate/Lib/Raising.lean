/-!
# Computations that may raise

What it takes for a computation in `Except` to yield a value, one rule for each way in
which it is put together. A loop that converts a list yields the converted list when each
element is converted.
-/

namespace Raising

variable {ε α β γ : Type}

theorem bind_eq_ok {x : Except ε α} {f : α → Except ε β} {b : β} :
    (x >>= f) = .ok b ↔ ∃ a, x = .ok a ∧ f a = .ok b := by
  cases x with
  | error e => exact ⟨fun h => absurd h (by simp [bind, Except.bind]), fun ⟨a, h, _⟩ => by cases h⟩
  | ok a => exact ⟨fun h => ⟨a, rfl, h⟩, fun ⟨_, ha, h⟩ => by cases ha; exact h⟩

theorem map_eq_ok {x : Except ε α} {f : α → β} {b : β} :
    x.map f = .ok b ↔ ∃ a, x = .ok a ∧ f a = b := by
  cases x with
  | error e => simp [Except.map]
  | ok a => simp [Except.map]

theorem toOption_eq_some {x : Except ε α} {a : α} : x.toOption = some a ↔ x = .ok a := by
  cases x with
  | error e => simp [Except.toOption]
  | ok b => simp [Except.toOption]

/-! ## Loops -/

/-- What is made by `g` and read by `f` comes back as `h` says. -/
theorem mapM_map_eq_ok {f : β → Except ε γ} {g : α → β} {h : α → γ} {xs : List α}
    (hread : ∀ x ∈ xs, f (g x) = .ok (h x)) : (xs.map g).mapM f = .ok (xs.map h) := by
  induction xs with
  | nil => rfl
  | cons x xs ih =>
    rw [List.map_cons, List.mapM_cons, hread x (by simp),
      ih (fun x' hx' => hread x' (List.mem_cons_of_mem _ hx'))]
    rfl

/-- The same, as far as a view of the results goes. -/
theorem mapM_map_view {δ : Type} {f : β → Except ε γ} {g : α → β} {u : α → δ} {v : γ → δ}
    (xs : List α) (hread : ∀ x ∈ xs, ∃ y, f (g x) = .ok y ∧ v y = u x) :
    ∃ ys, (xs.map g).mapM f = .ok ys ∧ ys.map v = xs.map u := by
  induction xs with
  | nil => exact ⟨[], rfl, rfl⟩
  | cons x xs ih =>
    obtain ⟨y, hy, hview⟩ := hread x (by simp)
    obtain ⟨ys, hys, hviews⟩ := ih (fun x' hx' => hread x' (List.mem_cons_of_mem _ hx'))
    refine ⟨y :: ys, ?_, ?_⟩
    · rw [List.map_cons, List.mapM_cons, hy, hys]
      rfl
    · rw [List.map_cons, List.map_cons, hview, hviews]

theorem mapM_eq_ok {f : α → Except ε β} {xs : List α} (h : ∀ x ∈ xs, ∃ y, f x = .ok y) :
    ∃ ys, xs.mapM f = .ok ys ∧ ∀ y, y ∈ ys ↔ ∃ x ∈ xs, f x = .ok y := by
  induction xs with
  | nil => exact ⟨[], rfl, by simp⟩
  | cons x xs ih =>
    obtain ⟨z, hz⟩ := h x (by simp)
    obtain ⟨zs, hzs, hmem⟩ := ih (fun x' hx' => h x' (List.mem_cons_of_mem _ hx'))
    refine ⟨z :: zs, ?_, ?_⟩
    · rw [List.mapM_cons, hz, hzs]
      rfl
    · intro y
      rw [List.mem_cons, hmem]
      refine ⟨?_, ?_⟩
      · intro hy
        rcases hy with rfl | ⟨x', hx', hy⟩
        · exact ⟨x, by simp, hz⟩
        · exact ⟨x', List.mem_cons_of_mem _ hx', hy⟩
      · intro hy
        obtain ⟨x', hx', hy⟩ := hy
        rcases List.mem_cons.mp hx' with rfl | hx'
        · rw [hz] at hy
          exact Or.inl (Except.ok.inj hy).symm
        · exact Or.inr ⟨x', hx', hy⟩

theorem ok_of_mapM_ok {f : α → Except ε β} {xs : List α} {ys : List β}
    (h : xs.mapM f = .ok ys) : ∀ x ∈ xs, ∃ y, f x = .ok y := by
  induction xs generalizing ys with
  | nil => exact fun x hx => absurd hx List.not_mem_nil
  | cons x xs ih =>
    rw [List.mapM_cons] at h
    obtain ⟨y, hy, h⟩ := bind_eq_ok.mp h
    obtain ⟨zs, hzs, _⟩ := bind_eq_ok.mp h
    intro x' hx'
    rcases List.mem_cons.mp hx' with rfl | hx'
    · exact ⟨y, hy⟩
    · exact ih hzs x' hx'

end Raising
