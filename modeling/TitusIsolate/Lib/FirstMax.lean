import Mathlib.Data.List.Basic

/-!
# The first element of largest measure

A left-to-right scan that keeps the best position so far and moves on only to a
strictly better one. It ends on the first of the elements of largest measure.
-/

/-- The scan from position `next` on, with the best position so far and its measure. -/
def firstMaxFrom {α : Type} (f : α → Nat) : (best bestCount next : Nat) → List α → Nat
  | best, _, _, [] => best
  | best, bestCount, next, x :: xs =>
      if f x > bestCount then firstMaxFrom f next (f x) (next + 1) xs
      else firstMaxFrom f best bestCount (next + 1) xs

/-- The position of the first element of largest measure; `0` for the empty list. -/
def firstMaxIdx {α : Type} (f : α → Nat) : List α → Nat
  | [] => 0
  | x :: xs => firstMaxFrom f 0 (f x) 1 xs

section

variable {α : Type} {f : α → Nat}

/-- The scan ends on a position it started with or one it passed, and nothing it
saw measures more than what it ends on. -/
theorem firstMaxFrom_spec {pre : List α} :
    ∀ {xs : List α} {best bestCount : Nat},
      (∃ x, pre[best]? = some x ∧ f x = bestCount ∧ ∀ y ∈ pre, f y ≤ bestCount) →
      ∃ x, (pre ++ xs)[firstMaxFrom f best bestCount pre.length xs]? = some x
        ∧ ∀ y ∈ pre ++ xs, f y ≤ f x := by
  intro xs
  induction xs generalizing pre with
  | nil =>
    intro best bestCount h
    obtain ⟨x, hx, rfl, hmax⟩ := h
    exact ⟨x, by simpa [firstMaxFrom] using hx, by simpa using hmax⟩
  | cons z zs ih =>
    intro best bestCount h
    obtain ⟨x, hx, hfx, hmax⟩ := h
    have hsplit : pre ++ z :: zs = (pre ++ [z]) ++ zs := by simp
    have hlen : (pre ++ [z]).length = pre.length + 1 := by simp
    rw [hsplit, firstMaxFrom, ← hlen]
    split
    · -- strictly better: `z` is the best so far
      rename_i hz
      refine ih ⟨z, by simp, rfl, ?_⟩
      intro y hy
      rcases List.mem_append.mp hy with hy | hy
      · exact Nat.le_of_lt (Nat.lt_of_le_of_lt (hmax y hy) hz)
      · exact Nat.le_of_eq (congrArg f (List.mem_singleton.mp hy))
    · -- no better: the scan keeps what it has
      rename_i hz
      have hbest : best < pre.length := (List.getElem?_eq_some_iff.mp hx).1
      refine ih ⟨x, ?_, hfx, ?_⟩
      · rw [List.getElem?_append_left hbest]; exact hx
      · intro y hy
        rcases List.mem_append.mp hy with hy | hy
        · exact hmax y hy
        · rw [List.mem_singleton.mp hy]; omega

theorem firstMaxIdx_spec {xs : List α} (h : xs ≠ []) :
    ∃ x, xs[firstMaxIdx f xs]? = some x ∧ ∀ y ∈ xs, f y ≤ f x := by
  cases xs with
  | nil => exact absurd rfl h
  | cons x xs =>
    have h0 : ∃ y, [x][0]? = some y ∧ f y = f x ∧ ∀ z ∈ [x], f z ≤ f x := ⟨x, rfl, rfl, by simp⟩
    exact firstMaxFrom_spec h0

theorem firstMaxIdx_lt {xs : List α} (h : xs ≠ []) : firstMaxIdx f xs < xs.length := by
  obtain ⟨x, hx, _⟩ := firstMaxIdx_spec (f := f) h
  exact (List.getElem?_eq_some_iff.mp hx).1

/-- Nothing in the list measures more than the element the scan picks. -/
theorem le_firstMaxIdx {xs : List α} (h : xs ≠ []) {y : α} (hy : y ∈ xs) :
    f y ≤ f (xs.get ⟨firstMaxIdx f xs, firstMaxIdx_lt h⟩) := by
  obtain ⟨x, hx, hmax⟩ := firstMaxIdx_spec (f := f) h
  have hget : xs.get ⟨firstMaxIdx f xs, firstMaxIdx_lt h⟩ = x := (List.getElem?_eq_some_iff.mp hx).2
  rw [hget]
  exact hmax y hy

end
