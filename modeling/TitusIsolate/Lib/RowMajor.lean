import Mathlib.Data.List.Nodup
import Mathlib.Data.List.Perm.Subperm
import Mathlib.Data.List.Range

/-!
# Rows of one length

Rows of `n` elements laid end to end: element `k` of row `i` lies at `i * n + k`, and each
place belongs to one element of one row. A numbering of `N` things by distinct numbers below
`N` uses them all.
-/

namespace RowMajor

/-! ## Places -/

theorem place_lt {m n i k : Nat} (hi : i < m) (hk : k < n) : i * n + k < m * n := by
  have hrows : (i + 1) * n ≤ m * n := Nat.mul_le_mul_right n hi
  rw [Nat.succ_mul] at hrows
  omega

/-- A place has one row and one position in it. -/
theorem place_inj {n a b c c' : Nat} (hc : c < n) (hc' : c' < n) (h : a * n + c = b * n + c') :
    a = b ∧ c = c' := by
  have hmod : c = c' := by
    rw [← Nat.mul_add_mod_of_lt (a := a) hc, h, Nat.mul_add_mod_of_lt hc']
  subst hmod
  have hmul : a * n = b * n := Nat.add_right_cancel h
  exact ⟨Nat.eq_of_mul_eq_mul_right (Nat.lt_of_le_of_lt (Nat.zero_le c) hc) hmul, rfl⟩

/-- Distinct numbers, as many as there are below a bound, are the numbers below it. -/
theorem perm_range {xs : List Nat} (hnodup : xs.Nodup) (hlt : ∀ i ∈ xs, i < xs.length) :
    xs.Perm (List.range xs.length) := by
  have hsub : xs ⊆ List.range xs.length := fun i hi => List.mem_range.mpr (hlt i hi)
  refine (List.subperm_of_subset hnodup hsub).perm_of_length_le ?_
  rw [List.length_range]

/-! ## Rows end to end -/

variable {α β : Type} {f : α → List β} {n : Nat}

theorem length_flatMap_const {xs : List α} (h : ∀ x ∈ xs, (f x).length = n) :
    (xs.flatMap f).length = xs.length * n := by
  rw [List.length_flatMap, List.map_congr_left h, List.map_const', List.sum_replicate_nat]

/-- **What lies at a place** is the element of the row. -/
theorem getElem?_flatMap_const {xs : List α} (h : ∀ x ∈ xs, (f x).length = n) {i k : Nat}
    (hk : k < n) : (xs.flatMap f)[i * n + k]? = xs[i]?.bind (fun x => (f x)[k]?) := by
  induction xs generalizing i with
  | nil => simp
  | cons x xs ih =>
    have hx : (f x).length = n := h x List.mem_cons_self
    rw [List.flatMap_cons]
    cases i with
    | zero =>
      -- the first row
      rw [Nat.zero_mul, Nat.zero_add, List.getElem?_append_left (by omega)]
      rfl
    | succ i =>
      have hplace : (i + 1) * n + k = (f x).length + (i * n + k) := by
        rw [Nat.succ_mul, hx]
        omega
      rw [hplace, List.getElem?_append_right (by omega), Nat.add_sub_cancel_left,
        ih (fun y hy => h y (List.mem_cons_of_mem x hy)), List.getElem?_cons_succ]

end RowMajor
