import Mathlib.Algebra.BigOperators.Fin
import Mathlib.Algebra.Order.BigOperators.Group.Finset
import Mathlib.Order.Bounds.Basic
import TitusIsolate.Lib.FirstMax

/-!
# Filling the largest first

Items have capacities, and an amount is to be put into them. Always going on with an item
of largest remaining capacity, and filling it as far as the amount goes, visits as few
items as any choice of items that has room for the amount.

The argument is an exchange: a choice that has room for the amount can give up one of its
items and still have room for what is left after the largest item is filled.
-/

section

variable {ι : Type} [DecidableEq ι]

/-- Putting `n` into items of capacities `cap`, largest first, visits the items of `order`. -/
inductive LargestFirst : (ι → Nat) → Nat → List ι → Prop where
  | done {cap : ι → Nat} : LargestFirst cap 0 []
  | fill {cap : ι → Nat} {n : Nat} {i : ι} {order : List ι} :
      0 < n → 0 < cap i → (∀ j, cap j ≤ cap i) →
      LargestFirst (Function.update cap i (cap i - n)) (n - cap i) order →
      LargestFirst cap n (i :: order)

/-- The items of `S` have room for `n`. -/
def HasRoom (cap : ι → Nat) (n : Nat) (S : Finset ι) : Prop := n ≤ ∑ i ∈ S, cap i

/-- Giving up one item for the largest one. -/
theorem HasRoom.exchange {cap : ι → Nat} {n m : Nat} {i : ι} {S : Finset ι}
    (hS : HasRoom cap n S) (hn : 0 < n) (hmax : ∀ j, cap j ≤ cap i) :
    ∃ S' : Finset ι, S'.card + 1 = S.card
      ∧ HasRoom (Function.update cap i m) (n - cap i) S' := by
  -- the largest item itself is given up where it is one of them, else any item is
  have hgive : ∃ j ∈ S, i ∉ S.erase j := by
    by_cases hi : i ∈ S
    · exact ⟨i, hi, by simp⟩
    · have hne : S.Nonempty := by
        refine Finset.nonempty_of_ne_empty ?_
        rintro rfl
        have hzero : n ≤ 0 := hS
        omega
      obtain ⟨j, hj⟩ := hne
      exact ⟨j, hj, fun h => hi (Finset.mem_of_mem_erase h)⟩
  obtain ⟨j, hj, hi⟩ := hgive
  refine ⟨S.erase j, Finset.card_erase_add_one hj, ?_⟩
  have hsame : ∑ k ∈ S.erase j, Function.update cap i m k = ∑ k ∈ S.erase j, cap k :=
    Finset.sum_update_of_notMem hi cap m
  have hsplit : cap j + ∑ k ∈ S.erase j, cap k = ∑ k ∈ S, cap k :=
    Finset.add_sum_erase S cap hj
  have hroom : n ≤ ∑ k ∈ S, cap k := hS
  have hle := hmax j
  show n - cap i ≤ ∑ k ∈ S.erase j, Function.update cap i m k
  omega

namespace LargestFirst

variable {cap : ι → Nat} {n : Nat} {order : List ι}

theorem cap_pos (h : LargestFirst cap n order) : ∀ i ∈ order, 0 < cap i := by
  induction h with
  | done => simp
  | @fill cap n i order hn hi hmax _ ih =>
    intro j hj
    rcases List.mem_cons.mp hj with rfl | hj
    · exact hi
    · have hpos := ih j hj
      by_cases hji : j = i
      · rw [hji]
        exact hi
      · rwa [Function.update_of_ne hji] at hpos

/-- An item that has been visited is full, or nothing is left to put anywhere. -/
theorem nodup (h : LargestFirst cap n order) : order.Nodup := by
  induction h with
  | done => exact List.nodup_nil
  | @fill cap n i order hn hi hmax hrest ih =>
    refine List.nodup_cons.mpr ⟨?_, ih⟩
    intro hmem
    -- visited again, it would have room left, so it took all there was
    have hpos := hrest.cap_pos i hmem
    rw [Function.update_self] at hpos
    have hleft : n - cap i = 0 := by omega
    rw [hleft] at hrest
    cases hrest with
    | done => exact absurd hmem (by simp)
    | fill hn' _ _ _ => omega

theorem hasRoom (h : LargestFirst cap n order) : HasRoom cap n order.toFinset := by
  induction h with
  | done => exact Nat.zero_le _
  | @fill cap n i order hn hi hmax hrest ih =>
    have hnew : i ∉ order.toFinset := by
      have hnd := (LargestFirst.fill hn hi hmax hrest).nodup
      simpa using (List.nodup_cons.mp hnd).1
    have hsum : n - cap i ≤ ∑ k ∈ order.toFinset, Function.update cap i (cap i - n) k := ih
    rw [Finset.sum_update_of_notMem hnew] at hsum
    show n ≤ ∑ k ∈ (i :: order).toFinset, cap k
    rw [List.toFinset_cons, Finset.sum_insert hnew]
    omega

/-- **No choice of items with room for the amount has fewer of them.** -/
theorem length_le (h : LargestFirst cap n order) :
    ∀ S : Finset ι, HasRoom cap n S → order.length ≤ S.card := by
  induction h with
  | done => exact fun _ _ => Nat.zero_le _
  | fill hn hi hmax _ ih =>
    intro S hS
    -- what is left after the first item fits one item fewer
    obtain ⟨S', hcard, hroom⟩ := hS.exchange hn hmax
    have hle := ih S' hroom
    rw [List.length_cons]
    omega

end LargestFirst

end

/-! ## The elements of a list as items -/

section

variable {α : Type} {f : α → Nat} {xs : List α}

/-- The capacities of the elements of a list, by position. -/
def capacities (f : α → Nat) (xs : List α) (i : Nat) : Nat := (xs[i]?.map f).getD 0

/-- How many elements of a list can together have room for `n`. -/
def roomyCounts (f : α → Nat) (xs : List α) (n : Nat) : Set Nat :=
  { k | ∃ S : Finset (Fin xs.length), S.card = k ∧ n ≤ ∑ i ∈ S, f (xs.get i) }

theorem capacities_of_getElem? {i : Nat} {x : α} (h : xs[i]? = some x) :
    capacities f xs i = f x := by
  unfold capacities
  rw [h]
  rfl

theorem capacities_get (f : α → Nat) (xs : List α) (i : Fin xs.length) :
    capacities f xs i = f (xs.get i) :=
  capacities_of_getElem? (List.getElem?_eq_getElem i.isLt)

theorem lt_of_capacities_pos {i : Nat} (h : 0 < capacities f xs i) : i < xs.length := by
  refine Classical.byContradiction ?_
  intro hi
  unfold capacities at h
  rw [List.getElem?_eq_none (by omega)] at h
  exact absurd h (by simp)

theorem capacities_modify {i : Nat} {x : α} {g : α → α} (h : xs[i]? = some x) :
    capacities f (xs.modify i g) = Function.update (capacities f xs) i (f (g x)) := by
  funext j
  unfold capacities
  rw [List.getElem?_modify]
  by_cases hj : j = i
  · subst hj
    rw [Function.update_self, h]
    simp
  · rw [Function.update_of_ne hj]
    simp [show ¬ i = j from fun he => hj he.symm]

/-- The first element of largest measure has the largest capacity. -/
theorem capacities_le_firstMaxIdx (h : xs ≠ []) (j : Nat) :
    capacities f xs j ≤ capacities f xs (firstMaxIdx f xs) := by
  have hmax := capacities_get f xs ⟨firstMaxIdx f xs, firstMaxIdx_lt h⟩
  cases hj : xs[j]? with
  | none =>
    unfold capacities
    rw [hj]
    exact Nat.zero_le _
  | some y =>
    rw [capacities_of_getElem? hj, hmax]
    exact le_firstMaxIdx h (List.mem_of_getElem? hj)

/-- **Largest first visits the least number of elements that has room.** -/
theorem LargestFirst.isLeast {n : Nat} {order : List Nat}
    (h : LargestFirst (capacities f xs) n order) :
    IsLeast (roomyCounts f xs n) order.length := by
  have hsum : ∀ S : Finset (Fin xs.length),
      ∑ i ∈ S.map Fin.valEmbedding, capacities f xs i = ∑ i ∈ S, f (xs.get i) := by
    intro S
    rw [Finset.sum_map]
    exact Finset.sum_congr rfl (fun i _ => capacities_get f xs i)
  refine ⟨?_, ?_⟩
  · have hlt : ∀ i ∈ order.toFinset, i < xs.length := by
      intro i hi
      exact lt_of_capacities_pos (h.cap_pos i (List.mem_toFinset.mp hi))
    refine ⟨order.toFinset.attachFin hlt, ?_, ?_⟩
    · rw [Finset.card_attachFin, List.toFinset_card_of_nodup h.nodup]
    · rw [← hsum, Finset.map_valEmbedding_attachFin]
      exact h.hasRoom
  · rintro k ⟨S, rfl, hS⟩
    rw [← hsum] at hS
    have hle := h.length_le _ hS
    rwa [Finset.card_map] at hle

/-- One element is enough, or none has room alone. -/
theorem lt_of_isLeast_roomyCounts {n k : Nat} (h : IsLeast (roomyCounts f xs n) k) (hk : 1 < k) :
    ∀ x ∈ xs, f x < n := by
  intro x hx
  refine Classical.byContradiction ?_
  intro hge
  obtain ⟨i, hi⟩ := List.mem_iff_get.mp hx
  have hone : 1 ∈ roomyCounts f xs n := by
    refine ⟨{i}, Finset.card_singleton i, ?_⟩
    rw [Finset.sum_singleton, hi]
    omega
  have hle := h.2 hone
  omega

end
