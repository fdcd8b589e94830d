import Mathlib.Data.List.Pairwise

/-!
# Sparse rows

A sparse row has a value for some of the numbers and none for the others. Its slots list,
number by number, the value or that there is none. Packed, the row is its values in order
and then nothing.

Packing loses the numbers. What is packed still agrees with the slots exactly when no
number below a filled one is left out.
-/

namespace Slots

variable {α β : Type} (key : α → Nat)

/-- The value for a number. -/
def valueAt (row : List α) (n : Nat) : Option α := row.find? (fun a => key a = n)

/-- The slots of `k` numbers from `n` on. -/
def slots (row : List α) : Nat → Nat → List (Option α)
  | _, 0 => []
  | n, k + 1 => valueAt key row n :: slots row (n + 1) k

/-- The first `k` values, in as many slots. -/
def packed (row : List α) (k : Nat) : List (Option α) :=
  (row.take k).map some ++ List.replicate (k - row.length) none

/-- The numbers of a row increase. -/
def Increasing (row : List α) : Prop := row.Pairwise (fun a b => key a < key b)

/-- Of the `k` numbers from `n` on, none that lies below a filled one is left out. -/
def NoGap (row : List α) (n k : Nat) : Prop :=
  ∀ a ∈ row, ∀ m, n ≤ m → m < key a → m < n + k → ∃ b ∈ row, key b = m

variable {key}

theorem valueAt_eq_none {row : List α} {n : Nat} (h : ∀ a ∈ row, key a ≠ n) :
    valueAt key row n = none := by
  unfold valueAt
  rw [List.find?_eq_none]
  intro a ha
  simpa using h a ha

theorem valueAt_cons_of_ne {a : α} {row : List α} {n : Nat} (h : key a ≠ n) :
    valueAt key (a :: row) n = valueAt key row n := by
  unfold valueAt
  rw [List.find?_cons_of_neg (by simpa using h)]

theorem valueAt_cons_self (a : α) (row : List α) :
    valueAt key (a :: row) (key a) = some a := by
  unfold valueAt
  rw [List.find?_cons_of_pos (by simp)]

theorem slots_nil (n k : Nat) : slots key ([] : List α) n k = List.replicate k none := by
  induction k generalizing n with
  | zero => rfl
  | succ k ih =>
    rw [slots, ih, List.replicate_succ]
    rfl

/-- A value below the numbers asked for plays no part. -/
theorem slots_cons_of_lt {a : α} {row : List α} {n : Nat} (h : key a < n) (k : Nat) :
    slots key (a :: row) n k = slots key row n k := by
  induction k generalizing n with
  | zero => rfl
  | succ k ih =>
    rw [slots, slots, valueAt_cons_of_ne (by omega), ih (by omega)]

@[simp] theorem length_slots (row : List α) (n k : Nat) : (slots key row n k).length = k := by
  induction k generalizing n with
  | zero => rfl
  | succ k ih => rw [slots, List.length_cons, ih]

theorem slots_getElem? (row : List α) {n k i : Nat} (h : i < k) :
    (slots key row n k)[i]? = some (valueAt key row (n + i)) := by
  induction k generalizing n i with
  | zero => omega
  | succ k ih =>
    rw [slots]
    cases i with
    | zero => rfl
    | succ i =>
      rw [List.getElem?_cons_succ, ih (by omega), show n + 1 + i = n + (i + 1) by omega]

theorem packed_cons (a : α) (row : List α) (k : Nat) :
    packed (a :: row) (k + 1) = some a :: packed row k := by
  unfold packed
  rw [List.take_succ_cons, List.length_cons, Nat.add_sub_add_right]
  rfl

/-- With its first number filled, a row has a gap exactly when the rest has one. -/
theorem noGap_cons_of_eq {a : α} {row : List α} {n k : Nat} (ha : key a = n) :
    NoGap key (a :: row) n (k + 1) ↔ NoGap key row (n + 1) k := by
  refine ⟨?_, ?_⟩
  · intro h b hb m hle hlt hk
    obtain ⟨c, hc, hcm⟩ := h b (List.mem_cons_of_mem _ hb) m (by omega) hlt (by omega)
    rcases List.mem_cons.mp hc with rfl | hc
    · omega
    · exact ⟨c, hc, hcm⟩
  · intro h b hb m hle hlt hk
    by_cases hm : m = n
    · exact ⟨a, by simp, ha.trans hm.symm⟩
    · rcases List.mem_cons.mp hb with rfl | hb
      · omega
      · obtain ⟨c, hc, hcm⟩ := h b hb m (by omega) hlt (by omega)
        exact ⟨c, List.mem_cons_of_mem _ hc, hcm⟩

/-- **A packed row agrees with its slots exactly when it has no gap**, if only an empty slot can
be told from a filled one. -/
theorem packed_eq_slots_iff {f : Option α → β} (hf : ∀ a, f (some a) ≠ f none) :
    ∀ (k : Nat) (row : List α) (n : Nat), Increasing key row → (∀ a ∈ row, n ≤ key a) →
      ((packed row k).map f = (slots key row n k).map f ↔ NoGap key row n k)
  | 0, row, n, _, _ => by
      refine ⟨fun _ a _ m hle _ hk => by omega, fun _ => ?_⟩
      simp [packed, slots]
  | k + 1, [], n, _, _ => by
      refine ⟨fun _ a ha => absurd ha List.not_mem_nil, fun _ => ?_⟩
      rw [slots_nil]
      rfl
  | k + 1, a :: row, n, hinc, hle => by
      obtain ⟨hlt, hinc⟩ := List.pairwise_cons.mp hinc
      have hn := hle a (by simp)
      rw [packed_cons, slots, List.map_cons, List.map_cons, List.cons_eq_cons]
      by_cases ha : key a = n
      · -- the number is filled: the rest is a row from the next number on
        have hrow : ∀ b ∈ row, n < key b := fun b hb => ha ▸ hlt b hb
        rw [noGap_cons_of_eq ha, slots_cons_of_lt (by omega), ← ha, valueAt_cons_self, ha]
        rw [← packed_eq_slots_iff hf k row (n + 1) hinc hrow]
        exact and_iff_right rfl
      · -- the number is left out, and the packed row has a value in its place
        have hnone : ∀ b ∈ a :: row, key b ≠ n := by
          intro b hb
          rcases List.mem_cons.mp hb with rfl | hb
          · exact ha
          · have := hlt b hb
            omega
        refine ⟨fun h => ?_, fun h => ?_⟩
        · rw [valueAt_eq_none hnone] at h
          exact absurd h.1 (hf a)
        · obtain ⟨b, hb, hbn⟩ := h a (by simp) n (Nat.le_refl n) (by omega) (by omega)
          exact absurd hbn (hnone b hb)

end Slots
