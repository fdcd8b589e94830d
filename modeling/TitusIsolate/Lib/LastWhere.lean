import Mathlib.Data.List.Basic

/-!
# The last element that passes a test

`lastWhere p xs` is the last element of `xs` that passes `p`. It commutes with maps
and with flattening, which is how "the last event about a container" is found from
"the last batch that mentions it".
-/

/-- The last element that passes a test. -/
def lastWhere {α : Type} (p : α → Bool) : List α → Option α
  | [] => none
  | x :: xs =>
      match lastWhere p xs with
      | some y => some y
      | none => if p x then some x else none

section

variable {α β : Type} {p : α → Bool} {xs ys : List α}

theorem lastWhere_eq_none_iff : lastWhere p xs = none ↔ ∀ x ∈ xs, p x = false := by
  induction xs with
  | nil => simp [lastWhere]
  | cons x xs ih =>
    unfold lastWhere
    cases h : lastWhere p xs with
    | some y =>
      rw [h] at ih
      simp only [reduceCtorEq, false_iff] at ih ⊢
      exact fun hall => ih (fun z hz => hall z (List.mem_cons_of_mem _ hz))
    | none =>
      have hrest := ih.mp h
      by_cases hx : p x = true
      · simp [hx]
      · simp only [hx, Bool.false_eq_true, if_false, true_iff]
        intro z hz
        rcases List.mem_cons.mp hz with rfl | hz
        · simpa using hx
        · exact hrest z hz

theorem lastWhere_mem {x : α} (h : lastWhere p xs = some x) : x ∈ xs ∧ p x = true := by
  induction xs with
  | nil => exact absurd h (by simp [lastWhere])
  | cons y ys ih =>
    unfold lastWhere at h
    cases hys : lastWhere p ys with
    | some z =>
      rw [hys] at h ih
      obtain rfl := Option.some.inj h
      exact ⟨List.mem_cons_of_mem _ (ih rfl).1, (ih rfl).2⟩
    | none =>
      rw [hys] at h
      by_cases hy : p y = true
      · simp only [hy, if_true, Option.some.injEq] at h
        subst h
        exact ⟨by simp, hy⟩
      · simp [hy] at h

theorem lastWhere_append :
    lastWhere p (xs ++ ys) = (lastWhere p ys).or (lastWhere p xs) := by
  induction xs with
  | nil => simp [lastWhere]
  | cons x xs ih =>
    rw [List.cons_append, lastWhere, ih]
    cases hys : lastWhere p ys with
    | some y => simp
    | none => simp [lastWhere]

theorem lastWhere_map (f : β → α) (zs : List β) :
    lastWhere p (zs.map f) = (lastWhere (fun z => p (f z)) zs).map f := by
  induction zs with
  | nil => rfl
  | cons z zs ih =>
    rw [List.map_cons, lastWhere, lastWhere, ih]
    cases lastWhere (fun z => p (f z)) zs with
    | some y => rfl
    | none => by_cases hz : p (f z) = true <;> simp [hz]

/-- A list with a match has a last one. -/
theorem exists_lastWhere_of_any (h : xs.any p = true) : ∃ x, lastWhere p xs = some x := by
  obtain ⟨x, hx, hpx⟩ := List.any_eq_true.mp h
  cases hlast : lastWhere p xs with
  | some y => exact ⟨y, rfl⟩
  | none => exact absurd hpx (by simp [lastWhere_eq_none_iff.mp hlast x hx])

/-- The last match is the last match of the last list that has one. -/
theorem lastWhere_flatten (xss : List (List α)) :
    lastWhere p xss.flatten = (lastWhere (fun xs => xs.any p) xss).bind (lastWhere p) := by
  induction xss with
  | nil => rfl
  | cons xs xss ih =>
    rw [List.flatten_cons, lastWhere_append, ih, lastWhere]
    cases hrest : lastWhere (fun xs => xs.any p) xss with
    | some ys =>
      -- the later list has a match, so the earlier one is not consulted
      obtain ⟨y, hy⟩ := exists_lastWhere_of_any (lastWhere_mem hrest).2
      simp [hy]
    | none =>
      by_cases hxs : xs.any p = true
      · simp [hxs]
      · have hnone : lastWhere p xs = none := by
          rw [lastWhere_eq_none_iff]
          intro x hx
          have := List.any_eq_false.mp (by simpa using hxs) x hx
          simpa using this
        simp [hxs, hnone]

end
