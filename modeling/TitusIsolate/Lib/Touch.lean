import Mathlib.Data.List.Basic
import Mathlib.Data.List.Nodup

/-!
# Touching some elements of a list

`Touch P f n xs ys` says that `ys` is `xs` with `f` applied to exactly `n` of its
elements, each of which met `P`. It is the shape of every loop that walks a
collection and updates some of what it finds: the relation says how many elements
were updated, that only elements in `P` were, and that nothing else moved.

The relation composes: over concatenation (`Touch.append`), over one member of a
list of collections (`Touch.flatMap_modify`), and, when `f` takes an element out
of `P`, over one pass after another (`Touch.trans`). What a loop leaves alone and
what it counts are then read off the relation, not off the loop.
-/

/-- `f` is applied to exactly `n` elements, each of which meets `P`. -/
inductive Touch {α : Type} (P : α → Prop) (f : α → α) : Nat → List α → List α → Prop
  | nil : Touch P f 0 [] []
  | skip {n : Nat} {xs ys : List α} (x : α) : Touch P f n xs ys → Touch P f n (x :: xs) (x :: ys)
  | touch {n : Nat} {xs ys : List α} (x : α) : P x → Touch P f n xs ys →
      Touch P f (n + 1) (x :: xs) (f x :: ys)

namespace Touch

variable {α β : Type} {P : α → Prop} {f : α → α} {n m : Nat} {xs ys zs : List α}

theorem refl (xs : List α) : Touch P f 0 xs xs := by
  induction xs with
  | nil => exact nil
  | cons x xs ih => exact skip x ih

theorem append {us vs : List α} (h : Touch P f n xs ys) (h' : Touch P f m us vs) :
    Touch P f (n + m) (xs ++ us) (ys ++ vs) := by
  induction h with
  | nil => simpa using h'
  | skip x _ ih => exact skip x ih
  | @touch n _ _ x hx _ ih =>
    rw [show n + 1 + m = n + m + 1 by omega]
    exact touch x hx ih

/-- One pass after another, when a touched element no longer qualifies. -/
theorem trans (hf : ∀ x, P x → ¬ P (f x)) (h : Touch P f n xs ys) (h' : Touch P f m ys zs) :
    Touch P f (n + m) xs zs := by
  induction h generalizing m zs with
  | nil => simpa using h'
  | @skip n xs ys x _ ih =>
    cases h' with
    | skip _ h' => exact skip x (ih h')
    | @touch m _ _ _ hx h' => exact touch (n := n + m) x hx (ih h')
  | @touch n xs ys x hx _ ih =>
    cases h' with
    | skip _ h' =>
      rw [show n + 1 + m = n + m + 1 by omega]
      exact touch x hx (ih h')
    | touch _ hx' _ => exact absurd hx' (hf x hx)

theorem mono {Q : α → Prop} (hPQ : ∀ x, P x → Q x) (h : Touch P f n xs ys) :
    Touch Q f n xs ys := by
  induction h with
  | nil => exact nil
  | skip x _ ih => exact skip x ih
  | touch x hx _ ih => exact touch x (hPQ x hx) ih

theorem length_eq (h : Touch P f n xs ys) : ys.length = xs.length := by
  induction h with
  | nil => rfl
  | skip x _ ih => simp [ih]
  | touch x _ _ ih => simp [ih]

/-! ## What is left alone -/

/-- A reading that `f` does not change is not changed anywhere. -/
theorem map_eq {g : α → β} (hg : ∀ x, P x → g (f x) = g x) (h : Touch P f n xs ys) :
    ys.map g = xs.map g := by
  induction h with
  | nil => rfl
  | skip x _ ih => simp [ih]
  | touch x hx _ ih => simp [ih, hg x hx]

theorem filter_map_eq {q : α → Bool} {g : α → β} (hq : ∀ x, P x → q (f x) = q x)
    (hg : ∀ x, P x → g (f x) = g x) (h : Touch P f n xs ys) :
    (ys.filter q).map g = (xs.filter q).map g := by
  induction h with
  | nil => rfl
  | skip x _ ih => by_cases hx : q x <;> simp [hx, ih]
  | touch x hP _ ih => by_cases hx : q x <;> simp [hx, hq x hP, hg x hP, ih]

theorem countP_eq {q : α → Bool} (hq : ∀ x, P x → q (f x) = q x) (h : Touch P f n xs ys) :
    ys.countP q = xs.countP q := by
  induction h with
  | nil => rfl
  | skip x _ ih => simp only [List.countP_cons, ih]
  | touch x hx _ ih => simp only [List.countP_cons, ih, hq x hx]

theorem forall_mem {Q : α → Prop} (hQ : ∀ x, P x → Q x → Q (f x)) (h : Touch P f n xs ys)
    (hxs : ∀ x ∈ xs, Q x) : ∀ y ∈ ys, Q y := by
  induction h with
  | nil => simp
  | skip x _ ih =>
    intro y hy
    rcases List.mem_cons.mp hy with rfl | hy
    · exact hxs _ (by simp)
    · exact ih (fun z hz => hxs z (List.mem_cons_of_mem _ hz)) y hy
  | touch x hx _ ih =>
    intro y hy
    rcases List.mem_cons.mp hy with rfl | hy
    · exact hQ x hx (hxs _ (by simp))
    · exact ih (fun z hz => hxs z (List.mem_cons_of_mem _ hz)) y hy

/-! ## What is counted -/

/-- A test that `f` turns on gains one for every element touched. -/
theorem countP_add {q : α → Bool} (hq : ∀ x, P x → q x = false ∧ q (f x) = true)
    (h : Touch P f n xs ys) : ys.countP q = xs.countP q + n := by
  induction h with
  | nil => rfl
  | skip x _ ih => simp only [List.countP_cons, ih]; omega
  | touch x hx _ ih => simp only [List.countP_cons, ih, hq x hx]; simp; omega

/-- A test that `f` turns off loses one for every element touched. -/
theorem countP_sub {q : α → Bool} (hq : ∀ x, P x → q x = true ∧ q (f x) = false)
    (h : Touch P f n xs ys) : ys.countP q + n = xs.countP q := by
  induction h with
  | nil => rfl
  | skip x _ ih => simp only [List.countP_cons, ← ih]; omega
  | touch x hx _ ih => simp only [List.countP_cons, ← ih, hq x hx]; simp; omega

/-! ## Where loops produce it -/

/-- Touching inside one member of a list of collections. -/
theorem flatMap_modify {γ : Type} {g : γ → List α} {h : γ → γ} {cs : List γ} {i : Nat}
    (hi : i < cs.length) (ht : Touch P f n (g cs[i]) (g (h cs[i]))) :
    Touch P f n (cs.flatMap g) ((cs.modify i h).flatMap g) := by
  induction cs generalizing i with
  | nil => exact absurd hi (by simp)
  | cons c cs ih =>
    cases i with
    | zero =>
      simp only [List.modify_zero_cons, List.flatMap_cons]
      have := ht.append (refl (P := P) (f := f) (cs.flatMap g))
      simpa using this
    | succ i =>
      simp only [List.modify_succ_cons, List.flatMap_cons]
      have hi' : i < cs.length := by simpa using hi
      have := (refl (P := P) (f := f) (g c)).append (ih hi' (by simpa using ht))
      simpa using this

/-- Touching the elements at a list of distinct positions, from position `k` on. -/
theorem zipIdx_map {k : Nat} {is : List Nat} (hnd : is.Nodup)
    (hlt : ∀ i ∈ is, k ≤ i ∧ i < k + xs.length)
    (hP : ∀ i x, i ∈ is → (x, i) ∈ xs.zipIdx k → P x) :
    Touch P f is.length xs ((xs.zipIdx k).map (fun e => if e.2 ∈ is then f e.1 else e.1)) := by
  induction xs generalizing k is with
  | nil =>
    cases is with
    | nil => exact nil
    | cons i is =>
      have := hlt i (by simp)
      simp only [List.length_nil] at this
      omega
  | cons x xs ih =>
    simp only [List.zipIdx_cons, List.map_cons]
    by_cases hk : k ∈ is
    · rw [if_pos hk]
      -- the rest of the walk sees the same positions with `k` taken out
      have hlt' : ∀ i ∈ is.erase k, k + 1 ≤ i ∧ i < k + 1 + xs.length := by
        intro i hi
        have hne : i ≠ k := fun h => (List.Nodup.not_mem_erase hnd) (h ▸ hi)
        have := hlt i (List.mem_of_mem_erase hi)
        simp only [List.length_cons] at this
        omega
      have hP' : ∀ i y, i ∈ is.erase k → (y, i) ∈ xs.zipIdx (k + 1) → P y := by
        intro i y hi hy
        exact hP i y (List.mem_of_mem_erase hi) (by simp [List.zipIdx_cons, hy])
      have hrest := ih (hnd.erase k) hlt' hP'
      have hlen : is.length = (is.erase k).length + 1 := by
        have := List.length_pos_of_mem hk
        rw [List.length_erase_of_mem hk]; omega
      rw [hlen]
      refine touch x (hP k x hk (by simp [List.zipIdx_cons])) ?_
      convert hrest using 1
      refine List.map_congr_left ?_
      intro e he
      have hge : k + 1 ≤ e.2 := List.le_snd_of_mem_zipIdx he
      have hne : e.2 ≠ k := by omega
      simp [List.mem_erase_of_ne hne]
    · rw [if_neg hk]
      refine skip x (ih hnd ?_ ?_)
      · intro i hi
        have hne : i ≠ k := fun h => hk (h ▸ hi)
        have := hlt i hi
        simp only [List.length_cons] at this
        omega
      · intro i y hi hy
        exact hP i y hi (by simp [List.zipIdx_cons, hy])

end Touch

/-! ## Numbered walks over nested collections -/

section

variable {α γ : Type}

/-- Walk a list of collections with a running position: each collection is handed
the position of its first element. -/
def mapFrom (size : γ → Nat) (g : Nat → γ → γ) : Nat → List γ → List γ
  | _, [] => []
  | k, c :: cs => g k c :: mapFrom size g (k + size c) cs

/-- If each collection numbers its own elements on from where it starts, the whole
walk numbers all elements in order. -/
theorem mapFrom_flatMap {size : γ → Nat} {g : Nat → γ → γ} {elems : γ → List α}
    {F : α × Nat → α} (hsize : ∀ c, size c = (elems c).length)
    (hg : ∀ k c, elems (g k c) = ((elems c).zipIdx k).map F) (k : Nat) (cs : List γ) :
    (mapFrom size g k cs).flatMap elems = ((cs.flatMap elems).zipIdx k).map F := by
  induction cs generalizing k with
  | nil => rfl
  | cons c cs ih =>
    simp only [mapFrom, List.flatMap_cons, List.zipIdx_append, List.map_append, ih, hg, hsize]

theorem mapFrom_ne_nil {size : γ → Nat} {g : Nat → γ → γ} {k : Nat} {cs : List γ}
    (h : cs ≠ []) : mapFrom size g k cs ≠ [] := by
  cases cs with
  | nil => exact absurd rfl h
  | cons c cs => simp [mapFrom]

end
