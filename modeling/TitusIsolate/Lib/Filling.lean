import Mathlib.Algebra.BigOperators.Group.Finset.Piecewise
import Mathlib.Algebra.Order.BigOperators.Group.Finset
import Mathlib.Algebra.Ring.Nat
import Mathlib.Data.Finset.Card

/-!
# Filling bins one owner at a time

Bins have room, and owners come one after another and take room from them. An owner that
leaves room in at most one of the bins it takes from meets an earlier owner in at most one
bin that stays open, so few bins end up shared and few owners end up in two bins.

The measure is the number of owners a bin has beyond its first, summed over the bins,
together with the number of bins that have an owner and room. One owner raises the sum of
the two by at most one, and the first of them by at most what the second was.
-/

/-- Who has taken room from the bin, and how much it has left. -/
structure Bin (α : Type) where
  owners : Finset α
  room : Nat

/-- The owner `w` takes room from some bins it is not in, and leaves `left` of them open. -/
inductive Fills {α : Type} [DecidableEq α] (w : α) : Nat → List (Bin α) → List (Bin α) → Prop
  | nil : Fills w 0 [] []
  | skip {left : Nat} {bs bs' : List (Bin α)} (b : Bin α) : Fills w left bs bs' →
      Fills w left (b :: bs) (b :: bs')
  | fill {left : Nat} {bs bs' : List (Bin α)} (b : Bin α) : 0 < b.room → w ∉ b.owners →
      Fills w left bs bs' → Fills w left (b :: bs) (⟨insert w b.owners, 0⟩ :: bs')
  | start {left : Nat} {bs bs' : List (Bin α)} (b : Bin α) (room : Nat) : 0 < b.room →
      w ∉ b.owners → Fills w left bs bs' →
      Fills w (left + 1) (b :: bs) (⟨insert w b.owners, room⟩ :: bs')

/-- Owners that come one after another, each leaving at most one of its bins open. -/
inductive FilledBy {α : Type} [DecidableEq α] : List α → List (Bin α) → List (Bin α) → Prop
  | nil (bs : List (Bin α)) : FilledBy [] bs bs
  | cons {w : α} {ws : List α} {left : Nat} {bs bs' bs'' : List (Bin α)} : left ≤ 1 →
      Fills w left bs bs' → FilledBy ws bs' bs'' → FilledBy (w :: ws) bs bs''

/-! ## The measures -/

/-- The owners beyond the first of each bin. -/
def excess {α : Type} (bs : List (Bin α)) : Nat := (bs.map (fun b => b.owners.card - 1)).sum

/-- The bins that have an owner and room. -/
def openBins {α : Type} (bs : List (Bin α)) : Nat :=
  bs.countP (fun b => decide (0 < b.owners.card ∧ 0 < b.room))

/-- The bins that have an owner. -/
def usedBins {α : Type} (bs : List (Bin α)) : Nat :=
  bs.countP (fun b => decide (0 < b.owners.card))

/-- The bins that have two. -/
def sharedBins {α : Type} (bs : List (Bin α)) : Nat :=
  bs.countP (fun b => decide (1 < b.owners.card))

/-- The bins an owner is in. -/
def binsOf {α : Type} [DecidableEq α] (bs : List (Bin α)) (w : α) : Nat :=
  bs.countP (fun b => decide (w ∈ b.owners))

section

variable {α : Type} {b : Bin α} {bs : List (Bin α)}

theorem excess_cons (b : Bin α) (bs : List (Bin α)) :
    excess (b :: bs) = b.owners.card - 1 + excess bs := by
  unfold excess
  rw [List.map_cons, List.sum_cons]

theorem openBins_cons (b : Bin α) (bs : List (Bin α)) :
    openBins (b :: bs) = openBins bs + if 0 < b.owners.card ∧ 0 < b.room then 1 else 0 := by
  unfold openBins
  rw [List.countP_cons]
  simp only [decide_eq_true_eq]

theorem sharedBins_cons (b : Bin α) (bs : List (Bin α)) :
    sharedBins (b :: bs) = sharedBins bs + if 1 < b.owners.card then 1 else 0 := by
  unfold sharedBins
  rw [List.countP_cons]
  simp only [decide_eq_true_eq]

theorem usedBins_cons (b : Bin α) (bs : List (Bin α)) :
    usedBins (b :: bs) = usedBins bs + if 0 < b.owners.card then 1 else 0 := by
  unfold usedBins
  rw [List.countP_cons]
  simp only [decide_eq_true_eq]

/-- A shared bin has an owner beyond its first. -/
theorem sharedBins_le_excess (bs : List (Bin α)) : sharedBins bs ≤ excess bs := by
  induction bs with
  | nil => exact Nat.le_refl 0
  | cons b bs ih =>
    rw [sharedBins_cons, excess_cons]
    split <;> omega

/-- Counted by bin, the owners are those beyond the first and one for each bin used. -/
theorem sum_card_owners (bs : List (Bin α)) :
    (bs.map (fun b => b.owners.card)).sum = excess bs + usedBins bs := by
  induction bs with
  | nil => rfl
  | cons b bs ih =>
    rw [List.map_cons, List.sum_cons, excess_cons, usedBins_cons, ih]
    split <;> omega

theorem measures_of_unowned (h : ∀ b ∈ bs, b.owners = ∅) : excess bs = 0 ∧ openBins bs = 0 := by
  induction bs with
  | nil => exact ⟨rfl, rfl⟩
  | cons b bs ih =>
    obtain ⟨he, ho⟩ := ih (fun c hc => h c (List.mem_cons_of_mem _ hc))
    have hb : b.owners.card = 0 := by rw [h b List.mem_cons_self]; rfl
    rw [excess_cons, openBins_cons, he, ho, hb]
    exact ⟨rfl, rfl⟩

end

/-! ## One owner -/

namespace Fills

variable {α : Type} [DecidableEq α] {w : α} {left : Nat} {bs bs' bs'' : List (Bin α)}

theorem refl (bs : List (Bin α)) : Fills w 0 bs bs := by
  induction bs with
  | nil => exact nil
  | cons b bs ih => exact skip b ih

theorem append {cs cs' : List (Bin α)} {left' : Nat} (h : Fills w left bs bs')
    (h' : Fills w left' cs cs') : Fills w (left + left') (bs ++ cs) (bs' ++ cs') := by
  induction h with
  | nil => simpa using h'
  | skip b _ ih => exact skip b ih
  | fill b hroom hw _ ih => exact fill b hroom hw ih
  | @start left _ _ b room hroom hw _ ih =>
    rw [show left + 1 + left' = left + left' + 1 by omega]
    exact start b room hroom hw ih

/-- Bins that are filled first have no room to be taken after. -/
theorem trans (h : Fills w 0 bs bs') (h' : Fills w left bs' bs'') : Fills w left bs bs'' := by
  generalize hk : 0 = k at h
  induction h generalizing left bs'' with
  | nil => exact h'
  | skip b _ ih =>
    cases h' with
    | skip _ h' => exact skip b (ih h' hk)
    | fill _ hroom hw h' => exact fill b hroom hw (ih h' hk)
    | start _ room hroom hw h' => exact start b room hroom hw (ih h' hk)
  | fill b hroom hw _ ih =>
    cases h' with
    | skip _ h' => exact fill b hroom hw (ih h' hk)
    | fill _ hroom' _ _ => exact absurd hroom' (Nat.lt_irrefl 0)
    | start _ _ hroom' _ _ => exact absurd hroom' (Nat.lt_irrefl 0)
  | start b room _ _ _ _ => exact absurd hk (by omega)

/-- Taking from one member of a list of rows of bins. -/
theorem flatMap_modify {γ : Type} {g : γ → List (Bin α)} {f : γ → γ} {cs : List γ} {i : Nat}
    (hi : i < cs.length) (h : Fills w left (g cs[i]) (g (f cs[i]))) :
    Fills w left (cs.flatMap g) ((cs.modify i f).flatMap g) := by
  induction cs generalizing i with
  | nil => exact absurd hi (by simp)
  | cons c cs ih =>
    cases i with
    | zero =>
      rw [List.modify_zero_cons, List.flatMap_cons, List.flatMap_cons]
      exact h.append (refl (w := w) (cs.flatMap g))
    | succ i =>
      rw [List.modify_succ_cons, List.flatMap_cons, List.flatMap_cons, ← Nat.zero_add left]
      exact (refl (w := w) (g c)).append (ih (by simpa using hi) (by simpa using h))

theorem map_modify {γ : Type} {g : γ → Bin α} {f : γ → γ} {cs : List γ} {i : Nat}
    (hi : i < cs.length) (h : Fills w left [g cs[i]] [g (f cs[i])]) :
    Fills w left (cs.map g) ((cs.modify i f).map g) := by
  rw [List.map_eq_flatMap, List.map_eq_flatMap]
  exact flatMap_modify hi h

/-- An owner that leaves none of its bins open is in full ones only. -/
theorem full_of_full (h : Fills w left bs bs') (hleft : left = 0)
    (hfull : ∀ b ∈ bs, w ∈ b.owners → b.room = 0) : ∀ b ∈ bs', w ∈ b.owners → b.room = 0 := by
  induction h with
  | nil => exact hfull
  | skip b _ ih =>
    obtain ⟨hb, hbs⟩ := List.forall_mem_cons.mp hfull
    exact List.forall_mem_cons.mpr ⟨hb, ih hleft hbs⟩
  | fill b _ _ _ ih =>
    obtain ⟨_, hbs⟩ := List.forall_mem_cons.mp hfull
    exact List.forall_mem_cons.mpr ⟨fun _ => rfl, ih hleft hbs⟩
  | start b room _ _ _ _ => exact absurd hleft (Nat.succ_ne_zero _)

/-- What an owner adds to the excess was open before; what it leaves open it adds to that. -/
theorem measures (h : Fills w left bs bs') :
    excess bs' ≤ excess bs + openBins bs
      ∧ excess bs' + openBins bs' ≤ excess bs + openBins bs + left := by
  induction h with
  | nil => exact ⟨Nat.le_refl _, Nat.le_refl _⟩
  | skip b _ ih =>
    rw [excess_cons, excess_cons, openBins_cons, openBins_cons]
    omega
  | fill b hroom hw _ ih =>
    rw [excess_cons, excess_cons, openBins_cons, openBins_cons,
      Finset.card_insert_of_notMem hw]
    -- the bin was open exactly when it had an owner, and is full now
    simp only [hroom, and_true, Nat.lt_irrefl, and_false, if_false]
    split <;> omega
  | start b room hroom hw _ ih =>
    rw [excess_cons, excess_cons, openBins_cons, openBins_cons,
      Finset.card_insert_of_notMem hw]
    simp only [hroom, and_true, Nat.zero_lt_succ, true_and]
    split <;> split <;> omega

end Fills

/-! ## All of them -/

namespace FilledBy

variable {α : Type} [DecidableEq α] {ws : List α} {bs bs' : List (Bin α)}

/-- The last owner adds only what was open when it came. -/
theorem excess_lt (h : FilledBy ws bs bs') (hne : ws ≠ []) :
    excess bs' < excess bs + openBins bs + ws.length := by
  induction h with
  | nil _ => exact absurd rfl hne
  | @cons w ws left bs bs1 bs' hleft hfill hrest ih =>
    obtain ⟨hexcess, hsum⟩ := hfill.measures
    rw [List.length_cons]
    cases ws with
    | nil =>
      cases hrest
      rw [List.length_nil]
      omega
    | cons v ws =>
      have hlt := ih (List.cons_ne_nil v ws)
      omega

/-- **From bins nobody owns, fewer are shared than owners came.** -/
theorem excess_lt_of_unowned (h : FilledBy ws bs bs') (hne : ws ≠ [])
    (hbs : ∀ b ∈ bs, b.owners = ∅) : excess bs' < ws.length := by
  obtain ⟨hexcess, hopen⟩ := measures_of_unowned hbs
  have hlt := h.excess_lt hne
  omega

theorem excess_le_of_unowned (h : FilledBy ws bs bs') (hbs : ∀ b ∈ bs, b.owners = ∅) :
    excess bs' ≤ ws.length - 1 := by
  cases ws with
  | nil =>
    cases h
    exact Nat.le_of_eq (measures_of_unowned hbs).1
  | cons w ws =>
    have hlt := h.excess_lt_of_unowned (List.cons_ne_nil w ws) hbs
    omega

end FilledBy

/-! ## Counted by owner -/

section

variable {α : Type} [DecidableEq α]

/-- The pairs of a bin and an owner, counted by owner and by bin. -/
theorem sum_binsOf (s : Finset α) {bs : List (Bin α)} (h : ∀ b ∈ bs, b.owners ⊆ s) :
    ∑ w ∈ s, binsOf bs w = (bs.map (fun b => b.owners.card)).sum := by
  induction bs with
  | nil => exact Finset.sum_eq_zero (fun _ _ => rfl)
  | cons b bs ih =>
    have hcons : ∀ w, binsOf (b :: bs) w = binsOf bs w + if w ∈ b.owners then 1 else 0 := by
      intro w
      unfold binsOf
      rw [List.countP_cons]
      simp only [decide_eq_true_eq]
    simp only [hcons]
    rw [Finset.sum_add_distrib, ih (fun c hc => h c (List.mem_cons_of_mem _ hc)), List.map_cons,
      List.sum_cons, Nat.add_comm]
    congr 1
    rw [← Finset.sum_filter, Finset.filter_mem_eq_inter,
      Finset.inter_eq_right.mpr (h b List.mem_cons_self), ← Finset.card_eq_sum_ones]

/-- The owners in two bins or more, when every owner is in one. -/
theorem card_crossing_add (s : Finset α) {bs : List (Bin α)} (h : ∀ b ∈ bs, b.owners ⊆ s)
    (hin : ∀ w ∈ s, 0 < binsOf bs w) :
    (s.filter (fun w => 1 < binsOf bs w)).card + s.card ≤ excess bs + usedBins bs := by
  rw [← sum_card_owners, ← sum_binsOf s h, Finset.card_filter, Finset.card_eq_sum_ones,
    ← Finset.sum_add_distrib]
  refine Finset.sum_le_sum ?_
  intro w hw
  have hpos := hin w hw
  split <;> omega

/-- **Fewer owners are in two bins than bins are used**, when each that came is in one. -/
theorem FilledBy.crossing_lt {ws : List α} {bs bs' : List (Bin α)} (h : FilledBy ws bs bs')
    (hne : ws ≠ []) (hbs : ∀ b ∈ bs, b.owners = ∅) (hnd : ws.Nodup)
    (howners : ∀ b ∈ bs', b.owners ⊆ ws.toFinset) (hin : ∀ w ∈ ws, 0 < binsOf bs' w) :
    (ws.toFinset.filter (fun w => 1 < binsOf bs' w)).card < usedBins bs' := by
  have hexcess := h.excess_lt_of_unowned hne hbs
  have hcross := card_crossing_add ws.toFinset howners (fun w hw => hin w (List.mem_toFinset.mp hw))
  rw [List.toFinset_card_of_nodup hnd] at hcross
  omega

end
