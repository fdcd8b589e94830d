/-!
# Prefix codes

A code writes each symbol as a word. It is a prefix code when the symbol and what follows
its word can be told from the whole, read from the left. Messages of such symbols, and
lists of them with separators, are prefix codes again when a stop ends them that begins no
word. So texts that are nested this way can be told apart level by level.
-/

/-- What follows a word, and the symbol it is the word of, can be told from the whole. -/
def PrefixCode {α β : Type} (code : α → List β) : Prop :=
  ∀ a b u v, code a ++ u = code b ++ v → a = b ∧ u = v

/-- The symbols' words one after another, and a stop. -/
def PrefixCode.message {α β : Type} (code : α → List β) (stop : β) (xs : List α) : List β :=
  xs.flatMap code ++ [stop]

/-- The symbols' words with separators between them, and a stop. -/
def PrefixCode.separated {α β : Type} (code : α → List β) (sep : List β) (stop : β) :
    List α → List β
  | [] => [stop]
  | x :: xs => code x ++ message (fun y => sep ++ code y) stop xs

namespace PrefixCode

variable {α β : Type} {code : α → List β}

/-- Words with separators between them, before the stop. -/
theorem separated_eq (sep : List β) (stop : β) :
    ∀ xs : List α, separated code sep stop xs = sep.intercalate (xs.map code) ++ [stop]
  | [] => rfl
  | [x] => by
      rw [List.map_cons, List.map_nil, List.intercalate_singleton]
      rfl
  | x :: y :: xs => by
      have ih := separated_eq sep stop (y :: xs)
      unfold separated at ih
      rw [List.map_cons] at ih
      rw [List.map_cons, List.map_cons, List.intercalate_cons_cons, List.append_assoc, ← ih]
      simp only [separated, message, List.flatMap_cons, List.append_assoc]

/-- Words that can be read are a prefix code. -/
theorem of_read {read : List β → Option (α × List β)}
    (h : ∀ a u, read (code a ++ u) = some (a, u)) : PrefixCode code := by
  intro a b u v heq
  have hread := (h a u).symm.trans ((congrArg read heq).trans (h b v))
  exact Prod.mk.inj (Option.some.inj hread)

theorem injective (h : PrefixCode code) {a b : α} (heq : code a = code b) : a = b :=
  (h a b [] [] (by rw [heq])).1

/-- The same words with a fixed beginning. -/
theorem prepend (h : PrefixCode code) (pre : List β) : PrefixCode (fun a => pre ++ code a) := by
  intro a b u v heq
  rw [List.append_assoc, List.append_assoc] at heq
  exact h a b u v (List.append_cancel_left heq)

/-- No word begins with the stop. -/
def Begins (code : α → List β) (stop : β) : Prop := ∀ a, ∃ x xs, code a = x :: xs ∧ x ≠ stop

theorem Begins.prepend {stop : β} {pre : List β} (hpre : ∃ x xs, pre = x :: xs ∧ x ≠ stop) :
    Begins (fun a => pre ++ code a) stop := by
  obtain ⟨x, xs, rfl, hx⟩ := hpre
  exact fun a => ⟨x, xs ++ code a, rfl, hx⟩

/-- A word and what follows it are not the stop and what follows that. -/
theorem Begins.ne {stop : β} (h : Begins code stop) (a : α) (u v : List β) :
    code a ++ u ≠ stop :: v := by
  obtain ⟨x, xs, hx, hne⟩ := h a
  rw [hx, List.cons_append]
  intro heq
  exact hne (List.cons.inj heq).1

/-- **Messages of a prefix code are a prefix code.** -/
theorem message_prefixCode (h : PrefixCode code) {stop : β} (hstop : Begins code stop) :
    PrefixCode (message code stop) := by
  intro xs
  unfold message
  induction xs with
  | nil =>
    rintro (_ | ⟨y, ys⟩) u v heq
    · exact ⟨rfl, List.append_cancel_left heq⟩
    · simp only [List.flatMap_cons, List.append_assoc] at heq
      exact absurd heq.symm (hstop.ne y _ _)
  | cons x xs ih =>
    rintro (_ | ⟨y, ys⟩) u v heq
    · simp only [List.flatMap_cons, List.append_assoc] at heq
      exact absurd heq (hstop.ne x _ _)
    · simp only [List.flatMap_cons, List.append_assoc (code _)] at heq
      obtain ⟨rfl, hrest⟩ := h x y _ _ heq
      obtain ⟨rfl, rfl⟩ := ih ys u v hrest
      exact ⟨rfl, rfl⟩

/-- **Lists with separators are a prefix code.** -/
theorem separated_prefixCode (h : PrefixCode code) {sep : List β} {stop : β}
    (hstop : Begins code stop) (hsep : ∃ x xs, sep = x :: xs ∧ x ≠ stop) :
    PrefixCode (separated code sep stop) := by
  have htail := message_prefixCode (h.prepend sep) (Begins.prepend hsep)
  rintro (_ | ⟨x, xs⟩) (_ | ⟨y, ys⟩) u v heq
  · exact ⟨rfl, List.append_cancel_left heq⟩
  · rw [separated, separated, List.append_assoc] at heq
    exact absurd heq.symm (hstop.ne y _ _)
  · rw [separated, separated, List.append_assoc] at heq
    exact absurd heq (hstop.ne x _ _)
  · rw [separated, separated, List.append_assoc, List.append_assoc] at heq
    obtain ⟨rfl, hrest⟩ := h x y _ _ heq
    obtain ⟨rfl, rfl⟩ := htail xs ys u v hrest
    exact ⟨rfl, rfl⟩

end PrefixCode
