import Mathlib.Algebra.Ring.Nat
import TitusIsolate.Lib.PrefixCode

/-!
# JSON texts in ASCII

An object of texts as `json.dumps` writes it by default: what is not a printable ASCII
character is escaped, and beyond the basic plane as a surrogate pair. What was escaped can
be read from the left, so a text written this way stands for one object only.
-/

namespace AsciiJson

/-! ## Characters -/

/-- Four hexadecimal digits. -/
def hex4 (n : Nat) : List Char :=
  [Nat.digitChar (n / 4096 % 16), Nat.digitChar (n / 256 % 16), Nat.digitChar (n / 16 % 16),
    Nat.digitChar (n % 16)]

/-- A code unit by its number: `\u` and four digits. -/
def escapeUnit (n : Nat) : List Char := '\\' :: 'u' :: hex4 n

/-- The characters that are escaped by a letter. -/
def shortEscapes : List (Char × Char) :=
  [('"', '"'), ('\\', '\\'), ('\x08', 'b'), ('\x0c', 'f'), ('\n', 'n'), ('\r', 'r'), ('\t', 't')]

/-- The letter after the backslash. -/
def shortEscape (c : Char) : Option Char := (shortEscapes.find? (fun p => p.1 = c)).map Prod.snd

/-- What is written for a character. -/
def escapeChar (c : Char) : List Char :=
  match shortEscape c with
  | some e => ['\\', e]
  | none =>
      if ' ' ≤ c ∧ c ≤ '~' then [c]
      else if c.toNat < 0x10000 then escapeUnit c.toNat
      else escapeUnit (0xd800 + (c.toNat - 0x10000) / 1024)
        ++ escapeUnit (0xdc00 + (c.toNat - 0x10000) % 1024)

/-- A text in quotes. -/
def literal (s : String) : List Char := '"' :: PrefixCode.message escapeChar '"' s.toList

/-- A key and its value. -/
def entry (e : String × String) : List Char := literal e.1 ++ (':' :: ' ' :: literal e.2)

/-- `json.dumps(d)` for a dictionary of texts. -/
def dumps (entries : List (String × String)) : String :=
  String.ofList ('\x7b' :: PrefixCode.separated entry [',', ' '] '\x7d' entries)

/-! ## Reading a character -/

/-- The value of a hexadecimal digit. -/
def hexValue (c : Char) : Nat :=
  if c.isDigit then c.toNat - '0'.toNat else c.toNat - 'a'.toNat + 10

/-- The value of four of them. -/
def value4 (a b c d : Char) : Nat :=
  ((hexValue a * 16 + hexValue b) * 16 + hexValue c) * 16 + hexValue d

/-- The character that a letter after a backslash stands for. -/
def unescape (e : Char) : Char :=
  ((shortEscapes.find? (fun p => p.2 = e)).map Prod.fst).getD e

/-- What follows a backslash. -/
def readEscape : List Char → Option (Char × List Char)
  | 'u' :: a :: b :: c :: d :: rest =>
      let high := value4 a b c d
      if 0xd800 ≤ high ∧ high < 0xdc00 then
        match rest with
        | _ :: _ :: a' :: b' :: c' :: d' :: rest =>
            some (Char.ofNat (0x10000 + (high - 0xd800) * 1024 + (value4 a' b' c' d' - 0xdc00)),
              rest)
        | _ => none
      else some (Char.ofNat high, rest)
  | e :: rest => some (unescape e, rest)
  | [] => none

/-- The first character of a text, and what is left of the text. -/
def readChar : List Char → Option (Char × List Char)
  | [] => none
  | x :: xs => if x = '\\' then readEscape xs else some (x, xs)

theorem hexValue_digitChar {d : Nat} (h : d < 16) : hexValue (Nat.digitChar d) = d := by
  have hall : ∀ d < 16, hexValue (Nat.digitChar d) = d := by decide
  exact hall d h

theorem value4_hex4 {n : Nat} (h : n < 0x10000) :
    value4 (Nat.digitChar (n / 4096 % 16)) (Nat.digitChar (n / 256 % 16))
      (Nat.digitChar (n / 16 % 16)) (Nat.digitChar (n % 16)) = n := by
  have hdigit : ∀ k : Nat, hexValue (Nat.digitChar (k % 16)) = k % 16 :=
    fun k => hexValue_digitChar (Nat.mod_lt k (by omega))
  unfold value4
  rw [hdigit, hdigit, hdigit, hdigit]
  omega

/-- A character that is not a surrogate is read where its unit stands. -/
theorem readChar_unit {n : Nat} (h : n < 0x10000) (hs : ¬ (0xd800 ≤ n ∧ n < 0xdc00))
    (u : List Char) : readChar (escapeUnit n ++ u) = some (Char.ofNat n, u) := by
  simp only [escapeUnit, hex4, List.cons_append, List.nil_append, readChar, if_true,
    readEscape, value4_hex4 h, if_neg hs]

theorem readChar_pair {n : Nat} (h : n < 0x110000) (hn : 0x10000 ≤ n) (u : List Char) :
    readChar (escapeUnit (0xd800 + (n - 0x10000) / 1024)
        ++ escapeUnit (0xdc00 + (n - 0x10000) % 1024) ++ u) = some (Char.ofNat n, u) := by
  have hhigh : 0xd800 + (n - 0x10000) / 1024 < 0x10000 := by omega
  have hlow : 0xdc00 + (n - 0x10000) % 1024 < 0x10000 := by omega
  have hsurrogate : 0xd800 ≤ 0xd800 + (n - 0x10000) / 1024
      ∧ 0xd800 + (n - 0x10000) / 1024 < 0xdc00 := by omega
  have hsum : 0x10000 + (0xd800 + (n - 0x10000) / 1024 - 0xd800) * 1024
      + (0xdc00 + (n - 0x10000) % 1024 - 0xdc00) = n := by omega
  simp only [escapeUnit, hex4, List.cons_append, List.nil_append, readChar, if_true,
    readEscape, value4_hex4 hhigh, value4_hex4 hlow, if_pos hsurrogate, hsum]

theorem unescape_of_shortEscape {c e : Char} (h : shortEscape c = some e) :
    e ≠ 'u' ∧ unescape e = c := by
  have htable : ∀ p ∈ shortEscapes, p.2 ≠ 'u' ∧ unescape p.2 = p.1 := by decide
  obtain ⟨p, hp, rfl⟩ := Option.map_eq_some_iff.mp h
  have hc : p.1 = c := by simpa using List.find?_some hp
  rw [← hc]
  exact htable p (List.mem_of_find?_eq_some hp)

/-- The characters with an escape of their own are told apart by it. -/
theorem ne_backslash_of_shortEscape {c : Char} (h : shortEscape c = none) :
    c ≠ '"' ∧ c ≠ '\\' := by
  refine ⟨?_, ?_⟩
  · rintro rfl
    exact absurd h (by decide)
  · rintro rfl
    exact absurd h (by decide)

theorem readChar_short {e : Char} (h : e ≠ 'u') (u : List Char) :
    readChar ('\\' :: e :: u) = some (unescape e, u) := by
  rw [readChar, if_pos rfl]
  unfold readEscape
  split
  · rename_i heq
    exact absurd (List.cons.inj heq).1 h
  · rename_i heq
    obtain ⟨rfl, rfl⟩ := List.cons.inj heq
    rfl
  · rename_i heq
    exact absurd heq (by simp)

/-- **A character is read back**, whatever follows it. -/
theorem readChar_escapeChar (c : Char) (u : List Char) :
    readChar (escapeChar c ++ u) = some (c, u) := by
  unfold escapeChar
  cases hs : shortEscape c with
  | some e =>
    obtain ⟨he, hc⟩ := unescape_of_shortEscape hs
    exact (readChar_short he u).trans (by rw [hc])
  | none =>
    dsimp only
    have hvalid : c.toNat < 0xd800 ∨ (0xdfff < c.toNat ∧ c.toNat < 0x110000) := c.valid
    split
    · -- printed as it is
      rw [List.singleton_append, readChar, if_neg (ne_backslash_of_shortEscape hs).2]
    split
    · rename_i hplane
      rw [readChar_unit hplane (by omega), Char.ofNat_toNat]
    · rw [readChar_pair (by omega) (by omega), Char.ofNat_toNat]

/-! ## Texts -/

theorem escapeChar_prefixCode : PrefixCode escapeChar := PrefixCode.of_read readChar_escapeChar

/-- No character is written with a quote in front. -/
theorem escapeChar_begins : PrefixCode.Begins escapeChar '"' := by
  intro c
  unfold escapeChar
  cases hs : shortEscape c with
  | some e => exact ⟨'\\', [e], rfl, by decide⟩
  | none =>
    dsimp only
    split
    · exact ⟨c, [], rfl, (ne_backslash_of_shortEscape hs).1⟩
    split
    · exact ⟨'\\', _, rfl, by decide⟩
    · exact ⟨'\\', _, rfl, by decide⟩

theorem literal_prefixCode : PrefixCode literal := by
  intro s t u v h
  have hbody := (List.cons.inj h).2
  obtain ⟨hchars, hrest⟩ :=
    PrefixCode.message_prefixCode escapeChar_prefixCode escapeChar_begins _ _ u v hbody
  exact ⟨String.toList_inj.mp hchars, hrest⟩

theorem entry_prefixCode : PrefixCode entry := by
  rintro ⟨k, v⟩ ⟨k', v'⟩ xs ys h
  unfold entry at h
  rw [List.append_assoc, List.append_assoc] at h
  obtain ⟨rfl, hvalue⟩ := literal_prefixCode k k' _ _ h
  obtain ⟨rfl, hrest⟩ := literal_prefixCode.prepend [':', ' '] v v' _ _ hvalue
  exact ⟨rfl, hrest⟩

/-- **The text stands for one object only.** -/
theorem dumps_injective {d d' : List (String × String)} (h : dumps d = dumps d') : d = d' := by
  have hchars := (List.cons.inj (String.ofList_injective h)).2
  have hbegins : PrefixCode.Begins entry '\x7d' := fun e => ⟨'"', _, rfl, by decide⟩
  exact (PrefixCode.separated_prefixCode entry_prefixCode hbegins ⟨',', [' '], rfl, by decide⟩).injective
    hchars

end AsciiJson
