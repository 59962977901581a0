import FlatUnion.Code.Lexer
import Mathlib.Data.Nat.Digits.Defs

/-!
# Texts between quotes

A text that is quoted in generated code is read back as the same text (`textOfLiteral?_quoted`) :
every character is read back from its quoted form, escaped or not, and nothing ends the literal
before its last quote.
-/

namespace FlatUnion.Code

-- Powers are those of the naturals and the integers, whatever else is imported beside this.
attribute [local instance (high)] instPowNat

/-! ## Numbers of characters -/

/-- The number that digits of base 16 write behind another one. -/
def hexValue (value : Nat) (ds : List Nat) : Nat := ds.foldl (fun v d => 16 * v + d) value

theorem exists_hexDigits (n : Nat) : ∃ ds : List Nat, ds ≠ [] ∧ (∀ d ∈ ds, d < 16) ∧
    Nat.toDigits 16 n = ds.map Nat.digitChar ∧ hexValue 0 ds = n := by
  induction n using Nat.strongRecOn with
  | ind n ih =>
    rw [Nat.toDigits_eq_if (by decide)]
    split
    · next hn => exact ⟨[n], by simp, by simpa using hn, rfl, by simp [hexValue]⟩
    · next hn =>
      obtain ⟨ds, -, hds, heq, hvalue⟩ := ih (n / 16) (by omega)
      refine ⟨ds ++ [n % 16], by simp, ?_, by simp [heq], ?_⟩
      · simp only [List.mem_append, List.mem_singleton]
        rintro d (hd | rfl)
        · exact hds d hd
        · omega
      · rw [hexValue, List.foldl_append]
        show 16 * hexValue 0 ds + n % 16 = n
        omega

theorem hexValue?_digitChar : ∀ d < 16, hexValue? [Nat.digitChar d] = some d := by decide

theorem digitChar_ne : ∀ d < 16, Nat.digitChar d ≠ '_' ∧ Nat.digitChar d ≠ '\x7d' := by decide

/-- Up to six digits are taken off one by one. -/
theorem numberInBraces_digits {ds : List Nat} (hds : ∀ d ∈ ds, d < 16)
    {digits : Nat} (hlength : digits + ds.length ≤ 6) (value length : Nat) (rest : List Char) :
    numberInBraces.go digits value length (ds.map Nat.digitChar ++ rest) =
      numberInBraces.go (digits + ds.length) (hexValue value ds) (length + ds.length) rest := by
  induction ds generalizing digits value length with
  | nil => rfl
  | cons d ds ih =>
    obtain ⟨hd, hds⟩ := List.forall_mem_cons.1 hds
    rw [List.length_cons] at hlength
    obtain ⟨hgap, hend⟩ := digitChar_ne d hd
    rw [List.map_cons, List.cons_append, numberInBraces.go, if_neg (by simp [hgap]),
      if_neg (by simp [hend]), hexValue?_digitChar d hd]
    simp only
    rw [if_neg (by omega), ih hds (by omega)]
    simp only [List.length_cons, hexValue, List.foldl_cons]
    congr 1 <;> omega

/-- The number of a character is read from between its braces. -/
theorem numberInBraces_char (c : Char) (rest : List Char) :
    numberInBraces ('\x7b' :: (Nat.toDigits 16 c.toNat ++ '\x7d' :: rest)) =
      some ((Nat.toDigits 16 c.toNat).length + 2, c.toNat) := by
  obtain ⟨ds, hne, hds, heq, hvalue⟩ := exists_hexDigits c.toNat
  have hvalid : c.toNat < 0xd800 ∨ 0xdfff < c.toNat ∧ c.toNat < 0x110000 := c.valid
  have hlength : ds.length ≤ 6 := by
    have := Nat.toDigits_length 16 c.toNat 6 (by decide) (by omega)
    simpa [heq] using this
  have hpos := List.length_pos_iff.2 hne
  rw [numberInBraces, heq, numberInBraces_digits hds (by omega), hvalue, numberInBraces.go,
    if_neg (by simp), if_pos (by simp [hpos]), if_pos (by simpa using hvalid)]
  simp

/-! ## Characters -/

theorem quotedLength_skip (kind : TextKind) (cs rest : List Char) :
    quotedLength kind cs.length (cs ++ rest) =
      (quotedLength kind 0 rest).map (· + cs.length) := by
  induction cs with
  | nil => simp
  | cons c cs ih =>
    rw [List.length_cons, List.cons_append, quotedLength, ih, Option.map_map]
    rfl

theorem unquote_skip (cs rest : List Char) :
    unquote cs.length (cs ++ rest) = unquote 0 rest := by
  induction cs with
  | nil => rfl
  | cons c cs ih => rw [List.length_cons, List.cons_append, unquote, ih]

theorem hexText_one (n : Nat) : (hexText 1 n).toList = Nat.toDigits 16 n := by
  obtain ⟨ds, hne, -, heq, -⟩ := exists_hexDigits n
  have hpos := List.length_pos_iff.2 hne
  have hnone : 1 - (Nat.toDigits 16 n).length = 0 := by
    rw [heq, List.length_map]
    omega
  simp [hexText, hnone]

/-- The letters behind a backslash, with the characters they stand for. -/
def escapeLetters : List (Char × Char) :=
  [('0', '\x00'), ('t', '\t'), ('n', '\n'), ('r', '\x0d'), ('"', '"'), ('\\', '\\')]

/-- The ways in which a character stands between quotes. -/
theorem quoted_cases (c : Char) :
    (∃ e, (e, c) ∈ escapeLetters ∧ (Char.quoted c).toList = ['\\', e]) ∨
    (c ≠ '"' ∧ c ≠ '\\' ∧ c ≠ '\x0d' ∧ (Char.quoted c).toList = [c]) ∨
    (Char.quoted c).toList =
      '\\' :: 'u' :: '\x7b' :: (Nat.toDigits 16 c.toNat ++ ['\x7d']) := by
  rw [Char.quoted]
  split
  · next h => exact .inl ⟨'0', by simp [escapeLetters, h], rfl⟩
  split
  · next h => exact .inl ⟨'t', by simp [escapeLetters, h], rfl⟩
  split
  · next h => exact .inl ⟨'n', by simp [escapeLetters, h], rfl⟩
  split
  · next h => exact .inl ⟨'r', by simp [escapeLetters, h], rfl⟩
  split
  · next h => exact .inl ⟨'"', by simp [escapeLetters, h], rfl⟩
  split
  · next h => exact .inl ⟨'\\', by simp [escapeLetters, h], rfl⟩
  split
  · next hreturn hquote hslash _ => exact .inr (.inl ⟨hquote, hslash, hreturn, by simp⟩)
  · exact .inr (.inr (by simp [hexText_one]))

theorem escapeLength_letter {e c : Char} (h : (e, c) ∈ escapeLetters) (rest : List Char) :
    escapeLength .text (e :: rest) = some 1 := by
  simp only [escapeLetters, List.mem_cons, Prod.mk.injEq, List.not_mem_nil, or_false] at h
  rcases h with ⟨rfl, -⟩ | ⟨rfl, -⟩ | ⟨rfl, -⟩ | ⟨rfl, -⟩ | ⟨rfl, -⟩ | ⟨rfl, -⟩ <;> rfl

/-- An escape is passed over as a whole. -/
theorem quotedLength_escape {e : Char} (cs rest : List Char) (he : e ≠ '\n' ∧ e ≠ '\x0d')
    (h : escapeLength .text (e :: cs ++ rest) = some (e :: cs).length) :
    quotedLength .text 0 ('\\' :: (e :: cs ++ rest)) =
      (quotedLength .text 0 rest).map (· + ('\\' :: e :: cs).length) := by
  rw [quotedLength, if_neg (by decide), if_neg (by decide), if_pos rfl]
  · simp only [h, quotedLength_skip, Option.map_map]
    rfl
  · exact fun _ heq => he.1 (List.cons.inj heq).1
  · exact fun _ heq => he.2 (List.cons.inj heq).1

theorem quotedLength_char (c : Char) (rest : List Char) :
    quotedLength .text 0 ((Char.quoted c).toList ++ rest) =
      (quotedLength .text 0 rest).map (· + (Char.quoted c).toList.length) := by
  obtain ⟨e, he, hc⟩ | ⟨hquote, hslash, hreturn, hc⟩ | hc := quoted_cases c
  · have hne : e ≠ '\n' ∧ e ≠ '\x0d' := by
      have hletters : ∀ p ∈ escapeLetters, p.1 ≠ '\n' ∧ p.1 ≠ '\x0d' := by decide
      exact hletters _ he
    rw [hc]
    exact quotedLength_escape [] rest hne (escapeLength_letter he rest)
  · rw [hc]
    simp [quotedLength, hquote, hslash, hreturn]
  · rw [hc]
    refine quotedLength_escape _ rest (by decide) ?_
    simp [escapeLength, numberInBraces_char]

theorem unquote_char (c : Char) (rest : List Char) :
    unquote 0 ((Char.quoted c).toList ++ rest) = c :: unquote 0 rest := by
  obtain ⟨e, he, hc⟩ | ⟨hquote, hslash, hreturn, hc⟩ | hc := quoted_cases c
  · rw [hc]
    simp only [escapeLetters, List.mem_cons, Prod.mk.injEq, List.not_mem_nil, or_false] at he
    rcases he with ⟨rfl, rfl⟩ | ⟨rfl, rfl⟩ | ⟨rfl, rfl⟩ | ⟨rfl, rfl⟩ | ⟨rfl, rfl⟩ | ⟨rfl, rfl⟩ <;>
      rfl
  · rw [hc]
    simp [unquote, hquote, hslash, hreturn]
  · rw [hc]
    have hskip := unquote_skip (Nat.toDigits 16 c.toNat ++ ['\x7d']) rest
    simp only [List.length_append, List.length_singleton, List.append_assoc,
      List.singleton_append] at hskip
    simp [unquote, numberInBraces_char, hskip]

theorem quotedLength_chars (cs : List Char) :
    quotedLength .text 0 ((cs.map fun c => (Char.quoted c).toList).flatten ++ ['"']) =
      some (((cs.map fun c => (Char.quoted c).toList).flatten).length + 1) := by
  induction cs with
  | nil => rfl
  | cons c cs ih =>
    rw [List.map_cons, List.flatten_cons, List.append_assoc, quotedLength_char, ih]
    simp only [Option.map_some, List.length_append]
    congr 1
    omega

theorem unquote_chars (cs : List Char) :
    unquote 0 ((cs.map fun c => (Char.quoted c).toList).flatten ++ ['"']) = cs := by
  induction cs with
  | nil => rfl
  | cons c cs ih =>
    rw [List.map_cons, List.flatten_cons, List.append_assoc, unquote_char, ih]

theorem toList_quoted (s : String) : (quoted s).toList =
    '"' :: ((s.toList.map fun c => (Char.quoted c).toList).flatten ++ ['"']) := by
  simp only [quoted, String.toList_append, String.toList_join, List.flatMap_map]
  simp [List.flatMap_def]

/-- A text is read from its quoted form. -/
theorem textOfLiteral?_quoted (s : String) : textOfLiteral? (quoted s) = some (s, "") := by
  simp only [textOfLiteral?, toList_quoted, quotedLength_chars, unquote_chars]
  simp

end FlatUnion.Code
