import FlatUnion.Json.Source
import FlatUnion.Proofs.Parts

/-!
# Leaves of a text

A leaf that can be read can be passed over (`skipLeaf_of_read`). For a text this is so although an
escape is taken apart differently : two surrogates are one character to a reader, and two escapes to
one that passes over them (`skipBody_of_textBody`).

An integer of a numeral that fits in sixty-four bits is the same number where an integer of the
widest kind is asked for, and any other numeral is none there (`wideAnswer_eq_ok`,
`wideAnswer_ne_ok`).
-/

namespace FlatUnion.Json

-- Powers are those of the naturals and the integers, whatever else is imported beside this.
attribute [local instance (high)] instPowNat

/-! ## Texts -/

/-- What is read behind the characters that are left was read there. -/
theorem textBody_drop : ∀ {n offset : Nat} {cs : List Char} {l : Lexeme (List Char)},
    textBody n offset cs = .ok l → textBody 0 (offset + n) (cs.drop n) = .ok l
  | 0, _, _, _, h => h
  | _ + 1, _, [], _, h => nomatch h
  | n + 1, offset, _ :: rest, _, h => by
    rw [List.drop_succ_cons, Nat.add_comm n 1, ← Nat.add_assoc]
    exact textBody_drop (n := n) h

theorem skipBody_of_drop : ∀ {n offset : Nat} {cs : List Char} {m : Nat},
    skipBody 0 (offset + n) (cs.drop n) = .ok m → skipBody n offset cs = .ok m
  | 0, _, _, _, h => h
  | _ + 1, _, [], _, h => nomatch h
  | n + 1, offset, _ :: rest, _, h => by
    rw [List.drop_succ_cons, Nat.add_comm n 1, ← Nat.add_assoc] at h
    exact skipBody_of_drop (n := n) h

/-- The second surrogate is an escape of its own. -/
theorem lowSurrogate_ok {offset low : Nat} {cs : List Char} (h : lowSurrogate offset cs = .ok low) :
    ∃ digits, cs = '\\' :: 'u' :: digits ∧ ∃ n, hex4 (offset + 2) digits = .ok n := by
  unfold lowSurrogate at h
  split at h
  · nomatch h
  · nomatch h
  · next digits =>
    obtain ⟨n, hn, -⟩ := bind_eq_ok.1 h
    exact ⟨digits, rfl, n, hn⟩
  · nomatch h
  · nomatch h

/-- An escape of four digits is passed over. -/
theorem skipBody_digits {offset k m : Nat} {digits : List Char}
    (hk : hex4 (offset + 2) digits = .ok k) (h : skipBody 0 (offset + 6) (digits.drop 4) = .ok m) :
    skipBody 0 offset ('\\' :: 'u' :: digits) = .ok m := by
  unfold skipBody
  rw [if_neg (by decide), if_pos rfl]
  simp only [hk]
  exact skipBody_of_drop (n := 5) h

/-- A text that can be read can be passed over. The induction is on the length, as an escape is
passed over in one step and read in another. -/
theorem skipBody_of_textBody {offset : Nat} {cs : List Char} {l : Lexeme (List Char)}
    (h : textBody 0 offset cs = .ok l) : ∃ m, skipBody 0 offset cs = .ok m := by
  match cs, h with
  | c :: rest, h =>
    -- What follows the characters of an escape is shorter.
    have hbehind : ∀ {x : Char} {n : Nat} {l : Lexeme (List Char)},
        put x (textBody n (offset + 1) rest) = .ok l →
          ∃ m, skipBody 0 (offset + 1 + n) (rest.drop n) = .ok m := by
      intro x n l hn
      obtain ⟨l, hl, -⟩ := map_eq_ok.1 hn
      exact skipBody_of_textBody (textBody_drop hl)
    have hput : ∀ {x : Char} {n : Nat} {l : Lexeme (List Char)},
        put x (textBody n (offset + 1) rest) = .ok l → ∃ m, skipBody n (offset + 1) rest = .ok m :=
      fun hn => (hbehind hn).imp fun _ => skipBody_of_drop
    unfold textBody at h
    unfold skipBody
    by_cases hquote : c = '"'
    · rw [if_pos hquote]
      exact ⟨_, rfl⟩
    rw [if_neg hquote] at h ⊢
    by_cases hescape : c = '\\'
    · rw [if_pos hescape] at h ⊢
      split at h
      · nomatch h
      · next digits =>
        cases hn : hex4 (offset + 2) digits with
        | error s => simp only [hn] at h; nomatch h
        | ok n =>
          simp only [hn] at h ⊢
          split at h
          · nomatch h
          split at h
          · split at h
            · nomatch h
            · next low hlow =>
              obtain ⟨more, hmore, k, hk⟩ := lowSurrogate_ok hlow
              obtain ⟨m, hm⟩ := hbehind h
              have hrest : ('u' :: digits).drop 11 = more.drop 4 := by
                have : digits.drop 10 = (digits.drop 4).drop 6 := by rw [List.drop_drop]
                rw [List.drop_succ_cons, this, hmore]
                rfl
              rw [hrest] at hm
              refine ⟨m, skipBody_of_drop (n := 5) ?_⟩
              rw [List.drop_succ_cons, hmore]
              exact skipBody_digits hk hm
          · exact hput h
      · next e _ _ =>
        cases hx : escapeChar? e with
        | none => simp only [hx] at h; nomatch h
        | some x =>
          simp only [hx, Option.isSome_some, if_true] at h ⊢
          exact hput h
    · rw [if_neg hescape] at h ⊢
      split at h
      · nomatch h
      · rw [if_neg ‹_›]
        exact hput h
termination_by cs.length
decreasing_by all_goals (simp; try omega)

/-! ## Numerals -/

namespace Numeral

/-- Whoever takes a numeral apart, finds the same parts. -/
theorem wholePart_ok {skipping : Bool} (skipping' : Bool) {offset : Nat} {cs ds : List Char}
    (h : wholePart skipping offset cs = .ok ds) : wholePart skipping' offset cs = .ok ds := by
  unfold wholePart at h ⊢
  split at h
  · nomatch h
  · exact h
  · exact h

theorem fractionPart_ok {skipping : Bool} (skipping' : Bool) {offset : Nat} {cs : List Char}
    {o : Option (List Char)} (h : fractionPart skipping offset cs = .ok o) :
    fractionPart skipping' offset cs = .ok o := by
  unfold fractionPart at h ⊢
  split at h
  · split at h
    · nomatch h
    · exact h
  · exact h

theorem exponentPart_ok {skipping : Bool} (skipping' : Bool) {offset : Nat} {cs : List Char}
    {o : Option (Bool × List Char) × Nat} (h : exponentPart skipping offset cs = .ok o) :
    exponentPart skipping' offset cs = .ok o := by
  match cs, h with
  | [], h => exact h
  | c :: rest, h =>
    unfold exponentPart at h ⊢
    dsimp only at h ⊢
    by_cases hc : (decide (c = 'e') || decide (c = 'E')) = true
    · rw [if_pos hc] at h ⊢
      split at h
      · nomatch h
      · nomatch h
      · exact h
    · rw [if_neg hc] at h ⊢
      exact h

/-- A numeral that can be read is one to those who pass over it. -/
theorem read_ok {skipping : Bool} (skipping' : Bool) {cs : List Char} {l : Lexeme Numeral}
    (h : read skipping cs = .ok l) : read skipping' cs = .ok l := by
  obtain ⟨whole, hwhole, h⟩ := bind_eq_ok.1 h
  obtain ⟨fraction, hfraction, h⟩ := bind_eq_ok.1 h
  obtain ⟨exponent, hexponent, h⟩ := bind_eq_ok.1 h
  exact bind_eq_ok.2 ⟨whole, wholePart_ok skipping' hwhole, bind_eq_ok.2 ⟨fraction,
    fractionPart_ok skipping' hfraction, bind_eq_ok.2 ⟨exponent,
      exponentPart_ok skipping' hexponent, h⟩⟩⟩

end Numeral

/-! ## Literals -/

namespace Literal

/-- How a literal is spelled. -/
inductive Spelled : List Char → Literal → Prop
  | null {rest : List Char} {n : Nat} (h : word ['u', 'l', 'l'] 1 rest = .ok n) :
    Spelled ('n' :: rest) .null
  | true {rest : List Char} {n : Nat} (h : word ['r', 'u', 'e'] 1 rest = .ok n) :
    Spelled ('t' :: rest) (.bool true)
  | false {rest : List Char} {n : Nat} (h : word ['a', 'l', 's', 'e'] 1 rest = .ok n) :
    Spelled ('f' :: rest) (.bool false)
  | text {rest : List Char} {l : Lexeme String} (h : Json.text ('"' :: rest) = .ok l)
    (lent : Lending) : Spelled ('"' :: rest) (.text lent l.value)
  | number {c : Char} {rest : List Char} {x : Lexeme Numeral} {n : Number}
    (hc : c = '-' ∨ c.isDigit) (hread : Numeral.read false (c :: rest) = .ok x)
    (hvalue : x.value.value x.length = .ok n) : Spelled (c :: rest) (.number n)

theorem spelled_of_read {cs : List Char} {l : Lexeme Literal} (h : read cs = .ok l) :
    Spelled cs l.value := by
  unfold read at h
  split at h
  · nomatch h
  · obtain ⟨n, hn, rfl⟩ := map_eq_ok.1 h
    exact .null hn
  · obtain ⟨n, hn, rfl⟩ := map_eq_ok.1 h
    exact .true hn
  · obtain ⟨n, hn, rfl⟩ := map_eq_ok.1 h
    exact .false hn
  · obtain ⟨x, hx, rfl⟩ := map_eq_ok.1 h
    exact .text hx _
  · split at h
    · next hc =>
      obtain ⟨m, hm, rfl⟩ := map_eq_ok.1 h
      obtain ⟨x, hx, hm⟩ := bind_eq_ok.1 hm
      obtain ⟨n, hn, hm⟩ := bind_eq_ok.1 hm
      obtain rfl := pure_eq_ok.1 hm
      exact .number (by simpa using hc) hx hn
    · nomatch h

/-- What is read starts with none of the brackets. -/
theorem Spelled.ne_bracket {cs : List Char} {x : Literal} (h : Spelled cs x) :
    cs.head? ≠ some '[' ∧ cs.head? ≠ some '\x7b' := by
  cases h with
  | number hc =>
    constructor <;>
    · rintro ⟨rfl⟩
      simp at hc
  | _ => simp

end Literal

/-- What a numeral does not begin with. -/
theorem ne_of_sign_or_digit {c : Char} (h : c = '-' ∨ c.isDigit) {x : Char}
    (hx : ¬ (x = '-' ∨ x.isDigit)) : c ≠ x := by
  rintro rfl
  exact hx h

theorem skipLeaf_numeral {c : Char} {rest : List Char} (h : c = '-' ∨ c.isDigit) :
    skipLeaf (c :: rest) = (Numeral.read true (c :: rest)).map (·.length) := by
  unfold skipLeaf
  split
  · next heq => nomatch heq
  iterate 4
    next heq =>
      exact absurd (List.cons.inj heq).1 (ne_of_sign_or_digit h (by decide))
  · next heq =>
    obtain ⟨rfl, rfl⟩ := List.cons.inj heq
    rw [if_pos (by simpa using h)]

theorem Literal.read_numeral {c : Char} {rest : List Char} (h : c = '-' ∨ c.isDigit) :
    read (c :: rest) = (Json.number (c :: rest)).map fun l => ⟨.number l.value, l.length⟩ := by
  unfold read
  split
  · next heq => nomatch heq
  iterate 4
    next heq =>
      exact absurd (List.cons.inj heq).1 (ne_of_sign_or_digit h (by decide))
  · next heq =>
    obtain ⟨rfl, rfl⟩ := List.cons.inj heq
    rw [if_pos (by simpa using h)]

/-- A leaf that can be read can be passed over. -/
theorem skipLeaf_of_read {cs : List Char} {l : Lexeme Literal} (h : Literal.read cs = .ok l) :
    ∃ n, skipLeaf cs = .ok n := by
  have hspelled := Literal.spelled_of_read h
  generalize l.value = x at hspelled
  cases hspelled with
  | null hword | true hword | false hword => exact ⟨_, hword⟩
  | text htext =>
    obtain ⟨x, hx, -⟩ := map_eq_ok.1 htext
    exact skipBody_of_textBody hx
  | number hc hread =>
    rw [skipLeaf_numeral hc]
    exact ⟨_, map_eq_ok.2 ⟨_, Numeral.read_ok true hread, rfl⟩⟩

/-! ## Integers of the widest kind -/

namespace Numeral

/-- The integer that a numeral writes before its point and its exponent. -/
def integer (x : Numeral) : Int :=
  if x.negative then -(decimalValue x.whole : Int) else decimalValue x.whole

/-- Whether a numeral writes an integer. -/
def isWhole (x : Numeral) : Bool := x.fraction.isNone && x.exponent.isNone

/-- Whether a numeral is no integer that exceeds sixty-four bits. A negative zero, which is none of
them, is one only if `zeros` says so. -/
def fits (zeros : Bool) (x : Numeral) : Bool :=
  !x.isWhole ||
    if x.negative then
      decide (decimalValue x.whole ≤ 2 ^ (63 : Nat)) && (zeros || decide (decimalValue x.whole ≠ 0))
    else decide (decimalValue x.whole < 2 ^ (64 : Nat))

/-- The characters of a numeral before its point and its exponent. -/
def frontLength (x : Numeral) : Nat := (if x.negative then 1 else 0) + x.whole.length

/-- Whether a numeral goes on with a character, behind its whole part. -/
def goesOn (c : Char) : Bool := c = '.' || c = 'e' || c = 'E'

theorem fractionPart_isNone {skipping : Bool} {offset : Nat} {cs : List Char}
    {o : Option (List Char)} (h : fractionPart skipping offset cs = .ok o) :
    o.isNone ↔ cs.head? ≠ some '.' := by
  unfold fractionPart at h
  split at h
  · split at h
    · nomatch h
    · obtain rfl := Except.ok.inj h
      simp
  · next hdot =>
    obtain rfl := Except.ok.inj h
    cases cs with
    | nil => simp
    | cons c rest => simpa using fun hc => hdot rest (by rw [hc])

theorem exponentPart_isNone {skipping : Bool} {offset length : Nat} {cs : List Char}
    {o : Option (Bool × List Char)} (h : exponentPart skipping offset cs = .ok (o, length)) :
    o.isNone ↔ cs.head? ≠ some 'e' ∧ cs.head? ≠ some 'E' := by
  match cs, h with
  | [], h =>
    obtain ⟨rfl, -⟩ := Prod.mk.inj (Except.ok.inj h)
    simp
  | c :: rest, h =>
    unfold exponentPart at h
    dsimp only at h
    by_cases hc : (decide (c = 'e') || decide (c = 'E')) = true
    · rw [if_pos hc] at h
      split at h
      · nomatch h
      · nomatch h
      · obtain ⟨rfl, -⟩ := Prod.mk.inj (Except.ok.inj h)
        simp only [Bool.or_eq_true, decide_eq_true_eq] at hc
        obtain rfl | rfl := hc <;> simp
    · rw [if_neg hc] at h
      obtain ⟨rfl, -⟩ := Prod.mk.inj (Except.ok.inj h)
      simpa using hc

/-- What stands at the front of a numeral, and behind its whole part. -/
theorem read_eq_ok {cs : List Char} {l : Lexeme Numeral} (h : read false cs = .ok l) :
    l.value.negative = decide (cs.head? = some '-') ∧
    (∀ skipping, wholePart skipping (if l.value.negative then 1 else 0)
      (cs.drop (if l.value.negative then 1 else 0)) = .ok l.value.whole) ∧
    (l.value.isWhole = !(cs.drop l.value.frontLength).head?.any goesOn) := by
  obtain ⟨whole, hwhole, h⟩ := bind_eq_ok.1 h
  obtain ⟨fraction, hfraction, h⟩ := bind_eq_ok.1 h
  obtain ⟨⟨exponent, length⟩, hexponent, h⟩ := bind_eq_ok.1 h
  obtain rfl := pure_eq_ok.1 h
  have hsign : (if decide (cs.head? = some '-') = true then 1 else 0) =
      if cs.head? = some '-' then 1 else 0 := by simp
  refine ⟨rfl, fun skipping => ?_, ?_⟩
  · dsimp only
    rw [hsign]
    exact wholePart_ok skipping hwhole
  · rw [List.drop_drop] at hfraction
    rw [List.drop_drop, List.drop_drop] at hexponent
    simp only [isWhole, frontLength, hsign]
    have hnone := fractionPart_isNone hfraction
    have hletter := exponentPart_isNone hexponent
    cases fraction with
    | none =>
      rw [Option.elim_none, Nat.add_zero] at hletter
      have hdot := hnone.1 rfl
      generalize (cs.drop _).head? = front at hdot hletter ⊢
      rw [Option.isNone_none, Bool.true_and, Bool.eq_iff_iff, hletter]
      cases front <;> simp_all [goesOn]
    | some ds =>
      have hdot : (cs.drop ((if cs.head? = some '-' then 1 else 0) + whole.length)).head? =
          some '.' := by
        simpa using hnone
      rw [hdot]
      rfl

end Numeral

/-- One more digit makes no number smaller. -/
theorem le_foldl_digits : ∀ (ds : List Char) (n : Nat),
    n ≤ ds.foldl (fun n d => 10 * n + (d.toNat - '0'.toNat)) n
  | [], n => Nat.le_refl n
  | d :: ds, n => by
    rw [List.foldl_cons]
    have := le_foldl_digits ds (10 * n + (d.toNat - '0'.toNat))
    omega

/-- Digits that fit in sixty-four bits are all taken. -/
theorem Significand.foldl_pushWhole : ∀ {ds : List Char} {n : Nat} {e : Int},
    ds.foldl (fun n d => 10 * n + (d.toNat - '0'.toNat)) n < 2 ^ (64 : Nat) →
      ds.foldl pushWhole ⟨n, e, false⟩ =
        ⟨ds.foldl (fun n d => 10 * n + (d.toNat - '0'.toNat)) n, e, false⟩
  | [], _, _, _ => rfl
  | d :: ds, n, e, h => by
    rw [List.foldl_cons] at h
    have hle := Nat.lt_of_le_of_lt (le_foldl_digits ds (10 * n + (d.toNat - '0'.toNat))) h
    have hpush : pushWhole ⟨n, e, false⟩ d = ⟨10 * n + (d.toNat - '0'.toNat), e, false⟩ := by
      rw [pushWhole, digitOf, Nat.mul_comm n 10]
      simp only [Bool.false_or, decide_eq_true_eq, if_neg (Nat.not_le.2 hle)]
    rw [List.foldl_cons, List.foldl_cons, hpush]
    exact foldl_pushWhole h

/-- A significand that is scaled is reported as a float, if it is not too large. -/
theorem Significand.scalar_of_float {s : Significand} {negative : Bool} {more : Int} {slip : Slip}
    {n : Number} (h : (s.float negative more).elim (.error slip) .ok =
      (.ok n : Except Slip Number)) : ∃ bits, n.scalar = .f64 bits := by
  cases hfloat : s.float negative more with
  | none => simp [hfloat] at h
  | some m =>
    rw [hfloat] at h
    obtain ⟨bits, -, rfl⟩ := Option.map_eq_some_iff.1 hfloat
    obtain rfl := Except.ok.inj h
    exact ⟨_, rfl⟩

namespace Numeral

/-- An integer that fits is reported as itself, but a negative zero as a float. -/
theorem value_whole {zeros : Bool} {x : Numeral} {length : Nat} {n : Number}
    (hx : x.isWhole) (hfits : x.fits zeros) (h : x.value length = .ok n) :
    (∃ w, n.scalar = .int w x.integer) ∧ (x.negative → x.integer < 0) ∨
      x.negative ∧ zeros ∧ ∃ bits, n.scalar = .f64 bits := by
  obtain ⟨negative, whole, fraction, exponent⟩ := x
  simp only [isWhole, Bool.and_eq_true, Option.isNone_iff_eq_none] at hx
  obtain ⟨rfl, rfl⟩ := hx
  have hlt : decimalValue whole < 2 ^ (64 : Nat) := by
    cases negative <;> simp [fits, isWhole] at hfits <;> omega
  have hwhole : Significand.ofWhole whole = ⟨decimalValue whole, 0, false⟩ :=
    Significand.foldl_pushWhole hlt
  simp only [value, hwhole, Bool.false_eq_true, if_false] at h
  cases negative with
  | false =>
    obtain rfl := Except.ok.inj h
    exact .inl ⟨⟨.u64, rfl⟩, nofun⟩
  | true =>
    simp only [fits, isWhole, Bool.and_eq_true, decide_eq_true_eq, Bool.or_eq_true, if_true,
      Option.isNone_none, Bool.and_self, Bool.not_true, Bool.false_or] at hfits
    simp only [Bool.not_true, Bool.false_eq_true, if_false] at h
    split at h
    · next hpos =>
      obtain rfl := Except.ok.inj h
      exact .inl ⟨⟨.i64, rfl⟩, fun _ => by simpa [integer] using hpos.1⟩
    · obtain rfl := Except.ok.inj h
      have hzero : decimalValue whole = 0 := by omega
      exact .inr ⟨rfl, by simpa [hzero] using hfits.2, _, rfl⟩

/-- A numeral with a point or an exponent is reported as a float. -/
theorem value_float {x : Numeral} {length : Nat} {n : Number}
    (hx : x.isWhole = false) (h : x.value length = .ok n) : ∃ bits, n.scalar = .f64 bits := by
  unfold value at h
  split at h
  · next hf he => simp [isWhole, hf, he] at hx
  · split at h
    · exact Significand.scalar_of_float h
    · split at h
      · dsimp only at h
        split at h
        · cases h
        · obtain rfl := Except.ok.inj h
          exact ⟨_, rfl⟩
      · exact Significand.scalar_of_float h

end Numeral

/-- What is read where an integer of the widest kind is asked for. -/
theorem wideInteger_eq {cs : List Char} {l : Lexeme Numeral} (h : Numeral.read false cs = .ok l)
    (w : Width) : wideInteger w cs =
      if l.value.negative && !w.isSigned then .error { error := .numberOutOfRange, ahead := 1 }
      else if w.fits l.value.integer then .ok ⟨l.value.integer, l.value.frontLength⟩
      else .error { error := .numberOutOfRange, offset := l.value.frontLength } := by
  obtain ⟨hnegative, hwhole, -⟩ := Numeral.read_eq_ok h
  have hwhole := hwhole true
  by_cases hneg : cs.head? = some '-'
  · have hnegative : l.value.negative = true := by simp [hnegative, hneg]
    simp only [hnegative, if_true, List.drop_one] at hwhole
    cases hw : w.isSigned <;>
      simp [wideInteger, hneg, hnegative, hwhole, hw, Numeral.integer, Numeral.frontLength, bind,
        Except.bind, pure, Except.pure]
  · have hnegative : l.value.negative = false := by simp [hnegative, hneg]
    simp only [hnegative, Bool.false_eq_true, if_false, List.drop_zero] at hwhole
    simp [wideInteger, hneg, hnegative, hwhole, Numeral.integer, Numeral.frontLength, bind,
      Except.bind, pure, Except.pure]

/-- A numeral answers where an integer of the widest kind is asked for exactly if it writes one that
fits. -/
theorem wideAnswer_eq_ok {c : Cursor} {l : Lexeme Numeral}
    (h : Numeral.read false c.rest = .ok l) (w : Width) (e : JsonError) {a : Answer Part} :
    wideAnswer w (some e) c = .ok a ↔
      (l.value.negative → w.isSigned) ∧ w.fits l.value.integer ∧ l.value.isWhole ∧
        a = located (c.drop l.value.frontLength).place (.scalar (.int w l.value.integer)) := by
  have hne : c.rest.isEmpty = false := by
    cases hc : c.rest with
    | nil => rw [hc] at h; nomatch h
    | cons => rfl
  have hrest := (Numeral.read_eq_ok h).2.2
  rw [← Cursor.rest_drop] at hrest
  have hsign : (l.value.negative → w.isSigned) ↔ (l.value.negative && !w.isSigned) = false := by
    cases l.value.negative <;> simp
  simp only [wideAnswer, hne, wideInteger_eq h w, hsign]
  by_cases hs : (l.value.negative && !w.isSigned) = true
  · simp [hs, Cursor.take, bind, Except.bind]
  by_cases hf : w.fits l.value.integer = true
  · simp only [hs, hf, Cursor.take, bind, Except.bind, if_true, true_and, Bool.false_eq_true,
      if_false]
    generalize c.drop l.value.frontLength = d at hrest ⊢
    obtain ⟨rest, place⟩ := d
    cases rest with
    | nil =>
      exact ⟨fun ha => ⟨hrest, (Except.ok.inj ha).symm⟩, fun ha => congrArg Except.ok ha.2.symm⟩
    | cons x rest =>
      rw [List.head?_cons, Option.any_some, Numeral.goesOn] at hrest
      rw [hrest]
      dsimp only
      cases decide (x = '.') || decide (x = 'e') || decide (x = 'E') with
      | true => simp
      | false =>
        exact ⟨fun ha => ⟨rfl, (Except.ok.inj ha).symm⟩, fun ha => congrArg Except.ok ha.2.symm⟩
  · simp [hs, hf, Cursor.take, bind, Except.bind]

/-- What is no numeral does not answer where an integer of the widest kind is asked for. -/
theorem wideAnswer_ne_ok {c : Cursor} (h : c.rest.head?.any (fun x => x = '-' || x.isDigit) = false)
    (w : Width) (inside : Option JsonError) (a : Answer Part) : wideAnswer w inside c ≠ .ok a := by
  obtain ⟨rest, place⟩ := c
  cases rest with
  | nil => simp [wideAnswer, bind, Except.bind]
  | cons x rest =>
    have hx : x ≠ '-' ∧ x.isDigit = false := by simpa using h
    have hwhole : ∃ s, Numeral.wholePart true 0 (x :: rest) = .error s := by
      unfold Numeral.wholePart
      split
      · exact ⟨_, rfl⟩
      · next heq =>
        obtain ⟨rfl, -⟩ := List.cons.inj heq
        exact absurd hx.2 (by decide)
      · next heq =>
        obtain ⟨rfl, -⟩ := List.cons.inj heq
        rw [if_neg (by simp [hx.2])]
        exact ⟨_, rfl⟩
    obtain ⟨s, hs⟩ := hwhole
    simp [wideAnswer, wideInteger, hx.1, hs, Cursor.take, bind, Except.bind]

end FlatUnion.Json
