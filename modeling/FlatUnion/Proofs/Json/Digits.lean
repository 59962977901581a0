import Mathlib.Data.List.TakeWhile
import Mathlib.Tactic.IntervalCases
import FlatUnion.Proofs.Json.Leaves

/-!
# Numerals that are written

A numeral with digits where they must stand is read from the characters that spell it
(`Numeral.read_spelled`), also in front of a text with which no numeral goes on
(`Numeral.read_append`). An integer is written as the numeral of its decimal digits, with a sign if
it is negative (`toList_toString`), and this numeral writes the integer (`Numeral.integer_ofInt`).

What number is reported depends on the integer alone. One that fits in sixty-four bits, signed or
unsigned, is reported as it is (`Numeral.value_ofInt`), and any other as a float or not at all
(`Numeral.value_ofInt_float`).
-/

namespace FlatUnion.Json

-- Powers are those of the naturals and the integers, whatever else is imported beside this.
attribute [local instance (high)] instPowNat

/-! ## Digits -/

/-- Whether no more of a numeral follows. -/
def Stops (tail : List Char) : Prop :=
  ∀ c, tail.head? = some c → c.isDigit = false ∧ Numeral.goesOn c = false

/-- No zero stands in front of other digits. -/
theorem head?_toDigits_ne_zero {n : Nat} (h : 0 < n) : (Nat.toDigits 10 n).head? ≠ some '0' := by
  induction n using Nat.strongRecOn with
  | ind n ih =>
    rw [Nat.toDigits_eq_if (by decide)]
    split_ifs with hlt
    · interval_cases n <;> decide
    · rw [List.head?_append_of_ne_nil _ Nat.toDigits_ne_nil]
      exact ih (n / 10) (by omega) (by omega)

theorem isDigit_of_mem_toDigits {n : Nat} {c : Char} (h : c ∈ Nat.toDigits 10 n) : c.isDigit :=
  Nat.isDigit_of_mem_toDigits (by decide) (by decide) h

/-- The digits of a number write this number. -/
theorem decimalValue_toDigits (n : Nat) : decimalValue (Nat.toDigits 10 n) = n :=
  Nat.ofDigitChars_ten_toDigits

/-- Digits end where no digit follows. -/
theorem digits_append {cs tail : List Char} (htail : Stops tail) :
    digits (cs ++ tail) = digits cs := by
  simp only [digits]
  induction cs with
  | nil =>
    cases tail with
    | nil => rfl
    | cons c tail => simp [(htail c rfl).1]
  | cons c cs ih =>
    rw [List.cons_append, List.takeWhile_cons, List.takeWhile_cons, ih]

theorem length_digits_le (cs : List Char) : (digits cs).length ≤ cs.length :=
  (List.takeWhile_sublist _).length_le

namespace Numeral

/-! ## Numerals in a text -/

variable {skipping : Bool} {offset : Nat} {cs tail : List Char}

/-- A whole part ends where no more of a numeral follows. -/
theorem wholePart_append {ds : List Char} (htail : Stops tail)
    (h : wholePart skipping offset cs = .ok ds) :
    wholePart skipping offset (cs ++ tail) = .ok ds ∧ ds.length ≤ cs.length := by
  unfold wholePart at h
  split at h
  · nomatch h
  · split at h
    · split_ifs at h with hd
      obtain rfl := Except.ok.inj h
      exact ⟨by simp [wholePart, hd], by simp⟩
    · obtain rfl := Except.ok.inj h
      cases tail with
      | nil => exact ⟨rfl, Nat.le_refl 1⟩
      | cons c tail => exact ⟨by simp [wholePart, (htail c rfl).1], Nat.le_refl 1⟩
  · next c rest hzero =>
    split_ifs at h with hc
    obtain rfl := Except.ok.inj h
    refine ⟨?_, Nat.succ_le_succ (length_digits_le rest)⟩
    rw [List.cons_append, wholePart, if_pos hc, digits_append htail]
    exact hzero

theorem fractionPart_append {o : Option (List Char)} (htail : Stops tail)
    (h : fractionPart skipping offset cs = .ok o) :
    fractionPart skipping offset (cs ++ tail) = .ok o ∧ o.elim 0 (·.length + 1) ≤ cs.length := by
  unfold fractionPart at h
  split at h
  · next rest =>
    split at h
    · nomatch h
    · next hne =>
      obtain rfl := Except.ok.inj h
      refine ⟨?_, Nat.succ_le_succ (length_digits_le rest)⟩
      rw [List.cons_append, fractionPart, digits_append htail]
      split
      · next heq => exact (hne heq).elim
      · rfl
  · next hdot =>
    obtain rfl := Except.ok.inj h
    refine ⟨?_, Nat.zero_le _⟩
    unfold fractionPart
    split
    · next rest heq =>
      cases cs with
      | nil => exact absurd (htail '.' (by rw [← List.nil_append tail, heq]; rfl)).2 (by decide)
      | cons c cs => exact (hdot cs (by rw [(List.cons.inj heq).1])).elim
    · rfl

theorem exponentDigits_append {α : Type} {none : α} {missing : α} {some : List Char → α} {a : α}
    (cs : List Char) (htail : Stops tail)
    (h : (match cs, digits cs with
      | [], _ => none
      | _ :: _, [] => missing
      | _, ds => some ds) = a) (hnone : none ≠ a) :
    (match cs ++ tail, digits (cs ++ tail) with
      | [], _ => none
      | _ :: _, [] => missing
      | _, ds => some ds) = a := by
  cases cs with
  | nil => exact (hnone h).elim
  | cons c cs =>
    rw [digits_append htail]
    cases hds : digits (c :: cs) <;>
    · rw [hds] at h
      exact h

theorem exponentPart_append {o : Option (Bool × List Char) × Nat} (htail : Stops tail)
    (h : exponentPart skipping offset cs = .ok o) :
    exponentPart skipping offset (cs ++ tail) = .ok o := by
  cases cs with
  | nil =>
    obtain rfl := Except.ok.inj h
    cases tail with
    | nil => rfl
    | cons c tail =>
      have hc := (htail c rfl).2
      simp only [goesOn, Bool.or_eq_false_iff] at hc
      simp [exponentPart, hc]
  | cons c rest =>
    rw [List.cons_append]
    unfold exponentPart at h ⊢
    dsimp only at h ⊢
    split_ifs at h ⊢
    · cases rest with
      | nil => nomatch h
      | cons d rest =>
        obtain rfl | hplus := eq_or_ne d '+'
        · exact exponentDigits_append _ htail h nofun
        obtain rfl | hminus := eq_or_ne d '-'
        · exact exponentDigits_append _ htail h nofun
        · simp only [List.cons_append, List.cons.injEq, hplus, hminus, false_and, imp_self,
            implies_true] at h ⊢
          exact exponentDigits_append (d :: rest) htail h nofun
    · exact h

/-- A numeral that a text consists of is read where no more of a numeral follows it. -/
theorem read_append {l : Lexeme Numeral} (htail : Stops tail)
    (h : read skipping cs = .ok l) : read skipping (cs ++ tail) = .ok l := by
  obtain ⟨whole, hwhole, h⟩ := bind_eq_ok.1 h
  obtain ⟨fraction, hfraction, h⟩ := bind_eq_ok.1 h
  obtain ⟨exponent, hexponent, h⟩ := bind_eq_ok.1 h
  have hne : cs ≠ [] := by
    rintro rfl
    simp [wholePart] at hwhole
  have hhead : (cs ++ tail).head? = cs.head? := List.head?_append_of_ne_nil _ hne
  have hsign : (if cs.head? = some '-' then 1 else 0) ≤ cs.length := by
    have := List.length_pos_iff.2 hne
    split_ifs <;> omega
  have hdrop : ∀ {n : Nat} {cs : List Char}, n ≤ cs.length →
      (cs ++ tail).drop n = cs.drop n ++ tail := fun h => List.drop_append_of_le_length h
  obtain ⟨hwhole, hlength⟩ := wholePart_append htail hwhole
  obtain ⟨hfraction, htaken⟩ := fractionPart_append htail hfraction
  have hexponent := exponentPart_append htail hexponent
  rw [← hdrop hsign] at hwhole
  rw [← hdrop hlength, ← hdrop hsign] at hfraction
  rw [← hdrop htaken, ← hdrop hlength, ← hdrop hsign] at hexponent
  rw [read, hhead]
  exact bind_eq_ok.2 ⟨whole, hwhole, bind_eq_ok.2 ⟨fraction, hfraction,
    bind_eq_ok.2 ⟨exponent, hexponent, h⟩⟩⟩

/-- A numeral begins with a sign or a digit. -/
theorem starts_of_read {l : Lexeme Numeral} (h : read skipping cs = .ok l) :
    ∃ c rest, cs = c :: rest ∧ (c = '-' ∨ c.isDigit) := by
  obtain ⟨whole, hwhole, -⟩ := bind_eq_ok.1 h
  cases cs with
  | nil => simp [wholePart] at hwhole
  | cons c rest =>
    refine ⟨c, rest, rfl, ?_⟩
    by_contra hc
    obtain ⟨hsign, hdigit⟩ := not_or.1 hc
    have hzero : c ≠ '0' := by
      rintro rfl
      exact hdigit (by decide)
    simp [wholePart, hsign, hdigit] at hwhole

/-! ## Numerals that are spelled -/

/-- The characters of a numeral. An exponent has a sign. -/
def spelled (x : Numeral) : List Char :=
  (if x.negative then ['-'] else []) ++ x.whole ++ x.fraction.elim [] ('.' :: ·) ++
    x.exponent.elim [] fun e => 'e' :: (if e.1 then '-' else '+') :: e.2

/-- Whether digits stand where they must, and no zero in front of others. -/
structure Proper (x : Numeral) : Prop where
  whole : x.whole ≠ [] ∧ ∀ c ∈ x.whole, c.isDigit
  zero : x.whole.head? = some '0' → x.whole.length = 1
  fraction : ∀ ds ∈ x.fraction, ds ≠ [] ∧ ∀ c ∈ ds, c.isDigit
  exponent : ∀ e ∈ x.exponent, e.2 ≠ [] ∧ ∀ c ∈ e.2, c.isDigit

/-- Digits are read to the first character that is none. -/
theorem digits_eq {ds : List Char} (hds : ∀ c ∈ ds, c.isDigit)
    (htail : ∀ c, tail.head? = some c → c.isDigit = false) : digits (ds ++ tail) = ds := by
  rw [digits, List.takeWhile_append_of_pos hds]
  cases tail with
  | nil => exact List.append_nil ds
  | cons c tail =>
    rw [List.takeWhile_cons_of_neg (by simp [htail c rfl])]
    exact List.append_nil ds

theorem wholePart_spelled {x : Numeral} (hx : x.Proper) (skipping : Bool) (offset : Nat)
    (htail : ∀ c, tail.head? = some c → c.isDigit = false) :
    wholePart skipping offset (x.whole ++ tail) = .ok x.whole := by
  obtain ⟨⟨hne, hdigit⟩, hzero, -, -⟩ := hx
  cases hds : x.whole with
  | nil => exact (hne hds).elim
  | cons d ds =>
    rw [hds] at hdigit hzero
    obtain ⟨hd, hds⟩ := List.forall_mem_cons.1 hdigit
    obtain rfl | hd0 := eq_or_ne d '0'
    · obtain rfl := List.length_eq_zero_iff.1 (Nat.succ.inj (hzero rfl))
      cases tail with
      | nil => rfl
      | cons c tail => simp [wholePart, htail c rfl]
    · rw [List.cons_append, wholePart, if_pos hd, digits_eq hds htail]
      exact fun h => hd0 h

theorem fractionPart_spelled {x : Numeral} (hx : x.Proper) (skipping : Bool) (offset : Nat)
    (htail : ∀ c, tail.head? = some c → c.isDigit = false ∧ c ≠ '.') :
    fractionPart skipping offset (x.fraction.elim [] ('.' :: ·) ++ tail) = .ok x.fraction := by
  cases hfraction : x.fraction with
  | none =>
    rw [Option.elim_none, List.nil_append, fractionPart]
    rintro rest rfl
    exact (htail '.' rfl).2 rfl
  | some ds =>
    obtain ⟨hne, hdigit⟩ := hx.fraction ds hfraction
    obtain ⟨d, ds, rfl⟩ := List.exists_cons_of_ne_nil hne
    rw [Option.elim_some, List.cons_append, fractionPart,
      digits_eq hdigit fun c hc => (htail c hc).1]

theorem exponentPart_spelled {x : Numeral} (hx : x.Proper) (skipping : Bool) (offset : Nat) :
    let cs := x.exponent.elim [] fun e => 'e' :: (if e.1 then '-' else '+') :: e.2
    exponentPart skipping offset cs = .ok (x.exponent, offset + cs.length) := by
  intro cs
  cases hexponent : x.exponent with
  | none => simp [cs, hexponent, exponentPart]
  | some e =>
    obtain ⟨negative, ds⟩ := e
    obtain ⟨hne, hdigit⟩ := hx.exponent _ hexponent
    obtain ⟨d, ds, rfl⟩ := List.exists_cons_of_ne_nil hne
    have hdigits : digits (d :: ds ++ []) = d :: ds := digits_eq hdigit (by simp)
    rw [List.append_nil] at hdigits
    cases negative <;>
      simp [cs, hexponent, exponentPart, hdigits, Nat.add_comm, Nat.add_left_comm]

/-- A numeral is read from its characters. -/
theorem read_spelled {x : Numeral} (hx : x.Proper) (skipping : Bool) :
    read skipping x.spelled = .ok ⟨x, x.spelled.length⟩ := by
  set exponent : List Char :=
    x.exponent.elim [] fun e => 'e' :: (if e.1 then '-' else '+') :: e.2 with hexponent
  set fraction : List Char := x.fraction.elim [] ('.' :: ·) with hfraction
  have hafter : ∀ c, exponent.head? = some c → c.isDigit = false ∧ c ≠ '.' := by
    cases h : x.exponent <;> simp [hexponent, h]
  have hbehind : ∀ c, (fraction ++ exponent).head? = some c → c.isDigit = false := by
    cases h : x.fraction with
    | none => simpa [hfraction, h] using fun c hc => (hafter c hc).1
    | some ds => simp [hfraction, h]
  have hsign : x.whole.head? ≠ some '-' := fun h =>
    absurd (hx.whole.2 _ (List.mem_of_head? h)) (by decide)
  have hspelled : x.spelled =
      (if x.negative then ['-'] else []) ++ (x.whole ++ (fraction ++ exponent)) := by
    simp [spelled, hfraction, hexponent]
  have hhead : x.spelled.head? = some '-' ↔ x.negative := by
    rw [hspelled]
    cases x.negative with
    | true => simp
    | false => simpa [List.head?_append_of_ne_nil _ hx.whole.1] using hsign
  have hdrop : x.spelled.drop (if x.negative then 1 else 0) =
      x.whole ++ (fraction ++ exponent) := by
    rw [hspelled]
    split_ifs <;> rfl
  have htaken : (fraction ++ exponent).drop (x.fraction.elim 0 (·.length + 1)) = exponent := by
    cases h : x.fraction <;> simp [hfraction, h]
  have hlength : (if x.negative then 1 else 0) + x.whole.length +
      x.fraction.elim 0 (·.length + 1) + exponent.length = x.spelled.length := by
    rw [hspelled]
    cases h : x.fraction <;> cases x.negative <;>
      simp [hfraction, h] <;> omega
  simp only [read, hhead, hdrop]
  refine bind_eq_ok.2 ⟨_, wholePart_spelled hx _ _ hbehind, ?_⟩
  rw [List.drop_left]
  refine bind_eq_ok.2 ⟨_, fractionPart_spelled hx _ _ hafter, ?_⟩
  rw [htaken]
  refine bind_eq_ok.2 ⟨_, exponentPart_spelled hx _ _, ?_⟩
  rw [← hexponent, hlength, Bool.decide_eq_true]
  rfl

/-- The numeral of an integer. -/
def ofInt (n : Int) : Numeral := ⟨decide (n < 0), Nat.toDigits 10 n.natAbs, none, none⟩

theorem proper_ofInt (n : Int) : (ofInt n).Proper where
  whole := ⟨Nat.toDigits_ne_nil, fun _ => isDigit_of_mem_toDigits⟩
  zero h := by
    obtain hn | hn := Nat.eq_zero_or_pos n.natAbs
    · rw [ofInt, hn]
      rfl
    · exact absurd h (head?_toDigits_ne_zero hn)
  fraction := nofun
  exponent := nofun

theorem isWhole_ofInt (n : Int) : (ofInt n).isWhole := rfl

/-- The numeral of an integer writes this integer. -/
theorem integer_ofInt (n : Int) : (ofInt n).integer = n := by
  simp only [integer, ofInt, decimalValue_toDigits, decide_eq_true_eq]
  split_ifs <;> omega

end Numeral

/-- An integer is written as its numeral. -/
theorem toList_toString (n : Int) : (toString n).toList = (Numeral.ofInt n).spelled := by
  rw [Int.toString_eq_repr, Int.repr_eq_if]
  split_ifs with hpos
  · rw [Nat.toList_repr, show n.toNat = n.natAbs by omega]
    simp [Numeral.spelled, Numeral.ofInt, hpos]
  · rw [String.toList_append, Nat.toList_repr, show (-n).toNat = n.natAbs by omega]
    simp [Numeral.spelled, Numeral.ofInt, Int.not_le.1 hpos]

/-- What is read of an integer. -/
theorem Numeral.read_toString (skipping : Bool) (n : Int) :
    read skipping (toString n).toList = .ok ⟨ofInt n, (toString n).length⟩ := by
  rw [← String.length_toList, toList_toString]
  exact read_spelled (proper_ofInt n) skipping

/-! ## Numbers -/

/-- Digits that are all taken write a number that fits in sixty-four bits. -/
theorem Significand.full_of_foldl_pushWhole : ∀ {ds : List Char} {s : Significand},
    s.full = true → (ds.foldl pushWhole s).full = true
  | [], _, h => h
  | d :: ds, s, h => by
    have hd : (pushWhole s d).full = true := by simp [pushWhole, h]
    rw [List.foldl_cons]
    exact full_of_foldl_pushWhole hd

/-- Of digits that do not fit in sixty-four bits one is not taken. -/
theorem Significand.full_ofWhole : ∀ {ds : List Char} {n : Nat} {e : Int},
    n < 2 ^ (64 : Nat) → 2 ^ (64 : Nat) ≤ ds.foldl (fun n d => 10 * n + (d.toNat - '0'.toNat)) n →
      (ds.foldl pushWhole ⟨n, e, false⟩).full = true
  | [], n, _, hn, h => absurd h (Nat.not_le.2 hn)
  | d :: ds, n, e, hn, h => by
    rw [List.foldl_cons] at h ⊢
    simp only [pushWhole, digitOf, Nat.mul_comm n 10, Bool.false_or, decide_eq_true_eq]
    split_ifs with hle
    · exact full_of_foldl_pushWhole rfl
    · exact full_ofWhole (Nat.not_le.1 hle) h

namespace Numeral

/-- An integer that does not fit is reported as a float. -/
theorem value_not_fits {x : Numeral} {length : Nat} {n : Number} (hx : x.isWhole)
    (hfits : x.fits true = false) (h : x.value length = .ok n) : ∃ bits, n.scalar = .f64 bits := by
  obtain ⟨negative, whole, fraction, exponent⟩ := x
  simp only [isWhole, Bool.and_eq_true, Option.isNone_iff_eq_none] at hx
  obtain ⟨rfl, rfl⟩ := hx
  simp only [value] at h
  split at h
  · exact Significand.scalar_of_float h
  · next hfull =>
    have hlt : decimalValue whole < 2 ^ (64 : Nat) := by
      by_contra hle
      exact hfull (Significand.full_ofWhole (by decide) (Nat.not_lt.1 hle))
    have hwhole : Significand.ofWhole whole = ⟨decimalValue whole, 0, false⟩ :=
      Significand.foldl_pushWhole hlt
    cases negative with
    | false => simp [fits, isWhole, hlt] at hfits
    | true =>
      simp only [fits, isWhole, Option.isNone_none, Bool.and_self, Bool.not_true, if_true,
        Bool.true_or, Bool.and_true, Bool.false_or, decide_eq_false_iff_not] at hfits
      simp only [hwhole, Bool.not_true, Bool.false_eq_true, if_false] at h
      rw [if_neg fun hle => hfits hle.2] at h
      obtain rfl := Except.ok.inj h
      exact ⟨_, rfl⟩

/-- An integer that fits is reported as it is. -/
theorem value_ofInt {n : Int} (hlo : -(2 ^ (63 : Nat)) ≤ n) (hhi : n < 2 ^ (64 : Nat))
    (length : Nat) :
    ∃ m w, (ofInt n).value length = .ok m ∧ m.scalar = .int w n ∧ w.isWide = false := by
  have hlt : decimalValue (Nat.toDigits 10 n.natAbs) < 2 ^ (64 : Nat) := by
    rw [decimalValue_toDigits]
    omega
  have hwhole : Significand.ofWhole (Nat.toDigits 10 n.natAbs) =
      ⟨decimalValue (Nat.toDigits 10 n.natAbs), 0, false⟩ := Significand.foldl_pushWhole hlt
  rw [decimalValue_toDigits] at hwhole
  by_cases hn : n < 0
  · refine ⟨.signed (-n.natAbs), .i64, ?_, ?_, rfl⟩
    · simp [value, ofInt, hwhole, hn]
      omega
    · rw [Number.scalar, show -(n.natAbs : Int) = n by omega]
  · refine ⟨.unsigned n.natAbs, .u64, ?_, ?_, rfl⟩
    · simp [value, ofInt, hwhole, hn]
    · rw [Number.scalar, show (n.natAbs : Int) = n by omega]

/-- An integer that does not fit is reported as a float, or not at all. -/
theorem value_ofInt_float {n : Int} (h : ¬ (-(2 ^ (63 : Nat)) ≤ n ∧ n < 2 ^ (64 : Nat)))
    {length : Nat} {m : Number} (hm : (ofInt n).value length = .ok m) :
    ∃ bits, m.scalar = .f64 bits := by
  refine value_not_fits (isWhole_ofInt n) ?_ hm
  by_cases hn : n < 0
  · simp [fits, isWhole, ofInt, hn, decimalValue_toDigits]
    omega
  · simp [fits, isWhole, ofInt, hn, decimalValue_toDigits]
    omega

end Numeral

end FlatUnion.Json
