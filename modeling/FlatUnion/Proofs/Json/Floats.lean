import FlatUnion.Json.Writer
import FlatUnion.Proofs.Json.Digits

/-!
# Floats that are written

A finite float is written as a numeral (`Json.exists_numeral_float`), whatever its digits are. Only
where they are all zero must their scale be known, as no numeral begins with two zeros : what the
search for the shortest digits finds is not zero, and what it falls back to has no scale
(`Format.settled_shortest`).
-/

namespace FlatUnion

-- Powers are those of the naturals and the integers, whatever else is imported beside this.
attribute [local instance (high)] instPowNat

/-! ## Digits -/

/-- A decimal that has a leading digit, or is a zero without a scale. -/
def Decimal.Settled (d : Decimal) : Prop :=
  d.digits = 0 → d.scale = 0

namespace Interval

/-- Zero does not lie in an interval of positive numbers. -/
theorem contains_zero {i : Interval} (hi : i.below < i.num) (s : Int) :
    i.contains 0 s = false := by
  have hone : 0 < 10 ^ (-s).toNat := Nat.pow_pos (by decide)
  have hlo : 0 < (i.num - i.below) * 10 ^ (-s).toNat := Nat.mul_pos (by omega) hone
  simp only [contains, Nat.zero_mul]
  split_ifs
  · simp
    omega
  · simp

theorem onGrid_ne_zero {i : Interval} (hi : i.below < i.num) {s : Int} {d : Nat}
    (h : i.onGrid s = some d) : d ≠ 0 := by
  rintro rfl
  simp only [onGrid] at h
  split at h
  · next hfloor _ =>
    split_ifs at h
    · rw [Option.some.inj h, contains_zero hi] at hfloor
      nomatch hfloor
    · simp at h
  · next hfloor _ =>
    rw [Option.some.inj h, contains_zero hi] at hfloor
    nomatch hfloor
  · simp at h
  · nomatch h

theorem settled_search {i : Interval} (hi : i.below < i.num) (top : Int) :
    ∀ fuel count : Nat, (i.search top count fuel).Settled
  | 0, _ => fun _ => rfl
  | fuel + 1, count => by
    rw [search]
    split
    · next d hd => exact fun hzero => (onGrid_ne_zero hi hd hzero).elim
    · exact settled_search hi top fuel (count + 1)

end Interval

theorem Decimal.settled_trim : ∀ (fuel : Nat) {d : Decimal}, d.Settled → (d.trim fuel).Settled
  | 0, _, h => h
  | fuel + 1, d, h => by
    rw [trim]
    split_ifs with hzeros
    · exact settled_trim fuel fun hzero => by simp only at hzero; omega
    · exact h

/-- The shortest digits of a positive float. -/
theorem Format.settled_shortest (f : Format) {m : Nat} (hm : 0 < m) (e : Int) :
    (f.shortest m e).Settled := by
  refine Decimal.settled_trim _ (Interval.settled_search ?_ _ _ _)
  have hstep : 0 < 2 ^ e.toNat := Nat.pow_pos (by decide)
  have hnum : 4 * 2 ^ e.toNat ≤ 4 * m * 2 ^ e.toNat :=
    Nat.mul_le_mul_right _ (Nat.le_mul_of_pos_right 4 hm)
  simp only [Interval.ofFloat]
  split_ifs <;> omega

/-! ## Layouts -/

namespace Decimal

open Json (Numeral isDigit_of_mem_toDigits head?_toDigits_ne_zero)

theorem isDigit_of_mem_zeros {n : Nat} {c : Char} (h : c ∈ List.replicate n '0') : c.isDigit := by
  rw [List.eq_of_mem_replicate h]
  decide

/-- Digits are zero if the leading one is. -/
theorem digits_eq_zero {n : Nat} (h : (Nat.toDigits 10 n).head? = some '0') : n = 0 := by
  obtain hn | hn := Nat.eq_zero_or_pos n
  · exact hn
  · exact (head?_toDigits_ne_zero hn h).elim

variable {d : Decimal}

theorem toList_digits (d : Decimal) : (toString d.digits).toList = Nat.toDigits 10 d.digits :=
  Nat.toList_repr

theorem length_digits (d : Decimal) :
    (toString d.digits).length = (Nat.toDigits 10 d.digits).length := by
  rw [← toList_digits, String.length_toList]

theorem toList_positional (d : Decimal) : d.positional.toList =
    let ds := Nat.toDigits 10 d.digits
    let count : Int := ds.length + d.scale
    if 0 ≤ d.scale then ds ++ List.replicate d.scale.toNat '0' ++ ['.', '0']
    else if 0 < count then ds.take count.toNat ++ '.' :: ds.drop count.toNat
    else '0' :: '.' :: (List.replicate (-count).toNat '0' ++ ds) := by
  have hpositional : d.positional =
      let text := toString d.digits
      let count : Int := text.length + d.scale
      if 0 ≤ d.scale then text ++ String.ofList (List.replicate d.scale.toNat '0') ++ ".0"
      else if 0 < count then
        (text.take count.toNat).toString ++ "." ++ (text.drop count.toNat).toString
      else "0." ++ String.ofList (List.replicate (-count).toNat '0') ++ text := rfl
  rw [hpositional]
  dsimp only
  rw [length_digits]
  split_ifs <;> simp [String.Slice.toString_eq]

/-- In positional notation a numeral is written. -/
theorem exists_positional (hd : d.Settled) :
    ∃ x : Numeral, x.Proper ∧ x.negative = false ∧ x.spelled = d.positional.toList := by
  have hdigit : ∀ c ∈ Nat.toDigits 10 d.digits, c.isDigit := fun _ => isDigit_of_mem_toDigits
  have hne : Nat.toDigits 10 d.digits ≠ [] := Nat.toDigits_ne_nil
  have hzero : (Nat.toDigits 10 d.digits).head? = some '0' → d.scale = 0 := fun h =>
    hd (digits_eq_zero h)
  rw [toList_positional]
  dsimp only
  split_ifs with hscale hcount
  · -- all digits stand in front of the point
    refine ⟨⟨false, Nat.toDigits 10 d.digits ++ List.replicate d.scale.toNat '0', some ['0'], none⟩,
      ⟨⟨by simp [hne], ?_⟩, fun h => ?_, by simp, by simp⟩, rfl, by simp [Numeral.spelled]⟩
    · exact fun c hc => (List.mem_append.1 hc).elim (hdigit c) isDigit_of_mem_zeros
    · rw [List.head?_append_of_ne_nil _ hne] at h
      simp [digits_eq_zero h, hzero h]
  · -- the point stands between two digits
    generalize hn : ((Nat.toDigits 10 d.digits).length + d.scale).toNat = n at *
    have hn : 0 < n ∧ n < (Nat.toDigits 10 d.digits).length := by omega
    refine ⟨⟨false, (Nat.toDigits 10 d.digits).take n, some ((Nat.toDigits 10 d.digits).drop n),
      none⟩, ⟨⟨?_, fun c hc => hdigit c (List.mem_of_mem_take hc)⟩, fun h => ?_, ?_, by simp⟩, rfl,
        by simp [Numeral.spelled]⟩
    · simp [hne]
      omega
    · rw [List.head?_take, if_neg (by omega)] at h
      have := hzero h
      omega
    · intro ds hds
      obtain rfl := Option.some.inj hds
      refine ⟨?_, fun c hc => hdigit c (List.mem_of_mem_drop hc)⟩
      simp
      omega
  · -- all digits stand behind the point
    refine ⟨⟨false, ['0'], some (List.replicate _ '0' ++ Nat.toDigits 10 d.digits), none⟩,
      ⟨by simp, fun _ => rfl, ?_, by simp⟩, rfl, by simp [Numeral.spelled]; rfl⟩
    intro ds hds
    obtain rfl := Option.some.inj hds
    refine ⟨by simp [hne], fun c hc => (List.mem_append.1 hc).elim isDigit_of_mem_zeros (hdigit c)⟩

theorem toList_scientific (d : Decimal) : d.scientific.toList =
    let ds := Nat.toDigits 10 d.digits
    let exponent : Int := ds.length - 1 + d.scale
    ds.take 1 ++ (if ds.drop 1 = [] then [] else '.' :: ds.drop 1) ++
      'e' :: (if exponent < 0 then '-' else '+') :: Nat.toDigits 10 exponent.natAbs := by
  have hempty : ((toString d.digits).drop 1).copy.isEmpty ↔
      (Nat.toDigits 10 d.digits).drop 1 = [] := by
    rw [String.isEmpty_iff, ← String.toList_eq_nil_iff, String.toList_copy_drop, toList_digits]
  have htext : ∀ n : Nat, (toString n).toList = Nat.toDigits 10 n := fun _ => Nat.toList_repr
  unfold scientific
  dsimp only
  rw [length_digits]
  simp only [String.Slice.toString_eq, hempty, String.toList_append, String.toList_copy_take,
    apply_ite String.toList, String.toList_copy_drop, htext, ← Int.not_lt, ite_not]
  split_ifs <;> simp

/-- In scientific notation a numeral is written. -/
theorem exists_scientific (d : Decimal) :
    ∃ x : Numeral, x.Proper ∧ x.negative = false ∧ x.spelled = d.scientific.toList := by
  have hdigit : ∀ c ∈ Nat.toDigits 10 d.digits, c.isDigit := fun _ => isDigit_of_mem_toDigits
  have hne : Nat.toDigits 10 d.digits ≠ [] := Nat.toDigits_ne_nil
  rw [toList_scientific]
  dsimp only
  generalize ((Nat.toDigits 10 d.digits).length : Int) - 1 + d.scale = exponent
  refine ⟨⟨false, (Nat.toDigits 10 d.digits).take 1,
    if (Nat.toDigits 10 d.digits).drop 1 = [] then none
      else some ((Nat.toDigits 10 d.digits).drop 1),
    some (decide (exponent < 0), Nat.toDigits 10 exponent.natAbs)⟩,
    ⟨⟨by simp [hne], fun c hc => hdigit c (List.mem_of_mem_take hc)⟩, fun h => ?_, fun ds hds => ?_,
      fun e he => ?_⟩, rfl, ?_⟩
  · rw [List.length_take]
    have := List.length_pos_iff.2 hne
    omega
  · split_ifs at hds with hrest
    · nomatch hds
    obtain rfl := Option.some.inj hds
    exact ⟨hrest, fun c hc => hdigit c (List.mem_of_mem_drop hc)⟩
  · obtain rfl := Option.some.inj he
    exact ⟨Nat.toDigits_ne_nil, fun _ => isDigit_of_mem_toDigits⟩
  · simp only [Numeral.spelled]
    split_ifs <;> simp_all

end Decimal

namespace Json

/-- A numeral with a sign in front of it, or without. -/
theorem Numeral.exists_signed {x : Numeral} (hx : x.Proper) (hsign : x.negative = false)
    (negative : Bool) :
    ∃ y : Numeral, y.Proper ∧ y.spelled = (if negative then ['-'] else []) ++ x.spelled := by
  refine ⟨{ x with negative }, ⟨hx.whole, hx.zero, hx.fraction, hx.exponent⟩, ?_⟩
  simp [spelled, hsign]

/-- A finite float is written as a numeral. -/
theorem exists_numeral_float (f : Format) {bits : Nat} (hfinite : (f.decode bits).isFinite) :
    ∃ x : Numeral, x.Proper ∧ x.spelled = (float f bits).toList := by
  rw [float, if_pos hfinite]
  cases hx : f.decode bits with
  | nan | infinite => simp [hx, Real.isFinite] at hfinite
  | finite negative m e =>
    cases m with
    | zero =>
      refine ⟨⟨negative, ['0'], some ['0'], none⟩, ⟨by simp, fun _ => rfl, by simp, nofun⟩, ?_⟩
      rw [Style.text]
      cases negative <;> simp [Numeral.spelled]
    | succ m =>
      have hsettled := f.settled_shortest m.succ_pos e
      obtain ⟨y, hy, hsign, htext⟩ : ∃ y : Numeral, y.Proper ∧ y.negative = false ∧
          y.spelled = (if (Style.compact f).isPositional
              ((digitCount (f.shortest (m + 1) e).digits : Int) - 1 + (f.shortest (m + 1) e).scale)
            then (f.shortest (m + 1) e).positional
            else (f.shortest (m + 1) e).scientific).toList := by
        split_ifs
        · exact Decimal.exists_positional hsettled
        · exact Decimal.exists_scientific _
      obtain ⟨x, hx, hspelled⟩ := Numeral.exists_signed hy hsign negative
      refine ⟨x, hx, ?_⟩
      rw [Style.text, String.toList_append, ← htext, hspelled]
      · split_ifs <;> rfl
      · exact m.succ_ne_zero

end Json

end FlatUnion
