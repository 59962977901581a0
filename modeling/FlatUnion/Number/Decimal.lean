import FlatUnion.Number.Binary

/-!
# Decimal text of floats

`Format.shortest` finds the fewest decimal digits that read back as a given float, and of
those the nearest to it. It asks, for one digit, two digits and so on, whether one of the two
neighbours of the number on that decimal grid lies in the interval that rounds to the float.

A `Style` lays the digits out : which magnitudes are written positionally, and whether a
positive exponent shows its sign. The two styles in use are `Style.plain`, which never writes
an exponent, and `Style.compact`, which does for very large and very small numbers.
-/

namespace FlatUnion

-- Powers are those of the naturals and the integers, whatever else is imported beside this.
attribute [local instance (high)] instPowNat

/-- Decimal digits `d` and a scale `s`, for the number `d · 10 ^ s`. -/
structure Decimal where
  digits : Nat
  scale : Int
  deriving DecidableEq, Repr

/-- The number of decimal digits of a natural number, one for zero. -/
def digitCount (n : Nat) : Nat := (Nat.toDigits 10 n).length

/-- The exponent `e` with `10 ^ e ≤ num / den < 10 ^ (e + 1)`, for a positive fraction. -/
def floorLog10 (num den : Nat) : Int :=
  if den ≤ num then digitCount (num / den) - 1
  else -(digitCount ((den + num - 1) / num - 1) : Int)

/-- A positive fraction and the interval of the numbers that round to the same float. The
ends are half a step away, and belong to the interval if the mantissa is even. -/
structure Interval where
  num : Nat
  den : Nat
  /-- Distance to the lower end, over `den`. -/
  below : Nat
  /-- Distance to the upper end, over `den`. -/
  above : Nat
  closed : Bool

/-- The interval of a positive float. Below a power of two the floats lie twice as dense. -/
def Interval.ofFloat (f : Format) (m : Nat) (e : Int) : Interval :=
  let num := 4 * m * 2 ^ e.toNat
  let den := 4 * 2 ^ (-e).toNat
  let step := 2 ^ e.toNat
  let below := if m = 2 ^ (f.precision - 1) ∧ f.least < e then step else 2 * step
  ⟨num, den, below, 2 * step, m % 2 = 0⟩

/-- Whether `d · 10 ^ s` lies in the interval. -/
def Interval.contains (i : Interval) (d : Nat) (s : Int) : Bool :=
  let x := d * 10 ^ s.toNat * i.den
  let one := 10 ^ (-s).toNat
  let lo := (i.num - i.below) * one
  let hi := (i.num + i.above) * one
  if i.closed then lo ≤ x && x ≤ hi else lo < x && x < hi

/-- The neighbour of the number on the grid of step `10 ^ s` that lies in the interval, the
nearer one if both do. -/
def Interval.onGrid (i : Interval) (s : Int) : Option Nat :=
  let num := i.num * 10 ^ (-s).toNat
  let den := i.den * 10 ^ s.toNat
  let d := num / den
  let nearFloor := 2 * (num % den) < den
  match i.contains d s, i.contains (d + 1) s with
  | true, true => some (if nearFloor then d else d + 1)
  | true, false => some d
  | false, true => some (d + 1)
  | false, false => none

/-- The first of the grids with `count`, `count + 1`, … digits that has a point in the
interval. With as many digits as the format needs, there always is one. -/
def Interval.search (i : Interval) (top : Int) : Nat → Nat → Decimal
  | _, 0 => ⟨i.num / i.den, 0⟩
  | count, fuel + 1 =>
    let s := top - count + 1
    match i.onGrid s with
    | some d => ⟨d, s⟩
    | none => i.search top (count + 1) fuel

/-- Digits without zeros at the end. -/
def Decimal.trim (d : Decimal) : Nat → Decimal
  | 0 => d
  | fuel + 1 =>
    if d.digits ≠ 0 ∧ d.digits % 10 = 0 then
      Decimal.trim ⟨d.digits / 10, d.scale + 1⟩ fuel
    else d

/-- The fewest digits that read back as the positive float `m · 2 ^ e`. -/
def Format.shortest (f : Format) (m : Nat) (e : Int) : Decimal :=
  let i := Interval.ofFloat f m e
  (i.search (floorLog10 i.num i.den) 1 17).trim 17

/-- How the digits of a float are laid out. -/
structure Style where
  /-- The least exponent of the leading digit that is written positionally, if there is one. -/
  lowest : Option Int
  /-- The greatest such exponent. -/
  highest : Option Int

namespace Style

/-- Positional notation for all magnitudes. -/
def plain : Style := ⟨none, none⟩

/-- Positional notation from `10⁻⁵` to `10¹⁵` in the leading digit, and from `10⁻⁶` to `10¹²`
for the format of four bytes. -/
def compact (f : Format) : Style :=
  if f.precision = 24 then ⟨some (-6), some 12⟩ else ⟨some (-5), some 15⟩

def isPositional (style : Style) (exponent : Int) : Bool :=
  style.lowest.all (· ≤ exponent) && style.highest.all (exponent ≤ ·)

end Style

private def zeros (n : Nat) : String := String.ofList (List.replicate n '0')

/-- Positional notation, with a point and a digit on each side of it. -/
def Decimal.positional (d : Decimal) : String :=
  let text := toString d.digits
  let count : Int := text.length + d.scale
  if 0 ≤ d.scale then text ++ zeros d.scale.toNat ++ ".0"
  else if 0 < count then
    (text.take count.toNat).toString ++ "." ++ (text.drop count.toNat).toString
  else "0." ++ zeros (-count).toNat ++ text

/-- One digit, the others behind a point, and the exponent with its sign. -/
def Decimal.scientific (d : Decimal) : String :=
  let text := toString d.digits
  let exponent : Int := text.length - 1 + d.scale
  let rest := (text.drop 1).toString
  (text.take 1).toString ++ (if rest.isEmpty then "" else "." ++ rest) ++ "e" ++
    (if 0 ≤ exponent then "+" else "-") ++ toString exponent.natAbs

/-- The text of a float that is not a NaN or infinite, and the names of those that are. -/
def Style.text (style : Style) (f : Format) : Real → String
  | .nan .. => "NaN"
  | .infinite negative => if negative then "-inf" else "inf"
  | .finite negative 0 _ => if negative then "-0.0" else "0.0"
  | .finite negative m e =>
    let d := f.shortest m e
    let exponent : Int := digitCount d.digits - 1 + d.scale
    (if negative then "-" else "") ++
      (if style.isPositional exponent then d.positional else d.scientific)

end FlatUnion
