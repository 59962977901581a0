/-!
# Binary floating point

A float is kept as its bits. This module reads the bits as an exact number,
`± mantissa · 2 ^ exponent` (`Format.decode`), and rounds an exact fraction to the nearest
float, a tie to the even neighbour (`Format.round`). Conversions between the two formats,
and from integers, are decoding followed by rounding. Everything is arithmetic on naturals,
so the results can be computed and reasoned about without the machine's float unit.
-/

namespace FlatUnion

-- Powers are those of the naturals and the integers, whatever else is imported beside this.
attribute [local instance (high)] instPowNat

/-- A binary interchange format : the bits of its mantissa, the hidden one counted, and the
exponent of its least positive number. -/
structure Format where
  precision : Nat
  least : Int
  /-- The bits of the positive infinity. -/
  infinity : Nat

/-- Four bytes. -/
def single : Format := ⟨24, -149, 0x7f800000⟩

/-- Eight bytes. -/
def double : Format := ⟨53, -1074, 0x7ff0000000000000⟩

/-- What the bits of a float stand for. The payload of a NaN is that of a NaN of eight bytes. -/
inductive Real
  | nan (negative : Bool) (payload : Nat)
  | infinite (negative : Bool)
  | finite (negative : Bool) (mantissa : Nat) (exponent : Int)
  deriving DecidableEq, Repr

namespace Format

/-- The bit of the sign : the one above those of the positive numbers. -/
def signBit (f : Format) : Nat := 2 ^ (f.infinity.log2 + 1)

/-- The number that bits stand for. -/
def decode (f : Format) (bits : Nat) : Real :=
  let negative := decide (f.signBit ≤ bits)
  let rest := bits % f.signBit
  let hidden := 2 ^ (f.precision - 1)
  if f.infinity < rest then
    .nan negative ((rest - f.infinity) * 2 ^ (double.precision - f.precision))
  else if rest = f.infinity then .infinite negative
  else if rest < hidden then .finite negative rest f.least
  else .finite negative (rest % hidden + hidden) (f.least + (rest / hidden - 1 : Nat))

/-- `⌊log₂ (num / den)⌋`. -/
def floorLog2 (num den : Nat) : Int :=
  let e : Int := (num.log2 : Int) - den.log2
  let enough := if 0 ≤ e then den * 2 ^ e.toNat ≤ num else den ≤ num * 2 ^ (-e).toNat
  if enough then e else e - 1

/-- The quotient rounded to the nearest integer, a tie to the even one. -/
def nearest (num den : Nat) : Nat :=
  let q := num / den
  let r := num % den
  if 2 * r < den then q
  else if den < 2 * r then q + 1
  else q + q % 2

/-- The bits of the positive float nearest to `num / den`, infinity if there is none. -/
def roundPositive (f : Format) (num den : Nat) : Nat :=
  if num = 0 then 0 else
  let exponent := max (floorLog2 num den - (f.precision - 1)) f.least
  let mantissa :=
    if 0 ≤ exponent then nearest num (den * 2 ^ exponent.toNat)
    else nearest (num * 2 ^ (-exponent).toNat) den
  min f.infinity ((exponent - f.least).toNat * 2 ^ (f.precision - 1) + mantissa)

/-- The sign put on the bits of a positive float. -/
def withSign (f : Format) (negative : Bool) (bits : Nat) : Nat :=
  if negative then f.signBit + bits else bits

/-- The bits of the float nearest to `± num / den`. -/
def round (f : Format) (negative : Bool) (num den : Nat) : Nat :=
  f.withSign negative (f.roundPositive num den)

/-- The quiet NaN with as much of a payload as there is room for. -/
def nan (f : Format) (negative : Bool) (payload : Nat) : Nat :=
  let quiet := 2 ^ (f.precision - 2)
  let kept := payload / 2 ^ (double.precision - f.precision)
  f.withSign negative (f.infinity + (if kept < quiet then quiet + kept else kept))

/-- The float of a format nearest to a number. A NaN becomes a quiet one. -/
def encode (f : Format) : Real → Nat
  | .nan negative payload => f.nan negative payload
  | .infinite negative => f.withSign negative f.infinity
  | .finite negative m e =>
    if 0 ≤ e then f.round negative (m * 2 ^ e.toNat) 1 else f.round negative m (2 ^ (-e).toNat)

/-- The float nearest to an integer. -/
def ofInt (f : Format) (n : Int) : Nat := f.round (decide (n < 0)) n.natAbs 1

end Format

/-- Whether a number is neither infinite nor a NaN. -/
def Real.isFinite : Real → Bool
  | .finite .. => true
  | _ => false

end FlatUnion
