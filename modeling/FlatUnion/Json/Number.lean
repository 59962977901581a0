import FlatUnion.Json.Lexeme

/-!
# Numbers of a text

What number a numeral stands for. Without a point, an exponent and too many digits it is an integer
of sixty-four bits, unsigned if it can be. All others are floats, `-0` too.

A float is made in two steps, both rounded : as many leading digits as fit in sixty-four bits become
a float, which is then multiplied or divided by a power of ten. The result may be off by a unit in
the last place.
-/

namespace FlatUnion.Json

-- Powers are those of the naturals and the integers, whatever else is imported beside this.
attribute [local instance (high)] instPowNat

/-- A number as a text reports it. -/
inductive Number
  | unsigned (n : Nat)
  | signed (n : Int)
  | float (bits : Nat)
  deriving DecidableEq, Repr

/-- Leading digits that fit in sixty-four bits, and the power of ten they are to be scaled by. -/
structure Significand where
  value : Nat
  exponent : Int
  /-- Whether a digit did not fit. -/
  full : Bool
  deriving DecidableEq, Repr

namespace Significand

def digitOf (d : Char) : Nat := d.toNat - '0'.toNat

/-- Takes one more digit of the whole part. One that does not fit is dropped and counted. -/
def pushWhole (s : Significand) (d : Char) : Significand :=
  let n := s.value * 10 + digitOf d
  if s.full || 2 ^ (64 : Nat) ≤ n then { s with exponent := s.exponent + 1, full := true }
  else { s with value := n }

/-- Takes one more digit behind the point. From the first that does not fit, they are dropped. -/
def pushFraction (s : Significand) (d : Char) : Significand :=
  let n := s.value * 10 + digitOf d
  if s.full || 2 ^ (64 : Nat) ≤ n then { s with full := true }
  else { s with value := n, exponent := s.exponent - 1 }

/-- The digits of the whole part. -/
def ofWhole (ds : List Char) : Significand := ds.foldl pushWhole ⟨0, 0, false⟩

/-- The digits behind the point added to those of the whole part. -/
def addFraction (s : Significand) (ds : List Char) : Significand :=
  ds.foldl pushFraction { s with full := false }

end Significand

/-- The mantissa and exponent of a positive float, nothing if it is infinite. -/
private def parts (bits : Nat) : Option (Nat × Int) :=
  match double.decode bits with
  | .finite _ m e => some (m, e)
  | _ => none

/-- The positive float nearest to `m · 2 ^ e · num / den`. -/
private def times (m : Nat) (e : Int) (num den : Nat) : Nat :=
  double.roundPositive (m * 2 ^ e.toNat * num) (2 ^ (-e).toNat * den)

/-- The product of two positive floats. -/
def mulFloat (a b : Nat) : Nat :=
  match parts a, parts b with
  | some (m, e), some (n, f) => times m e (n * 2 ^ f.toNat) (2 ^ (-f).toNat)
  | _, _ => double.infinity

/-- The quotient of two positive floats. -/
def divFloat (a b : Nat) : Nat :=
  match parts a, parts b with
  | some (m, e), some (n, f) => times m e (2 ^ (-f).toNat) (n * 2 ^ f.toNat)
  | _, _ => double.infinity

/-- The float nearest to a power of ten. -/
def powerOfTen (n : Nat) : Nat := double.roundPositive (10 ^ n) 1

/-- Scales a positive float by a power of ten. Large negative powers are divided out in steps. It
fails if the result is too large. -/
def scale (bits : Nat) (exponent : Int) : Option Nat :=
  if bits = 0 then some 0
  else if 0 ≤ exponent then
    if 308 < exponent then none
    else
      let x := mulFloat bits (powerOfTen exponent.toNat)
      if x = double.infinity then none else some x
  else if -308 ≤ exponent then some (divFloat bits (powerOfTen exponent.natAbs))
  else scale (divFloat bits (powerOfTen 308)) (exponent + 308)
  termination_by exponent.natAbs
  decreasing_by omega

/-- The float of a significand that is scaled further. -/
def Significand.float (s : Significand) (negative : Bool) (more : Int) : Option Number :=
  (scale (double.ofInt s.value) (s.exponent + more)).map fun bits =>
    .float (double.withSign negative bits)

/-- The place of the digit with which an exponent exceeds thirty-one bits. -/
def exponentOverflow : (n place : Nat) → List Char → Option Nat
  | _, _, [] => none
  | n, place, d :: rest =>
    let m := 10 * n + (d.toNat - '0'.toNat)
    if 2 ^ (31 : Nat) ≤ m then some place else exponentOverflow m (place + 1) rest

/-- The number of a numeral that took `length` characters. -/
def Numeral.value (x : Numeral) (length : Nat) : Except Slip Number :=
  let whole := Significand.ofWhole x.whole
  let outOfRange (offset : Nat) : Except Slip Number :=
    .error { error := .numberOutOfRange, offset }
  match x.fraction, x.exponent with
  | none, none =>
    if whole.full then
      (whole.float x.negative 0).elim (outOfRange length) .ok
    else if !x.negative then .ok (.unsigned whole.value)
    else if 0 < whole.value ∧ whole.value ≤ 2 ^ (63 : Nat) then .ok (.signed (-whole.value))
    else .ok (.float (double.withSign true (double.ofInt whole.value)))
  | fraction, exponent =>
    let s := fraction.elim whole whole.addFraction
    match exponent with
    | none => (s.float x.negative 0).elim (outOfRange length) .ok
    | some (negative, ds) =>
      match exponentOverflow 0 0 ds with
      | some place =>
        if s.value ≠ 0 && !negative then outOfRange (length - ds.length + place + 1)
        else .ok (.float (double.withSign x.negative 0))
      | none =>
        let e : Int := decimalValue ds
        (s.float x.negative (if negative then -e else e)).elim (outOfRange length) .ok

/-- The number at the front of a text. -/
def number (cs : List Char) : Except Slip (Lexeme Number) := do
  let x ← Numeral.read false cs
  return ⟨← x.value.value x.length, x.length⟩

/-- The integer at the front of a text where an integer of a hundred and twenty-eight bits is
wanted. A point or an exponent behind it is not read. -/
def wideInteger (w : Width) (cs : List Char) : Except Slip (Lexeme Int) := do
  let negative := cs.head? = some '-'
  if negative && !w.isSigned then .error { error := .numberOutOfRange, ahead := 1 }
  let sign := if negative then 1 else 0
  let whole ← Numeral.wholePart true sign (cs.drop sign)
  let n : Int := decimalValue whole
  let n := if negative then -n else n
  let length := sign + whole.length
  if w.fits n then return ⟨n, length⟩
  else .error { error := .numberOutOfRange, offset := length }

end FlatUnion.Json
