/-!
# Integer widths

The data model keeps the width and the sign of an integer beside its value : ten widths,
from eight to a hundred and twenty-eight bits. A width is a range (`Width.lo`, `Width.hi`)
and a name, and `Width.fits` decides whether a number lies in the range.
-/

namespace FlatUnion

-- Powers are those of the naturals and the integers, whatever else is imported beside this.
attribute [local instance (high)] instPowNat

/-- The widths an integer of the data model can have. -/
inductive Width
  | u8 | u16 | u32 | u64 | u128 | i8 | i16 | i32 | i64 | i128
  deriving DecidableEq, Repr

namespace Width

/-- All widths, unsigned ones first. -/
def all : List Width := [u8, u16, u32, u64, u128, i8, i16, i32, i64, i128]

def bits : Width → Nat
  | u8 | i8 => 8
  | u16 | i16 => 16
  | u32 | i32 => 32
  | u64 | i64 => 64
  | u128 | i128 => 128

def isSigned : Width → Bool
  | u8 | u16 | u32 | u64 | u128 => false
  | i8 | i16 | i32 | i64 | i128 => true

def name : Width → String
  | u8 => "u8" | u16 => "u16" | u32 => "u32" | u64 => "u64" | u128 => "u128"
  | i8 => "i8" | i16 => "i16" | i32 => "i32" | i64 => "i64" | i128 => "i128"

/-- The width with a given name. -/
def ofName? (s : String) : Option Width := all.find? (·.name = s)

/-- The widths of a hundred and twenty-eight bits, which many readers do not know. -/
def isWide : Width → Bool
  | u128 | i128 => true
  | _ => false

/-- The least number of a width. -/
def lo (w : Width) : Int := if w.isSigned then -(2 ^ (w.bits - 1)) else 0

/-- One more than the greatest number of a width. -/
def hi (w : Width) : Int := if w.isSigned then 2 ^ (w.bits - 1) else 2 ^ w.bits

/-- Whether a number lies in the range of a width. -/
def fits (w : Width) (n : Int) : Bool := w.lo ≤ n && n < w.hi

theorem fits_iff {w : Width} {n : Int} : w.fits n = true ↔ w.lo ≤ n ∧ n < w.hi := by
  simp [fits]

end Width

end FlatUnion
