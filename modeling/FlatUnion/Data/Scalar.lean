import FlatUnion.Number.Width
import FlatUnion.Number.Binary
import FlatUnion.Text.Utf8

/-!
# Scalars

The values of the data model that hold no other value. A source says of a text or of bytes how
long they may be kept : for the call only, as the reader's own copy, or as long as the input.
Only readers that keep a reference ask for the last.
-/

namespace FlatUnion

/-- How a source lends text or bytes to a reader. -/
inductive Lending
  /-- For the time of the call. -/
  | passing
  /-- As a copy that the reader owns. -/
  | owned
  /-- For as long as the input lives. -/
  | lasting
  deriving DecidableEq, Repr

/-- A value without parts. -/
inductive Scalar
  | bool (b : Bool)
  | int (width : Width) (n : Int)
  | f32 (bits : Nat)
  | f64 (bits : Nat)
  | char (c : Char)
  | text (lending : Lending) (s : String)
  | bytes (lending : Lending) (bs : List UInt8)
  deriving DecidableEq, Repr

/-- The text of a scalar that readers of text take for one : a character is a text of one
letter. -/
def Scalar.asText? : Scalar → Option String
  | .char c => some (String.singleton c)
  | .text _ s => some s
  | _ => none

end FlatUnion
