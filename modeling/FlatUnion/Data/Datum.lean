import FlatUnion.Data.Fault

/-!
# Data

What a value tells a writer about itself. A datum is the tree of these calls : a struct names
itself and its fields, a variant its enum, its place and its name. A field may be passed over, a
map may hand over keys and values one by one, and a value may fail while it is written.
-/

namespace FlatUnion

/-- One call on an open map : a whole entry, a key or a value alone, or a failure between such
calls. -/
inductive Item (α : Type)
  | entry (key value : α)
  | key (key : α)
  | value (value : α)
  | fail (fault : Fault)
  deriving Inhabited

/-- Whether a call begins a key. -/
def Item.hasKey {α : Type} : Item α → Bool
  | .entry .. | .key _ => true
  | .value _ | .fail _ => false

/-- Keys and values that follow one another, put together into entries. -/
def Item.pairUp {α : Type} : List (Item α) → List (Item α)
  | [] => []
  | .key k :: .value v :: rest => .entry k v :: pairUp rest
  | i :: rest => i :: pairUp rest

/-- A variant of an enum : the name of the enum, its place among the variants, and its name. -/
structure VariantName where
  enum : String
  index : Nat
  name : String
  deriving DecidableEq, Repr

/-- What a value tells a writer about itself. -/
inductive Datum
  | bool (b : Bool)
  | int (width : Width) (n : Int)
  | f32 (bits : Nat)
  | f64 (bits : Nat)
  | char (c : Char)
  | text (s : String)
  | bytes (bs : List UInt8)
  /-- A value that is written as the text that shows it. -/
  | display (s : String)
  /-- A value that is written as a struct holding whether the writer is one for people. -/
  | readability
  | none
  | some (inner : Datum)
  | unit
  | unitStruct (name : String)
  | unitVariant (variant : VariantName)
  | newtypeStruct (name : String) (inner : Datum)
  | newtypeVariant (variant : VariantName) (inner : Datum)
  | seq (items : List Datum)
  | tuple (items : List Datum)
  | tupleStruct (name : String) (items : List Datum)
  | tupleVariant (variant : VariantName) (items : List Datum)
  | map (items : List (Item Datum))
  /-- A struct. A field without a value is passed over. -/
  | struct (name : String) (fields : List (String × Option Datum))
  | structVariant (variant : VariantName) (fields : List (String × Option Datum))
  | fail (fault : Fault)
  deriving Inhabited

namespace Datum

/-- A map of whole entries. -/
def ofEntries (entries : List (Datum × Datum)) : Datum :=
  .map (entries.map fun e => .entry e.1 e.2)

/-- The struct that a value reports the readability of its writer in. -/
def readabilityReport (readable : Bool) : Datum :=
  .struct "Hr" [("hr", Option.some (.bool readable))]

end Datum

end FlatUnion
