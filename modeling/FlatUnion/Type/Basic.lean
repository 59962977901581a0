import FlatUnion.Data.Datum

/-!
# Types

Descriptions of the types that values are read as. A type says what its reader asks a source for
and which answers it accepts (`Ty.read`), and which datum it makes of them.

An enum can be told apart in several ways (`Tagging`) : by the external form, by a tag among the
fields of the variant, by a tag beside the content, or not at all. `Ty.union` is the flat tagged
union, whose tag stands among the entries of a payload that sees it too.
-/

namespace FlatUnion

/-- When a field is written. -/
inductive Writing
  | always
  | never
  /-- Unless it is an empty option. -/
  | unlessNone
  deriving DecidableEq, Repr

/-- How the form of a variant's content is written down. -/
inductive Form
  | unit
  | newtype
  | tuple
  | struct
  deriving DecidableEq, Repr

/-- How the variant of an enum is told. -/
inductive Tagging
  /-- A bare name, or a map with the variant as its one key. -/
  | external
  /-- A field among those of the content. -/
  | internal (tag : String)
  /-- A field beside one for the content. -/
  | adjacent (tag content : String)
  /-- Not told : the first variant that can be read. -/
  | untagged
  deriving DecidableEq, Repr

/-- What is said about a field besides its type. -/
structure Field where
  name : String
  /-- Other names it can be read under. -/
  aliases : List String := []
  /-- The value it has when it is missing, if there is one. -/
  default : Option Datum := none
  writing : Writing := .always
  /-- Whether its own fields stand among those of the struct. -/
  flattened : Bool := false

/-- What is said about a struct besides its fields. -/
structure StructInfo where
  name : String
  /-- The name it has in schemas. -/
  title : String := name
  /-- Whether fields it does not know are refused. -/
  strict : Bool := false

/-- A type that values are read as. -/
inductive Ty
  | bool
  | int (width : Width)
  | f32
  | f64
  | char
  | text
  /-- A text that is borrowed from the input. -/
  | borrowed
  | bytes
  | unit
  /-- Any value that a JSON text can hold. -/
  | json
  | option (inner : Ty)
  | list (inner : Ty)
  | array (length : Nat) (inner : Ty)
  | tuple (items : List Ty)
  | map (key value : Ty)
  /-- A success or a failure. -/
  | result (ok error : Ty)
  | unitStruct (name : String)
  | newtypeStruct (name : String) (inner : Ty)
  | tupleStruct (name : String) (items : List Ty)
  | struct (info : StructInfo) (fields : List (Field × Ty))
  /-- An enum. The content of a tuple variant is a tuple, that of a struct variant a struct. -/
  | enum (name : String) (tagging : Tagging) (variants : List (String × Form × Ty))
  | union (name : String) (variants : List (String × Ty))

/-- Whether a value that is missing is an empty option. -/
def Ty.isOption : Ty → Bool
  | .option _ => true
  | _ => false

/-- A count of elements. -/
def countElements (n : Nat) : String :=
  if n = 1 then "1 element" else toString n ++ " elements"

end FlatUnion
