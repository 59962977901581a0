import FlatUnion.Code.Item
import FlatUnion.Code.Usage
import FlatUnion.Derive.Diagnostic

/-!
# Declarations of flat unions

A flat union is declared as an enum each of whose variants has one field, the payload. The tag of a
variant is its name, without the mark of raw names. An enum without variants is a flat union too,
one that has no values.
-/

namespace FlatUnion.Derive

open Code

/-- A variant of a flat union. Its payload may stand in a named field. -/
structure Variant where
  name : String
  field : Option String
  payload : List Piece

/-- The declaration of a flat union. -/
structure Declaration where
  name : String
  generics : Generics
  clause : Option WhereClause
  variants : List Variant

namespace Variant

/-- The tag of a variant. -/
def tag (v : Variant) : String := plainName v.name

/-- The variant as it is taken apart or built, with its payload under a name. -/
def pattern (v : Variant) (bound : String) : Printed :=
  ["Self", ":", ":", v.name] ++
    match v.field with
    | none => Printed.enclosed .parenthesis [bound]
    | some field => Printed.enclosed .brace [field, ":", bound]

/-- The variant of an enum as one of a flat union. -/
def ofEnum (v : Code.Variant) : Except Diagnostic Variant :=
  match v.fields with
  | none => .error .noFields
  | some [f] => .ok { name := v.name, field := f.name, payload := f.type }
  | some _ => .error .fieldCount

end Variant

/-- The declaration that an item is. Of several faulty variants the first is complained about. -/
def Declaration.ofItem (item : Code.Item) : Except Diagnostic Declaration :=
  match item.body with
  | .enum variants => do
    let variants ← variants.mapM Variant.ofEnum
    return { name := item.name, generics := item.generics, clause := item.clause, variants }
  | _ => .error .notAnEnum

/-- The payloads that use a parameter, in the order of their variants. -/
def Declaration.genericPayloads (d : Declaration) : List (List Piece) :=
  (d.variants.map (·.payload)).filter (anyUses d.generics)

end FlatUnion.Derive
