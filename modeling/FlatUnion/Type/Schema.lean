import FlatUnion.Schema.Flat
import FlatUnion.Type.Basic
import FlatUnion.Write.Flatten

/-!
# Schemas of types

The schema of a type (`Ty.schema`). Structs and unions are referred to by name, and defined beside
the schema (`Ty.definitions`). `Ty.document` is the whole : the schema of the type itself, its
title, and the definitions it needs.
-/

namespace FlatUnion

/-- The name of a type in schemas. -/
def Ty.title : Ty → String
  | .bool => "Boolean"
  | .int w => (if w.isSigned then "int" else "uint") ++ toString w.bits
  | .f32 => "float"
  | .f64 => "double"
  | .char => "Character"
  | .text | .borrowed => "String"
  | .unit => "Null"
  | .option t => "Nullable_" ++ t.title
  | .list t => "Array_of_" ++ t.title
  | .struct info _ => info.title
  | .union name _ => name
  | _ => "AnyValue"

/-- The rules of integers of a width. Unsigned ones are not negative. -/
def Width.schemaRules (w : Width) : List Rule :=
  [.kind .integer, .other "format" (.text ((Ty.int w).title))] ++
    if w.isSigned then [] else [.other "minimum" (.f64 0)]

/-- The schema that also allows null. A rule about the kind takes it in, and a schema without one
is one of two. -/
def Schema.orNull : Schema → Schema
  | .all true => .all true
  | .all false => .rules [.kind .null]
  | .rules rs =>
    if rs.any fun | .kind _ => true | _ => false then
      .rules (rs.map fun | .kind k => .kinds [k, .null] | r => r)
    else .rules [.anyOf [.rules rs, .rules [.kind .null]]]

/-- The properties of a struct and the names that are required. -/
private def structRules (properties : List (Field × Bool × Schema)) : List Rule :=
  let describe (f : Field) (s : Schema) : Schema :=
    match f.default, s with
    | some d, .rules rs => .rules (.other "default" d :: rs)
    | _, s => s
  [.kind .object, .properties (properties.map fun p => (p.1.name, describe p.1 p.2.2)),
   .required ((properties.filter fun p => p.1.default.isNone && !p.2.1).map (·.1.name))]

mutual

/-- The schema of a type as a part of another. -/
def Ty.schema : Ty → Schema
  | .struct info _ => .rules [.reference info.title]
  | .union name _ => .rules [.reference name]
  | .bool => .rules [.kind .boolean]
  | .int w => .rules w.schemaRules
  | .f32 => .rules [.kind .number, .other "format" (.text "float")]
  | .f64 => .rules [.kind .number, .other "format" (.text "double")]
  | .text | .borrowed => .rules [.kind .string]
  | .unit => .rules [.kind .null]
  | .option t => t.schema.orNull
  | .list t => .rules [.kind .array, .items t.schema]
  | _ => .all true

/-- The schema of a type itself, structs and unions written out. -/
def Ty.body : Ty → Schema
  | .struct _ fields => .rules (structRules (fieldSchemas fields))
  | .union _ variants => .flat tagField (variants.map (·.1)) (conditions variants)
  | t => t.schema

def fieldSchemas : List (Field × Ty) → List (Field × Bool × Schema)
  | [] => []
  | (f, t) :: rest => (f, t.isOption, t.schema) :: fieldSchemas rest

/-- The conditions of the variants of a union. -/
def conditions : List (String × Ty) → List Rule
  | [] => []
  | (tag, t) :: rest => Schema.variant tagField tag t.schema :: conditions rest

end

mutual

/-- The definitions that the schema of a type refers to. -/
def Ty.definitions : Ty → List (String × Schema)
  | .struct info fields =>
    (info.title, .rules (structRules (fieldSchemas fields))) :: fieldDefinitions fields
  | .union name variants =>
    (name, .flat tagField (variants.map (·.1)) (conditions variants)) ::
      variantDefinitions variants
  | .option t | .list t => t.definitions
  | _ => []

def fieldDefinitions : List (Field × Ty) → List (String × Schema)
  | [] => []
  | (_, t) :: rest => t.definitions ++ fieldDefinitions rest

def variantDefinitions : List (String × Ty) → List (String × Schema)
  | [] => []
  | (_, t) :: rest => t.definitions ++ variantDefinitions rest

end

/-- The definitions that the schema of a type itself refers to. -/
def Ty.bodyDefinitions : Ty → List (String × Schema)
  | .struct _ fields => fieldDefinitions fields
  | .union _ variants => variantDefinitions variants
  | t => t.definitions

/-- A schema with its title and the definitions it refers to. -/
structure SchemaDocument where
  title : String
  schema : Schema
  definitions : List (String × Schema)

/-- The schema of a type as a whole. -/
def Ty.document (t : Ty) : SchemaDocument where
  title := t.title
  schema := t.body
  definitions :=
    t.bodyDefinitions.foldl (fun sofar d => Schema.insertProperty d.1 d.2 sofar) []

/-- The dialect of schemas. -/
def SchemaDocument.dialect : String := "http://json-schema.org/draft-07/schema#"

/-- The written form of a document. -/
def SchemaDocument.datum (doc : SchemaDocument) : Datum :=
  let rules :=
    match doc.schema with
    | .rules rs => rs
    | .all _ => []
  let definitions :=
    match doc.definitions with
    | [] => []
    | ds => [Item.entry (.text "definitions") (.map (Schema.propertyItems ds))]
  .map ([.entry (.text "$schema") (.text dialect), .entry (.text "title") (.text doc.title)] ++
    Schema.rulesItems rules ++ definitions)

end FlatUnion
