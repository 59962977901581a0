import FlatUnion.Derive.Codec
import FlatUnion.Write.Flatten

/-!
# Schemas

The generated schema of a flat union has one subschema for each variant (`schemaSteps`), in the
order of the variants, made of the variant's tag and of the schema of its payload.
-/

namespace FlatUnion.Derive

open Code

/-- The steps that add the subschema of a variant. -/
def schemaSteps (root : Piece) (d : Declaration) : List Printed :=
  d.variants.map fun v =>
    let payload := phrase "generator . subschema_for : : <" ++ printPieces v.payload ++
      phrase "> ( ) ,"
    phrase "variants . push" ++
      parenthesized
        ((internalPath root ["variant_subschema"]).printed ++
          parenthesized ([quoted tagField, ",", quoted v.tag, ","] ++ payload)) ++
      [";"]

/-- How the name of a schema is given. -/
def schemaName (root : Piece) (d : Declaration) : Printed :=
  phrase "fn schema_name ( ) - > : : std : : string : : String" ++
    braced ((internalPath root ["string"]).printed ++ parenthesized [quoted d.name])

/-- How a schema is told from others. -/
def schemaIdentity : Printed :=
  phrase "fn schema_id ( ) - > : : std : : borrow : : Cow < 'static ," ++ textType ++ ">" ::
    braced
      (phrase ": : std : : borrow : : Cow : : Borrowed" ++
        parenthesized (phrase ": : core : : any : : type_name : : < Self > ( )"))

/-- How a schema is made. -/
def schemaMethod (root : Piece) (d : Declaration) : Printed :=
  let start := phrase "let mut variants = : : std : : vec : : Vec : : with_capacity" ++
    parenthesized [toString d.variants.length ++ "usize"] ++ [";"]
  let finish := (internalPath root ["flat_enum_schema"]).printed ++
    parenthesized
      ([quoted tagField, ",", "&"] ++ bracketed (commaBetween (tagTexts d)) ++ [",", "variants"])
  phrase "fn json_schema" ++
    parenthesized
      (phrase "generator : & mut" ++ (schemaPath root ["gen", "SchemaGenerator"]).printed) ++
    phrase "- >" ++ (schemaPath root ["schema", "Schema"]).printed ++
    braced (start ++ (schemaSteps root d).flatten ++ finish)

/-- How a flat union is described. -/
def describing (root : Piece) (d : Declaration) : Except Complaint Printed :=
  let trait := schemaPath root ["JsonSchema"]
  (boundClause d trait).map fun clause =>
    generatedMark ++
      implementation d.generics.printedHead trait d.type (WhereClause.printed? clause)
        (schemaName root d ++ schemaIdentity ++ schemaMethod root d)

end FlatUnion.Derive
