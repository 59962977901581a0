import FlatUnion.Derive.Tag

/-!
# Writing and reading

A flat union is written as a map that begins with the entry of the tag and goes on with the entries
of the payload (`writing`). To be read the map is kept, the tag is read from it, and then the
payload that the tag tells from the same map (`reading`). For each variant there is one branch that
writes it and one that reads it (`writeBranches`, `readBranches`), and no branch is for several.
-/

namespace FlatUnion.Derive

open Code

/-- The name of the constant that holds the name of the entry for the tag. -/
def tagFieldName : String := "__FLAT_TAG_FIELD"

/-- The name that a payload is bound to. -/
def payloadName : String := "payload"

/-- The type of the flat union, with its parameters as arguments. -/
def Declaration.type (d : Declaration) : Printed := d.name :: d.generics.printedArguments

/-! ## Writing -/

/-- The branches that write a variant. -/
def writeBranches (root : Piece) (d : Declaration) : List Printed :=
  d.variants.map fun v =>
    let tag := (codecPath root ["ser", "SerializeMap", "serialize_entry"]).printed ++
      parenthesized
        (phrase "& mut map ," ++ [tagFieldName, ",", "&"] ++ memberOf d.tagEnum v.name) ++
      ["?", ";"]
    let payload := (codecPath root ["Serialize", "serialize"]).printed ++
      parenthesized
        ([payloadName, ","] ++ (internalPath root ["FlatMapSerializer", "new"]).printed ++
          parenthesized (phrase "& mut map")) ++
      ["?", ";"]
    branch (v.pattern payloadName) (braced (tag ++ payload))

/-- How a flat union is written. -/
def writing (root : Piece) (d : Declaration) : Except Complaint Printed :=
  let trait := codecPath root ["Serialize"]
  let start := phrase "let mut map =" ++ (codecPath root ["Serializer", "serialize_map"]).printed ++
    parenthesized (phrase "serializer , : : core : : option : : Option : : None") ++ ["?", ";"]
  let finish := (codecPath root ["ser", "SerializeMap", "end"]).printed ++ parenthesized ["map"]
  (boundClause d trait).map fun clause =>
    generatedMark ++
      implementation d.generics.printedHead trait d.type (WhereClause.printed? clause)
        (writeMethod root (start ++ choice "self" (writeBranches root d) ++ finish))

/-! ## Reading -/

/-- The branches that read a variant. -/
def readBranches (d : Declaration) : List Printed :=
  d.variants.map fun v =>
    let payload := ["let", payloadName] ++ phrase "= content . decode_payload : : <" ++
      printPieces v.payload ++ "," :: memberOf readerParameter "Error" ++ phrase "> ( ) ? ;"
    branch (memberOf d.tagEnum v.name) (braced (payload ++ success (v.pattern payloadName)))

/-- The declaration with a new lifetime in front of its parameters, and that lifetime. -/
def Declaration.withLifetime? (d : Declaration) (hint : String) : Option (Declaration × String) :=
  (d.generics.withLifetime? hint).map fun (generics, life) => ({ d with generics }, life)

/-- The parameters of the implementation that reads, with a new lifetime for what is read, and that
lifetime. -/
def readGenerics (d : Declaration) : Generics × String :=
  let (extended, life) := (d.withLifetime? "de").getD (d, "a")
  (extended.generics, life)

/-- How a flat union is read. -/
def reading (root : Piece) (d : Declaration) : Except Complaint Printed :=
  let (generics, life) := readGenerics d
  let trait := lasting (codecPath root ["Deserialize"]) life
  let content := phrase "let content = <" ++ (internalPath root ["FlatContent"]).printed ++
    "as" :: (codecPath root ["Deserialize"]).printed ++
    phrase "> : : deserialize ( deserializer ) ? ;"
  let tag := ["let", "tag", ":", d.tagEnum] ++ phrase "= content . decode_tag : : < _ ," ++
    memberOf readerParameter "Error" ++ ">" :: parenthesized [tagFieldName] ++ ["?", ";"]
  (boundClause d trait).map fun clause =>
    generatedMark ++
      implementation generics.printedHead trait d.type (WhereClause.printed? clause)
        (readMethod root life (content ++ tag ++ choice "tag" (readBranches d)))

end FlatUnion.Derive
