import FlatUnion.Derive.Implementation
import FlatUnion.Text.Accepted

/-!
# The enum of tags

For the tag alone an enum is generated that has the variants of the flat union, without payloads. It
is written as the text of its tag and read from it. Its tables, each with one entry for every
variant of the flat union in the same order, are the members of the enum (`tagMembers`), the list of
all tags (`tagTexts`), and the branches that write a tag (`tagWriteBranches`) and read it
(`tagReadBranches`).
-/

namespace FlatUnion.Derive

open Code

namespace Declaration

/-- The name of the enum of tags. -/
def tagEnum (d : Declaration) : String := "__" ++ plainName d.name ++ "FlatTag"

/-- The tags, in the order of their variants. -/
def tags (d : Declaration) : List String := d.variants.map (·.tag)

end Declaration

/-- The name under which the enum of tags holds the list of all tags. -/
def tagTable : String := "VARIANTS"

/-- The members of the enum of tags. -/
def tagMembers (d : Declaration) : List Printed := d.variants.map fun v => [v.name, ","]

/-- The literals of all tags. -/
def tagTexts (d : Declaration) : List Printed := d.variants.map fun v => [quoted v.tag]

/-- The branches that give the text of a tag. -/
def tagWriteBranches (d : Declaration) : List Printed :=
  d.variants.map fun v => branch (memberOf "Self" v.name) [quoted v.tag]

/-- The branches that find a tag by its text. -/
def tagReadBranches (d : Declaration) : List Printed :=
  d.variants.map fun v => branch [quoted v.tag] (success (memberOf d.tagEnum v.name))

/-- The branch for a text that is no tag. -/
def unknownTagBranch (d : Declaration) : Printed :=
  branch ["value"]
    (failure
      (memberOf "E" "unknown_variant" ++
        parenthesized (["value", ","] ++ memberOf d.tagEnum tagTable)))

/-- The enum of tags itself. -/
def tagDeclaration (d : Declaration) : Printed :=
  "#" :: bracketed ("derive" :: parenthesized ["Clone", ",", "Copy"]) ++
    ["enum", d.tagEnum] ++ braced (tagMembers d).flatten

/-- What the enum of tags can do by itself. -/
def tagMethods (d : Declaration) : Printed :=
  let texts := "const" :: tagTable :: phrase ": & 'static [ & 'static" ++ textType ++
    phrase "] = &" ++ bracketed (commaBetween (tagTexts d)) ++ [";"]
  let text := phrase "const fn as_str ( self ) - > & 'static" ++ textType ++
    braced (choice "self" (tagWriteBranches d))
  ["impl", d.tagEnum] ++ braced (texts ++ text)

/-- How a tag is written. -/
def tagWriting (root : Piece) (d : Declaration) : Printed :=
  let body := (codecPath root ["Serializer", "serialize_str"]).printed ++
    parenthesized (phrase "serializer , self . as_str ( )")
  generatedMark ++
    implementation [] (codecPath root ["Serialize"]) [d.tagEnum] [] (writeMethod root body)

/-- What reads a tag from a text. -/
def tagVisitor (root : Piece) (d : Declaration) : Printed :=
  let expected := phrase "fn expecting ( & self , f : & mut : : core : : fmt : : Formatter ) - >" ++
    phrase ": : core : : fmt : : Result" ++
    braced (phrase "f . write_str" ++ parenthesized [quoted (describeAccepted "one of" d.tags)])
  let visit := phrase "fn visit_str < E :" ++ (codecPath root ["de", "Error"]).printed ++
    phrase "> ( self , value : &" ++ textType ++ phrase ") - >" ++
    resultType (memberOf "Self" "Value") ["E"] ++
    braced (choice "value" (tagReadBranches d ++ [unknownTagBranch d]))
  phrase "struct Visitor ;" ++
    implementation (phrase "< 'de >") (lasting (codecPath root ["de", "Visitor"]) "de")
      ["Visitor"] [] (phrase "type Value =" ++ d.tagEnum :: ";" :: expected ++ visit)

/-- How a tag is read. -/
def tagReading (root : Piece) (d : Declaration) : Printed :=
  let body := tagVisitor root d ++ (codecPath root ["Deserializer", "deserialize_str"]).printed ++
    parenthesized (phrase "deserializer , Visitor")
  generatedMark ++
    implementation (phrase "< 'de >") (lasting (codecPath root ["Deserialize"]) "de")
      [d.tagEnum] [] (readMethod root "de" body)

/-- The enum of tags and all that is implemented for it. -/
def tagItems (root : Piece) (d : Declaration) : Printed :=
  tagDeclaration d ++ tagMethods d ++ tagWriting root d ++ tagReading root d

end FlatUnion.Derive
