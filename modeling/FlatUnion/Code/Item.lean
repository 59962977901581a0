import FlatUnion.Code.Generics

/-!
# Items

The declarations of types : structures, enums and unions. Of an item its attributes, its name, its
parameters and its where clause are kept, and of an enum its variants with their fields. Who may see
an item or a field is read and forgotten, and so are the numbers of variants.

The grammar has a part of all expressions only. So the code in which items and paths are written is
a `Language`, that of the grammar is one of them, and what is made of items does not look at how
they were read.
-/

namespace FlatUnion.Code

open FlatUnion.Code.Parser

/-- A field. In a list with parentheses it has no name. -/
structure Field where
  name : Option String
  type : List Piece

/-- A variant of an enum, which may have a list of fields. -/
structure Variant where
  name : String
  fields : Option (List Field)

/-- What an item declares. -/
inductive ItemBody
  | struct
  | enum (variants : List Variant)
  | union

/-- An item that declares a type. -/
structure Item where
  attributes : List Attribute
  name : String
  generics : Generics
  clause : Option WhereClause
  body : ItemBody

/-- What stands in the parentheses behind `pub`, if it is nothing but a place. -/
def isPlaceOnly : List Token → Bool
  | .group .parenthesis [.ident name] :: _ => ["crate", "self", "super"].contains name
  | _ => false

/-- Whether the parentheses behind `pub` name a path. -/
def isInPath : List Token → Bool
  | .group .parenthesis inside :: _ => isWord "in" inside
  | _ => false

/-- Reads who may see something. Parentheses that do not say so are left, as they may be a type. -/
def parseVisibility : Parser Unit := do
  if ← next (isWord "pub") then
    let _ ← word "pub"
    if ← next isPlaceOnly then
      let _ ← take 1
    else if ← next isInPath then
      inside .parenthesis do
        let _ ← word "in"
        let _ ← barePath

namespace Field

/-- Reads a field with a name, which may be an underscore. -/
def parseNamed : Parser Field := do
  let _ ← parseAttributes
  parseVisibility
  let name ← if ← next (isWord "_") then anyWord else Parser.name
  let _ ← punct ":"
  return { name := some name, type := ← parseType }

/-- Reads a field without a name. -/
def parseUnnamed : Parser Field := do
  let _ ← parseAttributes
  parseVisibility
  return { name := none, type := ← parseType }

/-- Reads fields between delimiters. -/
def parseAll (d : Delimiter) : Parser (List Field) := do
  let (fields, _) ← inside d (commaSeparated (if d = .brace then parseNamed else parseUnnamed))
  return fields

end Field

/-- Reads a variant of an enum. -/
def Variant.parse : Parser Variant := do
  let _ ← parseAttributes
  parseVisibility
  let name ← Parser.name
  let fields ←
    if ← next (isGroup .brace) then some <$> Field.parseAll .brace
    else if ← next (isGroup .parenthesis) then some <$> Field.parseAll .parenthesis
    else pure none
  if ← next (isPunct "=") then
    let _ ← punct "="
    let _ ← parseExpression
  return { name, fields }

/-- Reads a structure behind its parameters : a where clause, and fields in braces, fields in
parentheses, or none. The where clause stands behind fields in parentheses. -/
def parseStruct : Parser (Option WhereClause) := do
  let clause ← WhereClause.parse?
  if clause.isNone && (← next (isGroup .parenthesis)) then
    let _ ← Field.parseAll .parenthesis
    let clause ← WhereClause.parse?
    if ← next (isPunct ";") then
      let _ ← take 1
      return clause
    else fail (.expected (if clause.isSome then ["`;`"] else ["`where`", "`;`"]))
  else if ← next (isGroup .brace) then
    let _ ← Field.parseAll .brace
    return clause
  else if ← next (isPunct ";") then
    let _ ← take 1
    return clause
  else
    let before := if clause.isSome then [] else ["`where`", "parentheses"]
    fail (.expected (before ++ ["curly braces", "`;`"]))

/-- Reads an item. -/
def Item.parse : Parser Item := do
  let attributes ← parseAttributes
  parseVisibility
  let ts ← rest
  if isWord "struct" ts then
    let _ ← take 1
    let name ← Parser.name
    let generics ← Generics.parse
    let clause ← parseStruct
    return { attributes, name, generics, clause, body := .struct }
  else if isWord "enum" ts then
    let _ ← take 1
    let name ← Parser.name
    let generics ← Generics.parse
    let clause ← WhereClause.parse?
    let (variants, _) ← inside .brace (commaSeparated Variant.parse)
    return { attributes, name, generics, clause, body := .enum variants }
  else if isWord "union" ts then
    let _ ← take 1
    let name ← Parser.name
    let generics ← Generics.parse
    let clause ← WhereClause.parse?
    let _ ← Field.parseAll .brace
    return { attributes, name, generics, clause, body := .union }
  else fail (.expected ["`struct`", "`enum`", "`union`"])

/-! ## Languages -/

/-- How the items that tokens are, and the paths that texts hold, are read. -/
structure Language where
  item : List Token → Except Complaint Item
  path : String → Except Complaint Piece

/-- The language of the grammar. -/
def Language.grammar : Language where
  item := parseTokens Item.parse
  path := FlatUnion.Code.parseAll parsePath

end FlatUnion.Code
