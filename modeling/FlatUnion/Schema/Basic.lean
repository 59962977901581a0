import FlatUnion.Data.Datum

/-!
# Schemas

A schema tells which JSON values are allowed : all, none, or those that satisfy every one of some
rules. A rule is a keyword of JSON Schema, and a rule about objects says nothing about values that
are no objects. References are names of definitions that stand beside the schema.

`Schema.datum` is the written form, `Schema.ofDatum` reads it. Names of required properties are
written in order, and rules without content are left out.
-/

namespace FlatUnion

/-- The kinds of values that schemas tell apart. -/
inductive Kind
  | null | boolean | object | array | number | string | integer
  deriving DecidableEq, Repr

namespace Kind

def name : Kind → String
  | null => "null" | boolean => "boolean" | object => "object" | array => "array"
  | number => "number" | string => "string" | integer => "integer"

/-- The kind with a given name. -/
def ofName? (s : String) : Option Kind :=
  [null, boolean, object, array, number, string, integer].find? (·.name = s)

end Kind

mutual

/-- Which JSON values are allowed. -/
inductive Schema
  /-- All of them, or none. -/
  | all (allowed : Bool)
  | rules (rules : List Rule)

/-- A keyword of a schema. -/
inductive Rule
  | kind (kind : Kind)
  | kinds (kinds : List Kind)
  /-- One text. -/
  | const (value : String)
  /-- One of some texts. -/
  | enum (values : List String)
  | properties (entries : List (String × Schema))
  | required (names : List String)
  | items (schema : Schema)
  /-- Where the first schema allows a value, the second must. -/
  | conditional (premise conclusion : Schema)
  | allOf (schemas : List Schema)
  | anyOf (schemas : List Schema)
  | reference (name : String)
  /-- A keyword that is kept as it is. -/
  | other (keyword : String) (value : Datum)

end

namespace Schema

/-- Schemas with one rule. -/
def ofRule (r : Rule) : Schema := .rules [r]

/-! ## The written form -/

/-- Puts a name in its place among sorted names, unless it is there already. -/
def insertName (name : String) : List String → List String
  | [] => [name]
  | x :: rest =>
    if name < x then name :: x :: rest
    else if name = x then x :: rest
    else x :: insertName name rest

/-- Names in order, each once. -/
def sortNames (names : List String) : List String := names.foldr insertName []

/-- What stands in front of the name of a definition. -/
def definitionsPath : String := "#/definitions/"

private def entry (keyword : String) (value : Datum) : Item Datum := .entry (.text keyword) value

private def texts (names : List String) : Datum := .seq (names.map .text)

mutual

/-- The written form of a schema. -/
def datum : Schema → Datum
  | .all allowed => .bool allowed
  | .rules rs => .map (rulesItems rs)

def rulesItems : List Rule → List (Item Datum)
  | [] => []
  | r :: rest => ruleItems r ++ rulesItems rest

/-- The entries of a rule. -/
def ruleItems : Rule → List (Item Datum)
  | .kind k => [entry "type" (.text k.name)]
  | .kinds ks => [entry "type" (texts (ks.map Kind.name))]
  | .const value => [entry "const" (.text value)]
  | .enum values => [entry "enum" (texts values)]
  | .properties [] => []
  | .properties entries => [entry "properties" (.map (propertyItems entries))]
  | .required [] => []
  | .required names => [entry "required" (texts (sortNames names))]
  | .items s => [entry "items" s.datum]
  | .conditional premise conclusion => [entry "if" premise.datum, entry "then" conclusion.datum]
  | .allOf schemas => [entry "allOf" (.seq (data schemas))]
  | .anyOf schemas => [entry "anyOf" (.seq (data schemas))]
  | .reference name => [entry "$ref" (.text (definitionsPath ++ name))]
  | .other keyword value => [entry keyword value]

def propertyItems : List (String × Schema) → List (Item Datum)
  | [] => []
  | (name, s) :: rest => entry name s.datum :: propertyItems rest

def data : List Schema → List Datum
  | [] => []
  | s :: rest => s.datum :: data rest

end

/-! ## Reading the written form -/

/-- Texts in a sequence. -/
private def textsOf? : Datum → Option (List String)
  | .seq items => items.mapM fun
    | .text s => some s
    | _ => none
  | _ => none

/-- A rule about plain values. -/
private def plainRule (keyword : String) (value : Datum) : Rule :=
  let read : Option Rule :=
    match keyword, value with
    | "type", .text s => (Kind.ofName? s).map .kind
    | "type", d => ((textsOf? d).bind fun names => names.mapM Kind.ofName?).map .kinds
    | "const", .text s => some (.const s)
    | "enum", d => (textsOf? d).map .enum
    | "required", d => (textsOf? d).map .required
    | "$ref", .text s => (s.dropPrefix? definitionsPath).map fun name => .reference name.toString
    | _, _ => none
  read.getD (.other keyword value)

mutual

/-- The schema that a datum writes. -/
def ofDatum : Datum → Schema
  | .bool b => .all b
  | .map items => .rules (ofItems items)
  | _ => .all true

def ofItems : List (Item Datum) → List Rule
  | [] => []
  | .entry (.text keyword) value :: rest => ofKeyword keyword value :: ofItems rest
  | _ :: rest => ofItems rest

/-- The rule of one entry. -/
def ofKeyword (keyword : String) : Datum → Rule
  | .map items =>
    if keyword = "properties" then .properties (ofProperties items)
    else if keyword = "items" then .items (.rules (ofItems items))
    else plainRule keyword (.map items)
  | .seq schemas =>
    if keyword = "allOf" then .allOf (ofData schemas)
    else if keyword = "anyOf" then .anyOf (ofData schemas)
    else plainRule keyword (.seq schemas)
  | .bool b => if keyword = "items" then .items (.all b) else plainRule keyword (.bool b)
  | value => plainRule keyword value

def ofProperties : List (Item Datum) → List (String × Schema)
  | [] => []
  | .entry (.text name) value :: rest => (name, ofDatum value) :: ofProperties rest
  | _ :: rest => ofProperties rest

def ofData : List Datum → List Schema
  | [] => []
  | d :: rest => ofDatum d :: ofData rest

end

end Schema

end FlatUnion
