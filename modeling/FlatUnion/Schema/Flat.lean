import FlatUnion.Schema.Basic

/-!
# The schema of a flat union

A value of a flat union is an object whose tag is one of the tags, and which satisfies the schema
of the payload that the tag tells (`Schema.flat`). The payload of each variant is a condition of
its own : if the tag is this one, the schema of this payload applies to the same object. A single
condition stands beside the rules for the tag, several are combined.
-/

namespace FlatUnion

namespace Schema

/-- Puts a property behind the others, or in the place of one of the same name. -/
def insertProperty (name : String) (s : Schema) : List (String × Schema) → List (String × Schema)
  | [] => [(name, s)]
  | (name', s') :: rest =>
    if name' = name then (name, s) :: rest else (name', s') :: insertProperty name s rest

/-- Rules for objects with the given properties, all of which are required. Of properties of one
name the last one counts. -/
def objectRules (properties : List (String × Schema)) : List Rule :=
  let properties := properties.foldl (fun sofar p => insertProperty p.1 p.2 sofar) []
  [.kind .object, .properties properties, .required (properties.map (·.1))]

/-- The schema of such objects. -/
def object (properties : List (String × Schema)) : Schema := .rules (objectRules properties)

/-- The schema of one text. -/
def constant (value : String) : Schema := .rules [.kind .string, .const value]

/-- The condition of a variant : where the tag is its name, the payload's schema applies. -/
def variant (tagField name : String) (payload : Schema) : Rule :=
  .conditional (object [(tagField, constant name)]) payload

/-- The rules of some conditions together. -/
def combine : List Rule → List Rule
  | [] => []
  | [condition] => [condition]
  | conditions => [.allOf (conditions.map ofRule)]

/-- The schema of a flat union, given the conditions of its variants. -/
def flat (tagField : String) (tags : List String) (conditions : List Rule) : Schema :=
  let tag : Schema := .rules [.kind .string, .enum tags]
  .rules (objectRules [(tagField, tag)] ++ combine conditions)

end Schema

end FlatUnion
