import FlatUnion.Text.Quoted

/-!
# What is accepted

The description of a choice between texts, for messages : the texts in quotes, the last one
behind an "or".
-/

namespace FlatUnion

/-- Texts in quotes with commas between them, and an "or" before the last one. -/
def alternatives : List String → String
  | [] => ""
  | [v] => quoted v
  | [v, w] => quoted v ++ " or " ++ quoted w
  | v :: rest => quoted v ++ ", " ++ alternatives rest

/-- The texts that are accepted, described. -/
def describeAccepted (lead : String) : List String → String
  | [] => "nothing"
  | values => lead ++ " " ++ alternatives values

end FlatUnion
