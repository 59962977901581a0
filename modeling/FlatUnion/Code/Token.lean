/-!
# Tokens

Code is a list of tokens. What stands between two delimiters is one token, a group, so delimiters
always match. A punctuation character knows whether another one follows it directly, as operators
of several characters must be written without a gap.

Code is printed as the texts of its tokens (`Token.printed`), every delimiter and every punctuation
character on its own.
-/

namespace FlatUnion.Code

/-- The delimiters of a group. -/
inductive Delimiter
  | parenthesis
  | bracket
  | brace
  deriving DecidableEq, Repr

namespace Delimiter

def opening : Delimiter → String
  | parenthesis => "("
  | bracket => "["
  | brace => "\x7b"

def closing : Delimiter → String
  | parenthesis => ")"
  | bracket => "]"
  | brace => "\x7d"

/-- What a group is called in complaints. -/
def name : Delimiter → String
  | parenthesis => "parentheses"
  | bracket => "square brackets"
  | brace => "curly braces"

end Delimiter

/-- A token. -/
inductive Token
  /-- A name or a keyword. -/
  | ident (name : String)
  | punct (c : Char) (joint : Bool)
  /-- A lifetime, named without its apostrophe. -/
  | lifetime (name : String)
  | literal (text : String)
  | group (delimiter : Delimiter) (tokens : List Token)
  deriving Inhabited

/-- Printed code : the texts of its tokens. -/
abbrev Printed := List String

/-- What stands between delimiters, with them. -/
def Printed.enclosed (d : Delimiter) (inside : Printed) : Printed :=
  d.opening :: inside ++ [d.closing]

/-- The text of a lifetime. -/
def lifetimeText (name : String) : String := "'" ++ name

mutual

/-- The texts of a token. -/
def Token.printed : Token → Printed
  | .ident name => [name]
  | .punct c _ => [String.singleton c]
  | .lifetime name => [lifetimeText name]
  | .literal text => [text]
  | .group d tokens => Printed.enclosed d (printTokens tokens)

/-- The texts of tokens. -/
def printTokens : List Token → Printed
  | [] => []
  | t :: rest => t.printed ++ printTokens rest

end

mutual

/-- The number of tokens in a token, those inside a group included. -/
def Token.weight : Token → Nat
  | .group _ tokens => weigh tokens + 1
  | _ => 1

def weigh : List Token → Nat
  | [] => 0
  | t :: rest => t.weight + weigh rest

end

/-- A name without the mark of raw names. -/
def plainName (name : String) : String := ((name.dropPrefix? "r#").map (·.toString)).getD name

end FlatUnion.Code
