import FlatUnion.Code.Token

/-!
# Phrases of generated code

Generated code is printed code from the start. What is always the same is written down as a phrase,
word by word with blanks between the words (`phrase`), and put together with the names and types of
a declaration.
-/

namespace FlatUnion.Derive

open Code

/-- The words of a text behind the letters of a word that has begun, the last letter first. -/
def wordsBehind : (word : List Char) → List Char → Printed
  | [], [] => []
  | word, [] => [String.ofList word.reverse]
  | [], ' ' :: rest => wordsBehind [] rest
  | word, ' ' :: rest => String.ofList word.reverse :: wordsBehind [] rest
  | word, c :: rest => wordsBehind (c :: word) rest

/-- A phrase : the words of a text with blanks between them. -/
def phrase (text : String) : Printed := wordsBehind [] text.toList

def parenthesized (p : Printed) : Printed := Printed.enclosed .parenthesis p

def bracketed (p : Printed) : Printed := Printed.enclosed .bracket p

def braced (p : Printed) : Printed := Printed.enclosed .brace p

/-- Phrases with commas between them. -/
def commaBetween : List Printed → Printed
  | [] => []
  | [p] => p
  | p :: rest => p ++ "," :: commaBetween rest

/-- A branch of a choice. -/
def branch (pattern result : Printed) : Printed := pattern ++ ["=", ">"] ++ result ++ [","]

/-- A choice between branches. -/
def choice (value : String) (branches : List Printed) : Printed :=
  ["match", value] ++ braced branches.flatten

end FlatUnion.Derive
