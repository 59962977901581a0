import FlatUnion.Code.Lexer

/-!
# Parsers of tokens

A parser takes tokens off the front of what is left, or complains. Complaints at the end of the
tokens say so. The tokens of a group are read by a parser of their own (`inside`), and a group that
is not read to its end is no complaint yet : the whole is read first, and only then the first such
group is complained about (`parseAll`).
-/

namespace FlatUnion.Code

/-- What a parser complains about. -/
inductive Problem
  /-- None of the things that could stand here does. -/
  | expected (things : List String)
  | foundKeyword (name : String)
  /-- Tokens that nothing was made of, in a group or outside of all. -/
  | leftover (group : Option Delimiter)
  | other (text : String)
  /-- The text has no tokens. -/
  | noTokens
  deriving DecidableEq, Repr

/-- A problem, and whether it lies behind the last token. -/
structure Complaint where
  problem : Problem
  atEnd : Bool := false
  deriving DecidableEq, Repr

/-- The words of a problem. -/
def Problem.message : Problem → String
  | .expected [] => "unexpected token"
  | .expected [a] => "expected " ++ a
  | .expected [a, b] => "expected " ++ a ++ " or " ++ b
  | .expected things => "expected one of: " ++ ", ".intercalate things
  | .foundKeyword name => "expected identifier, found keyword `" ++ name ++ "`"
  | .leftover none => "unexpected token"
  | .leftover (some d) => "unexpected token, expected `" ++ d.closing ++ "`"
  | .other text => text
  | .noTokens => "cannot parse string into token stream"

/-- The words of a complaint. -/
def Complaint.message (c : Complaint) : String :=
  if c.atEnd then
    match c.problem with
    | .expected [] => "unexpected end of input"
    | p => "unexpected end of input, " ++ p.message
  else c.problem.message

/-- What is left to read, and the first group that was left before its end. -/
structure Input where
  rest : List Token
  leftover : Option Delimiter := none

/-- A parser of tokens. -/
abbrev Parser := StateT Input (Except Complaint)

namespace Parser

variable {α : Type}

/-- The tokens that are left. -/
def rest : Parser (List Token) := do return (← get).rest

/-- Goes on with other tokens. -/
def setRest (ts : List Token) : Parser Unit := modify fun i => { i with rest := ts }

/-- Complains about the place in front of the next token. -/
def fail (p : Problem) : Parser α := do throw ⟨p, (← rest).isEmpty⟩

/-- Complains that something is missing. -/
def expected (thing : String) : Parser α := fail (.expected [thing])

/-- Whether nothing is left. -/
def atEnd : Parser Bool := do return (← rest).isEmpty

end Parser

/-! ## Looking ahead -/

/-- The words that are not names. -/
def keywords : List String :=
  ["_", "abstract", "as", "async", "await", "become", "box", "break", "const", "continue", "crate",
   "do", "dyn", "else", "enum", "extern", "false", "final", "fn", "for", "if", "impl", "in", "let",
   "loop", "macro", "match", "mod", "move", "mut", "override", "priv", "pub", "ref", "return",
   "Self", "self", "static", "struct", "super", "trait", "true", "try", "type", "typeof", "unsafe",
   "unsized", "use", "virtual", "where", "while", "yield"]

/-- The words that stand for a place in a path. -/
def placeWords : List String := ["super", "self", "Self", "crate"]

/-- Whether tokens begin with a given word. -/
def isWord (word : String) : List Token → Bool
  | .ident name :: _ => name = word
  | _ => false

/-- Whether tokens begin with a name. -/
def isName : List Token → Bool
  | .ident name :: _ => !keywords.contains name
  | _ => false

/-- Whether tokens begin with a name or a keyword. -/
def isAnyWord : List Token → Bool
  | .ident _ :: _ => true
  | _ => false

def isLifetime : List Token → Bool
  | .lifetime _ :: _ => true
  | _ => false

/-- Whether tokens begin with a group. -/
def isGroup (d : Delimiter) : List Token → Bool
  | .group d' _ :: _ => d = d'
  | _ => false

/-- Whether tokens begin with a literal : a text, a number with or without a sign, or a truth
value. -/
def isLiteral : List Token → Bool
  | .literal _ :: _ => true
  | .punct '-' _ :: .literal text :: _ => (text.toList.head?.any Char.isDigit)
  | ts => isWord "true" ts || isWord "false" ts

/-- Whether tokens begin with the characters of an operator, written without a gap. -/
def isOperator : List Char → List Token → Bool
  | [], _ => true
  | [c], .punct c' _ :: _ => c = c'
  | c :: cs, .punct c' joint :: rest => c = c' && joint && isOperator cs rest
  | _ :: _, _ => false

/-- Whether tokens begin with an operator. -/
def isPunct (operator : String) (ts : List Token) : Bool := isOperator operator.toList ts

namespace Parser

variable {α : Type}

/-- Whether the tokens that are left look in a certain way. -/
def next (look : List Token → Bool) : Parser Bool := do return look (← rest)

/-- Takes some tokens. -/
def take (n : Nat) : Parser (List Token) := do
  let ts ← rest
  setRest (ts.drop n)
  return ts.take n

/-- Takes an operator. -/
def punct (operator : String) : Parser (List Token) := do
  if ← next (isPunct operator) then take operator.length
  else throw ⟨.expected ["`" ++ operator ++ "`"], false⟩

/-- Takes a word. -/
def word (word : String) : Parser (List Token) := do
  if ← next (isWord word) then take 1 else expected ("`" ++ word ++ "`")

/-- Takes a name. -/
def name : Parser String := do
  match ← rest with
  | .ident name :: ts =>
    if keywords.contains name then fail (.foundKeyword name)
    else
      setRest ts
      return name
  | _ => expected "identifier"

/-- Takes a name or a keyword. -/
def anyWord : Parser String := do
  match ← rest with
  | .ident name :: ts =>
    setRest ts
    return name
  | _ => expected "ident"

/-- Takes a lifetime. -/
def lifetime : Parser String := do
  match ← rest with
  | .lifetime name :: ts =>
    setRest ts
    return name
  | _ => expected "lifetime"

/-- Reads the tokens of a group. -/
def inside (d : Delimiter) (p : Parser α) : Parser α := do
  match ← rest with
  | .group d' inner :: ts =>
    if d = d' then
      modify fun i => { i with rest := inner }
      let x ← p
      let left ← rest
      modify fun i =>
        { rest := ts, leftover := i.leftover.or (if left.isEmpty then none else some d) }
      return x
    else expected d.name
  | _ => expected d.name

/-- Reads at most `n` parts with commas between them. -/
def someSeparated (p : Parser α) : (n : Nat) → Parser (List α × Bool)
  | 0 => return ([], false)
  | n + 1 => do
    if ← atEnd then return ([], false)
    let x ← p
    if ← atEnd then return ([x], false)
    let _ ← punct ","
    if ← atEnd then return ([x], true)
    let (xs, trailing) ← someSeparated p n
    return (x :: xs, trailing)

/-- Reads parts with commas between them up to the end, and says whether there is a comma behind the
last one. Every part takes a token at least, so there are no more parts than tokens. -/
def commaSeparated (p : Parser α) : Parser (List α × Bool) := do
  someSeparated p ((← rest).length + 1)

end Parser

/-- Reads all of some tokens. -/
def parseTokens {α : Type} (p : Parser α) (tokens : List Token) : Except Complaint α := do
  let (x, left) ← p.run { rest := tokens }
  match left.leftover with
  | some d => throw ⟨.leftover (some d), false⟩
  | none => if left.rest.isEmpty then return x else throw ⟨.leftover none, false⟩

/-- Reads all of a text. -/
def parseAll {α : Type} (p : Parser α) (text : String) : Except Complaint α :=
  match tokens? text with
  | none => throw ⟨.noTokens, false⟩
  | some tokens => parseTokens p tokens

end FlatUnion.Code
