import FlatUnion.Code.Grammar

/-!
# Generic parameters and where clauses

The parameters of a generic item are printed in three ways : as they were declared, at the head of
an implementation, and as arguments of the item's own type. Lifetimes always come first.

A lifetime can be added in front of the parameters (`Generics.withLifetime?`). Its name is the first
free one of a hint, the letters, and as many numbered names as there are parameters, and one more :
one of the latter is always free.
-/

namespace FlatUnion.Code

open FlatUnion.Code.Parser

/-- The parameters of a generic item. -/
structure Generics where
  params : List Param := []
  /-- Whether there is a comma behind the last one. -/
  trailing : Bool := false

/-- The predicates of a where clause. -/
structure WhereClause where
  predicates : List (List Piece) := []
  /-- Whether there is a comma behind the last one. -/
  trailing : Bool := false

/-! ## Reading -/

/-- Gives a rule of the grammar more rules below it than the tokens that are left can use. -/
def withFuel {α : Type} (rule : (fuel : Nat) → Parser α) : Parser α := do
  rule (16 * (weigh (← rest) + 2))

/-- Reads a type. -/
def parseType : Parser (List Piece) := withFuel (type true)

/-- Reads a path. -/
def parsePath : Parser Piece := withFuel (path false .plain)

/-- Reads an expression. -/
def parseExpression : Parser (List Piece) := withFuel expression

/-- Reads the attributes in front of something. -/
def parseAttributes : Parser (List Attribute) := withFuel attributes

/-- Reads generic parameters, if there are any. -/
def Generics.parse : Parser Generics := do
  if ← next (isPunct "<") then
    let (params, trailing) ← withFuel parameters
    return { params, trailing }
  else return {}

/-- Whether a where clause ends here. -/
private def isClauseEnd (ts : List Token) : Bool :=
  ts.isEmpty || isGroup .brace ts || isPunct "," ts || isPunct ";" ts || isPunct "=" ts ||
  (isPunct ":" ts && !isPunct "::" ts)

/-- Reads a predicate of a where clause : a lifetime or a type, and its bounds. -/
def parsePredicate : Parser (List Piece) := withFuel fun n => do
  if ← next (fun ts => isLifetime ts && isPunct ":" (ts.drop 1)) then
    let life := Piece.lifetime (← lifetime)
    let colon := tokenPieces (← punct ":")
    return life :: colon ++ (← lifetimeBounds isClauseEnd n)
  else
    let before ← if ← next (isWord "for") then binder n else pure []
    let bounded ← type true n
    let colon := tokenPieces (← punct ":")
    return before ++ bounded ++ colon ++ (← boundsUntil isClauseEnd n)

namespace WhereClause

/-- Reads at most `n` predicates. -/
def parseSome : (n : Nat) → Parser (List (List Piece) × Bool)
  | 0 => return ([], false)
  | n + 1 => do
    if ← next isClauseEnd then return ([], false)
    let p ← parsePredicate
    if ← next (isPunct ",") then
      let _ ← punct ","
      let (ps, trailing) ← parseSome n
      return (p :: ps, trailing || ps.isEmpty)
    else return ([p], false)

/-- Whether generic parameters begin here, and not a type in angle brackets. -/
def beginsParameters (ts : List Token) : Bool :=
  let first := ts.drop 1
  let second := first.drop 1
  isPunct "<" ts &&
    (isPunct ">" first || isPunct "#" first || isWord "const" first ||
      ((isLifetime first || isName first) &&
        (isPunct ">" second || isPunct "," second || isPunct "=" second ||
          (isPunct ":" second && !isPunct "::" second))))

/-- What is said of a where clause at the front of which generic parameters begin. -/
def parametersReserved : Problem :=
  .other "generic parameters on `where` clauses are reserved for future use"

/-- Reads a where clause. -/
def parse : Parser WhereClause := do
  let _ ← word "where"
  if ← next beginsParameters then fail parametersReserved
  let (predicates, trailing) ← parseSome ((← rest).length + 1)
  return { predicates, trailing }

/-- Reads a where clause, if there is one. -/
def parse? : Parser (Option WhereClause) := do
  if ← next (isWord "where") then return some (← parse) else return none

/-! ## Where clauses -/

/-- The texts of a where clause, none if it has no predicates. -/
def printed (w : WhereClause) : Printed :=
  if w.predicates.isEmpty then []
  else printPieces (.word "where" :: commaPieces w.trailing w.predicates)

/-- Adds predicates behind those of a where clause. If there was none and nothing is added, there is
none still. A where clause of added predicates alone is read from their tokens, and there is none if
they look as if generic parameters began there. -/
def extend (clause : Option WhereClause) (more : List (List Piece)) :
    Except Complaint (Option WhereClause) :=
  match clause with
  | some w =>
    return some
      { predicates := w.predicates ++ more
        trailing := w.trailing && more.isEmpty }
  | none =>
    if more.isEmpty then return none
    else if beginsParameters (pieceTokens (commaPieces true more)) then
      throw ⟨parametersReserved, false⟩
    else return some { predicates := more, trailing := true }

/-- The texts of a where clause that may be missing. -/
def printed? (clause : Option WhereClause) : Printed := (clause.map printed).getD []

end WhereClause

/-! ## Parameters -/

namespace Generics

/-- The parameters in angle brackets, each printed in a given way. -/
def printedAs (print : Param → List Piece) (g : Generics) : Printed :=
  if g.params.isEmpty then []
  else
    printPieces
      (.punct '<' ::
        commaPieces (trailingComma Param.isLifetime g.params g.trailing)
          ((lifetimesFirst Param.isLifetime g.params).map print) ++
        [.punct '>'])

/-- The parameters as they were declared. -/
def printed (g : Generics) : Printed := g.printedAs Param.pieces

/-- The parameters at the head of an implementation. -/
def printedHead (g : Generics) : Printed := g.printedAs fun p => p.withoutDefault.pieces

/-- The parameters as arguments of the item's own type. -/
def printedArguments (g : Generics) : Printed := g.printedAs Param.asArgument

/-- The names of the lifetimes among the parameters. -/
def lifetimes (g : Generics) : List String := (g.params.filter Param.isLifetime).map (·.name)

/-- The names for a new lifetime, in the order in which they are tried. -/
def lifetimeNames (g : Generics) (hint : String) : List String :=
  hint :: "abcdefghijklmnopqrstuvwxyz".toList.map String.singleton ++
    (List.range (g.params.length + 1)).map fun i => "_" ++ toString i

/-- The first name for a new lifetime that is free. -/
def freshLifetime? (g : Generics) (hint : String) : Option String :=
  (g.lifetimeNames hint).find? fun name => !g.lifetimes.contains name

/-- Adds a new lifetime in front of the parameters. -/
def withLifetime? (g : Generics) (hint : String) : Option (Generics × String) :=
  (g.freshLifetime? hint).map fun name =>
    ({ g with params := { kind := .lifetime, name } :: g.params }, name)

end Generics

end FlatUnion.Code
