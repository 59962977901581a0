import FlatUnion.Code.Token

/-!
# Pieces of code

Code that has been read is a list of pieces : tokens, and among them the lifetimes and the paths,
which are known for what they are. A path knows its segments, and the code of the arguments behind
each. So a type is not taken apart further than it takes to say which names occur in it.

`printPieces` prints pieces, and `pieceTokens` gives their tokens where they are read once more.
`Attribute` and `Param` are the attributes of items and the parameters of generic ones.
-/

namespace FlatUnion.Code

/-- Where a path stands in code. -/
inductive PathRole
  /-- It is a type. -/
  | type
  /-- It is a trait, an expression, a macro, or the name of an attribute. -/
  | plain
  /-- It is the part of a longer path that begins with a type in angle brackets. -/
  | qualified
  deriving DecidableEq, Repr

/-- A piece of code. -/
inductive Piece
  | token (t : Token)
  | lifetime (name : String)
  | group (delimiter : Delimiter) (inside : List Piece)
  /-- A path, with the arguments behind each segment, and whether it begins with colons. -/
  | path (role : PathRole) (leading : Bool) (segments : List (String × List Piece))
  deriving Inhabited

/-- The colons between the segments of a path. -/
def pathSeparator : Printed := [":", ":"]

mutual

/-- The texts of a piece. -/
def Piece.printed : Piece → Printed
  | .token t => t.printed
  | .lifetime name => [lifetimeText name]
  | .group d inside => Printed.enclosed d (printPieces inside)
  | .path _ leading segments => (if leading then pathSeparator else []) ++ printSegments segments

/-- The texts of pieces. -/
def printPieces : List Piece → Printed
  | [] => []
  | p :: rest => p.printed ++ printPieces rest

def printSegments : List (String × List Piece) → Printed
  | [] => []
  | [(name, arguments)] => name :: printPieces arguments
  | (name, arguments) :: rest =>
    name :: printPieces arguments ++ pathSeparator ++ printSegments rest

end

/-- The tokens of the colons between the segments of a path. -/
def separatorTokens : List Token := [.punct ':' true, .punct ':' false]

mutual

/-- The tokens of a piece. -/
def Piece.tokens : Piece → List Token
  | .token t => [t]
  | .lifetime name => [.lifetime name]
  | .group d inside => [.group d (pieceTokens inside)]
  | .path _ leading segments => (if leading then separatorTokens else []) ++ segmentTokens segments

/-- The tokens of pieces. -/
def pieceTokens : List Piece → List Token
  | [] => []
  | p :: rest => p.tokens ++ pieceTokens rest

def segmentTokens : List (String × List Piece) → List Token
  | [] => []
  | [(name, arguments)] => .ident name :: pieceTokens arguments
  | (name, arguments) :: rest =>
    .ident name :: pieceTokens arguments ++ separatorTokens ++ segmentTokens rest

end

namespace Piece

/-- A punctuation character. -/
def punct (c : Char) : Piece := .token (.punct c false)

def word (name : String) : Piece := .token (.ident name)

/-- A path of one segment without arguments. -/
def name (name : String) : Piece := .path .plain false [(name, [])]

/-- The name that a path is, if it is nothing more. -/
def name? : Piece → Option String
  | .path _ false [(name, [])] => some name
  | _ => none

/-- A path that goes on. -/
def extend (names : List String) : Piece → Piece
  | .path role leading segments =>
    .path role leading (segments ++ names.map fun name => (name, []))
  | p => p

/-- A path with arguments behind its last segment. -/
def applied (arguments : List Piece) : Piece → Piece
  | .path role leading segments =>
    .path role leading
      (segments.dropLast ++ segments.getLast?.toList.map fun s => (s.1, arguments))
  | p => p

/-- A path in another role. -/
def inRole (role : PathRole) : Piece → Piece
  | .path _ leading segments => .path role leading segments
  | p => p

end Piece

/-- Pieces of tokens that stand for themselves. -/
def tokenPieces (ts : List Token) : List Piece := ts.map .token

/-! ## Lists with commas -/

/-- Pieces with commas between them, and behind the last one if there is a trailing comma. -/
def commaPieces (trailing : Bool) : List (List Piece) → List Piece
  | [] => []
  | [x] => x ++ if trailing then [.punct ','] else []
  | x :: rest => x ++ .punct ',' :: commaPieces trailing rest

/-- Parameters and arguments are printed with the lifetimes first. -/
def lifetimesFirst {α : Type} (isLifetime : α → Bool) (xs : List α) : List α :=
  xs.filter isLifetime ++ xs.filter fun x => !isLifetime x

/-- Whether there is a comma behind the last one when lifetimes are printed first. One that was not
the last has a comma of its own. -/
def trailingComma {α : Type} (isLifetime : α → Bool) (xs : List α) (trailing : Bool) : Bool :=
  trailing || (xs.getLast?.any isLifetime && xs.any fun x => !isLifetime x)

/-! ## Attributes -/

/-- What stands behind the name of an attribute. -/
inductive AttributeBody
  | nothing
  | list (delimiter : Delimiter) (tokens : List Token)
  | value (code : List Piece)

/-- An attribute of an item. -/
structure Attribute where
  path : Piece
  body : AttributeBody

/-- The code of an attribute. -/
def Attribute.pieces (a : Attribute) : List Piece :=
  let body : List Piece :=
    match a.body with
    | .nothing => []
    | .list d tokens => [.token (.group d tokens)]
    | .value code => .punct '=' :: code
  [.punct '#', .group .bracket (a.path :: body)]

/-! ## Parameters -/

/-- The kinds of generic parameters. -/
inductive ParamKind
  | lifetime
  | type
  | const
  deriving DecidableEq, Repr

/-- A generic parameter. What stands behind its colon are the bounds of a lifetime or a type, and
the type of a constant. -/
structure Param where
  kind : ParamKind
  name : String
  attributes : List Attribute := []
  bounds : List Piece := []
  default : Option (List Piece) := none

namespace Param

def isLifetime (p : Param) : Bool := p.kind = .lifetime

/-- The parameter without the value it has by default. -/
def withoutDefault (p : Param) : Param := { p with default := none }

/-- The parameter as it is passed on. -/
def asArgument (p : Param) : List Piece :=
  [match p.kind with
   | .lifetime => .lifetime p.name
   | _ => .word p.name]

/-- The code of a parameter. -/
def pieces (p : Param) : List Piece :=
  let bounds : List Piece := if p.bounds.isEmpty then [] else .punct ':' :: p.bounds
  let default : List Piece :=
    match p.default with
    | some code => .punct '=' :: code
    | none => []
  (p.attributes.map Attribute.pieces).flatten ++
    (if p.kind = .const then [.word "const"] else []) ++ p.asArgument ++ bounds ++ default

end Param

end FlatUnion.Code
