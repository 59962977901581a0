import FlatUnion.Code.Parser
import FlatUnion.Code.Piece

/-!
# Types, paths and expressions

The grammar of types, of the paths and bounds in them, and of a part of the expressions that lengths
and constant arguments are. Every parser gives the pieces of the code it has read, in the order in
which they are printed.

Of expressions there are literals, paths, macros, calls, indices, fields, casts, ranges, groups,
arrays, blocks, and operators between them. There are none that control what is done next, such as
conditions, choices, loops and closures, no values of structures by the names of their fields, and
blocks hold expressions alone, no declarations. Code with any of these is complained about.

The grammar is recursive, so each rule carries the number of rules that may be entered below it. The
parsers at the end of the module start with more of them than the tokens that are left can use up.
-/

namespace FlatUnion.Code

open FlatUnion.Code.Parser

/-- An operator as pieces. -/
def operator (s : String) : Parser (List Piece) := do return tokenPieces (← punct s)

def wordPiece (s : String) : Parser (List Piece) := do return tokenPieces (← word s)

/-- A word, if it comes next. -/
def optionalWord (s : String) : Parser (List Piece) := do
  if ← next (isWord s) then wordPiece s else return []

/-- What is said where no type can begin. -/
def typeBeginnings : List String :=
  ["`for`", "parentheses", "`fn`", "`unsafe`", "`extern`", "identifier", "`::`", "`<`", "`dyn`",
   "square brackets", "`*`", "`&`", "`!`", "`impl`", "`_`", "lifetime"]

/-- What is said where no type can begin behind a binder. -/
def boundTypeBeginnings : List String :=
  ["identifier", "`fn`", "`unsafe`", "`extern`", "`super`", "`self`", "`Self`", "`crate`"]

def isPlaceWord (ts : List Token) : Bool := placeWords.any (isWord · ts)

def isFunctionWord (ts : List Token) : Bool :=
  ["fn", "unsafe", "extern"].any (isWord · ts)

/-- Whether a bound may begin behind a plus. -/
def isBoundNext (ts : List Token) : Bool :=
  isAnyWord ts || isPunct "::" ts || isPunct "?" ts || isLifetime ts || isGroup .parenthesis ts

/-- The operators between two expressions. -/
def binaryOperators : List String :=
  ["<<=", ">>=", "&&", "||", "<<", ">>", "==", "<=", "!=", ">=", "+=", "-=", "*=", "/=", "%=", "^=",
   "&=", "|=", "+", "-", "*", "/", "%", "^", "&", "|", "<", ">"]

/-- Whether a path has no arguments. -/
def isBare : Piece → Bool
  | .path _ _ segments => segments.all fun s => s.2.isEmpty
  | _ => false

/-- Whether the last segment of a path has arguments. -/
def endsWithArguments (segments : List (String × List Piece)) : Bool :=
  segments.getLast?.any fun s => !s.2.isEmpty

/-- Puts what is read between delimiters. -/
def enclosed (d : Delimiter) (p : Parser (List Piece)) : Parser (List Piece) := do
  return [.group d (← p)]

/-- A literal, with the sign in front of it. -/
def literal : Parser (List Piece) := do
  let signed ← next (isPunct "-")
  return tokenPieces (← take (if signed then 2 else 1))

/-- Reads a path without arguments, such as that of an attribute or of a module. -/
def barePath : Parser Piece := do
  let leading ← next (isPunct "::")
  if leading then
    let _ ← punct "::"
  let segments ← go ((← rest).length)
  match segments with
  | [] =>
    let first ← name
    return .path .plain leading [(first, [])]
  | segments => return .path .plain leading (segments.map fun s => (s, []))
where
  go : (n : Nat) → Parser (List String)
    | 0 => return []
    | n + 1 => do
      if ← next (fun ts => isName ts || isPlaceWord ts) then
        let s ← anyWord
        if ← next (isPunct "::") then
          let _ ← punct "::"
          match ← go n with
          | [] => fail (.other "expected path segment after `::`")
          | more => return s :: more
        else return [s]
      else return []

/-- The tokens of a macro behind its exclamation mark. -/
def macroTokens : Parser (List Piece) := do
  match ← rest with
  | .group d ts :: _ =>
    let _ ← take 1
    return [.token (.group d ts)]
  | _ => expected "delimiter"

/-- The complaint about bounds none of which is a trait. -/
def onlyLifetimes {α : Type} (text : String) : Parser α := throw ⟨.other text, false⟩

/-- The complaint about code that goes deeper than the rules that may be entered. -/
def tooDeep {α : Type} : Parser α := fail (.other "code is nested too deep")

mutual

/-- A type. If `plus` holds it may be a sum of bounds. -/
def type (plus : Bool) : (fuel : Nat) → Parser (List Piece)
  | 0 => tooDeep
  | n + 1 => do
    let bound ← next (isWord "for")
    let binder ← if bound then binder n else pure []
    if bound then
      if !(← next fun ts => isName ts || isFunctionWord ts || isPlaceWord ts) then
        fail (.expected boundTypeBeginnings)
    let ts ← rest
    if isGroup .parenthesis ts then parenthesized plus n
    else if isFunctionWord ts then return binder ++ (← functionPointer n)
    else if isName ts || isPlaceWord ts || isPunct "::" ts || isPunct "<" ts then
      let (code, qualified) ← qualifiedPath false .type n
      if qualified then return code
      else pathType plus binder code n
    else if isWord "dyn" ts then
      let word ← wordPiece "dyn"
      let (code, traits) ← bounds plus n
      if traits then return word ++ code
      else onlyLifetimes "at least one trait is required for an object type"
    else if isGroup .bracket ts then
      enclosed .bracket (inside .bracket do
        let element ← type true n
        if ← next (isPunct ";") then
          let _ ← punct ";"
          let length ← expression n
          return element ++ .punct ';' :: length
        else return element)
    else if isPunct "*" ts then
      let star ← operator "*"
      if ← next (isWord "const") then return star ++ (← wordPiece "const") ++ (← type false n)
      else if ← next (isWord "mut") then return star ++ (← wordPiece "mut") ++ (← type false n)
      else fail (.expected ["`const`", "`mut`"])
    else if isPunct "&" ts then
      let mark ← operator "&"
      let life : List Piece ←
        if ← next isLifetime then pure [.lifetime (← lifetime)] else pure []
      let word ← optionalWord "mut"
      return mark ++ life ++ word ++ (← type false n)
    else if isPunct "!" ts && !isPunct "!=" ts then operator "!"
    else if isWord "impl" ts then
      let word ← wordPiece "impl"
      let (code, traits) ← bounds plus n
      if traits then return word ++ code
      else onlyLifetimes "at least one trait must be specified"
    else if isWord "_" ts then wordPiece "_"
    else if isLifetime ts then
      let (code, traits) ← bounds plus n
      if traits then return code
      else onlyLifetimes "at least one trait is required for an object type"
    else fail (.expected typeBeginnings)

/-- A type that begins with a path : the path itself, a macro, or a sum of bounds. -/
def pathType (plus : Bool) (binder path : List Piece) : (fuel : Nat) → Parser (List Piece)
  | 0 => tooDeep
  | n + 1 => do
    let ts ← rest
    if isPunct "!" ts && !isPunct "!=" ts && path.all isBare then
      let mark ← operator "!"
      return path.map (Piece.inRole .plain) ++ mark ++ (← macroTokens)
    else if !binder.isEmpty || (plus && isPunct "+" ts) then
      let more ← if plus then moreBounds n else pure []
      return binder ++ path.map (Piece.inRole .plain) ++ more
    else return path

/-- What stands in parentheses : a tuple, a type, or a bound that others may follow. -/
def parenthesized (plus : Bool) : (fuel : Nat) → Parser (List Piece)
  | 0 => tooDeep
  | n + 1 => do
    let (code, isBound) ← inside .parenthesis do
      if ← atEnd then return ([], false)
      else if ← next (isPunct "?") then return (← traitBound n, true)
      else
        let first ← type true n
        if ← next (isPunct ",") then
          let _ ← punct ","
          let (others, trailing) ← commaSeparated (type true n)
          let items := first :: others
          return (commaPieces (trailing || others.isEmpty) items, false)
        else return (first, false)
    let follows := plus && (← next (isPunct "+"))
    match code with
    | [.path .type leading segments] =>
      if follows then
        return .group .parenthesis [.path .plain leading segments] :: (← moreBounds n)
      else return [.group .parenthesis code]
    | _ =>
      if isBound then return .group .parenthesis code :: (← moreBounds n)
      else return [.group .parenthesis code]

/-- The bounds behind the first one, each with the plus in front of it. -/
def moreBounds : (fuel : Nat) → Parser (List Piece)
  | 0 => tooDeep
  | n + 1 => do
    if ← next (isPunct "+") then
      let plus ← operator "+"
      if ← next isBoundNext then
        let (code, _) ← bound n
        return plus ++ code ++ (← moreBounds n)
      else return plus
    else return []

/-- Bounds with a plus between them, and whether one of them is a trait. Only the first is read if
`plus` does not hold. -/
def bounds (plus : Bool) : (fuel : Nat) → Parser (List Piece × Bool)
  | 0 => tooDeep
  | n + 1 => do
    let (code, isTrait) ← bound n
    if plus && (← next (isPunct "+")) then
      let mark ← operator "+"
      if ← next isBoundNext then
        let (more, traits) ← bounds plus n
        return (code ++ mark ++ more, isTrait || traits)
      else return (code ++ mark, isTrait)
    else return (code, isTrait)

/-- Bounds with a plus between them, up to something that ends them. -/
def boundsUntil (stop : List Token → Bool) : (fuel : Nat) → Parser (List Piece)
  | 0 => tooDeep
  | n + 1 => do
    if ← next stop then return []
    else
      let (code, _) ← bound n
      if ← next (isPunct "+") then
        let mark ← operator "+"
        return code ++ mark ++ (← boundsUntil stop n)
      else return code

/-- A lifetime or a trait, and whether it is a trait. -/
def bound : (fuel : Nat) → Parser (List Piece × Bool)
  | 0 => tooDeep
  | n + 1 => do
    if ← next isLifetime then return ([.lifetime (← lifetime)], false)
    else if ← next (isGroup .parenthesis) then
      return (← enclosed .parenthesis (inside .parenthesis (traitBound n)), true)
    else return (← traitBound n, true)

/-- A trait, with the lifetimes that are bound for it. -/
def traitBound : (fuel : Nat) → Parser (List Piece)
  | 0 => tooDeep
  | n + 1 => do
    let before ← if ← next (isWord "for") then binder n else pure []
    let mark ← if ← next (isPunct "?") then operator "?" else pure []
    let after ←
      if before.isEmpty && (← next (isWord "for")) then binder n else pure []
    let trait ← path false .plain n
    let called := fun ts =>
      isGroup .parenthesis ts || (isPunct "::" ts && isGroup .parenthesis (ts.drop 2))
    match trait with
    | .path role leading segments =>
      if !endsWithArguments segments && (← next called) then
        if ← next (isPunct "::") then
          let _ ← punct "::"
        let arguments ← inside .parenthesis do
          let (types, trailing) ← commaSeparated (type true n)
          return commaPieces trailing types
        let result ← returnType n
        return before ++ mark ++ after ++
          [(Piece.path role leading segments).applied (.group .parenthesis arguments :: result)]
      else return before ++ mark ++ after ++ [trait]
    | trait => return before ++ mark ++ after ++ [trait]

/-- The lifetimes bound for a type or a trait. -/
def binder : (fuel : Nat) → Parser (List Piece)
  | 0 => tooDeep
  | n + 1 => do
    let word ← wordPiece "for"
    let (params, trailing) ← parameters n
    return word ++ .punct '<' :: commaPieces trailing (params.map Param.pieces) ++ [.punct '>']

/-- Generic parameters in angle brackets, and whether there is a comma behind the last one. -/
def parameters : (fuel : Nat) → Parser (List Param × Bool)
  | 0 => tooDeep
  | n + 1 => do
    let _ ← punct "<"
    let ps ← moreParameters n
    let _ ← punct ">"
    return ps

/-- The parameters up to the closing angle bracket. -/
def moreParameters : (fuel : Nat) → Parser (List Param × Bool)
  | 0 => tooDeep
  | n + 1 => do
    if ← next (isPunct ">") then return ([], false)
    else
      let p ← parameter n
      if ← next (isPunct ">") then return ([p], false)
      else
        let _ ← punct ","
        let (ps, trailing) ← moreParameters n
        return (p :: ps, trailing || ps.isEmpty)

/-- A generic parameter. -/
def parameter : (fuel : Nat) → Parser Param
  | 0 => tooDeep
  | n + 1 => do
    let attributes ← attributes n
    let ts ← rest
    let close := fun ts => isPunct "," ts || isPunct ">" ts
    if isLifetime ts then
      let name ← lifetime
      if ← next (isPunct ":") then
        let _ ← punct ":"
        return { kind := .lifetime, name, attributes, bounds := ← lifetimeBounds close n }
      else return { kind := .lifetime, name, attributes }
    else if isName ts then
      let name ← name
      let bounds ←
        if ← next (isPunct ":") then
          let _ ← punct ":"
          boundsUntil (fun ts => close ts || isPunct "=" ts) n
        else pure []
      if ← next (isPunct "=") then
        let _ ← punct "="
        return { kind := .type, name, attributes, bounds, default := some (← type true n) }
      else return { kind := .type, name, attributes, bounds }
    else if isWord "const" ts then
      let _ ← take 1
      let name ← name
      let _ ← punct ":"
      let type ← type true n
      if ← next (isPunct "=") then
        let _ ← punct "="
        let default ← constArgument n
        return { kind := .const, name, attributes, bounds := type, default := some default }
      else return { kind := .const, name, attributes, bounds := type }
    else if isWord "_" ts then
      return { kind := .type, name := ← anyWord, attributes }
    else fail (.expected ["lifetime", "identifier", "`const`"])

/-- Lifetimes with a plus between them, up to something that ends them. -/
def lifetimeBounds (stop : List Token → Bool) : (fuel : Nat) → Parser (List Piece)
  | 0 => tooDeep
  | n + 1 => do
    if ← next stop then return []
    else
      let life := Piece.lifetime (← lifetime)
      if ← next (isPunct "+") then
        let mark ← operator "+"
        return life :: mark ++ (← lifetimeBounds stop n)
      else return [life]

/-- The type of a result, if there is an arrow. -/
def returnType : (fuel : Nat) → Parser (List Piece)
  | 0 => tooDeep
  | n + 1 => do
    if ← next (isPunct "->") then return (← operator "->") ++ (← type false n) else return []

/-- A pointer to a function. -/
def functionPointer : (fuel : Nat) → Parser (List Piece)
  | 0 => tooDeep
  | n + 1 => do
    let safety ← optionalWord "unsafe"
    let abi : List Piece ←
      if ← next (isWord "extern") then
        let word ← wordPiece "extern"
        match ← rest with
        | .literal text :: _ =>
          if text.startsWith "\"" then pure (word ++ (← literal)) else pure word
        | _ => pure word
      else pure []
    let word ← wordPiece "fn"
    let arguments ← enclosed .parenthesis (inside .parenthesis do
      let (items, trailing) ← commaSeparated (functionArgument n)
      return commaPieces trailing items)
    return safety ++ abi ++ word ++ arguments ++ (← returnType n)

/-- An argument of a pointer to a function, which may be named. -/
def functionArgument : (fuel : Nat) → Parser (List Piece)
  | 0 => tooDeep
  | n + 1 => do
    let attributes := ((← attributes n).map Attribute.pieces).flatten
    let ts ← rest
    let behind := ts.drop 1
    if isPunct "..." ts then return attributes ++ (← operator "...")
    else if (isName ts || isWord "_" ts || isWord "self" ts) &&
        isPunct ":" behind && !isPunct "::" behind then
      let named := tokenPieces (← take 2)
      if ← next (isPunct "...") then return attributes ++ named ++ (← operator "...")
      else return attributes ++ named ++ (← type true n)
    else return attributes ++ (← type true n)

/-- A path. In an expression its arguments must follow colons. -/
def path (inExpression : Bool) (role : PathRole) : (fuel : Nat) → Parser Piece
  | 0 => tooDeep
  | n + 1 => do
    let leading ← next (isPunct "::")
    if leading then
      let _ ← punct "::"
    return .path role leading (← segments inExpression n)

/-- The segments of a path. -/
def segments (inExpression : Bool) : (fuel : Nat) → Parser (List (String × List Piece))
  | 0 => tooDeep
  | n + 1 => do
    let s ← segment inExpression n
    if ← next (fun ts => isPunct "::" ts && !isGroup .parenthesis (ts.drop 2)) then
      let _ ← punct "::"
      return s :: (← segments inExpression n)
    else return [s]

/-- A segment of a path, with its arguments. -/
def segment (inExpression : Bool) : (fuel : Nat) → Parser (String × List Piece)
  | 0 => tooDeep
  | n + 1 => do
    let ts ← rest
    if isWord "super" ts || isWord "self" ts || isWord "crate" ts || isWord "try" ts then
      return (← anyWord, [])
    else
      let s ← if isWord "Self" ts then anyWord else name
      let ts ← rest
      if (!inExpression && isPunct "<" ts && !isPunct "<=" ts) ||
          (isPunct "::" ts && isPunct "<" (ts.drop 2)) then
        return (s, ← arguments n)
      else return (s, [])

/-- Arguments in angle brackets, with the colons in front of them. -/
def arguments : (fuel : Nat) → Parser (List Piece)
  | 0 => tooDeep
  | n + 1 => do
    let colons ← if ← next (isPunct "::") then operator "::" else pure []
    let _ ← punct "<"
    let (items, trailing) ← moreArguments n
    let _ ← punct ">"
    let comma := trailingComma (·.1) items trailing
    return colons ++
      .punct '<' :: commaPieces comma ((lifetimesFirst (·.1) items).map (·.2)) ++ [.punct '>']

/-- The arguments up to the closing angle bracket, with whether each is a lifetime. -/
def moreArguments : (fuel : Nat) → Parser (List (Bool × List Piece) × Bool)
  | 0 => tooDeep
  | n + 1 => do
    if ← next (isPunct ">") then return ([], false)
    else
      let x ← argument n
      if ← next (isPunct ">") then return ([x], false)
      else
        let _ ← punct ","
        let (xs, trailing) ← moreArguments n
        return (x :: xs, trailing || xs.isEmpty)

/-- A generic argument : a lifetime, a constant, a type, or what an associated type is or is bound
by. -/
def argument : (fuel : Nat) → Parser (Bool × List Piece)
  | 0 => tooDeep
  | n + 1 => do
    let ts ← rest
    if isLifetime ts && !isPunct "+" (ts.drop 1) then return (true, [.lifetime (← lifetime)])
    else if isLiteral ts || isGroup .brace ts then return (false, ← constArgument n)
    else
      let code ← type true n
      match code with
      | [.path .type false [(name, arguments)]] =>
        let associated := .word name :: arguments
        if ← next (isPunct "=") then
          let mark ← operator "="
          let value ←
            if ← next (fun ts => isLiteral ts || isGroup .brace ts) then constArgument n
            else type true n
          return (false, associated ++ mark ++ value)
        else if ← next (isPunct ":") then
          let mark ← operator ":"
          let stop := fun ts => isPunct "," ts || isPunct ">" ts
          return (false, associated ++ mark ++ (← boundsUntil stop n))
        else return (false, code)
      | code => return (false, code)

/-- A path that may begin with a type in angle brackets, and whether it does. -/
def qualifiedPath (inExpression : Bool) (role : PathRole) :
    (fuel : Nat) → Parser (List Piece × Bool)
  | 0 => tooDeep
  | n + 1 => do
    if ← next (isPunct "<") then
      let opening ← operator "<"
      let self ← type true n
      let trait ←
        if ← next (isWord "as") then
          let word ← wordPiece "as"
          pure (word ++ [← path false .qualified n])
        else pure []
      let closing ← operator ">"
      let _ ← punct "::"
      let behind := Piece.path .qualified true (← segments inExpression n)
      return (opening ++ self ++ trait ++ closing ++ [behind], true)
    else return ([← path inExpression role n], false)

/-- The value of a constant parameter : a literal, a name, or a block. -/
def constArgument : (fuel : Nat) → Parser (List Piece)
  | 0 => tooDeep
  | n + 1 => do
    let ts ← rest
    if isLiteral ts then literal
    else if isName ts then return [.name (← name)]
    else if isGroup .brace ts then block n
    else fail (.expected [])

-- Expressions.

/-- An expression of the part that the grammar has. As pieces are not nested by operators, their
ranks do not matter. -/
def expression : (fuel : Nat) → Parser (List Piece)
  | 0 => tooDeep
  | n + 1 => do
    let first ← operand n
    return first ++ (← moreOperands n)

/-- The operators behind an operand, with their other operands. -/
def moreOperands : (fuel : Nat) → Parser (List Piece)
  | 0 => tooDeep
  | n + 1 => do
    let ts ← rest
    match binaryOperators.find? (isPunct · ts) with
    | some s =>
      let mark ← operator s
      let second ← operand n
      return mark ++ second ++ (← moreOperands n)
    | none =>
      if isPunct "=" ts && !isPunct "=>" ts then
        let mark ← operator "="
        return mark ++ (← expression n)
      else if isWord "as" ts then
        let word ← wordPiece "as"
        let code ← type false n
        return word ++ code ++ (← moreOperands n)
      else if isPunct ".." ts then
        let mark ← operator (if isPunct "..=" ts then "..=" else "..")
        if ← atEnd then return mark else return mark ++ (← expression n)
      else return []

/-- An operand, with the operators in front of it and what is done to it. -/
def operand : (fuel : Nat) → Parser (List Piece)
  | 0 => tooDeep
  | n + 1 => do
    let attributes := ((← attributes n).map Attribute.pieces).flatten
    let ts ← rest
    if isPunct "&" ts then
      let mark ← operator "&"
      let word ← optionalWord "mut"
      return attributes ++ mark ++ word ++ (← operand n)
    else
      match ["*", "!", "-"].find? (isPunct · ts) with
      | some s =>
        let mark ← operator s
        return attributes ++ mark ++ (← operand n)
      | none =>
        let first ← atom n
        return attributes ++ first ++ (← trailers n)

/-- Calls, indices, fields and question marks behind an operand. -/
def trailers : (fuel : Nat) → Parser (List Piece)
  | 0 => tooDeep
  | n + 1 => do
    let ts ← rest
    if isGroup .parenthesis ts then
      let call ← enclosed .parenthesis (inside .parenthesis do
        let (items, trailing) ← commaSeparated (expression n)
        return commaPieces trailing items)
      return call ++ (← trailers n)
    else if isGroup .bracket ts then
      let index ← enclosed .bracket (inside .bracket (expression n))
      return index ++ (← trailers n)
    else if isPunct "?" ts then
      let mark ← operator "?"
      return mark ++ (← trailers n)
    else if isPunct "." ts && !isPunct ".." ts then
      let mark ← operator "."
      let member : List Piece ←
        match ← rest with
        | .literal text :: _ =>
          let _ ← take 1
          pure [.token (.literal text)]
        | ts =>
          if isWord "await" ts then wordPiece "await" else pure [.word (← name)]
      let turbofish ←
        if ← next (isPunct "::") then arguments n else pure []
      return mark ++ member ++ turbofish ++ (← trailers n)
    else return []

/-- An operand itself : a literal, a path, a macro, or what stands between delimiters. -/
def atom : (fuel : Nat) → Parser (List Piece)
  | 0 => tooDeep
  | n + 1 => do
    let ts ← rest
    if isLiteral ts then literal
    else if isName ts || isPlaceWord ts || isPunct "::" ts || isPunct "<" ts then
      let (code, qualified) ← qualifiedPath true .plain n
      let ts ← rest
      if !qualified && isPunct "!" ts && !isPunct "!=" ts && code.all isBare then
        let mark ← operator "!"
        return code ++ mark ++ (← macroTokens)
      else return code
    else if isGroup .parenthesis ts then
      enclosed .parenthesis (inside .parenthesis do
        let (items, trailing) ← commaSeparated (expression n)
        return commaPieces trailing items)
    else if isGroup .bracket ts then
      enclosed .bracket (inside .bracket (elements n))
    else if isGroup .brace ts then block n
    else if isWord "_" ts then wordPiece "_"
    else if isWord "unsafe" ts || isWord "const" ts then
      let word := tokenPieces (← take 1)
      return word ++ (← block n)
    else expected "an expression"

/-- The elements of an array, or one element and how often it is repeated. -/
def elements : (fuel : Nat) → Parser (List Piece)
  | 0 => tooDeep
  | n + 1 => do
    if ← atEnd then return []
    else
      let first ← expression n
      if ← next (isPunct ";") then
        let mark ← operator ";"
        return first ++ mark ++ (← expression n)
      else if ← atEnd then return first
      else
        let _ ← punct ","
        let (items, trailing) ← commaSeparated (expression n)
        return commaPieces (trailing || items.isEmpty) (first :: items)

/-- A block, which holds expressions alone. -/
def block : (fuel : Nat) → Parser (List Piece)
  | 0 => tooDeep
  | n + 1 => enclosed .brace (inside .brace (statements n))

/-- The statements of a block : expressions with semicolons between them, and no declarations. -/
def statements : (fuel : Nat) → Parser (List Piece)
  | 0 => tooDeep
  | n + 1 => do
    if ← atEnd then return []
    else if ← next (isPunct ";") then return (← operator ";") ++ (← statements n)
    else
      let code ← expression n
      if ← atEnd then return code
      else if ← next (isPunct ";") then return code ++ (← operator ";") ++ (← statements n)
      else fail (.other "unexpected token, expected `;`")

-- Attributes.

/-- The attributes in front of something. -/
def attributes : (fuel : Nat) → Parser (List Attribute)
  | 0 => tooDeep
  | n + 1 => do
    if ← next (isPunct "#") then
      let _ ← punct "#"
      let a ← inside .bracket (attributeBody n)
      return a :: (← attributes n)
    else return []

/-- What stands in the brackets of an attribute. -/
def attributeBody : (fuel : Nat) → Parser Attribute
  | 0 => tooDeep
  | n + 1 => do
    let path ←
      if ← next (isWord "unsafe") then pure (Piece.name (← anyWord)) else barePath
    match ← rest with
    | .group d tokens :: _ =>
      let _ ← take 1
      return ⟨path, .list d tokens⟩
    | ts =>
      if isPunct "=" ts && !isPunct "==" ts then
        let _ ← punct "="
        if ← next (fun ts => isPunct "#" ts && isGroup .bracket (ts.drop 1)) then
          fail (.other "unexpected attribute inside of attribute")
        return ⟨path, .value (← expression n)⟩
      else return ⟨path, .nothing⟩

end

end FlatUnion.Code
