import FlatUnion.Code.IdentifierChars
import FlatUnion.Code.Token
import FlatUnion.Text.Quoted
import FlatUnion.Text.Utf8

/-!
# From text to tokens

A text is taken apart into tokens from the front. Each function looks at the front of a list of
characters and says how many of them belong to a token of its kind, if there is one. Blanks and
comments stand for nothing, comments that document an item stand for an attribute.

`tokens?` fails if a delimiter has no partner or if something is no token at all.
-/

namespace FlatUnion.Code

/-! ## Blanks and comments -/

/-- Whether a character is blank in code. The marks of text direction are. -/
def isBlank (c : Char) : Bool :=
  let n := c.toNat
  (9 ≤ n && n ≤ 13) || n = 0x20 || n = 0x85 || n = 0xa0 || n = 0x1680 ||
  (0x2000 ≤ n && n ≤ 0x200a) || n = 0x200e || n = 0x200f || n = 0x2028 || n = 0x2029 ||
  n = 0x202f || n = 0x205f || n = 0x3000

/-- The characters before the end of a line. -/
def lineLength : List Char → Nat
  | [] | '\n' :: _ | '\x0d' :: '\n' :: _ => 0
  | _ :: rest => lineLength rest + 1

/-- The length of a comment between `/*` and `*/`, in which others may be nested. `depth` of them
are open. -/
def blockLength : (depth : Nat) → List Char → Option Nat
  | depth, '/' :: '*' :: rest => (blockLength (depth + 1) rest).map (· + 2)
  | depth, '*' :: '/' :: rest =>
    if depth ≤ 1 then some 2 else (blockLength (depth - 1) rest).map (· + 2)
  | depth, _ :: rest => (blockLength depth rest).map (· + 1)
  | _, [] => none

/-- Whether a list begins with the characters of a text. -/
private def starts (s : String) (cs : List Char) : Bool := s.toList.isPrefixOf cs

/-- The length of a blank or of a comment that documents nothing. -/
def blankLength (cs : List Char) : Option Nat :=
  if starts "//" cs && (!starts "///" cs || starts "////" cs) && !starts "//!" cs then
    some (lineLength cs)
  else if starts "/**/" cs then some 4
  else if starts "/*" cs && (!starts "/**" cs || starts "/***" cs) && !starts "/*!" cs then
    blockLength 0 cs
  else
    match cs with
    | c :: _ => if isBlank c then some 1 else none
    | [] => none

/-- The attribute that holds a documenting comment, which may document the item around it. -/
def documentation (inner : Bool) (text : List Char) : List Token :=
  [.punct '#' false] ++ (if inner then [.punct '!' false] else []) ++
    [.group .bracket
      [.ident "doc", .punct '=' false, .literal (quoted (String.ofList text))]]

/-- Whether every carriage return is the first half of a line end. -/
def returnsPaired : List Char → Bool
  | [] => true
  | '\x0d' :: '\n' :: rest => returnsPaired rest
  | '\x0d' :: _ => false
  | _ :: rest => returnsPaired rest

/-- A documenting comment, and its length. -/
def documentation? (cs : List Char) : Option (List Token × Nat) :=
  let line (inner : Bool) : Option (List Token × Nat) :=
    let n := lineLength cs
    let text := (cs.take n).drop 3
    if returnsPaired text then some (documentation inner text, n) else none
  let block (inner : Bool) : Option (List Token × Nat) := do
    let n ← blockLength 0 cs
    let text := (cs.take (n - 2)).drop 3
    if returnsPaired text then some (documentation inner text, n) else none
  if starts "//!" cs then line true
  else if starts "/*!" cs then block true
  else if starts "///" cs then (if starts "////" cs then none else line false)
  else if starts "/**" cs then (if starts "/***" cs then none else block false)
  else none

/-! ## Names -/

/-- The length of a name that is not marked as raw. -/
def nameLength : List Char → Option Nat
  | c :: rest =>
    if Char.startsIdentifier c then some (1 + (rest.takeWhile Char.continuesIdentifier).length)
    else none
  | [] => none

/-- The length of a name. Those that stand for a place in a path cannot be raw. -/
def anyNameLength (cs : List Char) : Option Nat :=
  match cs with
  | 'r' :: '#' :: rest => do
    let n ← nameLength rest
    if ["_", "super", "self", "Self", "crate"].contains (String.ofList (rest.take n)) then none
    else some (n + 2)
  | cs => nameLength cs

/-- The beginnings of literals that also begin like a name. -/
private def literalBeginnings : List String :=
  ["r\"", "r#\"", "r##", "b\"", "b'", "br\"", "br#", "c\"", "cr\"", "cr#"]

/-- The length of a name that is no beginning of a literal. -/
def identLength (cs : List Char) : Option Nat :=
  if literalBeginnings.any (starts · cs) then none else anyNameLength cs

/-- A literal of a given length with the letters that follow it directly. -/
private def withSuffix (cs : List Char) (n : Nat) : Nat :=
  n + (nameLength (cs.drop n)).getD 0

/-! ## Texts and characters -/

/-- Which characters a text literal may hold. -/
inductive TextKind
  | text
  | bytes
  | cText
  deriving DecidableEq

private def isHex (c : Char) : Bool := (hexValue? [c]).isSome

/-- The length of a character number between braces, and the number. -/
def numberInBraces : List Char → Option (Nat × Nat)
  | '\x7b' :: rest => go 0 0 0 rest
  | _ => none
where
  go (digits value length : Nat) : List Char → Option (Nat × Nat)
    | [] => none
    | c :: rest =>
      if c = '_' && 0 < digits then go digits value (length + 1) rest
      else if c = '\x7d' && 0 < digits then
        if value < 0xd800 || (0xdfff < value && value < 0x110000) then some (length + 2, value)
        else none
      else
        match hexValue? [c] with
        | some d => if digits = 6 then none else go (digits + 1) (16 * value + d) (length + 1) rest
        | none => none

/-- The letters that stand for a character behind a backslash. -/
private def isEscapeLetter (c : Char) : Bool := ['n', 'r', 't', '\\', '\'', '"', '0'].contains c

/-- The length of an escape behind its backslash. -/
def escapeLength (kind : TextKind) : List Char → Option Nat
  | 'x' :: a :: b :: _ =>
    if isHex a && isHex b && (kind ≠ .text || ('0' ≤ a && a ≤ '7')) then some 3 else none
  | 'u' :: rest => if kind = .bytes then none else (numberInBraces rest).map (·.1 + 1)
  | c :: _ => if isEscapeLetter c then some 1 else none
  | [] => none

/-- The blanks that a line break in a text may be followed by. -/
private def isLineBlank (c : Char) : Bool := [' ', '\t', '\n', '\x0d'].contains c

/-- The length of a text behind its opening quote, its closing quote included. -/
def quotedLength (kind : TextKind) : (skip : Nat) → List Char → Option Nat
  | _, [] => none
  | skip + 1, _ :: rest => (quotedLength kind skip rest).map (· + 1)
  | 0, c :: rest =>
    if c = '"' then some 1
    else if c = '\x0d' then
      if rest.head? = some '\n' then (quotedLength kind 0 rest).map (· + 1) else none
    else if c = '\\' then
      match rest with
      | '\n' :: more =>
        (quotedLength kind ((more.takeWhile isLineBlank).length + 1) rest).map (· + 1)
      | '\x0d' :: '\n' :: more =>
        (quotedLength kind ((more.takeWhile isLineBlank).length + 2) rest).map (· + 1)
      | _ =>
        match escapeLength kind rest with
        | some n => (quotedLength kind n rest).map (· + 1)
        | none => none
    else if kind = .bytes && 0x80 ≤ c.toNat then none
    else (quotedLength kind 0 rest).map (· + 1)

/-- The length of a raw text behind its opening quote, up to a quote followed by `pounds`. -/
def rawLength (pounds : Nat) : List Char → Option Nat
  | [] => none
  | '"' :: rest =>
    if (rest.take pounds).length = pounds && (rest.take pounds).all (· = '#') then some (pounds + 1)
    else (rawLength pounds rest).map (· + 1)
  | '\x0d' :: rest =>
    if rest.head? = some '\n' then (rawLength pounds rest).map (· + 1) else none
  | _ :: rest => (rawLength pounds rest).map (· + 1)

/-- The length of a raw text from its pound signs on. -/
def rawTextLength (cs : List Char) : Option Nat :=
  let pounds := (cs.takeWhile (· = '#')).length
  match cs.drop pounds with
  | '"' :: rest => (rawLength pounds rest).map (· + pounds + 1)
  | _ => none

/-- The length of a character between apostrophes, the first of them left out. -/
def charLength (kind : TextKind) (cs : List Char) : Option Nat := do
  let n ←
    match cs with
    | '\\' :: rest => (escapeLength kind rest).map (· + 1)
    | c :: _ => if kind = .bytes && 0x80 ≤ c.toNat then none else some 1
    | [] => none
  if (cs.drop n).head? = some '\'' then some (n + 1) else none

/-- The length of a text or a character. -/
def textLength (cs : List Char) : Option Nat :=
  let n : Option Nat :=
    match cs with
    | '"' :: rest => (quotedLength .text 0 rest).map (· + 1)
    | 'b' :: '"' :: rest => (quotedLength .bytes 0 rest).map (· + 2)
    | 'c' :: '"' :: rest => (quotedLength .cText 0 rest).map (· + 2)
    | 'b' :: 'r' :: rest => (rawTextLength rest).map (· + 2)
    | 'c' :: 'r' :: rest => (rawTextLength rest).map (· + 2)
    | 'r' :: rest => (rawTextLength rest).map (· + 1)
    | 'b' :: '\'' :: rest => (charLength .bytes rest).map (· + 2)
    | '\'' :: rest => (charLength .text rest).map (· + 1)
    | _ => none
  n.map (withSuffix cs)

/-! ## Numerals -/

/-- Digits of a base from the front, gaps between them marked by underscores. Decimal ones must not
begin with a gap. -/
def digitsLength (base : Nat) : (some : Bool) → List Char → Option Nat
  | found, [] => if found then some 0 else none
  | found, c :: rest =>
    if c = '_' then
      if !found && base = 10 then none else (digitsLength base found rest).map (· + 1)
    else
      match hexValue? [c] with
      | some d =>
        if d < base then (digitsLength base true rest).map (· + 1)
        else if c.isDigit then none
        else if found then some 0 else none
      | none => if found then some 0 else none

/-- A numeral with its suffix, unless letters follow that could not be one. -/
private def numeralEnd (cs : List Char) (n : Nat) : Option Nat :=
  let n := withSuffix cs n
  match cs.drop n with
  | c :: _ => if Char.continuesIdentifier c then none else some n
  | [] => some n

/-- The length of an integer. -/
def intLength (cs : List Char) : Option Nat := do
  let n ←
    match cs with
    | '0' :: 'x' :: rest => (digitsLength 16 false rest).map (· + 2)
    | '0' :: 'o' :: rest => (digitsLength 8 false rest).map (· + 2)
    | '0' :: 'b' :: rest => (digitsLength 2 false rest).map (· + 2)
    | cs => digitsLength 10 false cs
  numeralEnd cs n

private def isGappedDigit (c : Char) : Bool := c.isDigit || c = '_'

/-- The length of an exponent behind its letter, if it has a digit. -/
private def exponentLength (cs : List Char) : Option Nat :=
  let gaps := (cs.takeWhile (· = '_')).length
  let sign : Nat :=
    match cs.drop gaps with
    | '+' :: _ | '-' :: _ => 1
    | _ => 0
  let ds := (cs.drop (gaps + sign)).takeWhile isGappedDigit
  if ds.any Char.isDigit then some (gaps + sign + ds.length) else none

/-- The length of a float : a numeral with a point that no name follows, with an exponent, or with
both. -/
def floatLength (cs : List Char) : Option Nat :=
  match cs with
  | [] => none
  | c :: _ =>
    if !c.isDigit then none
    else
      let whole := (cs.takeWhile isGappedDigit).length
      let (n, pointed) : Nat × Bool :=
        match cs.drop whole with
        | '.' :: rest => (whole + 1 + (rest.takeWhile isGappedDigit).length, true)
        | _ => (whole, false)
      let afterPoint := (cs.drop (whole + 1)).head?
      if pointed && afterPoint.any (fun d => d = '.' || Char.startsIdentifier d) then none
      else
        let exponent : Option Nat :=
          match cs.drop n with
          | 'e' :: rest | 'E' :: rest => (exponentLength rest).map (· + 1)
          | _ => none
        match exponent with
        | some e => numeralEnd cs (n + e)
        | none => if pointed then numeralEnd cs n else none

/-- The length of a literal. -/
def literalLength (cs : List Char) : Option Nat :=
  (textLength cs).or ((floatLength cs).or (intLength cs))

/-! ## Tokens -/

private def punctChars : List Char := "~!@#$%^&*-=+|;:,<.>/?'".toList

/-- Whether there is a punctuation character at the front. -/
def isPunctNext (cs : List Char) : Bool :=
  !starts "//" cs && !starts "/*" cs && cs.head?.any punctChars.contains

/-- A lifetime, which must not look like a character without its end. -/
def lifetime? (rest : List Char) : Option (Token × Nat) := do
  let n ← anyNameLength rest
  match rest.drop n with
  | '\'' :: _ => none
  | '#' :: _ => if starts "r#" rest then some () else none
  | _ => some ()
  return (.lifetime (String.ofList (rest.take n)), n + 1)

/-- The token at the front that is no group, and its length. -/
def leaf? (cs : List Char) : Option (Token × Nat) :=
  match literalLength cs with
  | some n => some (.literal (String.ofList (cs.take n)), n)
  | none =>
    match cs with
    | [] => none
    | c :: rest =>
      if isPunctNext cs then
        if c = '\'' then lifetime? rest else some (.punct c (isPunctNext rest), 1)
      else (identLength cs).map fun n => (.ident (String.ofList (cs.take n)), n)

/-- The delimiter that a character opens. -/
def opened? (c : Char) : Option Delimiter :=
  if c = '(' then some .parenthesis
  else if c = '[' then some .bracket
  else if c = '\x7b' then some .brace
  else none

/-- The delimiter that a character closes. -/
def closed? (c : Char) : Option Delimiter :=
  if c = ')' then some .parenthesis
  else if c = ']' then some .bracket
  else if c = '\x7d' then some .brace
  else none

/-- Takes the tokens off the front. `done` are those of the innermost open group, last one first,
and `outer` the groups around it with their tokens so far. -/
def tokensFrom (outer : List (Delimiter × List Token)) (done : List Token) :
    List Char → Option (List Token)
  | [] => if outer.isEmpty then some done.reverse else none
  | c :: rest =>
    match blankLength (c :: rest) with
    | some n => tokensFrom outer done (rest.drop (n - 1))
    | none =>
      match documentation? (c :: rest) with
      | some (ts, n) => tokensFrom outer (ts.reverse ++ done) (rest.drop (n - 1))
      | none =>
        match opened? c, closed? c with
        | some d, _ => tokensFrom ((d, done) :: outer) [] rest
        | none, some d =>
          match outer with
          | (d', before) :: outer =>
            if d = d' then tokensFrom outer (.group d done.reverse :: before) rest else none
          | [] => none
        | none, none =>
          match leaf? (c :: rest) with
          | some (t, n) => tokensFrom outer (t :: done) (rest.drop (n - 1))
          | none => none
  termination_by cs => cs.length
  decreasing_by all_goals simp only [List.length_drop, List.length_cons]; omega

/-- The tokens of a text. A mark of the byte order in front of it is no part of it. -/
def tokens? (text : String) : Option (List Token) :=
  match text.toList with
  | '\uFEFF' :: rest => tokensFrom [] [] rest
  | cs => tokensFrom [] [] cs

/-! ## The text of a literal -/

/-- The text that a literal spells behind its opening quote. -/
def unquote : (skip : Nat) → List Char → List Char
  | _, [] => []
  | skip + 1, _ :: rest => unquote skip rest
  | 0, c :: rest =>
    if c = '"' then []
    else if c = '\x0d' then '\n' :: unquote 1 rest
    else if c = '\\' then
      match rest with
      | 'x' :: a :: b :: _ => Char.ofNat ((hexValue? [a, b]).getD 0) :: unquote 3 rest
      | 'u' :: more =>
        let (n, value) := (numberInBraces more).getD (0, 0)
        Char.ofNat value :: unquote (n + 1) rest
      | 'n' :: _ => '\n' :: unquote 1 rest
      | 'r' :: _ => '\x0d' :: unquote 1 rest
      | 't' :: _ => '\t' :: unquote 1 rest
      | '0' :: _ => '\x00' :: unquote 1 rest
      | e :: more =>
        if isLineBlank e then unquote ((more.takeWhile isLineBlank).length + 1) rest
        else e :: unquote 1 rest
      | [] => []
    else c :: unquote 0 rest

/-- The text that a literal spells, and the letters behind it, if it is a text. -/
def textOfLiteral? (literal : String) : Option (String × String) :=
  let cs := literal.toList
  match cs with
  | '"' :: rest => do
    let n ← quotedLength .text 0 rest
    return (String.ofList (unquote 0 rest), String.ofList (rest.drop n))
  | 'r' :: rest => do
    let pounds := (rest.takeWhile (· = '#')).length
    let inside := rest.drop (pounds + 1)
    let n ← rawLength pounds inside
    return (String.ofList (inside.take (n - pounds - 1)), String.ofList (inside.drop n))
  | _ => none

end FlatUnion.Code
