import FlatUnion.Json.Cursor
import FlatUnion.Text.Utf8

/-!
# Words, texts and numerals

What a JSON text is made of below its brackets. Each function reads off the front of a list of
characters, and gives what it read with the number of characters that took, or the slip.

A text is read in three ways. As a text its escapes must spell characters, as bytes they need not,
and where it is passed over only its end is looked for.
-/

namespace FlatUnion.Json

/-- What was read, and the number of characters it took. -/
structure Lexeme (α : Type) where
  value : α
  length : Nat

/-! ## Words -/

/-- Compares the characters behind the first one with those of a word. -/
def word : (expected : List Char) → (offset : Nat) → List Char → Except Slip Nat
  | [], offset, _ => .ok offset
  | _ :: _, offset, [] => .error { error := .endInValue, offset }
  | e :: expected, offset, c :: rest =>
    if c = e then word expected (offset + 1) rest
    else .error { error := .expectedIdent, offset, ahead := 1 }

/-! ## Texts -/

private def digitValue? (c : Char) : Option Nat := hexValue? [c]

/-- Four hexadecimal digits at the front. -/
def hex4 (offset : Nat) (cs : List Char) : Except Slip Nat :=
  match (cs.take 4).mapM digitValue? with
  | some [a, b, c, d] => .ok (((a * 16 + b) * 16 + c) * 16 + d)
  | _ =>
    if (utf8Bytes (String.ofList (cs.take 4))).length < 4 then
      .error { error := .endInString, offset := offset + cs.length }
    else .error { error := .invalidEscape, offset, ahead := 4 }

/-- The character that a letter behind a backslash stands for. -/
def escapeChar? : Char → Option Char
  | '"' => some '"'
  | '\\' => some '\\'
  | '/' => some '/'
  | 'b' => some '\x08'
  | 'f' => some '\x0c'
  | 'n' => some '\x0a'
  | 'r' => some '\x0d'
  | 't' => some '\x09'
  | _ => none

def isHighSurrogate (n : Nat) : Bool := 0xd800 ≤ n && n ≤ 0xdbff

def isLowSurrogate (n : Nat) : Bool := 0xdc00 ≤ n && n ≤ 0xdfff

/-- The character of two surrogates. -/
def joinSurrogates (high low : Nat) : Char :=
  Char.ofNat (0x10000 + (high - 0xd800) * 0x400 + (low - 0xdc00))

/-- The second surrogate, which must follow the first as an escape. -/
def lowSurrogate (offset : Nat) : List Char → Except Slip Nat
  | [] => .error { error := .endInString, offset }
  | '\\' :: [] => .error { error := .endInString, offset := offset + 1 }
  | '\\' :: 'u' :: rest => do
    let n ← hex4 (offset + 2) rest
    if isLowSurrogate n then return n
    else .error { error := .loneLeadingSurrogate, offset := offset + 6 }
  | '\\' :: _ :: _ => .error { error := .endOfHexEscape, offset := offset + 1, ahead := 1 }
  | _ :: _ => .error { error := .endOfHexEscape, offset, ahead := 1 }

/-- Puts a character in front of the rest of a text. -/
def put (c : Char) (rest : Except Slip (Lexeme (List Char))) :
    Except Slip (Lexeme (List Char)) :=
  rest.map fun l => { l with value := c :: l.value }

/-- The characters of a text, up to its closing quote. `skip` characters of an escape are left. -/
def textBody : (skip offset : Nat) → List Char → Except Slip (Lexeme (List Char))
  | _, offset, [] => .error { error := .endInString, offset }
  | skip + 1, offset, _ :: rest => textBody skip (offset + 1) rest
  | 0, offset, c :: rest =>
    if c = '"' then .ok ⟨[], offset + 1⟩
    else if c = '\\' then
      match rest with
      | [] => .error { error := .endInString, offset := offset + 1 }
      | 'u' :: digits =>
        match hex4 (offset + 2) digits with
        | .error s => .error s
        | .ok n =>
          if isLowSurrogate n then
            .error { error := .loneLeadingSurrogate, offset := offset + 6 }
          else if isHighSurrogate n then
            match lowSurrogate (offset + 6) (digits.drop 4) with
            | .error s => .error s
            | .ok low => put (joinSurrogates n low) (textBody 11 (offset + 1) rest)
          else put (Char.ofNat n) (textBody 5 (offset + 1) rest)
      | e :: _ =>
        match escapeChar? e with
        | some x => put x (textBody 1 (offset + 1) rest)
        | none => .error { error := .invalidEscape, offset := offset + 1, ahead := 1 }
    else if c.toNat < 0x20 then .error { error := .controlCharacter, offset := offset + 1 }
    else put c (textBody 0 (offset + 1) rest)

/-- A text behind its opening quote. -/
def textAfterQuote (offset : Nat) (cs : List Char) : Except Slip (Lexeme String) :=
  (textBody 0 offset cs).map fun l => ⟨String.ofList l.value, l.length⟩

/-- A text with its quotes. -/
def text (cs : List Char) : Except Slip (Lexeme String) := textAfterQuote 1 (cs.drop 1)

/-- Whether a text that is closed uses escapes. -/
def hasEscapes (cs : List Char) (length : Nat) : Bool := (cs.take length).contains '\\'

/-- The end of a text that is passed over. -/
def skipBody : (skip offset : Nat) → List Char → Except Slip Nat
  | _, offset, [] => .error { error := .endInString, offset }
  | skip + 1, offset, _ :: rest => skipBody skip (offset + 1) rest
  | 0, offset, c :: rest =>
    if c = '"' then .ok (offset + 1)
    else if c = '\\' then
      match rest with
      | [] => .error { error := .endInString, offset := offset + 1 }
      | 'u' :: digits =>
        match hex4 (offset + 2) digits with
        | .error s => .error s
        | .ok _ => skipBody 5 (offset + 1) rest
      | e :: _ =>
        if (escapeChar? e).isSome then skipBody 1 (offset + 1) rest
        else .error { error := .invalidEscape, offset := offset + 1, ahead := 1 }
    else if c.toNat < 0x20 then .error { error := .controlCharacter, offset }
    else skipBody 0 (offset + 1) rest

/-- A text with its quotes, passed over. -/
def skipText (cs : List Char) : Except Slip Nat := skipBody 0 1 (cs.drop 1)

/-- A number as three bytes, in the way of a character of that size. -/
private def threeBytes (n : Nat) : List UInt8 :=
  [(0xe0 + n / 0x1000).toUInt8, (0x80 + n / 0x40 % 0x40).toUInt8, (0x80 + n % 0x40).toUInt8]

private def putBytes (bs : List UInt8) (rest : Except Slip (Lexeme (List UInt8))) :
    Except Slip (Lexeme (List UInt8)) :=
  rest.map fun l => { l with value := bs ++ l.value }

/-- The bytes of a text, up to its closing quote. A surrogate without its other half is written
like a character of its size. -/
def bytesBody : (skip offset : Nat) → List Char → Except Slip (Lexeme (List UInt8))
  | _, offset, [] => .error { error := .endInString, offset }
  | skip + 1, offset, _ :: rest => bytesBody skip (offset + 1) rest
  | 0, offset, c :: rest =>
    if c = '"' then .ok ⟨[], offset + 1⟩
    else if c = '\\' then
      match rest with
      | [] => .error { error := .endInString, offset := offset + 1 }
      | 'u' :: digits =>
        match hex4 (offset + 2) digits with
        | .error s => .error s
        | .ok n =>
          if isHighSurrogate n then
            match lowSurrogate (offset + 6) (digits.drop 4) with
            | .ok low =>
              putBytes (utf8Bytes (String.singleton (joinSurrogates n low)))
                (bytesBody 11 (offset + 1) rest)
            | .error _ => putBytes (threeBytes n) (bytesBody 5 (offset + 1) rest)
          else if isLowSurrogate n then putBytes (threeBytes n) (bytesBody 5 (offset + 1) rest)
          else
            putBytes (utf8Bytes (String.singleton (Char.ofNat n))) (bytesBody 5 (offset + 1) rest)
      | e :: _ =>
        match escapeChar? e with
        | some x => putBytes (utf8Bytes (String.singleton x)) (bytesBody 1 (offset + 1) rest)
        | none => .error { error := .invalidEscape, offset := offset + 1, ahead := 1 }
    else putBytes (utf8Bytes (String.singleton c)) (bytesBody 0 (offset + 1) rest)

/-- A text with its quotes, as bytes. -/
def textBytes (cs : List Char) : Except Slip (Lexeme (List UInt8)) := bytesBody 0 1 (cs.drop 1)

/-! ## Numerals -/

/-- The digits at the front. -/
def digits (cs : List Char) : List Char := cs.takeWhile Char.isDigit

/-- The number that decimal digits write. -/
def decimalValue (ds : List Char) : Nat := ds.foldl (fun n d => 10 * n + (d.toNat - '0'.toNat)) 0

/-- A numeral taken apart. -/
structure Numeral where
  negative : Bool
  whole : List Char
  fraction : Option (List Char)
  /-- Whether the exponent is negative, and its digits. -/
  exponent : Option (Bool × List Char)
  deriving DecidableEq, Repr

namespace Numeral

/-- What is said where a digit is missing at the end of the text : a reader says that the text has
ended, one that passes over says that the number is wrong. -/
private def atEnd (skipping : Bool) : JsonError := if skipping then .invalidNumber else .endInValue

/-- The whole part, without zeros in front. -/
def wholePart (skipping : Bool) (offset : Nat) : List Char → Except Slip (List Char)
  | [] => .error { error := atEnd skipping, offset }
  | '0' :: rest =>
    match rest with
    | d :: _ =>
      if d.isDigit then .error { error := .invalidNumber, offset := offset + 1, ahead := 1 }
      else .ok ['0']
    | [] => .ok ['0']
  | c :: rest =>
    if c.isDigit then .ok (c :: digits rest)
    else .error { error := .invalidNumber, offset, ahead := 1 }

/-- The digits behind a point, at least one. -/
def fractionPart (skipping : Bool) (offset : Nat) : List Char → Except Slip (Option (List Char))
  | '.' :: rest =>
    match digits rest with
    | [] =>
      .error
        { error := if rest.isEmpty then atEnd skipping else .invalidNumber
          offset := offset + 1
          ahead := 1 }
    | ds => .ok (some ds)
  | _ => .ok none

/-- The exponent behind its letter, with a sign or without. -/
def exponentPart (skipping : Bool) (offset : Nat) :
    List Char → Except Slip (Option (Bool × List Char) × Nat)
  | [] => .ok (none, offset)
  | c :: rest =>
    if c = 'e' || c = 'E' then
      let (negative, signed, rest) : Bool × Nat × List Char :=
        match rest with
        | '+' :: rest => (false, 1, rest)
        | '-' :: rest => (true, 1, rest)
        | rest => (false, 0, rest)
      match rest, digits rest with
      | [], _ => .error { error := atEnd skipping, offset := offset + 1 + signed }
      | _ :: _, [] => .error { error := .invalidNumber, offset := offset + 1 + signed, ahead := 1 }
      | _, ds => .ok (some (negative, ds), offset + 1 + signed + ds.length)
    else .ok (none, offset)

/-- The numeral at the front. -/
def read (skipping : Bool) (cs : List Char) : Except Slip (Lexeme Numeral) := do
  let negative := cs.head? = some '-'
  let sign := if negative then 1 else 0
  let cs := cs.drop sign
  let whole ← wholePart skipping sign cs
  let cs := cs.drop whole.length
  let fraction ← fractionPart skipping (sign + whole.length) cs
  let taken := fraction.elim 0 (·.length + 1)
  let (exponent, length) ← exponentPart skipping (sign + whole.length + taken) (cs.drop taken)
  return ⟨⟨negative, whole, fraction, exponent⟩, length⟩

end Numeral

end FlatUnion.Json
