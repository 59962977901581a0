import FlatUnion.Number.Decimal
import FlatUnion.Text.Quoted
import FlatUnion.Data.Scalar

/-!
# Faults

Why a value could not be read or written. A fault is a cause, and a position in the text where
one is known. Its wording differs in two places between formats : how a unit value is called,
and how a float is written (`Wording`).
-/

namespace FlatUnion

/-- What a reader met where it expected something else. -/
inductive Unexpected
  | bool (b : Bool)
  | integer (n : Int)
  | float (bits : Nat)
  | char (c : Char)
  | text (s : String)
  | bytes
  | unit
  | option
  | newtypeStruct
  | seq
  | map
  | enum
  | unitVariant
  | newtypeVariant
  | tupleVariant
  | structVariant
  | other (what : String)
  deriving DecidableEq, Repr

/-- What can be wrong with a JSON text, or with a key of one that is written. -/
inductive JsonError
  | endInList | endInObject | endInString | endInValue
  | expectedColon | expectedListCommaOrEnd | expectedObjectCommaOrEnd
  | expectedIdent | expectedValue
  | invalidEscape | invalidNumber | numberOutOfRange | invalidCodePoint
  | controlCharacter | keyMustBeString | expectedNumericKey | expectedDoubleQuote
  | floatKeyMustBeFinite | loneLeadingSurrogate | trailingComma | trailingCharacters
  | endOfHexEscape | recursionLimit
  deriving DecidableEq, Repr

/-- Why reading or writing failed. -/
inductive Cause
  | custom (text : String)
  | invalidType (found : Unexpected) (expected : String)
  | invalidValue (found : Unexpected) (expected : String)
  | invalidLength (length : Nat) (expected : String)
  | unknownVariant (name : String) (known : List String)
  | unknownField (name : String) (known : List String)
  | missingField (name : String)
  | duplicateField (name : String)
  | json (error : JsonError)
  deriving DecidableEq, Repr, Inhabited

/-- A place in a text : lines from one, columns in bytes. -/
structure Position where
  line : Nat
  column : Nat
  deriving DecidableEq, Repr

/-- A cause, and its place if the reader still knew it. -/
structure Fault where
  cause : Cause
  place : Option Position := none
  deriving DecidableEq, Repr, Inhabited

namespace Fault

def custom (text : String) : Fault := ⟨.custom text, none⟩

def invalidType (found : Unexpected) (expected : String) : Fault :=
  ⟨.invalidType found expected, none⟩

def invalidValue (found : Unexpected) (expected : String) : Fault :=
  ⟨.invalidValue found expected, none⟩

def invalidLength (length : Nat) (expected : String) : Fault :=
  ⟨.invalidLength length expected, none⟩

def unknownVariant (name : String) (known : List String) : Fault :=
  ⟨.unknownVariant name known, none⟩

def unknownField (name : String) (known : List String) : Fault := ⟨.unknownField name known, none⟩

def missingField (name : String) : Fault := ⟨.missingField name, none⟩

def duplicateField (name : String) : Fault := ⟨.duplicateField name, none⟩

def json (error : JsonError) : Fault := ⟨.json error, none⟩

/-- The fault placed here, unless it has a place already. -/
def placedAt (f : Fault) (p : Position) : Fault :=
  match f.place with
  | none => { f with place := some p }
  | some _ => f

@[simp] theorem cause_placedAt (f : Fault) (p : Position) : (f.placedAt p).cause = f.cause := by
  unfold placedAt
  split <;> rfl

end Fault

/-! ## What a scalar is called -/

/-- What a reader that can use none of it says it met. Integers of a hundred and twenty-eight
bits are named with their width, and a character is a text of one letter to it. -/
def Scalar.unexpected : Scalar → Unexpected
  | .bool b => .bool b
  | .int w n =>
    if w.isWide then .other ("integer `" ++ toString n ++ "` as " ++ w.name) else .integer n
  | .f32 bits => .float (double.encode (single.decode bits))
  | .f64 bits => .float bits
  | .char c => .text (String.singleton c)
  | .text _ s => .text s
  | .bytes .. => .bytes

/-! ## Messages -/

/-- The words in which formats differ. -/
structure Wording where
  unit : String
  float : Style

/-- Words for faults of the data model itself. -/
def Wording.plain : Wording := ⟨"unit value", .plain⟩

/-- Words for faults of JSON. -/
def Wording.json : Wording := ⟨"null", .compact double⟩

def Unexpected.message (w : Wording) : Unexpected → String
  | .bool b => "boolean `" ++ toString b ++ "`"
  | .integer n => "integer `" ++ toString n ++ "`"
  | .float bits => "floating point `" ++ w.float.text double (double.decode bits) ++ "`"
  | .char c => "character `" ++ String.singleton c ++ "`"
  | .text s => "string " ++ quoted s
  | .bytes => "byte array"
  | .unit => w.unit
  | .option => "Option value"
  | .newtypeStruct => "newtype struct"
  | .seq => "sequence"
  | .map => "map"
  | .enum => "enum"
  | .unitVariant => "unit variant"
  | .newtypeVariant => "newtype variant"
  | .tupleVariant => "tuple variant"
  | .structVariant => "struct variant"
  | .other what => what

def JsonError.message : JsonError → String
  | .endInList => "EOF while parsing a list"
  | .endInObject => "EOF while parsing an object"
  | .endInString => "EOF while parsing a string"
  | .endInValue => "EOF while parsing a value"
  | .expectedColon => "expected `:`"
  | .expectedListCommaOrEnd => "expected `,` or `]`"
  | .expectedObjectCommaOrEnd => "expected `,` or `\x7d`"
  | .expectedIdent => "expected ident"
  | .expectedValue => "expected value"
  | .invalidEscape => "invalid escape"
  | .invalidNumber => "invalid number"
  | .numberOutOfRange => "number out of range"
  | .invalidCodePoint => "invalid unicode code point"
  | .controlCharacter => "control character (\\u0000-\\u001F) found while parsing a string"
  | .keyMustBeString => "key must be a string"
  | .expectedNumericKey => "invalid value: expected key to be a number in quotes"
  | .expectedDoubleQuote => "expected `\"`"
  | .floatKeyMustBeFinite => "float key must be finite (got NaN or +/-inf)"
  | .loneLeadingSurrogate => "lone leading surrogate in hex escape"
  | .trailingComma => "trailing comma"
  | .trailingCharacters => "trailing characters"
  | .endOfHexEscape => "unexpected end of hex escape"
  | .recursionLimit => "recursion limit exceeded"

/-- Whether the text stopped too early. -/
def JsonError.isEnd : JsonError → Bool
  | .endInList | .endInObject | .endInString | .endInValue => true
  | _ => false

/-- Names between backquotes, as one would say them. -/
def oneOf (none : String) : List String → String
  | [] => none
  | [a] => "expected `" ++ a ++ "`"
  | [a, b] => "expected `" ++ a ++ "` or `" ++ b ++ "`"
  | names => "expected one of " ++ ", ".intercalate (names.map fun n => "`" ++ n ++ "`")

def Cause.message (w : Wording) : Cause → String
  | .custom text => text
  | .invalidType found expected =>
    "invalid type: " ++ found.message w ++ ", expected " ++ expected
  | .invalidValue found expected =>
    "invalid value: " ++ found.message w ++ ", expected " ++ expected
  | .invalidLength n expected => "invalid length " ++ toString n ++ ", expected " ++ expected
  | .unknownVariant name known =>
    "unknown variant `" ++ name ++ "`, " ++ oneOf "there are no variants" known
  | .unknownField name known =>
    "unknown field `" ++ name ++ "`, " ++ oneOf "there are no fields" known
  | .missingField name => "missing field `" ++ name ++ "`"
  | .duplicateField name => "duplicate field `" ++ name ++ "`"
  | .json e => e.message

/-- The message of a fault, with its place behind it. -/
def Fault.message (w : Wording) (f : Fault) : String :=
  f.cause.message w ++
    match f.place with
    | none => ""
    | some p => " at line " ++ toString p.line ++ " column " ++ toString p.column

end FlatUnion
