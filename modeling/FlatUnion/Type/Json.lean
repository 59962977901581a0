import FlatUnion.Type.Visit

/-!
# Any JSON value

The reader of values that a JSON text can hold : null, booleans, numbers, texts, arrays and objects.
Integers are kept if they fit in sixty-four bits, a float that is not finite becomes null, and an
option is what it holds. The keys of an object keep their order, and a repeated key replaces the
value of the first.
-/

namespace FlatUnion

namespace JsonValue

/-- What is accepted, for messages. -/
def what : String := "any valid JSON value"

/-- An integer as a number of JSON, which is unsigned if it can be. -/
def integer (w : Width) (n : Int) : Except Fault Datum :=
  if Width.u64.fits n then .ok (.int .u64 n)
  else if Width.i64.fits n then .ok (.int .i64 n)
  else if w.isWide then .error (.custom "JSON number out of range")
  else .ok (.int w n)

/-- A float as a number of JSON, or null. -/
def float (bits : Nat) : Datum :=
  if (double.decode bits).isFinite then .f64 bits else .unit

/-- A scalar as a value of JSON. -/
def scalar : Scalar → Except Fault Datum
  | .bool b => .ok (.bool b)
  | .int w n => integer w n
  | .f32 bits => .ok (float (double.encode (single.decode bits)))
  | .f64 bits => .ok (float bits)
  | .char c => .ok (.text (String.singleton c))
  | .text _ s => .ok (.text s)
  | .bytes .. => .error (.invalidType .bytes what)

/-- The complaint about an offer that is no key. -/
def notKey (expected : String) : Offer → Except Fault String
  | .scalar s => .error (.invalidType s.unexpected expected)
  | .none | .some _ => .error (.invalidType .option expected)
  | .unit => .error (.invalidType .unit expected)
  | .newtype _ => .error (.invalidType .newtypeStruct expected)
  | .seq .. => .error (.invalidType .seq expected)
  | .map .. => .error (.invalidType .map expected)
  | .enum _ => .error (.invalidType .enum expected)
  | .fail fault => .error fault

/-- The key of an entry. The first key of an object tells that it is one, and must be a text. The
later ones are read like any text, also from bytes. A source that answers with fitting values only
does not take a character for a text. -/
def key (first exact : Bool) : Offer → Except Fault String
  | .scalar (.text _ s) => .ok s
  | .scalar (.char c) =>
    if exact then .error (.invalidType (.char c) (if first then "a string key" else "a string"))
    else .ok (String.singleton c)
  | .scalar (.bytes l bs) =>
    if first then notKey "a string key" (.scalar (.bytes l bs))
    else match decodeUtf8? bs with
      | some s => .ok s
      | none => .error (.invalidValue .bytes "a string")
  | offer => notKey (if first then "a string key" else "a string") offer

/-- Puts an entry behind the others, or in the place of one with the same key. -/
def insert (k : String) (v : Datum) : List (String × Datum) → List (String × Datum)
  | [] => [(k, v)]
  | (k', v') :: rest => if k' = k then (k, v) :: rest else (k', v') :: insert k v rest

/-- The object of some entries. -/
def object (entries : List (String × Datum)) : Datum :=
  .ofEntries (entries.map fun e => (.text e.1, e.2))

mutual

/-- Reads what a source offers as a value of JSON. -/
def read (exact : Bool) : Offer → Except Fault Datum
  | .scalar s => scalar s
  | .none | .unit => .ok .unit
  | .some inner => read exact inner
  | .newtype _ => .error (.invalidType .newtypeStruct what)
  | .seq items _ => do return .seq (← readItems exact items)
  | .map entries _ => do return object (← readEntries exact true [] entries)
  | .enum _ => .error (.invalidType .enum what)
  | .fail fault => .error fault

def readItems (exact : Bool) : List Offer → Except Fault (List Datum)
  | [] => .ok []
  | x :: rest => do return (← read exact x) :: (← readItems exact rest)

def readEntries (exact first : Bool) (sofar : List (String × Datum)) :
    List (Offer × Offer) → Except Fault (List (String × Datum))
  | [] => .ok sofar
  | (k, v) :: rest => do
    let name ← key first exact k
    let value ← read exact v
    readEntries exact false (insert name value sofar) rest

end

end JsonValue

/-- Reads any value of JSON. -/
def readJson {σ : Type} [Source σ] (s : σ) : Except Fault Datum :=
  JsonValue.read (Source.exact σ) (Source.offer s)

end FlatUnion
