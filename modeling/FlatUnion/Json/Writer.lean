import FlatUnion.Data.Datum
import FlatUnion.Json.Quoted
import FlatUnion.Write.Emission

/-!
# Writing JSON

The compact JSON text of a datum. Names of structs are dropped, a variant with a content becomes
an object with its name as the one key, floats that are not finite become `null`, and bytes an
array of numbers. Keys must be texts, or values that can be put between quotes : integers,
finite floats, booleans, characters and bare variants.

What has been written before a fault stays. In particular the comma before a key is written
before the key is looked at.
-/

namespace FlatUnion

/-- The text of a float of JSON, `null` if there is no number for it. -/
def Json.float (f : Format) (bits : Nat) : String :=
  let x := f.decode bits
  if x.isFinite then (Style.compact f).text f x else "null"

/-- The text of a datum that stands as a key. -/
def Datum.jsonKey : Datum → Except Fault String
  | .text s | .display s => .ok (Json.quoted s)
  | .char c => .ok (Json.quoted (String.singleton c))
  | .bool b => .ok (Json.quoted (toString b))
  | .int _ n => .ok (Json.quoted (toString n))
  | .f32 bits => floatKey single bits
  | .f64 bits => floatKey double bits
  | .unitVariant v => .ok (Json.quoted v.name)
  | .some inner | .newtypeStruct _ inner => inner.jsonKey
  | .fail fault => .error fault
  | _ => .error (.json .keyMustBeString)
where
  floatKey (f : Format) (bits : Nat) : Except Fault String :=
    if (f.decode bits).isFinite then .ok ("\"" ++ Json.float f bits ++ "\"")
    else .error (.json .floatKeyMustBeFinite)

/-- What is written before a key. -/
def Json.comma (first : Bool) : String := if first then "" else ","

/-- A key with the comma before it. -/
def Datum.jsonKeyed (first : Bool) (k : Datum) : Emission String :=
  match k.jsonKey with
  | .ok key => .pure (Json.comma first ++ key)
  | .error fault => ⟨Json.comma first, Option.some fault⟩

/-- A text inside an object that has one key. -/
def Json.underKey (name : String) (e : Emission String) : Emission String :=
  .pure ("\x7b" ++ Json.quoted name ++ ":") ++ e ++ .pure "\x7d"

mutual

/-- The JSON text of a datum. -/
def Datum.json : Datum → Emission String
  | .bool b => .pure (toString b)
  | .int _ n => .pure (toString n)
  | .f32 bits => .pure (Json.float single bits)
  | .f64 bits => .pure (Json.float double bits)
  | .char c => .pure (Json.quoted (String.singleton c))
  | .text s | .display s => .pure (Json.quoted s)
  | .bytes bs => .pure ("[" ++ ",".intercalate (bs.map fun b => toString b.toNat) ++ "]")
  | .readability => .pure "\x7b\"hr\":true\x7d"
  | .none | .unit | .unitStruct _ => .pure "null"
  | .some inner | .newtypeStruct _ inner => inner.json
  | .unitVariant v => .pure (Json.quoted v.name)
  | .newtypeVariant v inner => Json.underKey v.name inner.json
  | .seq items | .tuple items | .tupleStruct _ items =>
    .pure "[" ++ jsonList true items ++ .pure "]"
  | .tupleVariant v items => Json.underKey v.name (.pure "[" ++ jsonList true items ++ .pure "]")
  | .map items => .pure "\x7b" ++ jsonItems true items ++ .pure "\x7d"
  | .struct _ fields => .pure "\x7b" ++ jsonFields true fields ++ .pure "\x7d"
  | .structVariant v fields =>
    Json.underKey v.name (.pure "\x7b" ++ jsonFields true fields ++ .pure "\x7d")
  | .fail fault => ⟨"", Option.some fault⟩

def jsonList (first : Bool) : List Datum → Emission String
  | [] => .pure ""
  | d :: rest => .pure (Json.comma first) ++ d.json ++ jsonList false rest

def jsonFields (first : Bool) : List (String × Option Datum) → Emission String
  | [] => .pure ""
  | (_, none) :: rest => jsonFields first rest
  | (name, some d) :: rest =>
    .pure (Json.comma first ++ Json.quoted name ++ ":") ++ d.json ++ jsonFields false rest

/-- What one call writes into an open object. -/
def jsonItem (first : Bool) : Item Datum → Emission String
  | .entry k v => k.jsonKeyed first ++ .pure ":" ++ v.json
  | .key k => k.jsonKeyed first
  | .value v => .pure ":" ++ v.json
  | .fail fault => ⟨"", Option.some fault⟩

def jsonItems (first : Bool) : List (Item Datum) → Emission String
  | [] => .pure ""
  | i :: rest => jsonItem first i ++ jsonItems (first && !i.hasKey) rest

end

end FlatUnion
