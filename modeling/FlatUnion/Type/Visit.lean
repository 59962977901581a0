import FlatUnion.Read.Replay
import FlatUnion.Type.Basic
import FlatUnion.Type.Order
import FlatUnion.Write.Flatten

/-!
# Readers of one value

What a reader makes of a source's answer, for each kind of type. The readers of the parts come as
arguments : one for each element of a tuple, for each field of a struct (`FieldReader`) and for
each variant of an enum (`VariantReader`).
-/

namespace FlatUnion

variable {σ α : Type}

/-- The complaint of a reader that can use none of an answer. -/
def refuse (expected : String) (c : Call σ) : Outcome α :=
  .plain (.error (.invalidType c.unexpected expected))

/-! ## Scalars -/

namespace Visit

def bool : Call σ → Outcome Datum
  | .scalar (.bool b) => .plain (.ok (.bool b))
  | c => refuse "a boolean" c

/-- An integer of any width that lies in the range. The widest integers are taken by readers of
the widest integers only. -/
def int (w : Width) : Call σ → Outcome Datum
  | .scalar (.int v n) =>
    if v.isWide && !w.isWide then refuse w.name (.scalar (.int v n) : Call σ)
    else if w.fits n then .plain (.ok (.int w n))
    else .plain (.error (.invalidValue (if v.isWide then .other v.name else .integer n) w.name))
  | c => refuse w.name c

/-- The bits, in one format, of a scalar that is a number. -/
def numberBits (f : Format) : Scalar → Option Nat
  | .int v n => if v.isWide then none else some (f.ofInt n)
  | .f32 bits =>
    some (if f.precision = single.precision then bits else f.encode (single.decode bits))
  | .f64 bits =>
    some (if f.precision = double.precision then bits else f.encode (double.decode bits))
  | _ => none

def f32 : Call σ → Outcome Datum
  | .scalar s =>
    match numberBits single s with
    | some bits => .plain (.ok (.f32 bits))
    | none => refuse "f32" (.scalar s : Call σ)
  | c => refuse "f32" c

def f64 : Call σ → Outcome Datum
  | .scalar s =>
    match numberBits double s with
    | some bits => .plain (.ok (.f64 bits))
    | none => refuse "f64" (.scalar s : Call σ)
  | c => refuse "f64" c

/-- A character, or a text that consists of one. -/
def char : Call σ → Outcome Datum
  | .scalar (.char c) => .plain (.ok (.char c))
  | .scalar (.text _ s) =>
    match s.toList with
    | [c] => .plain (.ok (.char c))
    | _ => .plain (.error (.invalidValue (.text s) "a character"))
  | c => refuse "a character" c

/-- A text, a character, or bytes that spell a text. -/
def text : Call σ → Outcome Datum
  | .scalar (.text _ s) => .plain (.ok (.text s))
  | .scalar (.char c) => .plain (.ok (.text (String.singleton c)))
  | .scalar (.bytes _ bs) =>
    match decodeUtf8? bs with
    | some s => .plain (.ok (.text s))
    | none => .plain (.error (.invalidValue .bytes "a string"))
  | c => refuse "a string" c

/-- A text, or bytes that spell one, lent for as long as the input lives. -/
def borrowed : Call σ → Outcome Datum
  | .scalar (.text .lasting s) => .plain (.ok (.text s))
  | .scalar (.bytes .lasting bs) =>
    match decodeUtf8? bs with
    | some s => .plain (.ok (.text s))
    | none => .plain (.error (.invalidValue .bytes "a borrowed string"))
  | c => refuse "a borrowed string" c

def bytes : Call σ → Outcome Datum
  | .scalar (.bytes _ bs) => .plain (.ok (.bytes bs))
  | c => refuse "bytes" c

def unit : Call σ → Outcome Datum
  | .unit => .plain (.ok .unit)
  | c => refuse "unit" c

def unitStruct (name : String) : Call σ → Outcome Datum
  | .unit => .plain (.ok (.unitStruct name))
  | c => refuse ("unit struct " ++ name) c

/-! ## Options, sequences and maps -/

/-- Nothing, or something. A unit is nothing. -/
def optional (read : σ → Except Fault α) : Call σ → Outcome (Option α)
  | .none | .unit => .plain (.ok none)
  | .some s => .plain ((read s).map some)
  | c => refuse "option" c

/-- All elements of a sequence. -/
def elements (read : σ → Except Fault α) : Call σ → Outcome (List α)
  | .seq items _ => readItems read none 0 items
  | c => refuse "a sequence" c

def option (read : σ → Except Fault Datum) (c : Call σ) : Outcome Datum :=
  (optional read c).map fun o => o.elim .none .some

def list (read : σ → Except Fault Datum) (c : Call σ) : Outcome Datum := (elements read c).map .seq

/-- Elements in order, each with a reader of its own. -/
def inOrder (lengths : String) : (done : Nat) → List (σ → Except Fault Datum) → List σ →
    Outcome (List Datum)
  | done, [], _ => ⟨{ whole := done }, .ok []⟩
  | done, _ :: _, [] => ⟨{ whole := done }, .error (.invalidLength done lengths)⟩
  | done, read :: readers, s :: rest =>
    match read s with
    | .error f => ⟨{ whole := done + 1 }, .error f⟩
    | .ok d => (inOrder lengths (done + 1) readers rest).map (d :: ·)

/-- A sequence whose elements have a reader each. It is described in one way where it is not a
sequence at all, and in another where it is too short. -/
def items (what lengths : String) (readers : List (σ → Except Fault Datum)) :
    Call σ → Outcome (List Datum)
  | .seq items _ => inOrder lengths 0 readers items
  | c => refuse what c

/-- Puts an entry into a sorted list. An entry of the same key is replaced. -/
def insertSorted (k v : Datum) : List (Datum × Datum) → List (Datum × Datum)
  | [] => [(k, v)]
  | (k', v') :: rest =>
    if k.before k' then (k, v) :: (k', v') :: rest
    else if k'.before k then (k', v') :: insertSorted k v rest
    else (k', v) :: rest

/-- A map, its entries sorted by their keys. Of entries with one key the last one counts. -/
def map (readKey readValue : σ → Except Fault Datum) : Call σ → Outcome Datum
  | .map entries _ =>
    (readEntries readKey (fun _ => readValue) none 0 entries).map fun pairs =>
      .ofEntries (pairs.foldl (fun sorted e => insertSorted e.1 e.2 sorted) [])
  | c => refuse "a map" c

/-- The one value of a newtype, marked as such or alone in a sequence. -/
def newtypeStruct (name : String) (read : σ → Except Fault Datum) : Call σ → Outcome Datum
  | .newtype s => .plain ((read s).map (.newtypeStruct name))
  | .seq items _ =>
    (inOrder ("tuple struct " ++ name ++ " with 1 element") 0 [read] items).map fun ds =>
      .newtypeStruct name (ds.headD .unit)
  | c => refuse ("tuple struct " ++ name) c

/-! ## Names -/

/-- What stands at a place that was told by a name. -/
def pick (xs : List α) (i : Nat) : Except Fault α :=
  match xs[i]? with
  | some x => .ok x
  | none => .error (.custom "no such variant")

/-- A name or its place, as a source gives it. -/
inductive Name
  | text (s : String)
  | bytes (bs : List UInt8)
  | index (n : Nat)

/-- The name or the place that an answer gives. Places are unsigned. -/
def name? : Call σ → Option Name
  | .scalar (.text _ s) => some (.text s)
  | .scalar (.char c) => some (.text (String.singleton c))
  | .scalar (.bytes _ bs) => some (.bytes bs)
  | .scalar (.int w n) => if w.isSigned || w.isWide then none else some (.index n.toNat)
  | _ => none

/-- The place of a name among names. -/
def Name.find? (names : List (List String)) : Name → Option Nat
  | .text s => names.findIdx? fun ns => ns.contains s
  | .bytes bs => names.findIdx? fun ns => ns.any fun n => utf8Bytes n = bs
  | .index n => if n < names.length then some n else none

/-- A variant, by its name or by its place. -/
def variant (names : List String) (c : Call σ) : Outcome Nat :=
  match name? c with
  | none => refuse "variant identifier" c
  | some n =>
    match n.find? (names.map ([·])), n with
    | some i, _ => .plain (.ok i)
    | none, .text s => .plain (.error (.unknownVariant s names))
    | none, .bytes bs => .plain (.error (.unknownVariant (decodeUtf8Lossy bs) names))
    | none, .index i =>
      .plain (.error (.invalidValue (.integer i)
        ("variant index 0 <= i < " ++ toString names.length)))

/-- Success or failure, by name or by place. Bytes that are no text are not even a name. -/
def outcome (c : Call σ) : Outcome Nat :=
  let names := ["Ok", "Err"]
  match name? c with
  | none => refuse "`Ok` or `Err`" c
  | some n =>
    match n.find? (names.map ([·])), n with
    | some i, _ => .plain (.ok i)
    | none, .text s => .plain (.error (.unknownVariant s names))
    | none, .bytes bs =>
      match decodeUtf8? bs with
      | some s => .plain (.error (.unknownVariant s names))
      | none => .plain (.error (.invalidValue .bytes "`Ok` or `Err`"))
    | none, .index i => .plain (.error (.invalidValue (.integer i) "`Ok` or `Err`"))

end Visit

/-! ## Values that are set aside -/

/-- An offer whose parts are to be set aside for a reader that is not known yet. The widest
integers and enums cannot be. -/
def Offer.settable : Offer → Offer
  | .scalar (.int w n) =>
    if w.isWide then .fail (.invalidType (Scalar.int w n).unexpected "any value")
    else .scalar (.int w n)
  | .enum _ => .fail (.custom "untagged and internally tagged enums do not support enum input")
  | .some inner => .some inner.settable
  | .newtype inner => .newtype inner.settable
  | .seq items hint => .seq (settableItems items) hint
  | .map entries hint => .map (settableEntries entries) hint
  | offer => offer
where
  settableItems : List Offer → List Offer
    | [] => []
    | x :: rest => x.settable :: settableItems rest
  settableEntries : List (Offer × Offer) → List (Offer × Offer)
    | [] => []
    | (k, v) :: rest => (k.settable, v.settable) :: settableEntries rest

/-- Sets a value aside. -/
def setAside [Source σ] (s : σ) : Except Fault Snapshot :=
  Snapshot.ofOffer (Source.offer s).settable

/-- A key as text : a snapshot that is text, or bytes that spell one. -/
def Snapshot.keyText? : Snapshot → Option String
  | .text s => Option.some s
  | .bytes bs => decodeUtf8? bs
  | _ => Option.none

/-! ## Structs -/

/-- How one field of a struct is read. -/
structure FieldReader (σ : Type) where
  field : Field
  /-- Whether a missing value is an empty option. -/
  optional : Bool
  read : σ → Except Fault Datum
  /-- Reads the field from the entries that no other field has taken, and gives back those it
  leaves, also if it can not be read. -/
  readFlattened : List (Snapshot × Snapshot) → Except Fault Datum × List (Snapshot × Snapshot)

namespace FieldReader

/-- The value of a field that was not found. -/
def missing (r : FieldReader σ) : Except Fault Datum :=
  match r.field.default with
  | some d => .ok d
  | none => if r.optional then .ok .none else .error (.missingField r.field.name)

/-- The names that a field is read under. -/
def names (r : FieldReader σ) : List String := r.field.name :: r.field.aliases

end FieldReader

/-- The entries of a struct as they have been read : a place for each field that has a name, and
the entries that belong to no such field. -/
structure Slots where
  values : List (Option Datum)
  rest : List (Snapshot × Snapshot) := []

/-- A key of a struct : a field, or none of them. -/
inductive FieldKey
  | known (i : Nat)
  | other (key : Snapshot)

namespace Visit

/-- A key of a struct, by the name of a field or its place. Where unknown entries are collected,
places are keys like any other. -/
def fieldKey (readers : List (FieldReader σ)) (strict collecting : Bool) (c : Call σ) :
    Outcome FieldKey :=
  let named := readers.filter fun r => !r.field.flattened
  let names := named.map FieldReader.names
  if collecting then
    match c with
    | .scalar (.int w n) =>
      if w.isWide then refuse "field identifier" c else .plain (.ok (.other (.int w n)))
    | .scalar (.char x) => .plain (.ok (.other (.char x)))
    | .scalar s =>
      match (name? c).bind (Name.find? names) with
      | some i => .plain (.ok (.known i))
      | none => .plain (.ok (.other (Snapshot.ofScalar s)))
    | .unit => .plain (.ok (.other .unit))
    | c => refuse "field identifier" c
  else
    match name? c with
    | none => refuse "field identifier" c
    | some n =>
      match n.find? names, n with
      | some i, _ => .plain (.ok (.known i))
      | none, n =>
        if !strict then .plain (.ok (.other .unit)) else
        match n with
        | .text s => .plain (.error (.unknownField s names.flatten))
        | .bytes bs => .plain (.error (.unknownField (decodeUtf8Lossy bs) names.flatten))
        | .index i =>
          .plain (.error (.invalidValue (.integer i)
            ("field index 0 <= i < " ++ toString names.length)))

/-- Reads the entries of a struct. A field must not occur twice, whatever its names. -/
def slots [Source σ] (named : List (FieldReader σ)) (readKey : σ → Except Fault FieldKey)
    (collecting : Bool) : (done : Nat) → Slots → List (σ × σ) → Outcome Slots
  | done, found, [] => ⟨{ whole := done }, .ok found⟩
  | done, found, (k, v) :: rest =>
    match readKey k with
    | .error f => ⟨{ whole := done, keyTaken := true }, .error f⟩
    | .ok (.known i) =>
      match named[i]?, found.values[i]? with
      | some r, some none =>
        match r.read v with
        | .error f => ⟨{ whole := done + 1 }, .error f⟩
        | .ok d =>
          slots named readKey collecting (done + 1)
            { found with values := found.values.set i (some d) } rest
      | some r, _ =>
        ⟨{ whole := done, keyTaken := true }, .error (.duplicateField r.field.name)⟩
      | none, _ => ⟨{ whole := done }, .ok found⟩
    | .ok (.other key) =>
      if collecting then
        match setAside v with
        | .error f => ⟨{ whole := done + 1 }, .error f⟩
        | .ok value =>
          slots named readKey collecting (done + 1)
            { found with rest := found.rest ++ [(key, value)] } rest
      else
        match Source.skip v with
        | .error f => ⟨{ whole := done + 1 }, .error f⟩
        | .ok () => slots named readKey collecting (done + 1) found rest

/-- The values of the fields that have names, in order. -/
def fill : List (FieldReader σ) → List (Option Datum) → Except Fault (List Datum)
  | [], _ => .ok []
  | r :: readers, value :: values => do
    let d ← value.elim r.missing .ok
    return d :: (← fill readers values)
  | r :: readers, [] => do
    let d ← r.missing
    return d :: (← fill readers [])

/-- Where entries that are left are refused, there must be none. -/
def refuseLeft (refusing : Bool) : List (Snapshot × Snapshot) → Except Fault Unit
  | [] => .ok ()
  | (key, _) :: _ =>
    if refusing then
      .error (.custom
        (key.keyText?.elim "unexpected map key" fun name => "unknown field `" ++ name ++ "`"))
    else .ok ()

/-- Puts the values of all fields in order. Flattened fields are read last, from what is left, and
may leave something themselves. -/
def complete (refusing : Bool) : List (FieldReader σ) → List Datum →
    List (Snapshot × Snapshot) → Except Fault (List Datum)
  | [], _, left => (refuseLeft refusing left).map fun _ => []
  | r :: readers, own, left =>
    if r.field.flattened then do
      let d ← (r.readFlattened left).1
      return d :: (← complete refusing readers own (r.readFlattened left).2)
    else do
      return own.headD .unit :: (← complete refusing readers own.tail left)

/-- The fields of a struct in the order of a sequence. `i` is the place of the field. -/
def fieldsInOrder (lengths : String) : (i done : Nat) → List (FieldReader σ) → List σ →
    Outcome (List Datum)
  | _, done, [], _ => ⟨{ whole := done }, .ok []⟩
  | i, done, r :: readers, [] =>
    match r.field.default with
    | some d => (fieldsInOrder lengths (i + 1) done readers []).map (d :: ·)
    | none => ⟨{ whole := done }, .error (.invalidLength i lengths)⟩
  | i, done, r :: readers, s :: rest =>
    match r.read s with
    | .error f => ⟨{ whole := done + 1 }, .error f⟩
    | .ok d => (fieldsInOrder lengths (i + 1) (done + 1) readers rest).map (d :: ·)

/-- A struct, from a map of its fields or from a sequence of their values. A struct with a
flattened field is read from maps only. -/
def struct [Source σ] (what : String) (strict : Bool) (readers : List (FieldReader σ)) :
    Call σ → Outcome (List Datum)
  | .map entries _ =>
    let collecting := readers.any (·.field.flattened)
    let named := readers.filter fun r => !r.field.flattened
    let readKey := fun k => consult .identifier k (fieldKey readers strict collecting)
    (slots named readKey collecting 0 ⟨named.map fun _ => none, []⟩ entries).andThen
      fun found => do
        let own ← fill named found.values
        complete (strict && collecting) readers own found.rest
  | .seq items hint =>
    if readers.any (·.field.flattened) then refuse what (.seq items hint : Call σ)
    else
      fieldsInOrder (what ++ " with " ++ countElements readers.length) 0 0 readers items
  | c => refuse what c

end Visit

/-! ## How structs are written -/

/-- A field as it is written. -/
def Field.written (f : Field) (d : Datum) : String × Option Datum :=
  match f.writing, d with
  | .never, _ => (f.name, none)
  | .unlessNone, .none => (f.name, none)
  | _, d => (f.name, some d)

/-- The complaint about a flattened field that has no entries. -/
def Fault.notInlined (what : String) : Fault :=
  .custom ("can only flatten structs and maps (got " ++ what ++ ")")

/-- The entries of a flattened field, none if it is empty. A variant of an enum is one entry, its
name and its content. -/
def Datum.inlined : Datum → List (Item Datum)
  | .none | .unit | .unitStruct _ => []
  | .some inner | .newtypeStruct _ inner => inner.inlined
  | .struct _ fields => fieldItems fields
  | .map items => items
  | .unitVariant v => [.entry (.text v.name) .unit]
  | .newtypeVariant v inner => [.entry (.text v.name) inner]
  | .tupleVariant v items => [.key (.text v.name), .value (.seq items)]
  | .structVariant v fields => [.key (.text v.name), .value (.struct v.name fields)]
  | .readability => [.entry (.text "hr") (.bool true)]
  | .fail fault => [.fail fault]
  | .bool _ => [.fail (.notInlined "a boolean")]
  | .int w _ => [.fail (if w.isWide then .unsupportedWidth w else .notInlined "an integer")]
  | .f32 _ | .f64 _ => [.fail (.notInlined "a float")]
  | .char _ => [.fail (.notInlined "a char")]
  | .text _ | .display _ => [.fail (.notInlined "a string")]
  | .bytes _ => [.fail (.notInlined "a byte array")]
  | .seq _ => [.fail (.notInlined "a sequence")]
  | .tuple _ => [.fail (.notInlined "a tuple")]
  | .tupleStruct .. => [.fail (.notInlined "a tuple struct")]

/-- The items of a struct some of whose fields are flattened. -/
def structItems : List Field → List Datum → List (Item Datum)
  | f :: fields, d :: values =>
    (if f.flattened then d.inlined
     else match f.written d with
      | (_, none) => []
      | (name, some value) => [.entry (.text name) value]) ++ structItems fields values
  | _, _ => []

/-- A struct as it is written : a map if one of its fields is flattened. -/
def structDatum (name : String) (fields : List Field) (values : List Datum) : Datum :=
  if fields.any (·.flattened) then .map (structItems fields values)
  else .struct name (List.zipWith Field.written fields values)

end FlatUnion
