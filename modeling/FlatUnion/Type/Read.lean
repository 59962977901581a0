import FlatUnion.Type.Json
import FlatUnion.Type.Variant
import FlatUnion.Union.Flat

/-!
# Reading values of a type

`Ty.read` puts the request of a type to a source and hands the answer to the reader of that kind of
type, with the readers of its parts. It recurses on the type, and asks any kind of source : a value
that is offered, a snapshot, or a text.
-/

namespace FlatUnion

/-! ## Entries that are left

What is read of a flattened field, and the entries that are left then. -/

namespace Leftover

/-- Whether an entry stands under one of some names. -/
def isUnder (names : List String) (e : Snapshot × Snapshot) : Bool :=
  e.1.keyText?.any names.contains

/-- The entries without the first `n` of those under some names. -/
def dropUnder (names : List String) : (n : Nat) → List (Snapshot × Snapshot) →
    List (Snapshot × Snapshot)
  | 0, entries => entries
  | _, [] => []
  | n + 1, e :: rest =>
    if isUnder names e then dropUnder names n rest else e :: dropUnder names (n + 1) rest

/-- A map of all entries is read, and all are left. -/
def seen (read : Call Exacting → Outcome Datum) (entries : List (Snapshot × Snapshot)) :
    Except Fault Datum × List (Snapshot × Snapshot) :=
  ((read (Exacting.ofCall (.map entries none))).result, entries)

/-- A map of the entries under some names is read. Those that the reader has begun to read are gone,
even if it fails. -/
def taken (names : List String) (read : Call Exacting → Outcome Datum)
    (entries : List (Snapshot × Snapshot)) : Except Fault Datum × List (Snapshot × Snapshot) :=
  let outcome := read (Exacting.ofCall (.map (entries.filter (isUnder names)) none))
  (outcome.result, dropUnder names outcome.progress.begun entries)

/-- The first entry under the name of a variant is read, as the variant and its content. It is gone,
even if it can not be read. -/
def chosen (enum : String) (names : List String) (read : Call Exacting → Outcome Datum)
    (entries : List (Snapshot × Snapshot)) : Except Fault Datum × List (Snapshot × Snapshot) :=
  match entries.find? (isUnder names) with
  | some (variant, content) =>
    ((read (.enum ⟨variant⟩ (some ⟨content⟩))).result, dropUnder names 1 entries)
  | none =>
    (.error (.custom ("no variant of enum " ++ enum ++ " found in flattened data")), entries)

end Leftover

mutual

/-- Reads a value of a type. -/
def Ty.read : Ty → ∀ {σ : Type} [Source σ], σ → Except Fault Datum
  | .bool => fun s => consult .bool s Visit.bool
  | .int w => fun s => consult (.int w) s (Visit.int w)
  | .f32 => fun s => consult .f32 s Visit.f32
  | .f64 => fun s => consult .f64 s Visit.f64
  | .char => fun s => consult .char s Visit.char
  | .text => fun s => consult .string s Visit.text
  | .borrowed => fun s => consult .str s Visit.borrowed
  | .bytes => fun s => consult .bytes s Visit.bytes
  | .unit => fun s => consult .unit s Visit.unit
  | .json => fun s => readJson s
  | .option t => fun s => consult .option s (Visit.option t.read)
  | .list t => fun s => consult .seq s (Visit.list t.read)
  | .array n t => fun s =>
    let what := "an array of length " ++ toString n
    consult .tuple s fun c => (Visit.items what what (List.replicate n t.read) c).map .tuple
  | .tuple ts => fun s =>
    let what := "a tuple of size " ++ toString ts.length
    consult .tuple s fun c => (Visit.items what what (itemReaders ts) c).map .tuple
  | .map k v => fun s => consult .map s (Visit.map k.read v.read)
  | .result ok error => fun s => consult .enum s (Visit.resultEnum ok.read error.read)
  | .unitStruct name => fun s => consult .unitStruct s (Visit.unitStruct name)
  | .newtypeStruct name t => fun s =>
    consult .newtypeStruct s (Visit.newtypeStruct name t.read)
  | .tupleStruct name ts => fun s =>
    let what := "tuple struct " ++ name
    consult .tupleStruct s fun c =>
      (Visit.items what (what ++ " with " ++ countElements ts.length) (itemReaders ts) c).map
        (.tupleStruct name)
  | .struct info fields => fun s =>
    let request := if fields.any (·.1.flattened) then .map else .struct
    consult request s fun c =>
      (Visit.struct ("struct " ++ info.name) info.strict (fieldReaders fields) c).map
        (structDatum info.name (fields.map (·.1)))
  | .enum name .external variants => fun s =>
    consult .enum s (Visit.externalEnum name (variantReaders variants))
  | .enum name (.internal tag) variants => fun s =>
    Visit.internalEnum name tag (variantReaders variants) s
  | .enum name (.adjacent tag content) variants => fun s => do
    let (i, c) ← consult .struct s
      (Visit.adjacentEnum name tag content (variantReaders variants) (variantReaders variants))
    return Visit.adjacentDatum tag content ⟨name, i, ((variants[i]?).map (·.1)).getD ""⟩ c
  | .enum name .untagged variants => fun s => do
    Visit.untaggedEnum name (variantReaders variants) (← setAside s)
  | .union _ variants => fun s => (readUnion (payloadReaders variants) s).map Tagged.datum

/-- The readers of the elements of a tuple. -/
def itemReaders : List Ty → ∀ {σ : Type} [Source σ], List (σ → Except Fault Datum)
  | [] => []
  | t :: rest => t.read :: itemReaders rest

/-- The readers of the fields of a struct. -/
def fieldReaders : List (Field × Ty) → ∀ {σ : Type} [Source σ], List (FieldReader σ)
  | [] => []
  | (f, t) :: rest => ⟨f, t.isOption, t.read, t.readFlattened⟩ :: fieldReaders rest

/-- The readers of the elements of a tuple type, none if it is no tuple. -/
def Ty.items : Ty → ∀ {σ : Type} [Source σ], List (σ → Except Fault Datum)
  | .tuple ts => itemReaders ts
  | _ => []

/-- The readers of the fields of a struct type, none if it is no struct. -/
def Ty.fields : Ty → ∀ {σ : Type} [Source σ], List (FieldReader σ)
  | .struct _ fields => fieldReaders fields
  | _ => []

/-- The readers of the variants of an enum. -/
def variantReaders : List (String × Form × Ty) → ∀ {σ : Type} [Source σ], List (VariantReader σ)
  | [] => []
  | (name, form, t) :: rest =>
    ⟨name, form, t.read, t.items, t.fields, t.isOption⟩ :: variantReaders rest

/-- The readers of the payloads of a union. -/
def payloadReaders : List (String × Ty) → ∀ {σ : Type} [Source σ], List (PayloadReader σ)
  | [] => []
  | (tag, t) :: rest => ⟨tag, t.read⟩ :: payloadReaders rest

/-- Reads a field from the entries that no field has taken. A struct and an enum whose tag stands
beside its content take those under their names, and an enum in the external form takes the first
one under the name of a variant. What is read from a map sees all of the entries and takes none.
An option is empty where its value cannot be read. -/
def Ty.readFlattened : Ty → List (Snapshot × Snapshot) →
    Except Fault Datum × List (Snapshot × Snapshot)
  | .struct info fields, entries =>
    let readers : List (FieldReader Exacting) := fieldReaders fields
    let read := fun c => (Visit.struct ("struct " ++ info.name) info.strict readers c).map
      (structDatum info.name (fields.map (·.1)))
    if fields.any (·.1.flattened) then Leftover.seen read entries
    else Leftover.taken (readers.map FieldReader.names).flatten read entries
  | .map k v, entries => Leftover.seen (Visit.map k.read v.read) entries
  | .option t, entries =>
    let (result, left) := t.readFlattened entries
    (.ok (result.toOption.elim .none .some), left)
  | .newtypeStruct name t, entries =>
    let (result, left) := t.readFlattened entries
    (result.map (.newtypeStruct name), left)
  | .unit, entries => (.ok .unit, entries)
  | .unitStruct name, entries => (.ok (.unitStruct name), entries)
  | .json, entries => (readJson (⟨.map entries⟩ : Exacting), entries)
  | .result ok error, entries =>
    Leftover.chosen "Result" ["Ok", "Err"] (Visit.resultEnum ok.read error.read) entries
  | .enum name .external variants, entries =>
    let readers : List (VariantReader Exacting) := variantReaders variants
    Leftover.chosen name (readers.map (·.name)) (Visit.externalEnum name readers) entries
  | .enum name (.internal tag) variants, entries =>
    (Visit.internalEnum name tag (variantReaders variants) (⟨.map entries⟩ : Exacting), entries)
  | .enum name (.adjacent tag content) variants, entries =>
    let readers : List (VariantReader Exacting) := variantReaders variants
    Leftover.taken [tag, content]
      (fun c => (Visit.adjacentEnum name tag content readers readers c).map fun (i, x) =>
        Visit.adjacentDatum tag content ⟨name, i, ((variants[i]?).map (·.1)).getD ""⟩ x)
      entries
  | .enum name .untagged variants, entries =>
    (Visit.untaggedEnum name (variantReaders variants) (.map entries), entries)
  | .union _ variants, entries =>
    ((readUnion (payloadReaders variants) (⟨.map entries⟩ : Exacting)).map Tagged.datum, entries)
  | _, entries => (.error (.custom "can only flatten structs and maps"), entries)

end

/-! ## Unions -/

namespace Tagged

variable {σ : Type} [Source σ]

/-- Reads a value of a union, given the types of its variants. -/
def read (variants : List (String × Ty)) (s : σ) : Except Fault Tagged :=
  readUnion (payloadReaders variants) s

/-- Reads a sequence of values of a union. -/
def readList (variants : List (String × Ty)) (s : σ) : Except Fault (List Tagged) :=
  consult .seq s (Visit.elements (read variants))

/-- Reads a value of a union, or nothing. -/
def readOption (variants : List (String × Ty)) (s : σ) : Except Fault (Option Tagged) :=
  consult .option s (Visit.optional (read variants))

end Tagged

end FlatUnion
