import FlatUnion.Read.Replay
import FlatUnion.Text.Accepted
import FlatUnion.Type.Visit

/-!
# The flat representation

A flat union is one map : an entry that holds the tag, and beside it the entries of the payload. The
tag may stand anywhere, so the whole map is kept (`Flat.read`) before the payload's type is known.
Then the tag is looked up (`Flat.readTag`), and the payload is read from all of the entries, that
of the tag included (`Flat.readPayload`).

Two entries under one text are refused, as only one of them could be meant. Keys that are no texts
may be repeated : nothing is looked up under them.
-/

namespace FlatUnion

/-- The entries of a flat union, kept in their order. -/
structure Flat where
  entries : List (Snapshot × Snapshot)

namespace Flat

variable {σ α : Type}

/-- Whether one of the entries stands under a text. -/
def hasKey (entries : List (Snapshot × Snapshot)) (name : String) : Bool :=
  entries.any fun e => e.1.asText? = some name

/-- Keeps entries one by one, after those that are kept already. -/
def collect [Source σ] : (done : Nat) → (kept : List (Snapshot × Snapshot)) → List (σ × σ) →
    Outcome Flat
  | done, kept, [] => ⟨{ whole := done }, .ok ⟨kept⟩⟩
  | done, kept, (k, v) :: rest =>
    match Snapshot.ofOffer (Source.offer k) with
    | .error f => ⟨{ whole := done, keyTaken := true }, .error f⟩
    | .ok key =>
      match Snapshot.ofOffer (Source.offer v) with
      | .error f => ⟨{ whole := done + 1 }, .error f⟩
      | .ok value =>
        match key.asText?.filter (hasKey kept) with
        | some name =>
          ⟨{ whole := done + 1 }, .error (.custom ("duplicate field `" ++ name ++ "`"))⟩
        | none => collect (done + 1) (kept ++ [(key, value)]) rest

/-- Keeps a map. -/
def visit [Source σ] : Call σ → Outcome Flat
  | .map entries _ => collect 0 [] entries
  | c => refuse "a map with a tag field" c

/-- Reads the flat representation. -/
def read [Source σ] (s : σ) : Except Fault Flat := consult .map s visit

/-- The value of the entry that stands under a text. -/
def find? (flat : Flat) (name : String) : Option Snapshot :=
  (flat.entries.find? fun e => e.1.asText? = some name).map (·.2)

/-- Reads the tag alone. -/
def readTag (flat : Flat) (field : String) (read : Snapshot → Except Fault α) : Except Fault α :=
  match flat.find? field with
  | none => .error (.missingField field)
  | some value => read value

/-- Reads the payload, from all the entries. -/
def readPayload (flat : Flat) (read : Snapshot → Except Fault α) : Except Fault α :=
  read (.map flat.entries)

end Flat

/-! ## Unions -/

namespace Visit

variable {σ : Type}

/-- The tag of a union : one of the names, as a text. -/
def tag (names : List String) : Call σ → Outcome Nat
  | .scalar s =>
    match s.asText? with
    | none => refuse (describeAccepted "one of" names) (.scalar s : Call σ)
    | some name =>
      match names.findIdx? (· = name) with
      | some i => .plain (.ok i)
      | none => .plain (.error (.unknownVariant name names))
  | c => refuse (describeAccepted "one of" names) c

end Visit

/-- A variant of a union : its tag, and how its payload is read. -/
structure PayloadReader (σ : Type) where
  tag : String
  read : σ → Except Fault Datum

/-- A value of a union. -/
structure Tagged where
  tag : String
  payload : Datum

/-- The value as it is written : a map that holds the tag and the entries of the payload. -/
def Tagged.datum (x : Tagged) : Datum := .union x.tag x.payload

/-- Reads a union : the flat representation, its tag, and the payload that the tag tells. -/
def readUnion {σ : Type} [Source σ] (variants : List (PayloadReader Snapshot)) (s : σ) :
    Except Fault Tagged := do
  let flat ← Flat.read s
  let names := variants.map (·.tag)
  let i ← flat.readTag tagField fun value => consult .str value (Visit.tag names)
  let v ← Visit.pick variants i
  return ⟨v.tag, ← flat.readPayload v.read⟩

end FlatUnion
