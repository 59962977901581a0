import FlatUnion.Data.Snapshot

/-!
# Snapshots as sources

A snapshot is read in one of two ways.

`Snapshot` itself answers most requests with what it is, so that readers see what the source of the
snapshot would have shown them. A few requests have a meaning of their own : an option takes a unit
for nothing and anything else for something, a newtype may be left unmarked, and an enum is a bare
name or a map of one entry, the variant and its content.

An `Exacting` snapshot answers a request only with a value of a fitting kind and keeps the rest to
itself : a character is then no text, and an integer of sixteen bits no index of a field.
-/

namespace FlatUnion

namespace Snapshot

/-- The variant and the content of an enum in its external form. -/
def variant : Snapshot → Except Fault (Snapshot × Option Snapshot)
  | .text s => .ok (.text s, Option.none)
  | .map [(variant, content)] => .ok (variant, Option.some content)
  | .map _ => .error (.invalidValue .map "map with a single key")
  | c => .error (.invalidType c.unexpected "string or map")

/-- The answer of a snapshot to a request. -/
def answer : Request → Snapshot → Except Fault (Answer Snapshot)
  | .option, .none | .option, .unit => .ok { call := .none }
  | .option, .some inner => .ok { call := .some inner }
  | .option, c => .ok { call := .some c }
  | .newtypeStruct, .newtype inner => .ok { call := .newtype inner }
  | .newtypeStruct, c => .ok { call := .newtype c }
  | .enum, c => do
    let (variant, content) ← c.variant
    return { call := .enum variant content }
  | .tupleVariant, .seq items => .ok (replay (.seq items))
  | .tupleVariant, c => .error (.invalidType c.unexpected "tuple variant")
  | .structVariant, .map entries => .ok (replay (.map entries))
  | .structVariant, .seq items => .ok (replay (.seq items))
  | .structVariant, c => .error (.invalidType c.unexpected "struct variant")
  | _, c => .ok c.replay

end Snapshot

instance : Source Snapshot where
  readable _ := true
  answer := Snapshot.answer
  offer := Snapshot.toOffer
  skip _ := .ok ()

/-- A snapshot that answers with fitting values only. -/
structure Exacting where
  snapshot : Snapshot

namespace Exacting

/-- The same call, its parts exacting too. -/
def ofCall : Call Snapshot → Call Exacting
  | .scalar s => .scalar s
  | .none => .none
  | .some inner => .some ⟨inner⟩
  | .unit => .unit
  | .newtype inner => .newtype ⟨inner⟩
  | .seq items hint => .seq (items.map Exacting.mk) hint
  | .map entries hint => .map (entries.map fun e => (⟨e.1⟩, ⟨e.2⟩)) hint
  | .enum variant content => .enum ⟨variant⟩ (content.map Exacting.mk)
  | .refused found => .refused found

/-- Whether a snapshot is of the kind that is asked for. -/
def fits : Request → Snapshot → Bool
  | .bool, .bool _ => true
  | .bool, _ => false
  | .int _, .int .. | .f32, .int .. | .f64, .int .. => true
  | .f32, .f32 _ | .f32, .f64 _ | .f64, .f32 _ | .f64, .f64 _ => true
  | .int _, _ | .f32, _ | .f64, _ => false
  | .char, .char _ | .char, .text _ => true
  | .char, _ => false
  | .str, .text _ | .str, .bytes _ | .string, .text _ | .string, .bytes _ => true
  | .str, _ | .string, _ => false
  | .bytes, .text _ | .bytes, .bytes _ | .bytes, .seq _ => true
  | .byteBuf, .text _ | .byteBuf, .bytes _ | .byteBuf, .seq _ => true
  | .bytes, _ | .byteBuf, _ => false
  | .unit, .unit => true
  | .unit, _ => false
  | .seq, .seq _ | .tuple, .seq _ | .tupleStruct, .seq _ => true
  | .seq, _ | .tuple, _ | .tupleStruct, _ => false
  | .map, .map _ => true
  | .map, _ => false
  | .struct, .map _ | .struct, .seq _ => true
  | .struct, _ => false
  | .identifier, .text _ | .identifier, .bytes _ => true
  | .identifier, .int .u8 _ | .identifier, .int .u64 _ => true
  | .identifier, _ => false
  | _, _ => true

/-- The answer to a request : that of the snapshot if it fits. Where a unit struct is asked for, an
empty map or sequence is one. -/
def answer (r : Request) (s : Exacting) : Except Fault (Answer Exacting) :=
  match r, s.snapshot with
  | .unitStruct, .map [] | .unitStruct, .seq [] => .ok { call := .unit }
  | .ignored, _ => .ok { call := .unit }
  | r, c =>
    if fits r c then do
      let a ← c.answer r
      return { call := ofCall a.call, close := a.close }
    else .ok { call := .refused c.unexpected }

end Exacting

instance : Source Exacting where
  readable _ := true
  exact := true
  answer := Exacting.answer
  offer s := s.snapshot.toOffer
  skip _ := .ok ()

end FlatUnion
