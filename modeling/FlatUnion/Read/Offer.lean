import FlatUnion.Read.Source

/-!
# Offers as sources

A source that answers every request with what it has. It says of itself whether it is meant for
people to read, and this holds for all its parts.
-/

namespace FlatUnion

/-- A value to read from, and whether its format is one for people. -/
structure Offered where
  value : Offer
  readable : Bool := true

namespace Offer

/-- The value opened by one level. The variant of an enum is its name, and has no content. -/
def call (readable : Bool) : Offer → Except Fault (Call Offered)
  | .scalar s => .ok (.scalar s)
  | .none => .ok .none
  | .some inner => .ok (.some ⟨inner, readable⟩)
  | .unit => .ok .unit
  | .newtype inner => .ok (.newtype ⟨inner, readable⟩)
  | .seq items hint => .ok (.seq (items.map (⟨·, readable⟩)) hint)
  | .map entries hint =>
    .ok (.map (entries.map fun e => (⟨e.1, readable⟩, ⟨e.2, readable⟩)) hint)
  | .enum name => .ok (.enum ⟨.scalar (.text .passing name), readable⟩ Option.none)
  | .fail fault => .error fault

mutual

/-- Passing over a value meets the first failure in it. An enum is taken for one with a content,
which it has not. -/
def skip : Offer → Except Fault Unit
  | .scalar _ | .none | .unit => .ok ()
  | .some inner | .newtype inner => inner.skip
  | .seq items _ => skipItems items
  | .map entries _ => skipEntries entries
  | .enum _ => .error (.invalidType .unitVariant "newtype variant")
  | .fail fault => .error fault

def skipItems : List Offer → Except Fault Unit
  | [] => .ok ()
  | x :: rest => do x.skip; skipItems rest

def skipEntries : List (Offer × Offer) → Except Fault Unit
  | [] => .ok ()
  | (k, v) :: rest => do k.skip; v.skip; skipEntries rest

end

end Offer

instance : Source Offered where
  readable s := s.readable
  answer _ s := do return { call := ← s.value.call s.readable }
  offer s := s.value
  skip s := s.value.skip

end FlatUnion
