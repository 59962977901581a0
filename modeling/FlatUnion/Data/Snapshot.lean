import FlatUnion.Read.Offer

/-!
# Snapshots

A snapshot is a value kept in memory : all that a source offered, every integer with its width,
every float with its bits, every layer of an option, and the entries of a map in their order with
their keys, whatever those are. What is lost is how long the source would have lent its texts, and
what sizes it had announced.

`Snapshot.ofOffer` keeps an offer, `Snapshot.toOffer` offers it again. An enum cannot be kept, as
nothing says what kind of content its variant has.
-/

namespace FlatUnion

/-- A value kept in memory. -/
inductive Snapshot
  | bool (b : Bool)
  | int (width : Width) (n : Int)
  | f32 (bits : Nat)
  | f64 (bits : Nat)
  | char (c : Char)
  | text (s : String)
  | bytes (bs : List UInt8)
  | none
  | some (inner : Snapshot)
  | unit
  | newtype (inner : Snapshot)
  | seq (items : List Snapshot)
  | map (entries : List (Snapshot × Snapshot))

namespace Snapshot

/-- The text of a key that is one. A character is none. -/
def asText? : Snapshot → Option String
  | .text s => Option.some s
  | _ => Option.none

/-- Keeps a scalar. -/
def ofScalar : Scalar → Snapshot
  | .bool b => .bool b
  | .int w n => .int w n
  | .f32 bits => .f32 bits
  | .f64 bits => .f64 bits
  | .char c => .char c
  | .text _ s => .text s
  | .bytes _ bs => .bytes bs

/-! ## Keeping -/

mutual

/-- Keeps an offer, and fails with the first part that cannot be kept. -/
def ofOffer : Offer → Except Fault Snapshot
  | .scalar s => .ok (ofScalar s)
  | .none => .ok .none
  | .some inner => do return .some (← ofOffer inner)
  | .unit => .ok .unit
  | .newtype inner => do return .newtype (← ofOffer inner)
  | .seq items _ => do return .seq (← ofItems items)
  | .map entries _ => do return .map (← ofEntries entries)
  | .enum _ => .error (.invalidType .enum "any value")
  | .fail fault => .error fault

def ofItems : List Offer → Except Fault (List Snapshot)
  | [] => .ok []
  | x :: rest => do return (← ofOffer x) :: (← ofItems rest)

def ofEntries : List (Offer × Offer) → Except Fault (List (Snapshot × Snapshot))
  | [] => .ok []
  | (k, v) :: rest => do
    let key ← ofOffer k
    let value ← ofOffer v
    return (key, value) :: (← ofEntries rest)

end

/-! ## Offering again -/

mutual

/-- Offers what was kept : texts and bytes as the reader's own, sizes as they are. -/
def toOffer : Snapshot → Offer
  | .bool b => .scalar (.bool b)
  | .int w n => .scalar (.int w n)
  | .f32 bits => .scalar (.f32 bits)
  | .f64 bits => .scalar (.f64 bits)
  | .char c => .scalar (.char c)
  | .text s => .scalar (.text .owned s)
  | .bytes bs => .scalar (.bytes .owned bs)
  | .none => .none
  | .some inner => .some inner.toOffer
  | .unit => .unit
  | .newtype inner => .newtype inner.toOffer
  | .seq items => .seq (itemsToOffer items) (Option.some items.length)
  | .map entries => .map (entriesToOffer entries) (Option.some entries.length)

def itemsToOffer : List Snapshot → List Offer
  | [] => []
  | x :: rest => x.toOffer :: itemsToOffer rest

def entriesToOffer : List (Snapshot × Snapshot) → List (Offer × Offer)
  | [] => []
  | (k, v) :: rest => (k.toOffer, v.toOffer) :: entriesToOffer rest

end

/-! ## Opening by one level -/

/-- A snapshot opened by one level. -/
def call : Snapshot → Call Snapshot
  | .bool b => .scalar (.bool b)
  | .int w n => .scalar (.int w n)
  | .f32 bits => .scalar (.f32 bits)
  | .f64 bits => .scalar (.f64 bits)
  | .char c => .scalar (.char c)
  | .text s => .scalar (.text .owned s)
  | .bytes bs => .scalar (.bytes .owned bs)
  | .none => .none
  | .some inner => .some inner
  | .unit => .unit
  | .newtype inner => .newtype inner
  | .seq items => .seq items (Option.some items.length)
  | .map entries => .map entries (Option.some entries.length)

/-- What a snapshot is called where it has the wrong form. The widest integers have no number in
such complaints, and a character is none but a character. -/
def unexpected : Snapshot → Unexpected
  | .int w n => if w.isWide then .other "128-bit integer" else .integer n
  | .char c => .char c
  | c => c.call.unexpected

/-- The complaint about elements that a reader left, of which it has read some. -/
def leftover (length : Nat) (what : String) (read : Nat) : Except Fault Unit :=
  if read < length then
    .error (.invalidLength length
      (if read = 1 then "1 element in " ++ what
       else toString read ++ " elements in " ++ what))
  else .ok ()

/-- Sequences and maps must be read to their ends. Of the last entry of a map the key is enough. -/
def closing : Snapshot → Progress → Except Fault Unit
  | .seq items, p => leftover items.length "sequence" p.whole
  | .map entries, p => leftover entries.length "map" p.begun
  | _, _ => .ok ()

/-- Offers a snapshot as it is. -/
def replay (c : Snapshot) : Answer Snapshot := { call := c.call, close := c.closing }

end Snapshot

end FlatUnion
