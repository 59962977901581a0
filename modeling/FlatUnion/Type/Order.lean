import FlatUnion.Data.Datum

/-!
# The order of keys

The entries of a map are kept in the order of their keys. Two keys of one type are compared part by
part, so a key is spelled as a list of numbers (`Datum.rank`), and keys are in the order of these
lists : texts by their characters, options with nothing first, sequences and structs element by
element, and variants by their places. Names need no numbers, as all keys of one type have the same.
Floats have no order in which they could be keys, and are put in that of their bits.
-/

namespace FlatUnion

namespace Datum

/-- A text by its characters. Where one text begins another, the end comes first. -/
def textRank (s : String) : List Int := s.toList.map (fun c => (c.toNat : Int) + 1) ++ [0]

mutual

/-- A datum as a list of numbers. -/
def rank : Datum → List Int
  | .bool b => [if b then 1 else 0]
  | .int _ n => [n]
  | .f32 bits | .f64 bits => [(bits : Int)]
  | .char c => [(c.toNat : Int)]
  | .text s | .display s => textRank s
  | .bytes bs => bs.map (fun b => (b.toNat : Int) + 1) ++ [0]
  | .none => [0]
  | .some inner => 1 :: inner.rank
  | .unit | .unitStruct _ | .readability | .fail _ => []
  | .unitVariant v => [(v.index : Int)]
  | .newtypeStruct _ inner => inner.rank
  | .newtypeVariant v inner => v.index :: inner.rank
  | .seq items | .tuple items | .tupleStruct _ items => listRank items
  | .tupleVariant v items => v.index :: listRank items
  | .map items => itemsRank items
  | .struct _ fields => fieldsRank fields
  | .structVariant v fields => v.index :: fieldsRank fields

def listRank : List Datum → List Int
  | [] => [0]
  | d :: rest => 1 :: (d.rank ++ listRank rest)

def itemsRank : List (Item Datum) → List Int
  | [] => [0]
  | .entry k v :: rest => 1 :: (k.rank ++ v.rank ++ itemsRank rest)
  | .key k :: rest => 1 :: (k.rank ++ itemsRank rest)
  | .value v :: rest => 1 :: (v.rank ++ itemsRank rest)
  | .fail _ :: rest => 1 :: itemsRank rest

def fieldsRank : List (String × Option Datum) → List Int
  | [] => []
  | (_, Option.none) :: rest => 0 :: fieldsRank rest
  | (_, Option.some d) :: rest => 1 :: (d.rank ++ fieldsRank rest)

end

/-- Whether a key stands before another. -/
def before (a b : Datum) : Bool := a.rank < b.rank

end Datum

end FlatUnion
