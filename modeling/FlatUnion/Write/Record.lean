import FlatUnion.Data.Datum
import FlatUnion.Write.Emission

/-!
# Recording

The recording writer notes every call that is made on it, and so gives a datum back in its plain
form (`Datum.record`) : shown values as their texts, fields that are passed over left out, keys
and values put together into entries. It says of itself that it is not one for people.
-/

namespace FlatUnion

mutual

/-- The plain form of a datum, unless a part of it fails. -/
def Datum.record : Datum → Except Fault Datum
  | .bool b => .ok (.bool b)
  | .int w n => .ok (.int w n)
  | .f32 bits => .ok (.f32 bits)
  | .f64 bits => .ok (.f64 bits)
  | .char c => .ok (.char c)
  | .text s => .ok (.text s)
  | .bytes bs => .ok (.bytes bs)
  | .display s => .ok (.text s)
  | .readability => .ok (.readabilityReport false)
  | .none => .ok .none
  | .some inner => do return .some (← inner.record)
  | .unit => .ok .unit
  | .unitStruct name => .ok (.unitStruct name)
  | .unitVariant v => .ok (.unitVariant v)
  | .newtypeStruct name inner => do return .newtypeStruct name (← inner.record)
  | .newtypeVariant v inner => do return .newtypeVariant v (← inner.record)
  | .seq items => do return .seq (← recordList items)
  | .tuple items => do return .tuple (← recordList items)
  | .tupleStruct name items => do return .tupleStruct name (← recordList items)
  | .tupleVariant v items => do return .tupleVariant v (← recordList items)
  | .map items => do return .map (Item.pairUp (← (recordItems items).toExcept))
  | .struct name fields => do return .struct name (← recordFields fields)
  | .structVariant v fields => do return .structVariant v (← recordFields fields)
  | .fail fault => .error fault

def recordList : List Datum → Except Fault (List Datum)
  | [] => .ok []
  | d :: rest => do return (← d.record) :: (← recordList rest)

def recordFields : List (String × Option Datum) → Except Fault (List (String × Option Datum))
  | [] => .ok []
  | (_, none) :: rest => recordFields rest
  | (name, some d) :: rest => do return (name, some (← d.record)) :: (← recordFields rest)

/-- The calls that one call on a map leaves behind. An entry is a key and then a value. -/
def recordItem : Item Datum → Emission (List (Item Datum))
  | .entry k v =>
    match k.record with
    | .error f => .fail f
    | .ok key =>
      match v.record with
      | .error f => ⟨[.key key], some f⟩
      | .ok value => .pure [.key key, .value value]
  | .key k =>
    match k.record with
    | .error f => .fail f
    | .ok key => .pure [.key key]
  | .value v =>
    match v.record with
    | .error f => .fail f
    | .ok value => .pure [.value value]
  | .fail f => .fail f

def recordItems : List (Item Datum) → Emission (List (Item Datum))
  | [] => .pure []
  | i :: rest => recordItem i ++ recordItems rest

end

end FlatUnion
