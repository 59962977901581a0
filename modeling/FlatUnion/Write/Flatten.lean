import FlatUnion.Data.Datum

/-!
# Flattening

The payload of a flat union is written into the map that holds the tag. `Datum.flatten` gives the
calls that this makes on the open map. Structs and maps hand over their entries, and so do the
values inside options and newtypes. A payload without entries is refused before it has made any
call.

A flat union is therefore a map (`Datum.union`) : the entry of the tag, and then the calls of the
payload. A union inside a union is flattened like any other map.
-/

namespace FlatUnion

/-- The name of the field that holds the tag of a flat union. -/
def tagField : String := "type"

/-- The complaint about a payload that has no entries. -/
def Fault.cannotFlatten (what : String) : Fault :=
  .custom ("can not flatten " ++ what ++ " into a tagged map, expected a struct or map")

/-- The complaint about an integer that the flattening writer does not know. -/
def Fault.unsupportedWidth (w : Width) : Fault := .custom (w.name ++ " is not supported")

/-- The fields of a struct as entries, those passed over left out. -/
def fieldItems : List (String × Option Datum) → List (Item Datum)
  | [] => []
  | (_, none) :: rest => fieldItems rest
  | (name, some value) :: rest => .entry (.text name) value :: fieldItems rest

namespace Datum

/-- Why a datum without entries cannot be flattened. -/
def refusal : Datum → Option Fault
  | .some _ | .newtypeStruct .. | .struct .. | .map _ | .readability => Option.none
  | .fail fault => Option.some fault
  | .int w _ =>
    Option.some (if w.isWide then .unsupportedWidth w else .cannotFlatten "an integer")
  | .bool _ => Option.some (.cannotFlatten "a boolean")
  | .f32 _ | .f64 _ => Option.some (.cannotFlatten "a float")
  | .char _ => Option.some (.cannotFlatten "a char")
  | .text _ | .display _ => Option.some (.cannotFlatten "a string")
  | .bytes _ => Option.some (.cannotFlatten "a byte array")
  | .none => Option.some (.cannotFlatten "`None`")
  | .unit => Option.some (.cannotFlatten "a unit value")
  | .unitStruct _ => Option.some (.cannotFlatten "a unit struct")
  | .unitVariant _ => Option.some (.cannotFlatten "a unit variant")
  | .newtypeVariant .. => Option.some (.cannotFlatten "a newtype variant")
  | .seq _ => Option.some (.cannotFlatten "a sequence")
  | .tuple _ => Option.some (.cannotFlatten "a tuple")
  | .tupleStruct .. => Option.some (.cannotFlatten "a tuple struct")
  | .tupleVariant .. => Option.some (.cannotFlatten "a tuple variant")
  | .structVariant .. => Option.some (.cannotFlatten "a struct variant")

/-- The calls that a payload makes on the open map. The writer of a payload calls itself one for
people, whatever the format says. -/
def flatten : Datum → List (Item Datum)
  | .some inner | .newtypeStruct _ inner => inner.flatten
  | .struct _ fields => fieldItems fields
  | .map items => items
  | .readability => [.entry (.text "hr") (.bool true)]
  | d => (d.refusal.map Item.fail).toList

/-- A flat union as it is written. -/
def union (tag : String) (payload : Datum) : Datum :=
  .map (.entry (.text tagField) (.text tag) :: payload.flatten)

end Datum

end FlatUnion
