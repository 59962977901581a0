import FlatUnion.Type.Read
import FlatUnion.Type.Schema

/-!
# A catalog of types

The payload types and the flat unions that documents are decoded as and encoded from.
-/

namespace FlatUnion.Catalog

private def u8 : Ty := .int .u8
private def u32 : Ty := .int .u32

/-- A struct whose fields have nothing particular to them. -/
private def record (name : String) (fields : List (String × Ty)) : Ty :=
  .struct { name } (fields.map fun f => ({ name := f.1 }, f.2))

/-! ## Payloads -/

def textMessage : Ty := record "TextMessage" [("text", .text)]

def mediaMessage : Ty := record "MediaMessage" [("url", .text)]

def empty : Ty := .unitStruct "Empty"

def pair : Ty := .tupleStruct "Pair" [u8, .text]

def newByte : Ty := .newtypeStruct "NewByte" u8

def newText : Ty := .newtypeStruct "NewText" textMessage

/-- A struct that is read and written as its one field. -/
def transparent : Ty := textMessage

def choice : Ty :=
  .enum "Choice" .external
    [("Unit", .unit, .unit), ("One", .newtype, textMessage), ("Tup", .tuple, .tuple [u8, u8]),
     ("Rec", .struct, record "Rec" [("a", u8)])]

def priority : Ty :=
  .enum "Priority" .external [("Low", .unit, .unit), ("High", .newtype, u8)]

/-- A field that is empty by default and written unless it is. -/
private def optionalField (name : String) (t : Ty) : Field × Ty :=
  ({ name, default := some .none, writing := .unlessNone }, .option t)

def numbers : Ty :=
  .struct { name := "Numbers" }
    ([Width.u8, .u16, .u32, .u64, .u128, .i8, .i16, .i32, .i64, .i128].map
        (fun w => optionalField w.name (.int w)) ++
      [optionalField "f32" .f32, optionalField "f64" .f64, optionalField "ch" .char,
       optionalField "flag" .bool, optionalField "pair" (.tuple [u8, .text]),
       optionalField "arr" (.array 3 u8), optionalField "nb" newByte,
       optionalField "bytes" .bytes, optionalField "unit" empty])

def strict : Ty := .struct { name := "Strict", strict := true } [({ name := "value" }, u32)]

def tagged : Ty :=
  .struct { name := "Tagged" }
    [({ name := "type", writing := .never }, .text), ({ name := "value" }, u32)]

def twice : Ty := record "Twice" [("type", .text), ("value", u32)]

def attributes : Ty := .map .text .json

def envelope : Ty :=
  .struct { name := "Envelope" }
    [({ name := "id" }, u32), ({ name := "extra", flattened := true }, attributes)]

def deep : Ty :=
  .struct { name := "Deep" }
    [({ name := "id" }, u32), ({ name := "text", flattened := true }, textMessage),
     ({ name := "rest", flattened := true }, .option mediaMessage)]

def task : Ty :=
  record "Task"
    [("id", .int .u128), ("delta", .int .i128), ("ratio", .f32), ("tags", .list .text),
     ("priority", priority), ("fallback", priority), ("note", .option .text)]

def wrapped (t : Ty) : Ty :=
  .struct { name := "Wrapped", title := "Wrapped_for_" ++ t.title } [({ name := "inner" }, t)]

def named : Ty := record "Named" [("name", .text)]

def borrowed : Ty := record "Borrowed" [("name", .borrowed)]

def internal : Ty :=
  .enum "Internal" (.internal "kind")
    [("A", .struct, record "A" [("x", u8)]), ("B", .newtype, textMessage), ("C", .unit, .unit)]

def sameTag : Ty :=
  .enum "SameTag" (.internal "type")
    [("internal", .struct, record "internal" [("x", u8)]),
     ("same", .struct, record "same" [("y", u8)])]

def adjacent : Ty :=
  .enum "Adjacent" (.adjacent "t" "c")
    [("A", .newtype, u8), ("B", .struct, record "B" [("x", u8)]), ("C", .unit, .unit)]

def untagged : Ty :=
  .enum "Untagged" .untagged
    [("Text", .newtype, textMessage), ("Media", .newtype, mediaMessage),
     ("Any", .newtype, attributes)]

def defaults : Ty :=
  .struct { name := "Defaults" }
    [({ name := "count", default := some (.int .u8 0) }, u8),
     ({ name := "fullName", aliases := ["full_name"] }, .text),
     ({ name := "note", writing := .unlessNone }, .option .text)]

/-! ## Unions -/

def message : List (String × Ty) := [("text", textMessage), ("media", mediaMessage)]

def holder : Ty :=
  record "Holder"
    [("items", .list (.union "Message" message)), ("first", .option (.union "Message" message))]

private def either (left right : Ty) : List (String × Ty) :=
  [("Left", wrapped left), ("Right", wrapped right), ("Text", textMessage)]

private def bare (t : Ty) : List (String × Ty) := [("value", t)]

/-- The flat unions by their names. -/
def unions : List (String × List (String × Ty)) :=
  [("Message", message),
   ("Fields", message),
   ("Keyword", [("type", textMessage), ("match", mediaMessage), ("async", textMessage)]),
   ("Single", [("only", textMessage)]),
   ("Letters", [("a", textMessage), ("é", mediaMessage), ("c", defaults)]),
   ("Case",
    [("text", textMessage), ("Text", textMessage), ("TEXT", mediaMessage),
     ("größe", textMessage), ("名前", mediaMessage)]),
   ("Scalar",
    [("flag", .bool), ("int", .int .i64), ("small", u8), ("short", .int .i16), ("word", u32),
     ("wide", .int .u128), ("iwide", .int .i128), ("float", .f64), ("single", .f32),
     ("ch", .char), ("name", .text), ("list", .list u32), ("pair", .tuple [u8, u8]),
     ("tstruct", pair), ("bytes", .bytes), ("nb", newByte)]),
   ("Shape",
    [("empty", empty), ("unit", .unit), ("missing", .option textMessage),
     ("twice", .option (.option textMessage)), ("choice", choice)]),
   ("Nums", [("nums", numbers), ("task", task)]),
   ("Wrapper",
    [("strict", strict), ("number", tagged), ("twice", twice), ("defaults", defaults)]),
   ("Maps",
    [("attrs", attributes), ("ints", .map u32 .text), ("flags", .map .bool .text),
     ("chars", .map .char .text), ("opts", .map .text (.option .text)), ("value", .json)]),
   ("Packet", [("Envelope", envelope), ("Deep", deep)]),
   ("Indirect", [("boxed", textMessage), ("newtype", newText), ("transparent", transparent)]),
   ("Either<u8,String>", either u8 .text),
   ("Either<Option<bool>,Vec<i8>>", either (.option .bool) (.list (.int .i8))),
   ("Bare<TextMessage>", bare textMessage),
   ("Bare<Message>", bare (.union "Message" message)),
   ("Bare<Bare<Message>>", bare (.union "Bare" (bare (.union "Message" message)))),
   ("Entry", [("Named", named), ("Borrowed", borrowed)]),
   ("Outer",
    [("text", .union "Message" message), ("value", .union "Bare" (bare textMessage)),
     ("holder", holder)]),
   ("Kinds",
    [("internal", internal), ("same", sameTag), ("adjacent", adjacent), ("untagged", untagged)]),
   ("Reexported", [("text", textMessage)]),
   ("Never", [])]

/-- The flat union of a name. -/
def union? (name : String) : Option (List (String × Ty)) := unions.lookup name

/-- The types that have schemas, by their names. A union of parameters is named without them. -/
def described : List (String × Ty) :=
  let names := ["Message", "Fields", "Keyword", "Single", "Letters", "Case", "Reexported"]
  let generic := ["Either<u8,String>", "Either<Option<bool>,Vec<i8>>"]
  let described (title name : String) : Option (String × Ty) :=
    (union? name).map fun variants => (name, .union title variants)
  names.filterMap (fun name => described name name) ++
  generic.filterMap (described "Either") ++
  [("Vec<Message>", .list (.union "Message" message)),
   ("Option<Single>", .option (.union "Single" [("only", textMessage)]))]

def described? (name : String) : Option Ty := described.lookup name

/-- The types that a probe can ask for, by their names. -/
def types : List (String × Ty) :=
  Width.all.map (fun w => (w.name, .int w)) ++
  [("bool", .bool), ("char", .char), ("String", .text), ("()", .unit), ("f32", .f32),
   ("f64", .f64), ("Option<u8>", .option u8), ("Option<()>", .option .unit),
   ("Option<Option<u8>>", .option (.option u8)), ("Vec<u16>", .list (.int .u16)),
   ("(u8,)", .tuple [u8]), ("(u8,u8)", .tuple [u8, u8]), ("[u8;3]", .array 3 u8),
   ("BTreeMap<String,u8>", .map .text u8), ("BTreeMap<u32,String>", .map u32 .text),
   ("Bytes", .bytes), ("Choice", choice), ("Empty", empty), ("Pair", pair),
   ("NewByte", newByte), ("TextMessage", textMessage), ("Priority", priority),
   ("Result<u8,String>", .result u8 .text), ("Box<TextMessage>", textMessage)]

def type? (name : String) : Option Ty := types.lookup name

end FlatUnion.Catalog
