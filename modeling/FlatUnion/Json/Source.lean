import FlatUnion.Json.Tree
import FlatUnion.Read.Source

/-!
# A text as a source

The parts of a JSON text answer requests. Nothing is announced in advance, texts without escapes
last as long as the input, and a part that is not what it was asked for is refused. Complaints of
readers are placed where the text had been read to.

A key of an object is a text, which may also be read as a number or a boolean that stands between
the quotes. An enum is a text, or an object whose one member is the variant and its content.
-/

namespace FlatUnion.Json

/-- A part of a text as readers see it. -/
inductive Part
  | value (node : Node)
  /-- The key of a member, from its quote on. -/
  | key (start : Cursor)

/-! ## What a leaf holds -/

/-- A word, a text or a number. -/
inductive Literal
  | null
  | bool (b : Bool)
  | text (lending : Lending) (s : String)
  | number (n : Number)

/-- Texts without escapes are a part of the input. -/
def lending (cs : List Char) (length : Nat) : Lending :=
  if hasEscapes cs length then .passing else .lasting

/-- The number of a text as a scalar. -/
def Number.scalar : Number → Scalar
  | .unsigned n => .int .u64 n
  | .signed n => .int .i64 n
  | .float bits => .f64 bits

namespace Literal

/-- The literal at the front of a text. -/
def read : List Char → Except Slip (Lexeme Literal)
  | [] => .error { error := .endInValue, ahead := 1 }
  | 'n' :: rest => (word ['u', 'l', 'l'] 1 rest).map (⟨.null, ·⟩)
  | 't' :: rest => (word ['r', 'u', 'e'] 1 rest).map (⟨.bool true, ·⟩)
  | 'f' :: rest => (word ['a', 'l', 's', 'e'] 1 rest).map (⟨.bool false, ·⟩)
  | '"' :: rest =>
    let cs := '"' :: rest
    (Json.text cs).map fun l => ⟨.text (lending cs l.length) l.value, l.length⟩
  | c :: rest =>
    if c = '-' || c.isDigit then
      (Json.number (c :: rest)).map fun l => ⟨.number l.value, l.length⟩
    else .error { error := .expectedValue, ahead := 1 }

/-- A literal as a reader meets it. -/
def call {σ : Type} : Literal → Call σ
  | .null => .unit
  | .bool b => .scalar (.bool b)
  | .text l s => .scalar (.text l s)
  | .number n => .scalar n.scalar

/-- Whether a literal is of the kind that is asked for. -/
def suits : Request → Literal → Bool
  | .any, _ => true
  | .unit, .null | .unitStruct, .null => true
  | .bool, .bool _ => true
  | .char, .text .. | .str, .text .. | .string, .text .. | .identifier, .text .. => true
  | .int _, .number _ | .f32, .number _ | .f64, .number _ => true
  | _, _ => false

/-- A literal as it is offered. -/
def offer : Literal → Offer
  | .null => .unit
  | .bool b => .scalar (.bool b)
  | .text l s => .scalar (.text l s)
  | .number n => .scalar n.scalar

end Literal

/-- A call whose readers' complaints are placed somewhere. -/
def located (p : Position) (call : Call Part) : Answer Part :=
  { call, locate := fun _ f => f.placedAt p }

/-- What was read off the front of a text, or the fault. -/
def Cursor.take {α : Type} (c : Cursor) (r : Except Slip (Lexeme α)) :
    Except Fault (α × Cursor) :=
  match r with
  | .error s => .error (c.fault s)
  | .ok l => .ok (l.value, c.drop l.length)

/-! ## Leaves -/

/-- The answer of a number where the widest integers are wanted, whatever stands there. What it
leaves of a longer numeral is the fault of the part around it. -/
def wideAnswer (w : Width) (inside : Option JsonError) (c : Cursor) :
    Except Fault (Answer Part) := do
  if c.rest.isEmpty then .error (c.faultHere .endInValue)
  let (n, d) ← c.take (wideInteger w c.rest)
  match inside, d.rest with
  | some e, x :: _ =>
    if x = '.' || x = 'e' || x = 'E' then .error (d.faultHere e)
    else return located d.place (.scalar (.int w n))
  | _, _ => return located d.place (.scalar (.int w n))

/-- The answer of bytes, which are spelled like a text. -/
def bytesAnswer (c : Cursor) : Except Fault (Answer Part) := do
  let (bs, d) ← c.take (textBytes c.rest)
  let length := c.rest.length - d.rest.length
  return located d.place (.scalar (.bytes (lending c.rest length) bs))

/-- The answer of a literal, which is refused if it does not suit. Where there is a bracket it is
refused unread. -/
def literalAnswer (r : Request) (c : Cursor) : Except Fault (Answer Part) := do
  match c.rest.head? with
  | some '[' => return located c.place (.refused .seq)
  | some '\x7b' => return located c.place (.refused .map)
  | _ =>
    let (x, d) ← c.take (Literal.read c.rest)
    if x.suits r then return located d.place x.call
    else return located d.place (.refused (x.call : Call Part).unexpected)

/-- The answer of a leaf. -/
def leafAnswer (r : Request) (inside : Option JsonError) (c : Cursor) :
    Except Fault (Answer Part) :=
  let self := Part.value (.leaf c inside)
  match r, c.rest with
  | .option, 'n' :: rest =>
    match word ['u', 'l', 'l'] 1 rest with
    | .error s => .error (c.fault s)
    | .ok _ => .ok { call := .none }
  | .option, _ => .ok { call := .some self }
  | .newtypeStruct, _ => .ok { call := .newtype self }
  | .enum, '"' :: _ => .ok { call := .enum self none }
  | .enum, [] => .error (c.faultHere .endInValue)
  | .enum, _ => .error (c.faultHere .expectedValue)
  | .bytes, '"' :: _ | .byteBuf, '"' :: _ => bytesAnswer c
  | .int w, _ => if w.isWide then wideAnswer w inside c else literalAnswer r c
  | r, _ => literalAnswer r c

/-! ## Lists and objects -/

/-- Parts inside this many others are not read. -/
def depthLimit : Nat := 127

/-- The place where the reading of a list or an object stops. -/
def Ending.place : Ending → Position
  | .closed behind => behind
  | .broken _ _ _ reached => reached

/-- What closing says at the end. -/
def Ending.close : Ending → Except Fault Unit
  | .closed _ => .ok ()
  | .broken _ _ close _ => .error close

/-- What passing over says at the end. -/
def Ending.skip : Ending → Except Fault Unit
  | .closed _ => .ok ()
  | .broken _ skip _ _ => .error skip

/-- What asking for more says at the end, if anything. -/
def Ending.next? : Ending → Option Fault
  | .closed _ => none
  | .broken next _ _ _ => some next

/-- A list as it is read. Behind the last item that there is, a mistake stands for one more. -/
def listAnswer (start : Cursor) (items : List Node) (ending : Ending) : Answer Part where
  call := .seq (items.map .value ++ ending.next?.toList.map fun f => .value (.missing start f)) none
  close p :=
    match items[p.whole]? with
    | some item => .error (item.start.faultHere .trailingCharacters)
    | none => ending.close
  locate p f := f.placedAt ((items[p.whole]?).elim ending.place (·.start.place))

/-- The cursor between two members, if there is a member behind it. -/
def boundary (members : List (Member Node)) : (whole : Nat) → Option Cursor
  | 0 => members.head?.map (·.key)
  | n + 1 => if n + 1 < members.length then members[n]?.map (·.next) else none

/-- An object as it is read. -/
def objectAnswer (start : Cursor) (members : List (Member Node)) (ending : Ending) :
    Answer Part where
  call :=
    let more := ending.next?.toList.map fun f =>
      (Part.value (.missing start f), Part.value (.missing start f))
    .map (members.map (fun m => (.key m.key, .value m.value)) ++ more) none
  close p :=
    match boundary members p.whole with
    | some c =>
      .error (c.faultHere (if p.whole = 0 then .trailingCharacters else .trailingComma))
    | none => ending.close
  locate p f :=
    let here := (boundary members p.whole).elim ending.place (·.place)
    f.placedAt (if p.keyTaken then (members[p.whole]?).elim here (·.colon.place) else here)

/-- An object that is read as an enum. It must have one member. -/
def enumAnswer (start : Cursor) (members : List (Member Node)) : Answer Part where
  call :=
    .enum (.value (.leaf (start.drop 1).skipBlanks none)) (members.head?.map (.value ·.value))
  close _ :=
    match members with
    | [] => .ok ()
    | m :: _ =>
      match m.next.rest with
      | '\x7d' :: _ => .ok ()
      | [] => .error (m.next.fault { error := .endInObject })
      | _ :: _ => .error (m.next.fault { error := .expectedValue })

/-- Whether a list answers a request. -/
def listSuits : Request → Bool
  | .any | .seq | .tuple | .tupleStruct | .tupleVariant | .bytes | .byteBuf => true
  | .struct | .structVariant => true
  | _ => false

/-- Whether an object answers a request. -/
def objectSuits : Request → Bool
  | .any | .map | .struct | .structVariant => true
  | _ => false

/-- An answer that takes a list or an object apart, unless it lies too deep. -/
def within (depth : Nat) (start : Cursor) (a : Answer Part) : Except Fault (Answer Part) :=
  if depthLimit ≤ depth then .error (start.faultHere .recursionLimit) else .ok a

/-- The answer of a value to a request other than to be passed over. -/
def valueAnswer (r : Request) : Node → Except Fault (Answer Part)
  | .missing _ f => .error f
  | .leaf c inside => leafAnswer r inside c
  | .list c depth items ending =>
    let self := Part.value (.list c depth items ending)
    match r with
    | .option => .ok { call := .some self }
    | .newtypeStruct => .ok { call := .newtype self }
    | .enum => .error (c.faultHere .expectedValue)
    | r =>
      if listSuits r then within depth c (listAnswer c items ending)
      else leafAnswer r none c
  | .object c depth members ending =>
    let self := Part.value (.object c depth members ending)
    match r with
    | .option => .ok { call := .some self }
    | .newtypeStruct => .ok { call := .newtype self }
    | .enum => within depth c (enumAnswer c members)
    | r =>
      if objectSuits r then within depth c (objectAnswer c members ending)
      else leafAnswer r none c

/-! ## Keys -/

/-- The text of a key. -/
def keyText (c : Cursor) : Except Fault (Scalar × Cursor) := do
  let (s, d) ← c.take (text c.rest)
  return (.text (lending c.rest (c.rest.length - d.rest.length)) s, d)

/-- A key that is read as a number. Its closing quote must follow. -/
def numericKey (r : Request) (c : Cursor) : Except Fault (Answer Part) := do
  let body := c.drop 1
  if body.rest.head?.any fun x => x = '-' || x.isDigit then
    let (call, d) ←
      match r with
      | .int w =>
        if w.isWide then
          body.take ((wideInteger w body.rest).map fun l => ⟨.scalar (.int w l.value), l.length⟩)
        else body.take ((number body.rest).map fun l => ⟨.scalar l.value.scalar, l.length⟩)
      | _ => body.take ((number body.rest).map fun l => ⟨.scalar l.value.scalar, l.length⟩)
    return {
      located d.place call with
      close := fun _ =>
        if d.rest.head? = some '"' then .ok () else .error (d.faultHere .expectedDoubleQuote) }
  else .error (body.fault { error := .expectedNumericKey })

/-- A key that is read as a boolean. -/
def boolKey (c : Cursor) : Except Fault (Answer Part) := do
  let word (b : Bool) (expected : List Char) : Except Fault (Answer Part) := do
    let ((), d) ← c.take ((Json.word expected 2 (c.rest.drop 2)).map (⟨(), ·⟩))
    return located d.place (.scalar (.bool b))
  match (c.rest.drop 1).head? with
  | some 't' => word true ['r', 'u', 'e', '"']
  | some 'f' => word false ['a', 'l', 's', 'e', '"']
  | _ =>
    let (s, d) ← c.take (textAfterQuote 2 (c.rest.drop 2))
    return located d.place (.refused (.text s))

/-- The answer of a key to a request. -/
def keyAnswer (r : Request) (c : Cursor) : Except Fault (Answer Part) :=
  match r with
  | .int _ | .f32 | .f64 => numericKey r c
  | .bool => boolKey c
  | .option => .ok { call := .some (.key c) }
  | .newtypeStruct => .ok { call := .newtype (.key c) }
  | .enum | .bytes | .byteBuf => leafAnswer r none c
  | .ignored => do
    let _ ← keyText c
    return { call := .unit }
  | _ => do return { call := .scalar (← keyText c).1 }

/-! ## Whole parts -/

/-- A leaf as it is offered. -/
def leafOffer (c : Cursor) : Offer :=
  match Literal.read c.rest with
  | .ok l => l.value.offer
  | .error s => .fail (c.fault s)

/-- A key as it is offered. -/
def keyOffer (c : Cursor) : Offer :=
  match keyText c with
  | .ok (s, _) => .scalar s
  | .error f => .fail f

mutual

/-- A value as it is offered. -/
def Node.offer : Node → Offer
  | .leaf c _ => leafOffer c
  | .list c depth items ending =>
    if depthLimit ≤ depth then .fail (c.faultHere .recursionLimit)
    else .seq (offerItems ending items) none
  | .object c depth members ending =>
    if depthLimit ≤ depth then .fail (c.faultHere .recursionLimit)
    else .map (offerMembers ending members) none
  | .missing _ f => .fail f

def offerItems (ending : Ending) : List Node → List Offer
  | [] => ending.next?.toList.map .fail
  | n :: rest => n.offer :: offerItems ending rest

def offerMembers (ending : Ending) : List (Member Node) → List (Offer × Offer)
  | [] => ending.next?.toList.map fun f => (.fail f, .fail f)
  | ⟨k, _, v, _⟩ :: rest => (keyOffer k, v.offer) :: offerMembers ending rest

end

mutual

/-- What goes wrong when a value is passed over. -/
def Node.skip : Node → Except Fault Unit
  | .leaf c _ =>
    match skipLeaf c.rest with
    | .ok _ => .ok ()
    | .error s => .error (c.fault s)
  | .list _ _ items ending => skipItems ending items
  | .object _ _ members ending => skipMembers ending members
  | .missing _ f => .error f

def skipItems (ending : Ending) : List Node → Except Fault Unit
  | [] => ending.skip
  | n :: rest => do n.skip; skipItems ending rest

def skipMembers (ending : Ending) : List (Member Node) → Except Fault Unit
  | [] => ending.skip
  | ⟨k, _, v, _⟩ :: rest => do
    match skipText k.rest with
    | .error s => .error (k.fault s)
    | .ok _ => v.skip
    skipMembers ending rest

end

namespace Part

/-- The answer of a part to a request. -/
def answer (r : Request) : Part → Except Fault (Answer Part)
  | .key c => keyAnswer r c
  | .value node =>
    match r with
    | .ignored => node.skip.map fun _ => { call := .unit }
    | r => valueAnswer r node

def offer : Part → Offer
  | .key c => keyOffer c
  | .value node => node.offer

def skip : Part → Except Fault Unit
  | .key c => (keyText c).map fun _ => ()
  | .value node => node.skip

end Part

instance : Source Part where
  readable _ := true
  answer := Part.answer
  offer := Part.offer
  skip := Part.skip

/-! ## Reading texts -/

/-- Reads the value at the front of a text, whatever follows it. -/
def readFront {α : Type} (read : Part → Except Fault α) (text : String) : Except Fault α :=
  read (.value (scan text).1)

/-- Reads a text that holds one value and nothing else. -/
def readWhole {α : Type} (read : Part → Except Fault α) (text : String) : Except Fault α := do
  let (node, stop) := scan text
  let x ← read (.value node)
  match stop.map Cursor.skipBlanks with
  | some c => if c.rest.isEmpty then return x else .error (c.faultHere .trailingCharacters)
  | none => return x

end FlatUnion.Json
