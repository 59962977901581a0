import FlatUnion.Type.Read

/-!
# Probes

A probe is a reader that accepts every answer and tells what it saw (`Event`). What it asks for, how
many parts it reads, and how it goes on inside, is said by a `Shape`. The shape `Shape.whole` asks
for nothing in particular and reads everything.
-/

namespace FlatUnion

/-- How the content of a variant is asked for. -/
abbrev Access := Form

/-- What a probe asks for, level by level. -/
inductive Shape
  | whole
  /-- Whether the source is one for people, before it is passed over. -/
  | readable
  | typed (type : Ty)
  /-- One request, the shapes of keys and of other parts, those of the values under certain keys,
  the number of parts to read, and the form in which the content of a variant is asked for. -/
  | probe (request : Request) (key child : Shape) (named : List (String × Shape))
      (take : Option Nat) (access : Access)
  deriving Inhabited

/-- What a probe saw. -/
inductive Event
  | scalar (s : Scalar)
  | none
  | some (inner : Event)
  | unit
  | newtype (inner : Event)
  | seq (items : List Event) (hint : Option Nat)
  | map (entries : List (Event × Event)) (hint : Option Nat)
  | enum (variant : Event) (access : Access) (content : Option Event)
  | readable (b : Bool)
  | datum (d : Datum)
  deriving Inhabited

/-! ## Everything -/

mutual

/-- Everything that a source offers. -/
def Event.ofOffer : Offer → Except Fault Event
  | .scalar s => .ok (.scalar s)
  | .none => .ok .none
  | .some inner => do return .some (← Event.ofOffer inner)
  | .unit => .ok .unit
  | .newtype inner => do return .newtype (← Event.ofOffer inner)
  | .seq items hint => do return .seq (← eventsOfItems items) hint
  | .map entries hint => do return .map (← eventsOfEntries entries) hint
  | .enum name => .ok (.enum (.scalar (.text .passing name)) .unit Option.none)
  | .fail fault => .error fault

def eventsOfItems : List Offer → Except Fault (List Event)
  | [] => .ok []
  | x :: rest => do return (← Event.ofOffer x) :: (← eventsOfItems rest)

def eventsOfEntries : List (Offer × Offer) → Except Fault (List (Event × Event))
  | [] => .ok []
  | (k, v) :: rest => do
    let key ← Event.ofOffer k
    let value ← Event.ofOffer v
    return (key, value) :: (← eventsOfEntries rest)

end

/-! ## Level by level -/

/-- A probe for one kind of source. -/
structure Prober (σ : Type) where
  /-- Puts the request to a source. -/
  read : σ → Except Fault Event
  /-- Takes an answer that was asked for otherwise. -/
  look : Call σ → Outcome Event

/-- The text by which a key is recognized. -/
def Scalar.label : Scalar → Option String
  | .bool _ => none
  | .int _ n => some (toString n)
  | .f32 bits => some (hexText 8 bits)
  | .f64 bits => some (hexText 16 bits)
  | .char c => some (String.singleton c)
  | .text _ s => some s
  | .bytes _ bs => some (hexOfBytes bs)

/-- The text by which a key that was read as a datum is recognized. -/
def Datum.label : Datum → Option String
  | .int _ n => Option.some (toString n)
  | .f32 bits => Option.some (hexText 8 bits)
  | .f64 bits => Option.some (hexText 16 bits)
  | .char c => Option.some (String.singleton c)
  | .text s => Option.some s
  | .bytes bs => Option.some (hexOfBytes bs)
  | .unitStruct name | .newtypeStruct name _ | .tupleStruct name _ | .struct name _ =>
    Option.some name
  | .unitVariant v | .newtypeVariant v _ | .tupleVariant v _ | .structVariant v _ =>
    Option.some v.enum
  | _ => Option.none

/-- The text by which a key that was seen is recognized. -/
def Event.label : Event → Option String
  | .scalar s => s.label
  | .datum d => d.label
  | _ => Option.none

namespace Prober

variable {σ : Type} [Source σ]

/-- The probe that reads everything. -/
def whole : Prober σ where
  read s := Event.ofOffer (Source.offer s)
  look
    | .scalar s => .plain (.ok (.scalar s))
    | .none => .plain (.ok .none)
    | .some s => .plain ((Event.ofOffer (Source.offer s)).map .some)
    | .unit => .plain (.ok .unit)
    | .newtype s => .plain ((Event.ofOffer (Source.offer s)).map .newtype)
    | .seq items hint =>
      (readItems (fun s => Event.ofOffer (Source.offer s)) none 0 items).map (.seq · hint)
    | .map entries hint =>
      (readEntries (fun s => Event.ofOffer (Source.offer s))
        (fun _ s => Event.ofOffer (Source.offer s)) none 0 entries).map (.map · hint)
    | .enum v _ => .plain ((Event.ofOffer (Source.offer v)).map (.enum · .unit none))
    | .refused found => refuse "a probe" (.refused found : Call σ)

/-- The content of a variant. -/
def content (child : Prober σ) : Access → Option σ → Except Fault (Option Event)
  | .unit, none => .ok none
  | .unit, some s => do
    let _ ← consult .unit s Visit.unit
    return none
  | .newtype, some s => do return some (← child.read s)
  | .newtype, none => .error (.invalidType .unitVariant "newtype variant")
  | .tuple, some s => do return some (← consult .tupleVariant s child.look)
  | .tuple, none => .error (.invalidType .unitVariant "tuple variant")
  | .struct, some s => do return some (← consult .structVariant s child.look)
  | .struct, none => .error (.invalidType .unitVariant "struct variant")

/-- Takes an answer, given the probes of its parts. -/
def lookWith (key child : Prober σ) (named : List (String × Prober σ)) (take : Option Nat)
    (access : Access) : Call σ → Outcome Event
  | .scalar s => .plain (.ok (.scalar s))
  | .none => .plain (.ok .none)
  | .some s => .plain ((child.read s).map .some)
  | .unit => .plain (.ok .unit)
  | .newtype s => .plain ((child.read s).map .newtype)
  | .seq items hint => (readItems child.read take 0 items).map (.seq · hint)
  | .map entries hint =>
    let readValue := fun k s =>
      ((k.label.bind fun name => named.lookup name).getD child).read s
    (readEntries key.read readValue take 0 entries).map (.map · hint)
  | .enum v c => .plain do
    let variant ← key.read v
    return .enum variant access (← child.content access c)
  | .refused found => refuse "a probe" (.refused found : Call σ)

end Prober

mutual

/-- The probe of a shape. -/
def Shape.prober : Shape → ∀ {σ : Type} [Source σ], Prober σ
  | .whole => .whole
  | .readable =>
    { Prober.whole with
      read := fun s => do
        Source.skip s
        return .readable (Source.readable s) }
  | .typed t => { Prober.whole with read := fun s => (t.read s).map .datum }
  | .probe request key child named take access =>
    let look := fun c =>
      Prober.lookWith key.prober child.prober (namedProbers named) take access c
    ⟨fun s => consult request s look, look⟩

def namedProbers : List (String × Shape) → ∀ {σ : Type} [Source σ], List (String × Prober σ)
  | [] => []
  | (name, shape) :: rest => (name, shape.prober) :: namedProbers rest

end

/-- What a probe of a shape sees of a source. -/
def Shape.read {σ : Type} [Source σ] (shape : Shape) (s : σ) : Except Fault Event :=
  (shape.prober (σ := σ)).read s

end FlatUnion
