import FlatUnion.Data.Fault

/-!
# Sources and readers

A reader asks a source for a value of some kind (`Request`), and the source answers with one
value, opened by one level (`Call`) : the parts of a sequence, of a map, of an option are sources
again. A source that knows what it holds may answer something else than it was asked for, and
it is the reader who accepts or refuses the answer.

When the reader is done it tells the source how far it got (`Progress`), and the source has the
last word : it may object to parts that were left (`Answer.close`), or say where in its text a
complaint of the reader arose (`Answer.locate`).

`Offer` is the whole of what a source answers when it is asked for nothing in particular, level
after level. It is also the spelling of a source that answers every request in this way.
-/

namespace FlatUnion

/-- What a reader asks for. The last two ask for the content of a variant of an enum. -/
inductive Request
  | any | bool | int (width : Width) | f32 | f64 | char | str | string | bytes | byteBuf
  | option | unit | unitStruct | newtypeStruct | seq | tuple | tupleStruct | map | struct
  | enum | identifier | ignored
  | tupleVariant | structVariant
  deriving DecidableEq, Repr

/-- One value, opened by one level. -/
inductive Call (σ : Type)
  | scalar (s : Scalar)
  | none
  | some (inner : σ)
  | unit
  | newtype (inner : σ)
  | seq (items : List σ) (hint : Option Nat)
  | map (entries : List (σ × σ)) (hint : Option Nat)
  | enum (variant : σ) (content : Option σ)
  /-- Nothing : the source has something else than it was asked for, and does not part with it. -/
  | refused (found : Unexpected)

/-- What a reader that can use none of it says it met. -/
def Call.unexpected {σ : Type} : Call σ → Unexpected
  | .scalar s => s.unexpected
  | .none | .some _ => .option
  | .unit => .unit
  | .newtype _ => .newtypeStruct
  | .seq .. => .seq
  | .map .. => .map
  | .enum .. => .enum
  | .refused found => found

/-- How far a reader got in a sequence or a map : the elements or entries it has taken whole,
and whether it has taken the key of one more. -/
structure Progress where
  whole : Nat := 0
  keyTaken : Bool := false
  deriving DecidableEq, Repr

/-- The entries that a reader has begun to read. -/
def Progress.begun (p : Progress) : Nat := p.whole + if p.keyTaken then 1 else 0

@[simp] theorem Progress.begun_whole (n : Nat) : Progress.begun { whole := n } = n := rfl

/-- A source's answer, with its last word on a reader that is done. -/
structure Answer (σ : Type) where
  call : Call σ
  close : Progress → Except Fault Unit := fun _ => .ok ()
  locate : Progress → Fault → Fault := fun _ f => f

/-- What a reader made of an answer, and how far it got. -/
structure Outcome (α : Type) where
  progress : Progress
  result : Except Fault α

namespace Outcome

variable {α β : Type}

/-- A reader that looked at the value itself only. -/
def plain (result : Except Fault α) : Outcome α := ⟨{}, result⟩

def map (f : α → β) (o : Outcome α) : Outcome β := ⟨o.progress, o.result.map f⟩

/-- Work that a reader does on what it has read, before it returns. -/
def andThen (o : Outcome α) (f : α → Except Fault β) : Outcome β := ⟨o.progress, o.result.bind f⟩

end Outcome

/-- The result of a reader after the source's last word : a complaint of the reader comes first. -/
def Answer.finish {σ α : Type} (a : Answer σ) (o : Outcome α) : Except Fault α :=
  match o.result with
  | .error f => .error (a.locate o.progress f)
  | .ok x => (a.close o.progress).map fun _ => x

/-! ## Whole values -/

/-- What a source offers when it is asked for nothing in particular. -/
inductive Offer
  | scalar (s : Scalar)
  | none
  | some (inner : Offer)
  | unit
  | newtype (inner : Offer)
  | seq (items : List Offer) (hint : Option Nat)
  | map (entries : List (Offer × Offer)) (hint : Option Nat)
  | enum (name : String)
  | fail (fault : Fault)
  deriving Inhabited

/-- What a source must be able to do. -/
class Source (σ : Type) where
  /-- Whether the format is one for people to read. -/
  readable : σ → Bool
  /-- Whether requests are answered by values of a fitting kind only. -/
  exact : Bool := false
  /-- The answer to a request. -/
  answer : Request → σ → Except Fault (Answer σ)
  /-- The whole value. -/
  offer : σ → Offer
  /-- What goes wrong when the value is passed over. -/
  skip : σ → Except Fault Unit

/-- Puts one request to a source and reads the answer. -/
def consult {σ α : Type} [Source σ] (r : Request) (s : σ) (read : Call σ → Outcome α) :
    Except Fault α := do
  let a ← Source.answer r s
  a.finish (read a.call)

/-! ## Parts read one after another -/

section Parts

variable {σ α κ : Type}

/-- Reads the first elements of a sequence, at most `n`, counting from `done`. -/
def readItems (read : σ → Except Fault α) : (n : Option Nat) → (done : Nat) → List σ →
    Outcome (List α)
  | some 0, done, _ => ⟨{ whole := done }, .ok []⟩
  | _, done, [] => ⟨{ whole := done }, .ok []⟩
  | n, done, s :: rest =>
    match read s with
    | .error f => ⟨{ whole := done + 1 }, .error f⟩
    | .ok x => (readItems read (n.map (· - 1)) (done + 1) rest).map (x :: ·)

/-- Reads the entries of a map, at most `n`, each key before its value. How a value is read
may depend on its key. -/
def readEntries (readKey : σ → Except Fault κ) (readValue : κ → σ → Except Fault α) :
    (n : Option Nat) → (done : Nat) → List (σ × σ) → Outcome (List (κ × α))
  | some 0, done, _ => ⟨{ whole := done }, .ok []⟩
  | _, done, [] => ⟨{ whole := done }, .ok []⟩
  | n, done, (k, v) :: rest =>
    match readKey k with
    | .error f => ⟨{ whole := done, keyTaken := true }, .error f⟩
    | .ok key =>
      match readValue key v with
      | .error f => ⟨{ whole := done + 1 }, .error f⟩
      | .ok x => (readEntries readKey readValue (n.map (· - 1)) (done + 1) rest).map ((key, x) :: ·)

end Parts

end FlatUnion
