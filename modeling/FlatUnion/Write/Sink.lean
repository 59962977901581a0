import FlatUnion.Json.Writer
import FlatUnion.Write.Flatten
import FlatUnion.Write.Record

/-!
# Open maps

A map that is being written. Calls come one by one, and the map can be used further after one
has failed. There are two kinds : the text of a JSON object, and the list of the recorded calls.
A step of a run is one entry, or a payload to be flattened, which may be many calls : the first
of them that fails ends the step.
-/

namespace FlatUnion

/-- A map that takes calls. -/
class Sink (S : Type) where
  /-- The map after a call, and what went wrong. -/
  call : S → Item Datum → S × Option Fault

/-- Makes calls until one fails. -/
def Sink.calls {S : Type} [Sink S] : S → List (Item Datum) → S × Option Fault
  | s, [] => (s, none)
  | s, i :: rest =>
    match Sink.call s i with
    | (s, some fault) => (s, some fault)
    | (s, none) => Sink.calls s rest

/-- A JSON object that is being written : the text so far, and whether a key has been begun. -/
structure OpenObject where
  text : String := "\x7b"
  keyed : Bool := false

instance : Sink OpenObject where
  call s i :=
    let e := jsonItem (!s.keyed) i
    (⟨s.text ++ e.out, s.keyed || i.hasKey⟩, e.fault)

/-- The text of the object when it is ended. -/
def OpenObject.finish (s : OpenObject) : String := s.text ++ "\x7d"

/-- A recorded map that is being written : the calls so far. -/
structure OpenRecord where
  calls : List (Item Datum) := []

instance : Sink OpenRecord where
  call s i :=
    let e := recordItem i
    (⟨s.calls ++ e.out⟩, e.fault)

/-- The items of the map so far. -/
def OpenRecord.items (s : OpenRecord) : List (Item Datum) := Item.pairUp s.calls

/-- What is done to an open map. -/
inductive Step
  | entry (key value : Datum)
  | flatten (payload : Datum)

/-- The calls of a step. -/
def Step.items : Step → List (Item Datum)
  | .entry k v => [.entry k v]
  | .flatten d => d.flatten

/-- Takes one step. -/
def Step.run {S : Type} [Sink S] (s : S) (step : Step) : S × Option Fault :=
  Sink.calls s step.items

/-- Takes steps one after another, whether they fail or not, and notes the map and the fault
after each. -/
def Step.runAll {S : Type} [Sink S] : S → List Step → List (S × Option Fault)
  | _, [] => []
  | s, step :: rest =>
    let r := step.run s
    r :: Step.runAll r.1 rest

end FlatUnion
