import FlatUnion.Proofs.Derive.Diagnosing

/-!
# What is known while an item is looked at

While an item is looked at, the paths into the library are kept beside its root (`Context`). Two
things happen to them : something is said, or the attributes set another root (`Context.Event`).
Whatever happens, the paths go on from the root there is, and what has been said stays said
(`Context.steady_moment`, by induction on what has happened). What is derived in the end is derived
from the last of these moments.

The main statement is `ofTokens_eq_derived`.
-/

namespace FlatUnion.Derive

open Code

/-- The paths that derived code refers to, and what has been said. -/
structure Context where
  root : Piece
  /-- Where what derived code alone uses is found. -/
  internal : Piece
  /-- Where the traits for reading and writing are found. -/
  codec : Piece
  /-- Where the traits for schemas are found. -/
  schema : Piece
  diagnostics : List Diagnostic

namespace Context

/-- What can happen. -/
inductive Event
  | said (d : Diagnostic)
  | rooted (root : Piece)

namespace Event

def said? : Event → Option Diagnostic
  | said d => some d
  | rooted _ => none

def rooted? : Event → Option Piece
  | said _ => none
  | rooted root => some root

end Event

/-- The paths behind a root, when nothing has been said. -/
def ofRoot (root : Piece) : Context :=
  let internal := root.extend ["internal__"]
  { root
    internal
    codec := internal.extend ["serde"]
    schema := internal.extend ["schemars"]
    diagnostics := [] }

/-- What is known after something has happened. -/
def after (c : Context) : Event → Context
  | .said d => { c with diagnostics := c.diagnostics ++ [d] }
  | .rooted root => { ofRoot root with diagnostics := c.diagnostics }

/-- The moment at which some things have happened, one after another. -/
def moment (done : List Event) : Context := done.foldl after (ofRoot defaultRoot)

/-- The paths that are kept are those behind the root, and so those that derived code refers to. -/
structure Consistent (c : Context) : Prop where
  internal : c.internal = c.root.extend ["internal__"]
  codec : c.codec = c.root.extend ["internal__", "serde"]
  schema : c.schema = c.root.extend ["internal__", "schemars"]
  referred : ∀ names, internalPath c.root names = c.internal.extend names ∧
    codecPath c.root names = c.codec.extend names ∧ schemaPath c.root names = c.schema.extend names

theorem consistent_ofRoot (root : Piece) : (ofRoot root).Consistent where
  internal := rfl
  codec := (extend_append root ["internal__"] ["serde"]).symm
  schema := (extend_append root ["internal__"] ["schemars"]).symm
  referred names := by
    simp only [ofRoot, ← extend_append]
    exact ⟨rfl, rfl, rfl⟩

/-- At a moment, the paths are consistent, the root is the last that was set, and all is known that
has been said. -/
structure Steady (done : List Event) (c : Context) : Prop where
  consistent : c.Consistent
  root : c.root = (done.filterMap Event.rooted?).getLast?.getD defaultRoot
  diagnostics : c.diagnostics = done.filterMap Event.said?

/-- Whatever happens, what is known stays steady. -/
theorem Steady.after {done : List Event} {c : Context} (h : Steady done c) (e : Event) :
    Steady (done ++ [e]) (c.after e) := by
  obtain ⟨hconsistent, hroot, hdiagnostics⟩ := h
  cases e with
  | said d =>
    exact
      { consistent := { hconsistent with }
        root := by simpa [Context.after, Event.rooted?] using hroot
        diagnostics := by simp [Context.after, Event.said?, hdiagnostics] }
  | rooted root =>
    exact
      { consistent := { consistent_ofRoot root with }
        root := by simp [Context.after, ofRoot, Event.rooted?]
        diagnostics := by simp [Context.after, Event.said?, hdiagnostics] }

/-- Every moment is steady. -/
theorem steady_moment (done : List Event) : Steady done (moment done) := by
  induction done using List.reverseRecOn with
  | nil => exact ⟨consistent_ofRoot defaultRoot, rfl, rfl⟩
  | append_singleton done e ih =>
    rw [moment, List.foldl_append]
    exact ih.after e

/-- What happens while some tokens are looked at : what is said of the attributes of the item, the
root that they set, and what is said of the declaration. -/
def happenings (language : Language) (tokens : List Token) : List Event :=
  match language.item tokens with
  | .ok item =>
    let arguments := Arguments.read item.attributes
    (arguments.diagnostics ++ arguments.crateDiagnostics language).map .said ++
      (arguments.crate? language).toList.map .rooted ++
        (faultOf (Declaration.ofItem item)).toList.map .said
  | .error c => [.said (.complaint c)]

/-- What is derived from some tokens at a moment. -/
def derived (c : Context) (language : Language) (target : Target) (tokens : List Token) :
    Except Complaint Expansion := do
  let items ←
    match language.item tokens with
    | .ok item =>
      match Declaration.ofItem item with
      | .ok d => target.items c.root d
      | .error _ => pure []
    | .error _ => pure []
  return { items, diagnostics := c.diagnostics }

/-- What is derived is derived from the last moment. -/
theorem ofTokens_eq_derived (language : Language) (target : Target) (tokens : List Token) :
    Expansion.ofTokens language target tokens =
      (moment (happenings language tokens)).derived language target tokens := by
  have h := steady_moment (happenings language tokens)
  rw [derived, h.root, h.diagnostics, Expansion.ofTokens, happenings]
  cases language.item tokens with
  | error c => rfl
  | ok item =>
    have hlast : ∀ root : Option Piece, root.toList.getLast? = root := by
      rintro (- | _) <;> rfl
    cases hd : Declaration.ofItem item <;>
      simp [Expansion.ofItem, hd, faultOf, List.filterMap_append, List.filterMap_map,
        Function.comp_def, Event.said?, Event.rooted?, hlast]

end Context

end FlatUnion.Derive
