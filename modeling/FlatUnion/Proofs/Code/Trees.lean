import FlatUnion.Proofs.Code.Sound

/-!
# Printed code as trees

Printed code is a list of texts. With its delimiters paired it is a list of trees (`trees?`). What
is printed next to each other is read as the trees of the one and then of the other, whatever they
are (`trees?_append`), and what is printed between delimiters as a group. So a part of code is found
again in the trees of the whole (`Holds`).

Sound code can always be read (`Readable.pieces`).
-/

namespace FlatUnion.Code

open Soundness (Sound)

/-- Code with its delimiters paired. -/
inductive Tree
  | leaf (text : String)
  | group (d : Delimiter) (inside : List Tree)

namespace Delimiter

def all : List Delimiter := [parenthesis, bracket, brace]

/-- The delimiter that a text opens. -/
def opened? (text : String) : Option Delimiter := all.find? fun d => text = d.opening

/-- The delimiter that a text closes. -/
def closed? (text : String) : Option Delimiter := all.find? fun d => text = d.closing

theorem opened?_opening (d : Delimiter) : opened? d.opening = some d := by
  cases d <;> rfl

theorem opened?_closing (d : Delimiter) : opened? d.closing = none := by
  cases d <;> rfl

theorem closed?_closing (d : Delimiter) : closed? d.closing = some d := by
  cases d <;> rfl

end Delimiter

theorem IsLeaf.opened? {text : String} (h : IsLeaf text) : Delimiter.opened? text = none := by
  rw [Delimiter.opened?, List.find?_eq_none]
  rintro d - hd
  obtain rfl := of_decide_eq_true hd
  exact h (by cases d <;> decide)

theorem IsLeaf.closed? {text : String} (h : IsLeaf text) : Delimiter.closed? text = none := by
  rw [Delimiter.closed?, List.find?_eq_none]
  rintro d - hd
  obtain rfl := of_decide_eq_true hd
  exact h (by cases d <;> decide)

/-! ## Reading trees -/

/-- Takes the trees off the front. `done` are those of the innermost open group, last one first, and
`outer` the groups around it with their trees so far. -/
def treesFrom (outer : List (Delimiter × List Tree)) (done : List Tree) :
    Printed → Option (List Tree)
  | [] => if outer.isEmpty then some done.reverse else none
  | text :: rest =>
    match Delimiter.opened? text, Delimiter.closed? text with
    | some d, _ => treesFrom ((d, done) :: outer) [] rest
    | none, some d =>
      match outer with
      | (d', before) :: outer =>
        if d = d' then treesFrom outer (.group d done.reverse :: before) rest else none
      | [] => none
    | none, none => treesFrom outer (.leaf text :: done) rest

/-- The trees of printed code, unless a delimiter has no partner. -/
def trees? (p : Printed) : Option (List Tree) := treesFrom [] [] p

theorem treesFrom_opening (outer : List (Delimiter × List Tree)) (done : List Tree) (d : Delimiter)
    (rest : Printed) :
    treesFrom outer done (d.opening :: rest) = treesFrom ((d, done) :: outer) [] rest := by
  rw [treesFrom, d.opened?_opening]

theorem treesFrom_closing (outer : List (Delimiter × List Tree)) (before done : List Tree)
    (d : Delimiter) (rest : Printed) :
    treesFrom ((d, before) :: outer) done (d.closing :: rest) =
      treesFrom outer (.group d done.reverse :: before) rest := by
  rw [treesFrom, d.opened?_closing, d.closed?_closing]
  exact if_pos rfl

theorem treesFrom_leaf (outer : List (Delimiter × List Tree)) (done : List Tree) {text : String}
    (h : IsLeaf text) (rest : Printed) :
    treesFrom outer done (text :: rest) = treesFrom outer (.leaf text :: done) rest := by
  rw [treesFrom, h.opened?, h.closed?]

/-- The open groups of a part, and behind the last of them what stands around the part. -/
def grafted (outer : List (Delimiter × List Tree)) (done : List Tree) :
    List (Delimiter × List Tree) → List Tree → List (Delimiter × List Tree) × List Tree
  | [], own => (outer, own ++ done)
  | (d, before) :: rest, own =>
    let (outer, before) := grafted outer done rest before
    ((d, before) :: outer, own)

theorem grafted_cons (outer : List (Delimiter × List Tree)) (done : List Tree)
    (groups : List (Delimiter × List Tree)) (t : Tree) (own : List Tree) :
    grafted outer done groups (t :: own) =
      ((grafted outer done groups own).1, t :: (grafted outer done groups own).2) := by
  cases groups <;> rfl

/-- What a part is read as does not depend on what stands around it. -/
theorem treesFrom_append (outer : List (Delimiter × List Tree)) (done : List Tree)
    {ts : List Tree} {p : Printed} (rest : Printed) {groups : List (Delimiter × List Tree)}
    {own : List Tree} (h : treesFrom groups own p = some ts) :
    treesFrom (grafted outer done groups own).1 (grafted outer done groups own).2 (p ++ rest) =
      treesFrom outer (ts.reverse ++ done) rest := by
  induction p generalizing groups own with
  | nil =>
    rw [treesFrom] at h
    split at h
    · next hgroups =>
      obtain rfl := List.isEmpty_iff.1 hgroups
      obtain rfl := Option.some.inj h
      simp [grafted]
    · nomatch h
  | cons text p ih =>
    rw [treesFrom] at h
    rw [List.cons_append, treesFrom]
    split at h
    · exact ih h
    · cases groups with
      | nil => nomatch h
      | cons g groups =>
        simp only [grafted] at h ⊢
        split at h
        · next hd =>
          rw [if_pos hd, ← ih h, grafted_cons]
        · nomatch h
    · rw [← ih h, grafted_cons]

theorem trees?_append {p q : Printed} {ts us : List Tree} (hp : trees? p = some ts)
    (hq : trees? q = some us) : trees? (p ++ q) = some (ts ++ us) := by
  have hrest := treesFrom_append [] ts.reverse [] hq
  have hfront := treesFrom_append [] [] q hp
  simp only [grafted, List.nil_append, List.append_nil] at hrest hfront
  rw [trees?, hfront, hrest, treesFrom]
  simp

theorem trees?_enclosed {p : Printed} {ts : List Tree} (d : Delimiter) (hp : trees? p = some ts) :
    trees? (Printed.enclosed d p) = some [.group d ts] := by
  have hinside := treesFrom_append [(d, [])] [] [d.closing] hp
  simp only [grafted, List.append_nil] at hinside
  rw [trees?, Printed.enclosed, List.cons_append, treesFrom_opening, hinside, treesFrom_closing]
  simp [treesFrom]

theorem trees?_leaf {text : String} (h : IsLeaf text) : trees? [text] = some [.leaf text] :=
  treesFrom_leaf [] [] h []

theorem trees?_cons {text : String} {p : Printed} {ts : List Tree} (h : IsLeaf text)
    (hp : trees? p = some ts) : trees? (text :: p) = some (.leaf text :: ts) :=
  trees?_append (trees?_leaf h) hp

theorem trees?_flatten_map {α : Type} {xs : List α} {f : α → Printed} {g : α → List Tree}
    (h : ∀ x ∈ xs, trees? (f x) = some (g x)) :
    trees? (xs.map f).flatten = some (xs.map g).flatten := by
  induction xs with
  | nil => rfl
  | cons x xs ih =>
    obtain ⟨hx, hxs⟩ := List.forall_mem_cons.1 h
    exact trees?_append hx (ih hxs)

/-! ## Reading sound code -/

/-- The trees of printed code that can be read. -/
def treesOf (p : Printed) : List Tree := (trees? p).getD []

/-- Printed code that can be read. -/
def Readable (p : Printed) : Prop := ∃ ts, trees? p = some ts

namespace Readable

theorem trees? {p : Printed} : Readable p → trees? p = some (treesOf p)
  | ⟨_, h⟩ => by rw [treesOf, h, Option.getD_some]

theorem nil : Readable [] := ⟨[], rfl⟩

theorem append {p q : Printed} : Readable p → Readable q → Readable (p ++ q)
  | ⟨_, hp⟩, ⟨_, hq⟩ => ⟨_, trees?_append hp hq⟩

theorem cons {text : String} {p : Printed} (h : IsLeaf text) : Readable p → Readable (text :: p)
  | ⟨_, hp⟩ => ⟨_, trees?_cons h hp⟩

theorem leaf {text : String} (h : IsLeaf text) : Readable [text] := ⟨_, trees?_leaf h⟩

theorem enclosed {p : Printed} (d : Delimiter) : Readable p → Readable (Printed.enclosed d p)
  | ⟨_, hp⟩ => ⟨_, trees?_enclosed d hp⟩

theorem flatten {ps : List Printed} (h : ∀ p ∈ ps, Readable p) : Readable ps.flatten := by
  induction ps with
  | nil => exact nil
  | cons p ps ih =>
    obtain ⟨hp, hps⟩ := List.forall_mem_cons.1 h
    exact append hp (ih hps)

end Readable

theorem isLeaf_lifetimeText (name : String) : IsLeaf (lifetimeText name) := by
  have htext : lifetimeText name = String.ofList ('\'' :: name.toList) := by
    apply String.toList_injective
    simp [lifetimeText]
  exact htext ▸ isLeaf_ofList rfl rfl

theorem composes_readable : Composes Readable where
  nil := .nil
  name h := .leaf (IsWord.isLeaf h)
  leaf h := .leaf h
  lifetime name := .leaf (isLeaf_lifetimeText name)
  separator := ⟨_, rfl⟩
  append := .append
  enclosed := .enclosed

/-- Sound code can be read. -/
theorem Readable.pieces {ps : List Piece} (h : Sound ps) : Readable (printPieces ps) :=
  composes_readable.pieces h

theorem Readable.piece {p : Piece} (h : Sound p) : Readable p.printed :=
  composes_readable.of_piece h

/-! ## Parts of code -/

/-- Somewhere in code, inside of groups too, some trees stand next to each other. -/
inductive Holds (part : List Tree) : List Tree → Prop
  | here (before after : List Tree) : Holds part (before ++ part ++ after)
  | inside (before after : List Tree) (d : Delimiter) {code : List Tree} (h : Holds part code) :
    Holds part (before ++ .group d code :: after)

namespace Holds

variable {part code : List Tree}

theorem refl (part : List Tree) : Holds part part := by
  have h : Holds part ([] ++ part ++ []) := here [] []
  rwa [List.nil_append, List.append_nil] at h

theorem append_left (before : List Tree) (h : Holds part code) : Holds part (before ++ code) := by
  cases h with
  | here b a =>
    rw [← List.append_assoc, ← List.append_assoc]
    exact here _ _
  | inside b a d h =>
    rw [← List.append_assoc]
    exact inside _ _ d h

theorem append_right (after : List Tree) (h : Holds part code) : Holds part (code ++ after) := by
  cases h with
  | here b a =>
    rw [List.append_assoc]
    exact here _ _
  | inside b a d h =>
    rw [List.append_assoc]
    exact inside _ _ d h

theorem trans {whole : List Tree} (hwhole : Holds whole code) (hpart : Holds part whole) :
    Holds part code := by
  induction hwhole with
  | here before after => exact (hpart.append_left before).append_right after
  | inside before after d _ ih => exact .inside before after d ih

end Holds

/-- Printed code in whose trees some trees stand next to each other. -/
def Shows (part : List Tree) (p : Printed) : Prop := ∃ code, trees? p = some code ∧ Holds part code

namespace Shows

variable {part : List Tree} {p q : Printed}

theorem of_trees (h : trees? p = some part) : Shows part p := ⟨part, h, .refl part⟩

theorem readable : Shows part p → Readable p
  | ⟨code, h, _⟩ => ⟨code, h⟩

theorem trans {whole : List Tree} : Shows whole p → Holds part whole → Shows part p
  | ⟨code, h, hwhole⟩, hpart => ⟨code, h, hwhole.trans hpart⟩

theorem append_left (hq : Readable q) : Shows part p → Shows part (q ++ p)
  | ⟨_, h, hpart⟩ =>
    let ⟨ts, hts⟩ := hq
    ⟨_, trees?_append hts h, hpart.append_left ts⟩

theorem append_right (hq : Readable q) : Shows part p → Shows part (p ++ q)
  | ⟨_, h, hpart⟩ =>
    let ⟨ts, hts⟩ := hq
    ⟨_, trees?_append h hts, hpart.append_right ts⟩

theorem cons {text : String} (htext : IsLeaf text) (h : Shows part p) : Shows part (text :: p) :=
  append_left (.leaf htext) h

/-- What one of several parts shows, all of them show. -/
theorem flatten {ps : List Printed} (hps : ∀ p ∈ ps, Readable p) (hp : p ∈ ps)
    (h : Shows part p) : Shows part ps.flatten := by
  induction ps with
  | nil => nomatch hp
  | cons q ps ih =>
    obtain ⟨hq, hrest⟩ := List.forall_mem_cons.1 hps
    rcases List.mem_cons.1 hp with rfl | hp
    · exact append_right (.flatten hrest) h
    · exact append_left hq (ih hrest hp)

theorem enclosed (d : Delimiter) : Shows part p → Shows part (Printed.enclosed d p)
  | ⟨_, h, hpart⟩ => ⟨_, trees?_enclosed d h, .inside [] [] d hpart⟩

end Shows

end FlatUnion.Code
