import FlatUnion.Proofs.Code.Literals
import FlatUnion.Proofs.Code.Trees

/-!
# Tables in code

A list in code is read as its entries (`entries`), whether a mark ends each of them or stands
between them. The entries of a choice are its arms, each with a pattern and a result
(`Arm.ofEntry`), and the first arm that accepts a value is taken (`select`). A pattern that is one
name accepts everything.

What is written down as arms is read as the same arms (`Arm.readAll_tableOf`). If an arm is the only
one that accepts a value, it is the one that is taken (`select_map`).
-/

namespace FlatUnion.Code

/-! ## Entries -/

/-- Whether a tree is a text. -/
def Tree.isText (text : String) : Tree → Bool
  | .leaf s => s = text
  | .group .. => false

/-- Whether none of some trees is a text. -/
def Lacks (text : String) (ts : List Tree) : Prop := ∀ t ∈ ts, t.isText text = false

/-- What a mark ends or stands between. -/
def entries (mark : String) : List Tree → List (List Tree)
  | [] => []
  | t :: rest =>
    if t.isText mark then [] :: entries mark rest
    else
      match entries mark rest with
      | [] => [[t]]
      | e :: es => (t :: e) :: es

section Entries

variable {text mark : String} {ts us : List Tree} {d : Delimiter}

@[simp]
theorem lacks_nil : Lacks text [] := nofun

@[simp]
theorem lacks_append : Lacks text (ts ++ us) ↔ Lacks text ts ∧ Lacks text us :=
  List.forall_mem_append

@[simp]
theorem lacks_cons {t : Tree} : Lacks text (t :: ts) ↔ t.isText text = false ∧ Lacks text ts :=
  List.forall_mem_cons

theorem entries_mark (h : Lacks mark ts) :
    entries mark (ts ++ .leaf mark :: us) = ts :: entries mark us := by
  induction ts with
  | nil => simp [entries, Tree.isText]
  | cons t ts ih =>
    obtain ⟨ht, hts⟩ := lacks_cons.1 h
    rw [List.cons_append, entries, ht, ih hts]
    rfl

theorem entries_last (h : Lacks mark ts) (hne : ts ≠ []) : entries mark ts = [ts] := by
  induction ts with
  | nil => contradiction
  | cons t ts ih =>
    obtain ⟨ht, hts⟩ := lacks_cons.1 h
    rw [entries, ht]
    cases ts with
    | nil => rfl
    | cons u ts =>
      rw [ih hts (List.cons_ne_nil u ts)]
      rfl

/-- Entries that end with a mark. -/
theorem entries_flatten {es : List (List Tree)} (h : ∀ e ∈ es, Lacks mark e) :
    entries mark (es.map (· ++ [.leaf mark])).flatten = es := by
  induction es with
  | nil => rfl
  | cons e es ih =>
    obtain ⟨he, hes⟩ := List.forall_mem_cons.1 h
    rw [List.map_cons, List.flatten_cons, List.append_assoc, List.singleton_append,
      entries_mark he, ih hes]

end Entries

/-! ## Patterns -/

/-- What a value must look like. -/
inductive Pattern
  /-- Any value, which is given a name. -/
  | any (name : String)
  /-- A text. -/
  | text (s : String)
  /-- A member of a type that holds nothing. -/
  | member (type name : String)
  /-- A member of a type, with what it holds under a name. -/
  | tuple (type name bound : String)
  /-- A member of a type, with what its field holds under a name. -/
  | record (type name field bound : String)
  deriving DecidableEq

namespace Pattern

/-- The pattern that some trees are. A literal is the text that it spells. -/
def read : List Tree → Option Pattern
  | [.leaf s] => if IsWord s then some (.any s) else (textOfLiteral? s).map fun l => .text l.1
  | [.leaf type, .leaf ":", .leaf ":", .leaf name] => some (.member type name)
  | [.leaf type, .leaf ":", .leaf ":", .leaf name, .group .parenthesis [.leaf bound]] =>
    some (.tuple type name bound)
  | [.leaf type, .leaf ":", .leaf ":", .leaf name,
      .group .brace [.leaf field, .leaf ":", .leaf bound]] =>
    some (.record type name field bound)
  | _ => none

/-- Whether a pattern accepts every value. -/
def catchesAll : Pattern → Bool
  | .any _ => true
  | _ => false

/-- Whether a pattern accepts a value, which is spelled like a pattern. The name that is given to
what a member holds does not matter. -/
def accepts : Pattern → Pattern → Bool
  | .any _, _ => true
  | .tuple type name _, .tuple type' name' _ => type = type' && name = name'
  | .record type name field _, .record type' name' field' _ =>
    type = type' && name = name' && field = field'
  | p, value => p = value

theorem accepts_self (p : Pattern) : p.accepts p = true := by
  cases p <;> simp [accepts]

/-- The trees that a pattern is read from. -/
def trees : Pattern → List Tree
  | .any name => [.leaf name]
  | .text s => [.leaf (quoted s)]
  | .member type name => [.leaf type, .leaf ":", .leaf ":", .leaf name]
  | .tuple type name bound =>
    [.leaf type, .leaf ":", .leaf ":", .leaf name, .group .parenthesis [.leaf bound]]
  | .record type name field bound =>
    [.leaf type, .leaf ":", .leaf ":", .leaf name,
      .group .brace [.leaf field, .leaf ":", .leaf bound]]

/-- Whether a pattern that is a name is one that begins like a name. -/
def IsPlain : Pattern → Prop
  | .any name => IsWord name
  | .text _ => True
  | .member type name | .tuple type name _ | .record type name _ _ => IsWord type ∧ IsWord name

theorem not_isWord_quoted (s : String) : ¬ IsWord (quoted s) := by
  have hquote : ¬ Char.startsIdentifier '"' = true := by decide +kernel
  rw [IsWord, toList_quoted, List.head?_cons, Option.any_some]
  exact hquote

theorem quoted_ne {s mark : String} (hmark : mark.toList.head? ≠ some '"') : quoted s ≠ mark := by
  rintro rfl
  simp [toList_quoted] at hmark

theorem read_trees {p : Pattern} (h : p.IsPlain) : read p.trees = some p := by
  cases p with
  | any name => exact if_pos h
  | text s => rw [trees, read, if_neg (not_isWord_quoted s), textOfLiteral?_quoted]; rfl
  | member | tuple | record => rfl

/-- A mark that is not part of a name, of a literal or of a path is not part of a pattern. -/
theorem lacks_trees {p : Pattern} (h : p.IsPlain) {mark : String} (hword : ¬ IsWord mark)
    (hquote : mark.toList.head? ≠ some '"') (hcolon : ":" ≠ mark) : Lacks mark p.trees := by
  cases p with
  | any name => simpa [trees, Tree.isText] using h.ne hword
  | text s => simpa [trees, Tree.isText] using quoted_ne hquote
  | member | tuple | record =>
    simp [trees, Tree.isText, hcolon, h.1.ne hword, h.2.ne hword]

end Pattern

/-! ## Arms -/

/-- An arm of a choice. -/
structure Arm where
  pattern : Pattern
  result : List Tree

/-- The result of the first arm that accepts a value. -/
def select (arms : List Arm) (value : Pattern) : Option (List Tree) :=
  (arms.find? (·.pattern.accepts value)).map (·.result)

namespace Arm

/-- What stands in front of an arrow and behind it. -/
def parts : List Tree → Option (List Tree × List Tree)
  | .leaf "=" :: .leaf ">" :: rest => some ([], rest)
  | t :: rest => (parts rest).map fun (front, back) => (t :: front, back)
  | [] => none

/-- The arm that an entry is. -/
def ofEntry (e : List Tree) : Option Arm := do
  let (front, result) ← parts e
  return { pattern := ← Pattern.read front, result }

/-- The arms of a choice. -/
def readAll (table : List Tree) : Option (List Arm) := (entries "," table).mapM ofEntry

/-- The trees that an arm is read from, without the comma behind them. -/
def trees (a : Arm) : List Tree := a.pattern.trees ++ .leaf "=" :: .leaf ">" :: a.result

/-- An arm whose trees end with the first comma in them. -/
structure IsPlain (a : Arm) : Prop where
  pattern : a.pattern.IsPlain
  commas : Lacks "," a.result

theorem parts_eq {front : List Tree} (back : List Tree) (h : Lacks "=" front) :
    parts (front ++ .leaf "=" :: .leaf ">" :: back) = some (front, back) := by
  induction front with
  | nil => rfl
  | cons t front ih =>
    obtain ⟨ht, hfront⟩ := lacks_cons.1 h
    have hne : ∀ rest, t :: front ++ .leaf "=" :: .leaf ">" :: back ≠
        .leaf "=" :: .leaf ">" :: rest := by
      rintro rest heq
      obtain ⟨rfl, -⟩ := List.cons.inj heq
      simp [Tree.isText] at ht
    rw [List.cons_append, parts, ih hfront]
    · rfl
    · exact fun rest ht hrest => hne rest (by rw [List.cons_append, ht, hrest])

theorem ofEntry_trees {a : Arm} (h : a.IsPlain) : ofEntry a.trees = some a := by
  have hequals : Lacks "=" a.pattern.trees :=
    Pattern.lacks_trees h.pattern (by decide +kernel) (by decide) (by decide)
  simp [ofEntry, trees, parts_eq _ hequals, Pattern.read_trees h.pattern]

theorem lacks_trees {a : Arm} (h : a.IsPlain) : Lacks "," a.trees := by
  have hpattern : Lacks "," a.pattern.trees :=
    Pattern.lacks_trees h.pattern (by decide +kernel) (by decide) (by decide)
  simp [trees, hpattern, h.commas, Tree.isText]

/-- The table that some arms are read from. -/
def tableOf (arms : List Arm) : List Tree := (arms.map fun a => a.trees ++ [.leaf ","]).flatten

theorem readAll_tableOf {arms : List Arm} (h : ∀ a ∈ arms, a.IsPlain) :
    readAll (tableOf arms) = some arms := by
  have hentries : entries "," (tableOf arms) = arms.map trees := by
    have hmap : (arms.map fun a => a.trees ++ [.leaf ","]) =
        (arms.map trees).map (· ++ [.leaf ","]) := by
      rw [List.map_map]
      rfl
    rw [tableOf, hmap, entries_flatten]
    exact List.forall_mem_map.2 fun a ha => lacks_trees (h a ha)
  rw [readAll, hentries]
  clear hentries
  induction arms with
  | nil => rfl
  | cons a arms ih =>
    obtain ⟨ha, harms⟩ := List.forall_mem_cons.1 h
    simp [ofEntry_trees ha, ih harms]

/-- What the result of an arm holds, the table holds. -/
theorem holds_tableOf {arms : List Arm} {a : Arm} (ha : a ∈ arms) {part : List Tree}
    (h : Holds part a.result) : Holds part (tableOf arms) := by
  obtain ⟨before, after, rfl⟩ := List.append_of_mem ha
  have htrees : Holds part a.trees := by
    have h := h.append_left (a.pattern.trees ++ [Tree.leaf "=", Tree.leaf ">"])
    rwa [List.append_assoc] at h
  rw [tableOf, List.map_append, List.map_cons, List.flatten_append, List.flatten_cons]
  exact ((htrees.append_right _).append_right _).append_left _

end Arm

/-! ## Selection -/

section Selection

variable {α : Type} {xs : List α} {f : α → Arm} {value : Pattern}

/-- Of arms for the members of a list the only one that accepts a value is taken. -/
theorem select_map {x : α} (hx : x ∈ xs) (haccepts : (f x).pattern.accepts value = true)
    (honly : ∀ y ∈ xs, (f y).pattern.accepts value = true → y = x) (arms : List Arm) :
    select (xs.map f ++ arms) value = some (f x).result := by
  induction xs with
  | nil => nomatch hx
  | cons y xs ih =>
    rw [select, List.map_cons, List.cons_append, List.find?_cons]
    cases hy : (f y).pattern.accepts value with
    | true =>
      obtain rfl := honly y List.mem_cons_self hy
      rfl
    | false =>
      have hne : x ≠ y := fun heq => by simp [← heq, haccepts] at hy
      exact ih (List.mem_of_ne_of_mem hne hx) fun z hz => honly z (List.mem_cons_of_mem y hz)

/-- If none of the other arms accepts a value, that which catches all is taken. -/
theorem select_last (hnone : ∀ x ∈ xs, (f x).pattern.accepts value = false) {name : String}
    {result : List Tree} : select (xs.map f ++ [⟨.any name, result⟩]) value = some result := by
  induction xs with
  | nil => rfl
  | cons y xs ih =>
    obtain ⟨hy, hxs⟩ := List.forall_mem_cons.1 hnone
    rw [select, List.map_cons, List.cons_append, List.find?_cons, hy]
    exact ih hxs

end Selection

end FlatUnion.Code
