import FlatUnion.Json.Number

/-!
# The tree of a text

A JSON text is taken apart into lists, objects and leaves, each with the cursor where it begins.
Leaves are not looked into : what they hold depends on what a reader asks for. A text that is wrong
still has a tree, of all that stands before the mistake. The list or the object that holds the
mistake ends broken, and says what its reader is to complain about.
-/

namespace FlatUnion.Json

/-- How a list or an object ends. -/
inductive Ending
  /-- With its bracket. -/
  | closed (behind : Position)
  /-- With a mistake. A reader that asks for more complains about `next`, one that passes over about
  `skip`, and one that wants to close it about `close`. `reached` is the place where the latter
  stops to look. -/
  | broken (next skip close : Fault) (reached : Position)

/-- A member of an object : the key, what stands behind it, the value, and what stands behind
that. -/
structure Member (α : Type) where
  key : Cursor
  colon : Cursor
  value : α
  next : Cursor

/-- A part of a text. -/
inductive Node
  /-- A word, a text or a numeral, or nothing that a value could begin with. If a reader takes only
  the front of a numeral, `inside` is the complaint about what it left. -/
  | leaf (start : Cursor) (inside : Option JsonError)
  | list (start : Cursor) (depth : Nat) (items : List Node) (ending : Ending)
  | object (start : Cursor) (depth : Nat) (members : List (Member Node)) (ending : Ending)
  /-- The text does not come to this part. -/
  | missing (start : Cursor) (fault : Fault)

/-- Where a part begins. -/
def Node.start : Node → Cursor
  | .leaf c _ | .list c .. | .object c .. | .missing c _ => c

/-- The number of characters of a leaf that is passed over. -/
def skipLeaf : List Char → Except Slip Nat
  | [] => .error { error := .endInValue, ahead := 1 }
  | 'n' :: rest => word ['u', 'l', 'l'] 1 rest
  | 't' :: rest => word ['r', 'u', 'e'] 1 rest
  | 'f' :: rest => word ['a', 'l', 's', 'e'] 1 rest
  | '"' :: rest => skipText ('"' :: rest)
  | c :: rest =>
    if c = '-' || c.isDigit then (Numeral.read true (c :: rest)).map (·.length)
    else .error { error := .expectedValue, ahead := 1 }

/-! ## Taking a text apart -/

/-- Where a part ends, if the text can be read on from there. -/
abbrev Behind (c : Cursor) := Option { d : Cursor // d.rest.length < c.rest.length }

/-- The cursor behind some characters, at least one. -/
def behind (c : Cursor) (n : Nat) : Behind c :=
  if h : 0 < n ∧ 0 < c.rest.length then
    some ⟨c.drop n, by simp [Cursor.rest_drop]; omega⟩
  else none

theorem length_after_lt {c : Cursor} (h : c.rest ≠ []) :
    (c.drop 1).skipBlanks.rest.length < c.rest.length := by
  have := Cursor.length_skipBlanks_le (c.drop 1)
  have : 0 < c.rest.length := List.length_pos_iff.2 h
  simp only [Cursor.rest_drop, List.length_drop] at *
  omega

/-- A mistake in front of a cursor, with what each kind of reader says about it. -/
def broken (c : Cursor) (next skip close : JsonError) : Ending :=
  .broken (c.faultHere next) (c.faultHere skip) (c.faultHere close) c.place

/-- A mistake inside the last part, where every reader stops. -/
def unreached (c : Cursor) : Ending := broken c .endInValue .endInValue .endInValue

mutual

/-- The part at a cursor, inside `depth` others. -/
def scanValue (depth : Nat) (inside : Option JsonError) (c : Cursor) : Node × Behind c :=
  if h : c.rest.head? = some '[' then
    have ne : c.rest ≠ [] := by intro e; simp [e] at h
    have lt := length_after_lt ne
    let r := scanItems (depth + 1) (c.drop 1).skipBlanks
    (.list c depth r.1 r.2.1, r.2.2.map fun d => ⟨d.1, Nat.lt_trans d.2 lt⟩)
  else if h : c.rest.head? = some '\x7b' then
    have ne : c.rest ≠ [] := by intro e; simp [e] at h
    have lt := length_after_lt ne
    let r := scanMembers (depth + 1) (c.drop 1).skipBlanks
    (.object c depth r.1 r.2.1, r.2.2.map fun d => ⟨d.1, Nat.lt_trans d.2 lt⟩)
  else
    (.leaf c inside, (skipLeaf c.rest).toOption.bind (behind c))
  termination_by (c.rest.length, 0)

/-- The items of a list, up to its bracket. -/
def scanItems (depth : Nat) (c : Cursor) : List Node × Ending × Behind c :=
  match c.rest.head? with
  | none => ([], broken c .endInList .endInList .endInList, none)
  | some ']' => ([], .closed (c.drop 1).place, behind c 1)
  | some _ => scanItem depth c
  termination_by (c.rest.length, 2)

/-- An item and those behind it. -/
def scanItem (depth : Nat) (c : Cursor) : List Node × Ending × Behind c :=
  match scanValue depth (some .expectedListCommaOrEnd) c with
  | (node, none) => ([node], unreached c, none)
  | (node, some ⟨d, hd⟩) =>
    let d' := d.skipBlanks
    have hd' : d'.rest.length < c.rest.length :=
      Nat.lt_of_le_of_lt (Cursor.length_skipBlanks_le d) hd
    match h : d'.rest with
    | [] => ([node], broken d' .endInList .endInList .endInList, none)
    | ']' :: _ =>
      ([node], .closed (d'.drop 1).place,
        (behind d' 1).map fun e => ⟨e.1, Nat.lt_trans e.2 hd'⟩)
    | ',' :: _ =>
      let e := (d'.drop 1).skipBlanks
      have he : e.rest.length < c.rest.length :=
        Nat.lt_trans (length_after_lt (by simp [h])) hd'
      match e.rest.head? with
      | none =>
        ([node], .broken (e.faultHere .endInValue) (e.faultHere .endInValue)
          (e.faultHere .trailingCharacters) e.place, none)
      | some ']' => ([node], broken e .trailingComma .expectedValue .trailingComma, none)
      | some _ =>
        let r := scanItem depth e
        (node :: r.1, r.2.1, r.2.2.map fun x => ⟨x.1, Nat.lt_trans x.2 he⟩)
    | _ :: _ =>
      ([node], broken d' .expectedListCommaOrEnd .expectedListCommaOrEnd .trailingCharacters, none)
  termination_by (c.rest.length, 1)

/-- The members of an object, up to its bracket. -/
def scanMembers (depth : Nat) (c : Cursor) : List (Member Node) × Ending × Behind c :=
  match c.rest.head? with
  | none => ([], broken c .endInObject .endInObject .endInObject, none)
  | some '\x7d' => ([], .closed (c.drop 1).place, behind c 1)
  | some '"' => scanMember depth c
  | some x =>
    ([], broken c .keyMustBeString .keyMustBeString
      (if x = ',' then .trailingComma else .trailingCharacters), none)
  termination_by (c.rest.length, 2)

/-- A member and those behind it. -/
def scanMember (depth : Nat) (c : Cursor) : List (Member Node) × Ending × Behind c :=
  match (skipText c.rest).toOption.bind (behind c) with
  | none => ([⟨c, c, .missing c (c.faultHere .endInValue), c⟩], unreached c, none)
  | some ⟨k, hk⟩ =>
    let colon := k.skipBlanks
    have hcolon : colon.rest.length < c.rest.length :=
      Nat.lt_of_le_of_lt (Cursor.length_skipBlanks_le k) hk
    match hc : colon.rest with
    | [] =>
      ([⟨c, colon, .missing colon (colon.faultHere .endInObject), colon⟩], unreached c, none)
    | ':' :: _ =>
      let v := (colon.drop 1).skipBlanks
      have hv : v.rest.length < c.rest.length :=
        Nat.lt_trans (length_after_lt (by simp [hc])) hcolon
      match scanValue depth (some .expectedObjectCommaOrEnd) v with
      | (node, none) => ([⟨c, colon, node, v⟩], unreached c, none)
      | (node, some ⟨d, hd⟩) =>
        let d' := d.skipBlanks
        have hd' : d'.rest.length < c.rest.length :=
          Nat.lt_trans (Nat.lt_of_le_of_lt (Cursor.length_skipBlanks_le d) hd) hv
        let member : Member Node := ⟨c, colon, node, d'⟩
        match h : d'.rest with
        | [] => ([member], broken d' .endInObject .endInObject .endInObject, none)
        | '\x7d' :: _ =>
          ([member], .closed (d'.drop 1).place,
            (behind d' 1).map fun e => ⟨e.1, Nat.lt_trans e.2 hd'⟩)
        | ',' :: _ =>
          let e := (d'.drop 1).skipBlanks
          have he : e.rest.length < c.rest.length :=
            Nat.lt_trans (length_after_lt (by simp [h])) hd'
          let stop := fun (next skip : JsonError) =>
            Ending.broken (e.faultHere next) (e.faultHere skip)
              (d'.faultHere .trailingComma) d'.place
          match e.rest.head? with
          | none => ([member], stop .endInValue .endInObject, none)
          | some '\x7d' => ([member], stop .trailingComma .keyMustBeString, none)
          | some '"' =>
            let r := scanMember depth e
            (member :: r.1, r.2.1, r.2.2.map fun x => ⟨x.1, Nat.lt_trans x.2 he⟩)
          | some _ => ([member], stop .keyMustBeString .keyMustBeString, none)
        | _ :: _ =>
          ([member], broken d' .expectedObjectCommaOrEnd .expectedObjectCommaOrEnd
            .trailingCharacters, none)
    | _ :: _ =>
      ([⟨c, colon, .missing colon (colon.faultHere .expectedColon), colon⟩], unreached c, none)
  termination_by (c.rest.length, 1)

end

/-- The tree of a text, and where it ends if it can be read to its end. -/
def scan (text : String) : Node × Option Cursor :=
  let r := scanValue 0 none (Cursor.start text).skipBlanks
  (r.1, r.2.map (·.1))

end FlatUnion.Json
