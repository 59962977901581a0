import Mathlib.Data.List.Basic
import FlatUnion.Json.Tree

/-!
# How texts are cut

What is known of the tree of a text, whatever the text is. Lists and objects start with their
brackets, keys with a quote, and what lies in a list or an object is marked as such
(`Node.WellCut`). The first key of an object stands behind the brace, and behind its value follows
the other brace if there is no other member, and a comma if there is one (`Framed`).

The main statement is `scanValue_wellCut`, proved together for the parts of a value by recursion on
what is left of the text.
-/

namespace FlatUnion.Json

/-- Whether a part that is a leaf lies in a list or an object. -/
def Node.enclosed : Node → Bool
  | .leaf _ inside => inside.isSome
  | _ => true

/-- What stands around the first member of an object, whose members start at `c`. -/
def Framed (c : Cursor) (members : List (Member Node)) (ending : Ending) : Prop :=
  match members with
  | [] => ∀ p, ending = .closed p → c.rest.head? = some '\x7d'
  | [m] => m.key = c ∧ ∀ p, ending = .closed p → m.next.rest.head? = some '\x7d'
  | m :: _ :: _ => m.key = c ∧ m.next.rest.head? = some ','

mutual

/-- Whether all brackets and quotes are where they should be. -/
def Node.WellCut : Node → Prop
  | .leaf .. | .missing .. => True
  | .list c _ items _ => c.rest.head? = some '[' ∧ itemsWellCut items
  | .object c _ members ending =>
    c.rest.head? = some '\x7b' ∧ Framed (c.drop 1).skipBlanks members ending ∧
      membersWellCut members

def itemsWellCut : List Node → Prop
  | [] => True
  | n :: rest => n.enclosed ∧ n.WellCut ∧ itemsWellCut rest

def membersWellCut : List (Member Node) → Prop
  | [] => True
  | ⟨k, _, v, _⟩ :: rest =>
    k.rest.head? = some '"' ∧ v.enclosed ∧ v.WellCut ∧ membersWellCut rest

end

/-! ## What one step finds -/

theorem scanValue_cases (depth : Nat) (inside : Option JsonError) (c : Cursor) :
    (scanValue depth inside c).1 = .leaf c inside ∨
    c.rest.head? = some '[' ∧
      (let r := scanItems (depth + 1) (c.drop 1).skipBlanks
       (scanValue depth inside c).1 = .list c depth r.1 r.2.1) ∨
    c.rest.head? = some '\x7b' ∧
      (let r := scanMembers (depth + 1) (c.drop 1).skipBlanks
       (scanValue depth inside c).1 = .object c depth r.1 r.2.1) := by
  unfold scanValue
  split
  · next h => exact .inr (.inl ⟨h, rfl⟩)
  · split
    · next h => exact .inr (.inr ⟨h, rfl⟩)
    · exact .inl rfl

/-- An item is the last one there is, or others are found behind a comma. -/
theorem scanItem_cases (depth : Nat) (c : Cursor) :
    let node := (scanValue depth (some .expectedListCommaOrEnd) c).1
    (scanItem depth c).1 = [node] ∨
      ∃ e : Cursor, e.rest.length < c.rest.length ∧
        (scanItem depth c).1 = node :: (scanItem depth e).1 := by
  intro node
  rw [scanItem.eq_def depth c]
  split
  · next n h =>
    exact .inl (by simp [node, h])
  · next n d hd h =>
    have hnode : node = n := by simp [node, h]
    rw [hnode]
    dsimp only
    split
    · exact .inl rfl
    · exact .inl rfl
    · next heq =>
      have hcomma := length_after_lt (c := d.skipBlanks) (by rw [heq]; simp)
      have hblanks := Cursor.length_skipBlanks_le d
      split
      · exact .inl rfl
      · exact .inl rfl
      · exact .inr ⟨_, by omega, rfl⟩
    · exact .inl rfl

/-- The value of a member, if the text comes to it. -/
def MemberValue (depth : Nat) (c : Cursor) (node : Node) : Prop :=
  (∃ start fault, node = .missing start fault) ∨
    ∃ v : Cursor, v.rest.length < c.rest.length ∧
      node = (scanValue depth (some .expectedObjectCommaOrEnd) v).1

theorem broken_ne_closed {next skip close : Fault} {reached p : Position} :
    Ending.broken next skip close reached ≠ .closed p := nofun

/-- A member starts at its key. It is the last one there is, and the brace follows if the object is
closed, or others are found behind a comma. -/
theorem scanMember_cases (depth : Nat) (c : Cursor) :
    ∃ m : Member Node, m.key = c ∧ MemberValue depth c m.value ∧
      ((scanMember depth c).1 = [m] ∧
          (∀ p, (scanMember depth c).2.1 = .closed p → m.next.rest.head? = some '\x7d') ∨
        m.next.rest.head? = some ',' ∧ ∃ e : Cursor, e.rest.length < c.rest.length ∧
          e.rest.head? = some '"' ∧ (scanMember depth c).1 = m :: (scanMember depth e).1) := by
  rw [scanMember.eq_def depth c]
  split
  · exact ⟨_, rfl, .inl ⟨_, _, rfl⟩, .inl ⟨rfl, fun _ h => absurd h broken_ne_closed⟩⟩
  · next k hk _ =>
    dsimp only
    have hcolon := Nat.lt_of_le_of_lt (Cursor.length_skipBlanks_le k) hk
    split
    · exact ⟨_, rfl, .inl ⟨_, _, rfl⟩, .inl ⟨rfl, fun _ h => absurd h broken_ne_closed⟩⟩
    · next heq =>
      have hv := Nat.lt_trans (length_after_lt (c := k.skipBlanks) (by rw [heq]; simp)) hcolon
      split
      · next n hn =>
        exact ⟨_, rfl, .inr ⟨_, hv, by rw [hn]⟩, .inl ⟨rfl, fun _ h => absurd h broken_ne_closed⟩⟩
      · next n d hd hn =>
        have hvalue : MemberValue depth c n := .inr ⟨_, hv, by rw [hn]⟩
        have hd' := Nat.lt_trans (Nat.lt_of_le_of_lt (Cursor.length_skipBlanks_le d) hd) hv
        split
        · exact ⟨_, rfl, hvalue, .inl ⟨rfl, fun _ h => absurd h broken_ne_closed⟩⟩
        · next hbrace =>
          exact ⟨_, rfl, hvalue, .inl ⟨rfl, fun _ _ => by rw [hbrace]; rfl⟩⟩
        · next hcomma =>
          have he := Nat.lt_trans (length_after_lt (c := d.skipBlanks) (by rw [hcomma]; simp)) hd'
          split
          · exact ⟨_, rfl, hvalue, .inl ⟨rfl, fun _ h => absurd h broken_ne_closed⟩⟩
          · exact ⟨_, rfl, hvalue, .inl ⟨rfl, fun _ h => absurd h broken_ne_closed⟩⟩
          · next hquote =>
            exact ⟨_, rfl, hvalue, .inr ⟨by rw [hcomma]; rfl, _, he, hquote, rfl⟩⟩
          · exact ⟨_, rfl, hvalue, .inl ⟨rfl, fun _ h => absurd h broken_ne_closed⟩⟩
        · exact ⟨_, rfl, hvalue, .inl ⟨rfl, fun _ h => absurd h broken_ne_closed⟩⟩
    · exact ⟨_, rfl, .inl ⟨_, _, rfl⟩, .inl ⟨rfl, fun _ h => absurd h broken_ne_closed⟩⟩

/-! ## All brackets and quotes -/

theorem scanMembers_framed (depth : Nat) (c : Cursor) :
    Framed c (scanMembers depth c).1 (scanMembers depth c).2.1 := by
  rw [scanMembers]
  split
  · exact fun _ h => absurd h broken_ne_closed
  · next h => exact fun _ _ => h
  · obtain ⟨m, hm, -, ⟨hlast, hclosed⟩ | ⟨hcomma, e, -, -, hmore⟩⟩ := scanMember_cases depth c
    · rw [hlast]
      exact ⟨hm, hclosed⟩
    · obtain ⟨m', -, -, ⟨hlast, -⟩ | ⟨-, e', -, -, hmore'⟩⟩ := scanMember_cases depth e
      · rw [hmore, hlast]
        exact ⟨hm, hcomma⟩
      · rw [hmore, hmore']
        exact ⟨hm, hcomma⟩
  · exact fun _ h => absurd h broken_ne_closed

theorem enclosed_scanValue (depth : Nat) (e : JsonError) (c : Cursor) :
    (scanValue depth (some e) c).1.enclosed := by
  obtain h | ⟨-, h⟩ | ⟨-, h⟩ := scanValue_cases depth (some e) c <;>
  · rw [h]
    rfl

mutual

/-- A value is cut at its brackets and quotes, whatever the text is. -/
theorem scanValue_wellCut (depth : Nat) (inside : Option JsonError) (c : Cursor) :
    (scanValue depth inside c).1.WellCut := by
  obtain h | ⟨hc, h⟩ | ⟨hc, h⟩ := scanValue_cases depth inside c
  · rw [h]
    trivial
  · have hlt := length_after_lt (c := c) (by rintro hnil; simp [hnil] at hc)
    rw [h]
    exact ⟨hc, scanItems_wellCut (depth + 1) _⟩
  · have hlt := length_after_lt (c := c) (by rintro hnil; simp [hnil] at hc)
    rw [h]
    exact ⟨hc, scanMembers_framed _ _, scanMembers_wellCut (depth + 1) _⟩
termination_by (c.rest.length, 0)

theorem scanItems_wellCut (depth : Nat) (c : Cursor) : itemsWellCut (scanItems depth c).1 := by
  rw [scanItems]
  split
  · trivial
  · trivial
  · exact scanItem_wellCut depth c
termination_by (c.rest.length, 2)

theorem scanItem_wellCut (depth : Nat) (c : Cursor) : itemsWellCut (scanItem depth c).1 := by
  have hnode := scanValue_wellCut depth (some .expectedListCommaOrEnd) c
  have henclosed := enclosed_scanValue depth .expectedListCommaOrEnd c
  obtain h | ⟨e, hlt, h⟩ := scanItem_cases depth c
  · rw [h]
    exact ⟨henclosed, hnode, trivial⟩
  · rw [h]
    exact ⟨henclosed, hnode, scanItem_wellCut depth e⟩
termination_by (c.rest.length, 1)

theorem scanMembers_wellCut (depth : Nat) (c : Cursor) :
    membersWellCut (scanMembers depth c).1 := by
  rw [scanMembers]
  split
  · trivial
  · trivial
  · next h => exact scanMember_wellCut depth c h
  · trivial
termination_by (c.rest.length, 2)

theorem scanMember_wellCut (depth : Nat) (c : Cursor) (hc : c.rest.head? = some '"') :
    membersWellCut (scanMember depth c).1 := by
  obtain ⟨m, hm, hvalue, hcases⟩ := scanMember_cases depth c
  obtain ⟨key, colon, node, next⟩ := m
  obtain rfl : key = c := hm
  have hnode : node.enclosed ∧ node.WellCut := by
    obtain ⟨start, fault, rfl⟩ | ⟨v, hlt, rfl⟩ := hvalue
    · exact ⟨rfl, trivial⟩
    · exact ⟨enclosed_scanValue depth _ v, scanValue_wellCut depth _ v⟩
  obtain ⟨h, -⟩ | ⟨-, e, hlt, he, h⟩ := hcases
  · rw [h]
    exact ⟨hc, hnode.1, hnode.2, trivial⟩
  · rw [h]
    exact ⟨hc, hnode.1, hnode.2, scanMember_wellCut depth e he⟩
termination_by (c.rest.length, 1)

end

end FlatUnion.Json
