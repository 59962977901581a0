import Mathlib.Tactic.IntervalCases
import FlatUnion.Json.Writer
import FlatUnion.Proofs.Json.Digits
import FlatUnion.Proofs.Json.Kept

/-!
# Values inside a text

A fragment is a text that is one value wherever it stands : it is cut out of the text around it at
its own end, and what is kept of it does not depend on that text (`Fragment`). Words, texts between
quotes and numerals are fragments, and so are lists and objects of fragments (`Fragment.list`,
`Fragment.object`). A datum that is written as a fragment is thereby known to be kept when the text
around it is read, and as what.
-/

namespace FlatUnion.Json

/-! ## Texts between quotes -/

/-- The written form of a character is read as this character. -/
theorem textBody_quotedChar (c : Char) (offset : Nat) (rest : List Char) :
    textBody 0 offset ((quotedChar c).toList ++ rest) =
      put c (textBody 0 (offset + (quotedChar c).length) rest) := by
  unfold quotedChar
  split_ifs with hquote hbackslash _ _ _ _ _ hcontrol
  iterate 7
    subst c
    rfl
  · obtain ⟨n, hn, rfl⟩ : ∃ n < 0x20, c = Char.ofNat n := ⟨_, hcontrol, (c.ofNat_toNat).symm⟩
    interval_cases n <;> rfl
  · rw [String.toList_singleton, List.singleton_append, textBody.eq_def]
    simp only [if_neg hquote, if_neg hbackslash, if_neg hcontrol, String.length_singleton]

theorem skipBody_quotedChar (c : Char) (offset : Nat) (rest : List Char) :
    skipBody 0 offset ((quotedChar c).toList ++ rest) =
      skipBody 0 (offset + (quotedChar c).length) rest := by
  unfold quotedChar
  split_ifs with hquote hbackslash _ _ _ _ _ hcontrol
  iterate 7
    subst c
    rfl
  · obtain ⟨n, hn, rfl⟩ : ∃ n < 0x20, c = Char.ofNat n := ⟨_, hcontrol, (c.ofNat_toNat).symm⟩
    interval_cases n <;> rfl
  · rw [String.toList_singleton, List.singleton_append, skipBody.eq_def]
    simp only [if_neg hquote, if_neg hbackslash, if_neg hcontrol, String.length_singleton]

/-- What stands between quotes is read as the text that was written. -/
theorem textBody_quoted (cs : List Char) (offset : Nat) (rest : List Char) :
    textBody 0 offset ((String.join (cs.map quotedChar)).toList ++ '"' :: rest) =
      .ok ⟨cs, offset + (String.join (cs.map quotedChar)).length + 1⟩ := by
  induction cs generalizing offset with
  | nil => rfl
  | cons c cs ih =>
    rw [List.map_cons, String.join_cons, String.toList_append, List.append_assoc,
      textBody_quotedChar, ih, String.length_append, Nat.add_assoc offset]
    rfl

theorem skipBody_quoted (cs : List Char) (offset : Nat) (rest : List Char) :
    skipBody 0 offset ((String.join (cs.map quotedChar)).toList ++ '"' :: rest) =
      .ok (offset + (String.join (cs.map quotedChar)).length + 1) := by
  induction cs generalizing offset with
  | nil => rfl
  | cons c cs ih =>
    rw [List.map_cons, String.join_cons, String.toList_append, List.append_assoc,
      skipBody_quotedChar, ih, String.length_append, Nat.add_assoc offset]

theorem toList_quoted (s : String) :
    (quoted s).toList = '"' :: ((String.join (s.toList.map quotedChar)).toList ++ ['"']) := by
  rw [quoted, String.toList_append, String.toList_append]
  rfl

theorem length_quoted (s : String) :
    (quoted s).length = 1 + (String.join (s.toList.map quotedChar)).length + 1 := by
  rw [quoted, String.length_append, String.length_append]
  rfl

/-- A text that was written is read as it was. -/
theorem text_quoted (s : String) (rest : List Char) :
    text ((quoted s).toList ++ rest) = .ok ⟨s, (quoted s).length⟩ := by
  rw [text, textAfterQuote, toList_quoted, List.cons_append, List.drop_one, List.tail_cons,
    List.append_assoc, List.singleton_append, textBody_quoted, length_quoted]
  simp [Except.map]

theorem skipText_quoted (s : String) (rest : List Char) :
    skipText ((quoted s).toList ++ rest) = .ok (quoted s).length := by
  rw [skipText, toList_quoted, List.cons_append, List.drop_one, List.tail_cons,
    List.append_assoc, List.singleton_append, skipBody_quoted, length_quoted]

/-! ## Cutting a text -/

theorem Cursor.skipBlanks_eq {c : Cursor} {x : Char} {rest : List Char} (h : c.rest = x :: rest)
    (hx : isBlank x = false) : c.skipBlanks = c := by
  rw [skipBlanks, h, List.takeWhile_cons_of_neg (by simp [hx])]
  rfl

/-- What is left of a text, if it can be read on. -/
def Behind.rest? {c : Cursor} (d : Behind c) : Option (List Char) := d.map (·.1.rest)

theorem rest?_behind {c : Cursor} (front : List Char) {tail : List Char}
    (hc : c.rest = front ++ tail) (hfront : front ≠ []) :
    (behind c front.length).rest? = some tail := by
  have hpos : 0 < front.length := List.length_pos_iff.2 hfront
  have hlt : 0 < front.length ∧ 0 < c.rest.length := ⟨hpos, by simp [hc]; omega⟩
  rw [behind, dif_pos hlt, Behind.rest?, Option.map_some, Cursor.rest_drop, hc, List.drop_left]

theorem Behind.rest?_map {c d : Cursor} (b : Behind d)
    (h : ∀ e : { e : Cursor // e.rest.length < d.rest.length }, e.1.rest.length < c.rest.length) :
    Behind.rest? (c := c) (b.map fun e => ⟨e.1, h e⟩) = b.rest? := by
  rw [rest?, rest?, Option.map_map]
  rfl

theorem Cursor.rest_skipBlanks {c : Cursor} {x : Char} {rest : List Char} (h : c.rest = x :: rest)
    (hx : isBlank x = false) : c.skipBlanks.rest = x :: rest := by
  rw [skipBlanks_eq h hx, h]

theorem scanValue_leaf {c : Cursor} (depth : Nat) (inside : Option JsonError)
    {front tail : List Char} (hc : c.rest = front ++ tail) (hfront : front ≠ [])
    (hlist : front.head? ≠ some '[') (hobject : front.head? ≠ some '\x7b')
    (hskip : skipLeaf c.rest = .ok front.length) :
    (scanValue depth inside c).1 = .leaf c inside ∧
      (scanValue depth inside c).2.rest? = some tail := by
  have hhead : c.rest.head? = front.head? := by rw [hc, List.head?_append_of_ne_nil _ hfront]
  rw [scanValue, dif_neg (hhead ▸ hlist), dif_neg (hhead ▸ hobject), hskip]
  exact ⟨rfl, rest?_behind front hc hfront⟩

/-- What a bracket at the front of a text is followed by. -/
theorem rest_behind_bracket {c : Cursor} {bracket x : Char} {rest : List Char}
    (hc : c.rest = bracket :: x :: rest) (hx : Cursor.isBlank x = false) :
    (c.drop 1).skipBlanks.rest = x :: rest :=
  Cursor.rest_skipBlanks (by rw [Cursor.rest_drop, hc]; rfl) hx

theorem scanValue_list {c : Cursor} (depth : Nat) (inside : Option JsonError)
    (hc : c.rest.head? = some '[') :
    let r := scanItems (depth + 1) (c.drop 1).skipBlanks
    (scanValue depth inside c).1 = .list c depth r.1 r.2.1 ∧
      (scanValue depth inside c).2.rest? = r.2.2.rest? := by
  rw [scanValue, dif_pos hc]
  exact ⟨rfl, Behind.rest?_map _ _⟩

theorem scanValue_object {c : Cursor} (depth : Nat) (inside : Option JsonError)
    (hc : c.rest.head? = some '\x7b') :
    let r := scanMembers (depth + 1) (c.drop 1).skipBlanks
    (scanValue depth inside c).1 = .object c depth r.1 r.2.1 ∧
      (scanValue depth inside c).2.rest? = r.2.2.rest? := by
  rw [scanValue, dif_neg (by simp [hc]), dif_pos hc]
  exact ⟨rfl, Behind.rest?_map _ _⟩

/-- An item in front of the bracket is the last one. -/
theorem scanItem_last {depth : Nat} {c : Cursor} {tail : List Char}
    (h : (scanValue depth (some .expectedListCommaOrEnd) c).2.rest? = some (']' :: tail)) :
    (scanItem depth c).1 = [(scanValue depth (some .expectedListCommaOrEnd) c).1] ∧
      (∃ p, (scanItem depth c).2.1 = .closed p) ∧ (scanItem depth c).2.2.rest? = some tail := by
  obtain ⟨⟨d, hlt⟩, hd, hrest⟩ := Option.map_eq_some_iff.1 h
  have hscan : scanValue depth (some .expectedListCommaOrEnd) c = (_, some ⟨d, hlt⟩) :=
    Prod.ext rfl hd
  have hbracket := Cursor.rest_skipBlanks hrest (by decide)
  rw [scanItem.eq_def, hscan]
  dsimp only
  split
  · next heq => simp [hbracket] at heq
  · refine ⟨rfl, ⟨_, rfl⟩, ?_⟩
    rw [Behind.rest?_map]
    exact rest?_behind [']'] hbracket (List.cons_ne_nil _ _)
  · next heq => simp [hbracket] at heq
  · next hne _ heq =>
    obtain ⟨rfl, -⟩ := List.cons.inj (hbracket.symm.trans heq)
    exact (hne rfl).elim

/-- Behind an item and a comma the others follow. -/
theorem scanItem_more {depth : Nat} {c : Cursor} {x : Char} {rest : List Char}
    (h : (scanValue depth (some .expectedListCommaOrEnd) c).2.rest? = some (',' :: x :: rest))
    (hx : Cursor.isBlank x = false) (hbracket : x ≠ ']') :
    ∃ e : Cursor, e.rest = x :: rest ∧
      (scanItem depth c).1 =
        (scanValue depth (some .expectedListCommaOrEnd) c).1 :: (scanItem depth e).1 ∧
      (scanItem depth c).2.1 = (scanItem depth e).2.1 ∧
      (scanItem depth c).2.2.rest? = (scanItem depth e).2.2.rest? := by
  obtain ⟨⟨d, hlt⟩, hd, hrest⟩ := Option.map_eq_some_iff.1 h
  have hscan : scanValue depth (some .expectedListCommaOrEnd) c = (_, some ⟨d, hlt⟩) :=
    Prod.ext rfl hd
  have hcomma := Cursor.rest_skipBlanks hrest (by decide)
  have hfirst : (d.skipBlanks.drop 1).rest = x :: rest := by rw [Cursor.rest_drop, hcomma]; rfl
  have hfirst := Cursor.rest_skipBlanks hfirst hx
  refine ⟨_, hfirst, ?_⟩
  rw [scanItem.eq_def, hscan]
  dsimp only
  split
  · next heq => simp [hcomma] at heq
  · next heq => simp [hcomma] at heq
  · split
    · next heq => simp [hfirst] at heq
    · next heq =>
      rw [hfirst] at heq
      exact (hbracket (Option.some.inj heq)).elim
    · exact ⟨rfl, rfl, Behind.rest?_map _ _⟩
  · next _ hne heq =>
    obtain ⟨rfl, -⟩ := List.cons.inj (hcomma.symm.trans heq)
    exact (hne rfl).elim

/-- What a key and a colon at the front of a text are followed by. -/
theorem exists_value_of_key {c : Cursor} {name : String} {x : Char} {rest : List Char}
    (hc : c.rest = (quoted name).toList ++ ':' :: x :: rest) (hx : Cursor.isBlank x = false) :
    ∃ k hk, (skipText c.rest).toOption.bind (behind c) = some ⟨k, hk⟩ ∧
      k.skipBlanks.rest = ':' :: x :: rest ∧ (k.skipBlanks.drop 1).skipBlanks.rest = x :: rest := by
  have hskip : skipText c.rest = .ok (quoted name).toList.length := by
    rw [hc, skipText_quoted, String.length_toList]
  have hkey : (quoted name).toList ≠ [] := by simp [toList_quoted]
  obtain ⟨⟨k, hk⟩, hbehind, hrest⟩ := Option.map_eq_some_iff.1 (rest?_behind _ hc hkey)
  have hcolon := Cursor.rest_skipBlanks hrest (by decide)
  have hvalue : (k.skipBlanks.drop 1).rest = x :: rest := by rw [Cursor.rest_drop, hcolon]; rfl
  refine ⟨k, hk, ?_, hcolon, Cursor.rest_skipBlanks hvalue hx⟩
  rw [hskip]
  exact hbehind

/-- A member in front of the brace is the last one. -/
theorem scanMember_last {depth : Nat} {c : Cursor} {name : String} {x : Char}
    {rest tail : List Char} (hc : c.rest = (quoted name).toList ++ ':' :: x :: rest)
    (hx : Cursor.isBlank x = false)
    (hvalue : ∀ v : Cursor, v.rest = x :: rest →
      (scanValue depth (some .expectedObjectCommaOrEnd) v).2.rest? = some ('\x7d' :: tail)) :
    ∃ v : Cursor, v.rest = x :: rest ∧
      (∃ colon next, (scanMember depth c).1 =
        [⟨c, colon, (scanValue depth (some .expectedObjectCommaOrEnd) v).1, next⟩]) ∧
      (∃ p, (scanMember depth c).2.1 = .closed p) ∧ (scanMember depth c).2.2.rest? = some tail := by
  obtain ⟨k, hk, hbehind, hcolon, hrest⟩ := exists_value_of_key hc hx
  obtain ⟨⟨d, hlt⟩, hd, hbrace⟩ := Option.map_eq_some_iff.1 (hvalue _ hrest)
  have hscan : scanValue depth (some .expectedObjectCommaOrEnd) (k.skipBlanks.drop 1).skipBlanks =
      (_, some ⟨d, hlt⟩) := Prod.ext rfl hd
  have hbrace := Cursor.rest_skipBlanks hbrace (by decide)
  refine ⟨_, hrest, ?_⟩
  rw [scanMember.eq_def, hbehind]
  dsimp only
  split
  · next heq => simp [hcolon] at heq
  · rw [hscan]
    dsimp only
    split
    · next heq => simp [hbrace] at heq
    · refine ⟨⟨_, _, rfl⟩, ⟨_, rfl⟩, ?_⟩
      rw [Behind.rest?_map]
      exact rest?_behind ['\x7d'] hbrace (List.cons_ne_nil _ _)
    · next heq => simp [hbrace] at heq
    · next hne _ heq =>
      obtain ⟨rfl, -⟩ := List.cons.inj (hbrace.symm.trans heq)
      exact (hne rfl).elim
  · next hne heq =>
    obtain ⟨rfl, -⟩ := List.cons.inj (hcolon.symm.trans heq)
    exact (hne rfl).elim

/-- Behind a member and a comma the others follow. -/
theorem scanMember_more {depth : Nat} {c : Cursor} {name : String} {x : Char}
    {rest others : List Char} (hc : c.rest = (quoted name).toList ++ ':' :: x :: rest)
    (hx : Cursor.isBlank x = false)
    (hvalue : ∀ v : Cursor, v.rest = x :: rest →
      (scanValue depth (some .expectedObjectCommaOrEnd) v).2.rest? = some (',' :: '"' :: others)) :
    ∃ v e : Cursor, v.rest = x :: rest ∧ e.rest = '"' :: others ∧
      (∃ colon next, (scanMember depth c).1 =
        ⟨c, colon, (scanValue depth (some .expectedObjectCommaOrEnd) v).1, next⟩ ::
          (scanMember depth e).1) ∧
      (scanMember depth c).2.1 = (scanMember depth e).2.1 ∧
      (scanMember depth c).2.2.rest? = (scanMember depth e).2.2.rest? := by
  obtain ⟨k, hk, hbehind, hcolon, hrest⟩ := exists_value_of_key hc hx
  obtain ⟨⟨d, hlt⟩, hd, hcomma⟩ := Option.map_eq_some_iff.1 (hvalue _ hrest)
  have hscan : scanValue depth (some .expectedObjectCommaOrEnd) (k.skipBlanks.drop 1).skipBlanks =
      (_, some ⟨d, hlt⟩) := Prod.ext rfl hd
  have hcomma := Cursor.rest_skipBlanks hcomma (by decide)
  have hquote : (d.skipBlanks.drop 1).rest = '"' :: others := by rw [Cursor.rest_drop, hcomma]; rfl
  have hquote := Cursor.rest_skipBlanks hquote (by decide)
  refine ⟨_, _, hrest, hquote, ?_⟩
  rw [scanMember.eq_def, hbehind]
  dsimp only
  split
  · next heq => simp [hcolon] at heq
  · rw [hscan]
    dsimp only
    split
    · next heq => simp [hcomma] at heq
    · next heq => simp [hcomma] at heq
    · split
      · next heq => simp [hquote] at heq
      · next heq => simp [hquote] at heq
      · exact ⟨⟨_, _, rfl⟩, rfl, Behind.rest?_map _ _⟩
      · next _ hne heq =>
        rw [hquote] at heq
        exact (hne (Option.some.inj heq).symm).elim
    · next _ hne heq =>
      obtain ⟨rfl, -⟩ := List.cons.inj (hcomma.symm.trans heq)
      exact (hne rfl).elim
  · next hne heq =>
    obtain ⟨rfl, -⟩ := List.cons.inj (hcolon.symm.trans heq)
    exact (hne rfl).elim

/-! ## Fragments -/

/-- Whether a value may end here : in front of a comma or a bracket, or at the end of the text. -/
def Ends (tail : List Char) : Prop :=
  ∀ c, tail.head? = some c → c = ',' ∨ c = ']' ∨ c = '\x7d'

theorem Ends.stops {tail : List Char} (h : Ends tail) : Stops tail := by
  intro c hc
  obtain rfl | rfl | rfl := h c hc <;> decide

/-- What is kept of a text. -/
def Keeps (text : String) (s : Snapshot) : Prop :=
  Snapshot.ofOffer (scan text).1.offer = .ok s

theorem Keeps.unique {text : String} {s s' : Snapshot} (h : Keeps text s) (h' : Keeps text s') :
    s = s' :=
  Except.ok.inj (h.symm.trans h')

/-- A text that is one value wherever it stands inside at most `depth` others : it is cut out of the
text around it at its own end, and what is kept of it is what is kept of it alone. -/
structure Fragment (depth : Nat) (text : String) : Prop where
  /-- The value begins with neither a blank nor a bracket that closes. -/
  starts : ∃ x rest, text.toList = x :: rest ∧ Cursor.isBlank x = false ∧ x ≠ ']'
  scans : ∀ d ≤ depth, ∀ (inside : Option JsonError) (c : Cursor) (tail : List Char),
    c.rest = text.toList ++ tail → Ends tail →
      (scanValue d inside c).2.rest? = some tail ∧
        ∀ s, Snapshot.ofOffer (scanValue d inside c).1.offer = .ok s ↔ Keeps text s

namespace Fragment

variable {depth d : Nat}

/-- A text that is cut out in the same way everywhere is a fragment, and what is kept of it anywhere
is kept of it alone. -/
theorem of_scans {text : String} {kept : Snapshot → Prop}
    (hstarts : ∃ x rest, text.toList = x :: rest ∧ Cursor.isBlank x = false ∧ x ≠ ']')
    (hscans : ∀ d ≤ depth, ∀ (inside : Option JsonError) (c : Cursor) (tail : List Char),
      c.rest = text.toList ++ tail → Ends tail →
        (scanValue d inside c).2.rest? = some tail ∧
          ∀ s, Snapshot.ofOffer (scanValue d inside c).1.offer = .ok s ↔ kept s) :
    Fragment depth text ∧ ∀ s, Keeps text s ↔ kept s := by
  obtain ⟨x, rest, htext, hblank, hbracket⟩ := hstarts
  have hstart : (Cursor.start text).skipBlanks = Cursor.start text :=
    Cursor.skipBlanks_eq htext hblank
  have hkeeps : ∀ s, Keeps text s ↔ kept s := by
    unfold Keeps scan
    rw [hstart]
    exact (hscans 0 (Nat.zero_le depth) none (Cursor.start text) []
      (List.append_nil _).symm nofun).2
  refine ⟨⟨⟨x, rest, htext, hblank, hbracket⟩, fun d hd inside c tail hc htail => ?_⟩, hkeeps⟩
  obtain ⟨hrest, hkept⟩ := hscans d hd inside c tail hc htail
  exact ⟨hrest, fun s => (hkept s).trans (hkeeps s).symm⟩

end Fragment

theorem ofOffer_leafOffer {c : Cursor} {s : Snapshot} :
    Snapshot.ofOffer (leafOffer c) = .ok s ↔ (Literal.read c.rest).map (·.value.kept) = .ok s := by
  unfold leafOffer
  cases Literal.read c.rest with
  | error f => simp [Snapshot.ofOffer, Except.map]
  | ok l => simp [Literal.ofOffer_offer, Except.map]

namespace Fragment

variable {depth d : Nat}

/-! ### Words, texts and numbers -/

/-- A word, a text or a number is a fragment. -/
theorem leaf {text : String} (read : Except Slip Snapshot)
    (hstarts : ∃ x rest, text.toList = x :: rest ∧ Cursor.isBlank x = false ∧ x ≠ ']' ∧ x ≠ '[' ∧
      x ≠ '\x7b')
    (hskip : ∀ tail, Ends tail → skipLeaf (text.toList ++ tail) = .ok text.length)
    (hread : ∀ tail, Ends tail →
      (Literal.read (text.toList ++ tail)).map (·.value.kept) = read) :
    Fragment depth text ∧ ∀ s, Keeps text s ↔ read = .ok s := by
  obtain ⟨x, rest, htext, hblank, hbracket, hlist, hobject⟩ := hstarts
  refine of_scans ⟨x, rest, htext, hblank, hbracket⟩ fun d _ inside c tail hc htail => ?_
  obtain ⟨hleaf, hrest⟩ := scanValue_leaf d inside hc (by simp [htext])
    (by simpa [htext] using hlist) (by simpa [htext] using hobject)
    (by rw [hc, hskip tail htail, String.length_toList])
  refine ⟨hrest, fun s => ?_⟩
  rw [hleaf, Node.offer, ofOffer_leafOffer, hc, hread tail htail]

theorem null : Fragment depth "null" :=
  (leaf (.ok .unit) ⟨'n', ['u', 'l', 'l'], rfl, by decide⟩ (fun _ _ => rfl)
    fun _ _ => rfl).1

theorem bool : ∀ b : Bool, Fragment depth (toString b)
  | true =>
    (leaf (.ok (.bool true)) ⟨'t', ['r', 'u', 'e'], rfl, by decide⟩ (fun _ _ => rfl)
      fun _ _ => rfl).1
  | false =>
    (leaf (.ok (.bool false)) ⟨'f', ['a', 'l', 's', 'e'], rfl, by decide⟩ (fun _ _ => rfl)
      fun _ _ => rfl).1

/-- A text between quotes is kept as this text. -/
theorem quoted (s : String) :
    Fragment depth (Json.quoted s) ∧
      ∀ c, Keeps (Json.quoted s) c ↔ (.ok (.text s) : Except Slip Snapshot) = .ok c := by
  refine leaf _ ⟨'"', _, toList_quoted s, by decide⟩ (fun tail _ => ?_) fun tail _ => ?_
  · rw [← skipText_quoted s tail, toList_quoted]
    rfl
  · have htext := text_quoted s tail
    rw [toList_quoted, List.cons_append] at htext ⊢
    rw [Literal.read, htext]
    rfl

theorem keeps_quoted {s : String} {c : Snapshot} : Keeps (Json.quoted s) c ↔ c = .text s :=
  ((quoted s : Fragment 0 _ ∧ _).2 c).trans (by simp [eq_comm])

/-- A numeral is kept as the number that is reported, if one is. -/
theorem numeral {text : String} {x : Numeral} (hx : x.Proper) (htext : text.toList = x.spelled) :
    Fragment depth text ∧ ∀ s, Keeps text s ↔
      (x.value text.length).map (fun m => Snapshot.ofScalar m.scalar) = .ok s := by
  have hread : ∀ skipping, Numeral.read skipping text.toList = .ok ⟨x, text.length⟩ := by
    intro skipping
    rw [← String.length_toList, htext]
    exact Numeral.read_spelled hx skipping
  obtain ⟨c, rest, hcs, hc⟩ := Numeral.starts_of_read (hread false)
  refine leaf _ ⟨c, rest, hcs, ?_⟩ (fun tail htail => ?_) fun tail htail => ?_
  · have hne := fun x => ne_of_sign_or_digit (x := x) hc
    refine ⟨?_, hne _ (by decide), hne _ (by decide), hne _ (by decide)⟩
    simp [Cursor.isBlank, hne ' ' (by decide), hne '\n' (by decide), hne '\t' (by decide),
      hne '\x0d' (by decide)]
  · have hread := Numeral.read_append htail.stops (hread true)
    rw [hcs, List.cons_append] at hread ⊢
    rw [skipLeaf_numeral hc, hread]
    rfl
  · have hread := Numeral.read_append htail.stops (hread false)
    rw [hcs, List.cons_append] at hread ⊢
    rw [Literal.read_numeral hc, Json.number, hread]
    simp only [bind, Except.bind]
    cases x.value text.length <;> rfl

/-! ### Lists and objects -/

/-- Texts with a comma in front of each but the first. -/
theorem toList_commas (t : String) : ∀ ts : List String,
    (",".intercalate (t :: ts)).toList = t.toList ++ ts.flatMap fun t => ',' :: t.toList
  | [] => by simp
  | u :: ts => by
    rw [String.intercalate_cons_cons, String.toList_append, String.toList_append,
      toList_commas u ts, List.append_assoc, List.flatMap_cons]
    rfl

theorem ends_bracket {x : Char} (hx : x = ',' ∨ x = ']' ∨ x = '\x7d') (tail : List Char) :
    Ends (x :: tail) :=
  fun _ hc => Option.some.inj hc ▸ hx

/-- An item is kept in front of others that are. -/
theorem ofItems_cons {p : Position} {node : Node} {rest : List Node} {kept : Snapshot → Prop}
    {P : List Snapshot → Prop} (hnode : ∀ s, Snapshot.ofOffer node.offer = .ok s ↔ kept s)
    (hrest : ∀ cs, Snapshot.ofItems (offerItems (.closed p) rest) = .ok cs ↔ P cs)
    (cs : List Snapshot) :
    Snapshot.ofItems (offerItems (.closed p) (node :: rest)) = .ok cs ↔
      ∃ s cs', kept s ∧ P cs' ∧ cs = s :: cs' := by
  constructor
  · intro h
    obtain ⟨s, hs, h⟩ := bind_eq_ok.1 h
    obtain ⟨cs', hcs, h⟩ := bind_eq_ok.1 h
    exact ⟨s, cs', (hnode s).1 hs, (hrest cs').1 hcs, (pure_eq_ok.1 h).symm⟩
  · rintro ⟨s, cs', hs, hcs, rfl⟩
    exact bind_eq_ok.2 ⟨s, (hnode s).2 hs, bind_eq_ok.2 ⟨cs', (hrest cs').2 hcs, rfl⟩⟩

theorem ofItems_nil {p : Position} (cs : List Snapshot) :
    Snapshot.ofItems (offerItems (.closed p) []) = .ok cs ↔ List.Forall₂ Keeps [] cs := by
  rw [List.forall₂_nil_left_iff]
  exact ⟨fun h => (Except.ok.inj h).symm, fun h => congrArg _ h.symm⟩

/-- The items of a list are cut one by one up to its bracket, and kept if each is. -/
theorem scanItem_fragments (hd : d ≤ depth) : ∀ (t : String) (ts : List String) {c : Cursor}
    {tail : List Char}, (∀ u ∈ t :: ts, Fragment depth u) →
    c.rest = t.toList ++ (ts.flatMap fun t => ',' :: t.toList) ++ ']' :: tail →
      (∃ p, (scanItem d c).2.1 = .closed p ∧ ∀ cs,
        Snapshot.ofItems (offerItems (.closed p) (scanItem d c).1) = .ok cs ↔
          List.Forall₂ Keeps (t :: ts) cs) ∧
      (scanItem d c).2.2.rest? = some tail
  | t, [], c, tail, hts, hc => by
    rw [List.flatMap_nil, List.append_nil] at hc
    obtain ⟨hrest, hkept⟩ := (hts t List.mem_cons_self).scans d hd
      (some .expectedListCommaOrEnd) c _ hc (ends_bracket (.inr (.inl rfl)) tail)
    obtain ⟨hitems, ⟨p, hp⟩, hend⟩ := scanItem_last hrest
    refine ⟨⟨p, hp, fun cs => ?_⟩, hend⟩
    rw [hitems, List.forall₂_cons_left_iff]
    exact ofItems_cons hkept ofItems_nil cs
  | t, u :: ts, c, tail, hts, hc => by
    obtain ⟨ht, hts⟩ := List.forall_mem_cons.1 hts
    obtain ⟨x, others, hu, hblank, hbracket⟩ := (hts u List.mem_cons_self).starts
    have hrest : ((u :: ts).flatMap fun t => ',' :: t.toList) ++ ']' :: tail =
        ',' :: x :: (others ++ ((ts.flatMap fun t => ',' :: t.toList) ++ ']' :: tail)) := by
      simp [hu]
    rw [List.append_assoc, hrest] at hc
    obtain ⟨hcomma, hkept⟩ := ht.scans d hd (some .expectedListCommaOrEnd) c _ hc
      (ends_bracket (.inl rfl) _)
    obtain ⟨e, he, hitems, hending, hbehind⟩ := scanItem_more hcomma hblank hbracket
    have he : e.rest = u.toList ++ (ts.flatMap fun t => ',' :: t.toList) ++ ']' :: tail := by
      rw [he, hu, List.append_assoc]
      rfl
    obtain ⟨⟨p, hp, hmore⟩, hend⟩ := scanItem_fragments hd u ts hts he
    refine ⟨⟨p, hending.trans hp, fun cs => ?_⟩, hbehind.trans hend⟩
    rw [hitems, List.forall₂_cons_left_iff]
    exact ofItems_cons hkept hmore cs

theorem scanItems_fragments (hd : d ≤ depth) {ts : List String}
    (hts : ∀ t ∈ ts, Fragment depth t) {c : Cursor} {tail : List Char}
    (hc : c.rest = '[' :: ((",".intercalate ts).toList ++ ']' :: tail)) :
    let r := scanItems d (c.drop 1).skipBlanks
    (∃ p, r.2.1 = .closed p ∧ ∀ cs, Snapshot.ofItems (offerItems (.closed p) r.1) = .ok cs ↔
      List.Forall₂ Keeps ts cs) ∧ r.2.2.rest? = some tail := by
  intro r
  cases ts with
  | nil =>
    have he := rest_behind_bracket hc (by decide)
    have hr : r = ([], .closed ((c.drop 1).skipBlanks.drop 1).place,
        behind (c.drop 1).skipBlanks 1) := by
      simp [r, scanItems, he]
    rw [hr]
    exact ⟨⟨_, rfl, ofItems_nil⟩, rest?_behind [']'] he (List.cons_ne_nil _ _)⟩
  | cons t ts =>
    obtain ⟨x, rest, ht, hblank, hbracket⟩ := (hts t List.mem_cons_self).starts
    rw [toList_commas] at hc
    have he := rest_behind_bracket (hc.trans (by rw [ht]; rfl)) hblank
    have hr : r = scanItem d (c.drop 1).skipBlanks := by
      simp [r, scanItems, he]
    rw [hr]
    exact scanItem_fragments hd t ts hts (he.trans (by rw [ht]; rfl))

/-- A list of fragments is one, and kept as a list of what is kept of them. -/
theorem list {ts : List String} (hts : ∀ t ∈ ts, Fragment (depth + 1) t)
    (hdepth : depth < depthLimit) :
    Fragment depth ("[" ++ ",".intercalate ts ++ "]") ∧
      ∀ s, Keeps ("[" ++ ",".intercalate ts ++ "]") s ↔
        ∃ cs, s = .seq cs ∧ List.Forall₂ Keeps ts cs := by
  refine of_scans
    ⟨'[', _, by rw [String.append_assoc, String.toList_append]; rfl, by decide, by decide⟩
    fun d hd inside c tail hc _ => ?_
  have hc : c.rest = '[' :: ((",".intercalate ts).toList ++ ']' :: tail) := by
    rw [hc]
    simp
  obtain ⟨hnode, hrest⟩ := scanValue_list d inside (c := c) (by rw [hc]; rfl)
  obtain ⟨⟨p, hp, hkept⟩, hend⟩ := scanItems_fragments (Nat.succ_le_succ hd) hts hc
  refine ⟨hrest.trans hend, fun s => ?_⟩
  rw [hnode, hp, Node.offer, if_neg (by omega), Snapshot.ofOffer]
  constructor
  · intro h
    obtain ⟨cs, hcs, h⟩ := bind_eq_ok.1 h
    exact ⟨cs, (pure_eq_ok.1 h).symm, (hkept cs).1 hcs⟩
  · rintro ⟨cs, rfl, hcs⟩
    exact bind_eq_ok.2 ⟨cs, (hkept cs).2 hcs, rfl⟩

/-- A member of an object as it is written. -/
def memberText (m : String × String) : String := Json.quoted m.1 ++ ":" ++ m.2

theorem toList_memberText {m : String × String} (hm : Fragment depth m.2) (tail : List Char) :
    ∃ x rest, m.2.toList ++ tail = x :: rest ∧ Cursor.isBlank x = false ∧
      (memberText m).toList ++ tail = (Json.quoted m.1).toList ++ ':' :: x :: rest := by
  obtain ⟨x, rest, hm, hblank, -⟩ := hm.starts
  refine ⟨x, rest ++ tail, by rw [hm]; rfl, hblank, ?_⟩
  simp [memberText, hm]

/-- A member begins with the quote of its key. -/
theorem exists_memberText (m : String × String) (tail : List Char) :
    ∃ others, (memberText m).toList ++ tail = '"' :: others := by
  rw [memberText, String.append_assoc, String.toList_append, toList_quoted]
  exact ⟨_, rfl⟩

/-- A key that was written is kept as its text. -/
theorem ofOffer_keyOffer {c : Cursor} {name : String} {rest : List Char}
    (hc : c.rest = (Json.quoted name).toList ++ rest) :
    Snapshot.ofOffer (keyOffer c) = .ok (.text name) := by
  simp [keyOffer, keyText, Cursor.take, hc, text_quoted, bind, Except.bind, pure, Except.pure,
    Snapshot.ofOffer, Snapshot.ofScalar]

/-- A member is kept in front of others that are. -/
theorem ofEntries_cons {p : Position} {m : Member Node} {rest : List (Member Node)} {name : String}
    {kept : Snapshot → Prop} {P : List (Snapshot × Snapshot) → Prop}
    (hkey : Snapshot.ofOffer (keyOffer m.key) = .ok (.text name))
    (hvalue : ∀ s, Snapshot.ofOffer m.value.offer = .ok s ↔ kept s)
    (hrest : ∀ es, Snapshot.ofEntries (offerMembers (.closed p) rest) = .ok es ↔ P es)
    (es : List (Snapshot × Snapshot)) :
    Snapshot.ofEntries (offerMembers (.closed p) (m :: rest)) = .ok es ↔
      ∃ e es', (e.1 = .text name ∧ kept e.2) ∧ P es' ∧ es = e :: es' := by
  obtain ⟨key, colon, value, next⟩ := m
  constructor
  · intro h
    obtain ⟨k, hk, h⟩ := bind_eq_ok.1 h
    obtain ⟨v, hv, h⟩ := bind_eq_ok.1 h
    obtain ⟨es', hes, h⟩ := bind_eq_ok.1 h
    obtain rfl := Except.ok.inj (hkey.symm.trans hk)
    exact ⟨_, es', ⟨rfl, (hvalue v).1 hv⟩, (hrest es').1 hes, (pure_eq_ok.1 h).symm⟩
  · rintro ⟨⟨k, v⟩, es', ⟨rfl, hv⟩, hes, rfl⟩
    exact bind_eq_ok.2 ⟨_, hkey, bind_eq_ok.2 ⟨v, (hvalue v).2 hv,
      bind_eq_ok.2 ⟨es', (hrest es').2 hes, rfl⟩⟩⟩

/-- A member of an object is kept as an entry under its name. -/
def MemberKept (m : String × String) (e : Snapshot × Snapshot) : Prop :=
  e.1 = .text m.1 ∧ Keeps m.2 e.2

theorem ofEntries_nil {p : Position} (es : List (Snapshot × Snapshot)) :
    Snapshot.ofEntries (offerMembers (.closed p) []) = .ok es ↔ List.Forall₂ MemberKept [] es := by
  rw [List.forall₂_nil_left_iff]
  exact ⟨fun h => (Except.ok.inj h).symm, fun h => congrArg _ h.symm⟩

/-- The members of an object are cut one by one up to its brace, and kept if each value is. -/
theorem scanMember_fragments (hd : d ≤ depth) : ∀ (m : String × String)
    (ms : List (String × String)) {c : Cursor} {tail : List Char},
    (∀ n ∈ m :: ms, Fragment depth n.2) →
    c.rest = (memberText m).toList ++
        (((ms.map memberText).flatMap fun t => ',' :: t.toList) ++ '\x7d' :: tail) →
      (∃ p, (scanMember d c).2.1 = .closed p ∧ ∀ es,
        Snapshot.ofEntries (offerMembers (.closed p) (scanMember d c).1) = .ok es ↔
          List.Forall₂ MemberKept (m :: ms) es) ∧
      (scanMember d c).2.2.rest? = some tail
  | m, [], c, tail, hms, hc => by
    have hm := hms m List.mem_cons_self
    obtain ⟨x, rest, hvalue, hblank, htext⟩ := toList_memberText hm ('\x7d' :: tail)
    rw [List.map_nil, List.flatMap_nil, List.nil_append, htext] at hc
    have hscans : ∀ v : Cursor, v.rest = x :: rest → _ := fun v hv =>
      hm.scans d hd (some .expectedObjectCommaOrEnd) v _ (hv.trans hvalue.symm)
        (ends_bracket (.inr (.inr rfl)) tail)
    obtain ⟨v, hv, ⟨colon, next, hmembers⟩, ⟨p, hp⟩, hend⟩ :=
      scanMember_last hc hblank fun v hv => (hscans v hv).1
    refine ⟨⟨p, hp, fun es => ?_⟩, hend⟩
    rw [hmembers, List.forall₂_cons_left_iff]
    exact ofEntries_cons (ofOffer_keyOffer hc) (hscans v hv).2 ofEntries_nil es
  | m, n :: ms, c, tail, hms, hc => by
    obtain ⟨hm, hms⟩ := List.forall_mem_cons.1 hms
    obtain ⟨others, hn⟩ := exists_memberText n
      (((ms.map memberText).flatMap fun t => ',' :: t.toList) ++ '\x7d' :: tail)
    have hmore : ((((n :: ms).map memberText).flatMap fun t => ',' :: t.toList) ++
        '\x7d' :: tail) = ',' :: '"' :: others := by
      rw [← hn, List.map_cons, List.flatMap_cons, List.append_assoc]
      rfl
    obtain ⟨x, rest, hvalue, hblank, htext⟩ := toList_memberText hm (',' :: '"' :: others)
    rw [hmore, htext] at hc
    have hscans : ∀ v : Cursor, v.rest = x :: rest → _ := fun v hv =>
      hm.scans d hd (some .expectedObjectCommaOrEnd) v _ (hv.trans hvalue.symm)
        (ends_bracket (.inl rfl) _)
    obtain ⟨v, e, hv, he, ⟨colon, next, hmembers⟩, hending, hbehind⟩ :=
      scanMember_more hc hblank fun v hv => (hscans v hv).1
    obtain ⟨⟨p, hp, hkept⟩, hend⟩ := scanMember_fragments hd n ms hms (he.trans hn.symm)
    refine ⟨⟨p, hending.trans hp, fun es => ?_⟩, hbehind.trans hend⟩
    rw [hmembers, List.forall₂_cons_left_iff]
    exact ofEntries_cons (ofOffer_keyOffer hc) (hscans v hv).2 hkept es

theorem scanMembers_fragments (hd : d ≤ depth) {ms : List (String × String)}
    (hms : ∀ m ∈ ms, Fragment depth m.2) {c : Cursor} {tail : List Char}
    (hc : c.rest =
      '\x7b' :: ((",".intercalate (ms.map memberText)).toList ++ '\x7d' :: tail)) :
    let r := scanMembers d (c.drop 1).skipBlanks
    (∃ p, r.2.1 = .closed p ∧ ∀ es,
      Snapshot.ofEntries (offerMembers (.closed p) r.1) = .ok es ↔
        List.Forall₂ MemberKept ms es) ∧ r.2.2.rest? = some tail := by
  intro r
  cases ms with
  | nil =>
    have he := rest_behind_bracket hc (by decide)
    have hr : r = ([], .closed ((c.drop 1).skipBlanks.drop 1).place,
        behind (c.drop 1).skipBlanks 1) := by
      simp [r, scanMembers, he]
    rw [hr]
    exact ⟨⟨_, rfl, ofEntries_nil⟩, rest?_behind ['\x7d'] he (List.cons_ne_nil _ _)⟩
  | cons m ms =>
    obtain ⟨others, hm⟩ := exists_memberText m
      (((ms.map memberText).flatMap fun t => ',' :: t.toList) ++ '\x7d' :: tail)
    rw [List.map_cons, toList_commas, List.append_assoc, hm] at hc
    have he := rest_behind_bracket hc (by decide)
    have hr : r = scanMember d (c.drop 1).skipBlanks := by
      simp [r, scanMembers, he]
    rw [hr]
    exact scanMember_fragments hd m ms hms (he.trans hm.symm)

/-- The text of an object. -/
def objectText (ms : List (String × String)) : String :=
  "\x7b" ++ ",".intercalate (ms.map memberText) ++ "\x7d"

/-- An object of fragments is one, and kept as a map of what is kept of them. -/
theorem object {ms : List (String × String)} (hms : ∀ m ∈ ms, Fragment (depth + 1) m.2)
    (hdepth : depth < depthLimit) :
    Fragment depth (objectText ms) ∧
      ∀ s, Keeps (objectText ms) s ↔ ∃ es, s = .map es ∧ List.Forall₂ MemberKept ms es := by
  have htext : (objectText ms).toList =
      '\x7b' :: ((",".intercalate (ms.map memberText)).toList ++ ['\x7d']) := by
    simp [objectText]
  refine of_scans ⟨'\x7b', _, htext, by decide, by decide⟩ fun d hd inside c tail hc _ => ?_
  have hc : c.rest =
      '\x7b' :: ((",".intercalate (ms.map memberText)).toList ++ '\x7d' :: tail) := by
    rw [hc, htext]
    simp
  obtain ⟨hnode, hrest⟩ := scanValue_object d inside (c := c) (by rw [hc]; rfl)
  obtain ⟨⟨p, hp, hkept⟩, hend⟩ := scanMembers_fragments (Nat.succ_le_succ hd) hms hc
  refine ⟨hrest.trans hend, fun s => ?_⟩
  rw [hnode, hp, Node.offer, if_neg (by omega), Snapshot.ofOffer]
  constructor
  · intro h
    obtain ⟨es, hes, h⟩ := bind_eq_ok.1 h
    exact ⟨es, (pure_eq_ok.1 h).symm, (hkept es).1 hes⟩
  · rintro ⟨es, rfl, hes⟩
    exact bind_eq_ok.2 ⟨es, (hkept es).2 hes, rfl⟩

end Fragment

end FlatUnion.Json
