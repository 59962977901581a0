import FlatUnion.Code.Item

/-!
# Sound code

Something can be asked of the texts of all tokens of code (`Spelling`), then code is sound (`Sound`)
if they are as it is asked. What is printed of sound code is put together from sound texts
(`Composes`).

Delimiters come in pairs in code because a token is either a group, or its text is no delimiter.
Unless something else is said, this is what is asked of all tokens (`wellSpelled`), and that names
begin like names. So a name is never taken for a mark between other tokens.

The main statement is `sound_of_tokens?` : the tokens of a text are sound.
-/

namespace FlatUnion.Code

/-! ## Soundness -/

/-- The texts that open and close groups. -/
def delimiterTexts : List String := ["(", ")", "[", "]", "\x7b", "\x7d"]

/-- A text that is no delimiter. -/
def IsLeaf (text : String) : Prop := text ∉ delimiterTexts

/-- A text that begins like a name. -/
def IsWord (text : String) : Prop := text.toList.head?.any Char.startsIdentifier = true

instance (text : String) : Decidable (IsLeaf text) := inferInstanceAs (Decidable (_ ∉ _))

instance (text : String) : Decidable (IsWord text) := inferInstanceAs (Decidable (_ = _))

/-- Things that consist of tokens. -/
class Soundness (α : Type) where
  /-- All texts are as it is asked of them. -/
  Sound : α → Prop

open Soundness (Sound)

/-! ## Lists and pairs -/

section Instances

variable {α β : Type} [Soundness α] [Soundness β]

instance : Soundness Unit := ⟨fun _ => True⟩

instance : Soundness Bool := ⟨fun _ => True⟩

instance : Soundness Delimiter := ⟨fun _ => True⟩

instance : Soundness (α × β) := ⟨fun x => Sound x.1 ∧ Sound x.2⟩

instance : Soundness (List α) := ⟨fun xs => ∀ x ∈ xs, Sound x⟩

instance [∀ x : α, Decidable (Sound x)] (xs : List α) : Decidable (Sound xs) :=
  inferInstanceAs (Decidable (∀ x ∈ xs, Sound x))

instance : Soundness (Option α) := ⟨fun x => ∀ y ∈ x, Sound y⟩

@[simp]
theorem sound_nil : Sound ([] : List α) := nofun

@[simp]
theorem sound_cons {x : α} {xs : List α} : Sound (x :: xs) ↔ Sound x ∧ Sound xs :=
  List.forall_mem_cons

@[simp]
theorem sound_append {xs ys : List α} : Sound (xs ++ ys) ↔ Sound xs ∧ Sound ys :=
  List.forall_mem_append

@[simp]
theorem sound_reverse {xs : List α} : Sound xs.reverse ↔ Sound xs := by
  simp [Sound]

theorem sound_of_subset {xs ys : List α} (h : ys ⊆ xs) (hx : Sound xs) : Sound ys :=
  fun y hy => hx y (h hy)

theorem sound_take {xs : List α} (h : Sound xs) (n : Nat) : Sound (xs.take n) :=
  sound_of_subset (xs.take_subset n) h

theorem sound_drop {xs : List α} (h : Sound xs) (n : Nat) : Sound (xs.drop n) :=
  sound_of_subset (xs.drop_subset n) h

theorem sound_flatten {xs : List (List α)} : Sound xs.flatten ↔ Sound xs :=
  List.forall_mem_flatten

theorem sound_map {γ : Type} {f : γ → α} {xs : List γ} :
    Sound (xs.map f) ↔ ∀ x ∈ xs, Sound (f x) :=
  List.forall_mem_map

@[simp]
theorem sound_pair {x : α × β} : Sound x ↔ Sound x.1 ∧ Sound x.2 := Iff.rfl

@[simp]
theorem sound_unit (x : Unit) : Sound x := trivial

@[simp]
theorem sound_bool (b : Bool) : Sound b := trivial

@[simp]
theorem sound_delimiter (d : Delimiter) : Sound d := trivial

@[simp]
theorem sound_none : Sound (none : Option α) := nofun

@[simp]
theorem sound_some {x : α} : Sound (some x) ↔ Sound x := by
  simp [Sound]

end Instances

/-! ## What is asked of texts -/

/-- What is asked of the texts of tokens. It can be anything that is true of the marks and words
which parsers add by themselves. -/
class Spelling where
  /-- What is asked of names. -/
  Name : String → Prop
  /-- What is asked of marks and literals. -/
  Leaf : String → Prop
  const : Name "const"
  mark : ∀ c, IsLeaf (String.singleton c) → Leaf (String.singleton c)

/-- Names begin like names, and nothing but a group has a delimiter. -/
instance wellSpelled : Spelling where
  Name := IsWord
  Leaf := IsLeaf
  const := by decide
  mark _ h := h

section Spelling

variable [Spelling]

mutual

def Token.IsSound : Token → Prop
  | .ident name | .lifetime name => Spelling.Name name
  | .punct c _ => Spelling.Leaf (String.singleton c)
  | .literal text => Spelling.Leaf text
  | .group _ tokens => tokensSound tokens

def tokensSound : List Token → Prop
  | [] => True
  | t :: rest => t.IsSound ∧ tokensSound rest

end

mutual

def Piece.IsSound : Piece → Prop
  | .token t => t.IsSound
  | .lifetime name => Spelling.Name name
  | .group _ inside => piecesSound inside
  | .path _ _ segments => segmentsSound segments

def piecesSound : List Piece → Prop
  | [] => True
  | p :: rest => p.IsSound ∧ piecesSound rest

def segmentsSound : List (String × List Piece) → Prop
  | [] => True
  | (name, arguments) :: rest => Spelling.Name name ∧ piecesSound arguments ∧ segmentsSound rest

end

/-- Names are the only texts that code is made of. -/
instance : Soundness String := ⟨Spelling.Name⟩

instance : Soundness Token := ⟨Token.IsSound⟩

instance : Soundness Piece := ⟨Piece.IsSound⟩

instance : Soundness AttributeBody where
  Sound
    | .nothing => True
    | .list _ tokens => Sound tokens
    | .value code => Sound code

instance : Soundness Attribute := ⟨fun a => Sound a.path ∧ Sound a.body⟩

instance : Soundness Param :=
  ⟨fun p => Sound p.name ∧ Sound p.attributes ∧ Sound p.bounds ∧ Sound p.default⟩

instance : Soundness Generics := ⟨fun g => Sound g.params⟩

instance : Soundness WhereClause := ⟨fun w => Sound w.predicates⟩

instance : Soundness Field := ⟨fun f => Sound f.name ∧ Sound f.type⟩

instance : Soundness Variant := ⟨fun v => Sound v.name ∧ Sound v.fields⟩

instance : Soundness ItemBody where
  Sound
    | .enum variants => Sound variants
    | _ => True

instance : Soundness Item where
  Sound item :=
    Sound item.attributes ∧ Sound item.name ∧ Sound item.generics ∧ Sound item.clause ∧
      Sound item.body

/-! ## Tokens and pieces -/

theorem tokensSound_iff {ts : List Token} : tokensSound ts ↔ Sound ts := by
  induction ts with
  | nil => simp [tokensSound]
  | cons t rest ih =>
    rw [tokensSound, ih, sound_cons]
    rfl

theorem piecesSound_iff {ps : List Piece} : piecesSound ps ↔ Sound ps := by
  induction ps with
  | nil => simp [piecesSound]
  | cons p rest ih =>
    rw [piecesSound, ih, sound_cons]
    rfl

theorem segmentsSound_iff {segments : List (String × List Piece)} :
    segmentsSound segments ↔ Sound segments := by
  induction segments with
  | nil => simp [segmentsSound]
  | cons s rest ih =>
    rw [segmentsSound, ih, sound_cons, piecesSound_iff, ← and_assoc]
    rfl

namespace Token

variable {name text : String} {c : Char} {joint : Bool} {d : Delimiter} {ts : List Token}

@[simp]
theorem sound_ident : Sound (ident name) ↔ Sound name := Iff.rfl

@[simp]
theorem sound_lifetime : Sound (lifetime name) ↔ Sound name := Iff.rfl

@[simp]
theorem sound_punct : Sound (punct c joint) ↔ Spelling.Leaf (String.singleton c) := Iff.rfl

@[simp]
theorem sound_literal : Sound (literal text) ↔ Spelling.Leaf text := Iff.rfl

@[simp]
theorem sound_group : Sound (group d ts) ↔ Sound ts := tokensSound_iff

end Token

namespace Piece

variable {name : String} {t : Token} {d : Delimiter} {role : PathRole} {leading : Bool}
  {inside : List Piece} {segments : List (String × List Piece)}

@[simp]
theorem sound_token : Sound (token t) ↔ Sound t := Iff.rfl

@[simp]
theorem sound_lifetime : Sound (lifetime name) ↔ Sound name := Iff.rfl

@[simp]
theorem sound_group : Sound (group d inside) ↔ Sound inside := piecesSound_iff

@[simp]
theorem sound_path : Sound (path role leading segments) ↔ Sound segments := segmentsSound_iff

end Piece

/-! ## Parts of items -/

@[simp]
theorem sound_nothing : Sound AttributeBody.nothing := trivial

@[simp]
theorem sound_list {d : Delimiter} {ts : List Token} :
    Sound (AttributeBody.list d ts) ↔ Sound ts := Iff.rfl

@[simp]
theorem sound_value {code : List Piece} : Sound (AttributeBody.value code) ↔ Sound code := Iff.rfl

@[simp]
theorem sound_attribute {a : Attribute} : Sound a ↔ Sound a.path ∧ Sound a.body := Iff.rfl

@[simp]
theorem sound_param {p : Param} :
    Sound p ↔ Sound p.name ∧ Sound p.attributes ∧ Sound p.bounds ∧ Sound p.default := Iff.rfl

@[simp]
theorem sound_generics {g : Generics} : Sound g ↔ Sound g.params := Iff.rfl

@[simp]
theorem sound_whereClause {w : WhereClause} : Sound w ↔ Sound w.predicates := Iff.rfl

@[simp]
theorem sound_field {f : Field} : Sound f ↔ Sound f.name ∧ Sound f.type := Iff.rfl

@[simp]
theorem sound_variant {v : Variant} : Sound v ↔ Sound v.name ∧ Sound v.fields := Iff.rfl

@[simp]
theorem sound_enum {variants : List Variant} :
    Sound (ItemBody.enum variants) ↔ Sound variants := Iff.rfl

@[simp]
theorem sound_struct : Sound ItemBody.struct := trivial

@[simp]
theorem sound_union : Sound ItemBody.union := trivial

@[simp]
theorem sound_item {item : Item} :
    Sound item ↔ Sound item.attributes ∧ Sound item.name ∧ Sound item.generics ∧
      Sound item.clause ∧ Sound item.body := Iff.rfl

/-! ## Printed code -/

/-- What is true of the texts of sound tokens and of what stands between them, and of code that is
put together from code of which it is true. -/
structure Composes (P : Printed → Prop) : Prop where
  nil : P []
  name {text : String} : Spelling.Name text → P [text]
  leaf {text : String} : Spelling.Leaf text → P [text]
  lifetime (name : String) : P [lifetimeText name]
  separator : P pathSeparator
  append {p q : Printed} : P p → P q → P (p ++ q)
  enclosed {p : Printed} (d : Delimiter) : P p → P (Printed.enclosed d p)

namespace Composes

variable {P : Printed → Prop} (hP : Composes P)
include hP

mutual

theorem of_token : ∀ {t : Token}, t.IsSound → P t.printed
  | .ident _, h => hP.name h
  | .punct _ _, h | .literal _, h => hP.leaf h
  | .lifetime name, _ => hP.lifetime name
  | .group d _, h => hP.enclosed d (of_tokens h)

theorem of_tokens : ∀ {ts : List Token}, tokensSound ts → P (printTokens ts)
  | [], _ => hP.nil
  | _ :: _, h => hP.append (of_token h.1) (of_tokens h.2)

end

mutual

theorem of_piece : ∀ {p : Piece}, p.IsSound → P p.printed
  | .token _, h => hP.of_token h
  | .lifetime name, _ => hP.lifetime name
  | .group d _, h => hP.enclosed d (of_pieces h)
  | .path _ leading _, h => by
    have hcolons : P (if leading then pathSeparator else []) := by
      cases leading
      · exact hP.nil
      · exact hP.separator
    exact hP.append hcolons (of_segments h)

theorem of_pieces : ∀ {ps : List Piece}, piecesSound ps → P (printPieces ps)
  | [], _ => hP.nil
  | _ :: _, h => hP.append (of_piece h.1) (of_pieces h.2)

theorem of_segments : ∀ {segments : List (String × List Piece)}, segmentsSound segments →
    P (printSegments segments)
  | [], _ => hP.nil
  | [(_, _)], h => hP.append (hP.name h.1) (of_pieces h.2.1)
  | (_, _) :: s :: rest, h =>
    hP.append (hP.append (hP.append (hP.name h.1) (of_pieces h.2.1)) hP.separator)
      (of_segments (show segmentsSound (s :: rest) from h.2.2))

end

/-- What composes is true of all sound code. -/
theorem pieces {ps : List Piece} (h : Sound ps) : P (printPieces ps) :=
  hP.of_pieces (piecesSound_iff.2 h)

end Composes

end Spelling

/-! ## Texts -/

instance (s : String) : Decidable (Sound s) := inferInstanceAs (Decidable (IsWord s))

@[simp]
theorem name_wellSpelled {name : String} : Spelling.Name name ↔ IsWord name := Iff.rfl

@[simp]
theorem leaf_wellSpelled {text : String} : Spelling.Leaf text ↔ IsLeaf text := Iff.rfl

/-- A text that begins like a name is not one that does not. -/
theorem IsWord.ne {text mark : String} (h : IsWord text) (hmark : ¬ IsWord mark) : text ≠ mark :=
  fun heq => hmark (heq ▸ h)

theorem IsWord.isLeaf {text : String} (h : IsWord text) : IsLeaf text := by
  have hnot : ∀ d ∈ delimiterTexts, ¬ IsWord d := by decide +kernel
  exact fun hmem => hnot text hmem h

/-- A text that begins with a character that is no delimiter is none. -/
theorem isLeaf_ofList {c : Char} {cs : List Char} (ho : opened? c = none)
    (hc : closed? c = none) : IsLeaf (String.ofList (c :: cs)) := by
  have hdelimiters : ∀ d ∈ delimiterTexts,
      d.toList.head?.all fun b => (opened? b).isSome || (closed? b).isSome := by decide
  intro hmem
  have h := hdelimiters _ hmem
  rw [String.toList_ofList] at h
  simp [ho, hc] at h

/-- The front of a text that begins with no delimiter is none. -/
theorem isLeaf_take {c : Char} {rest : List Char} (ho : opened? c = none)
    (hc : closed? c = none) : ∀ n, IsLeaf (String.ofList ((c :: rest).take n))
  | 0 => show IsLeaf "" by decide
  | _ + 1 => isLeaf_ofList ho hc

/-! ## Tokens of a text -/

theorem isWord_of_nameLength {cs : List Char} {n : Nat} (h : nameLength cs = some n) :
    IsWord (String.ofList (cs.take n)) := by
  cases cs with
  | nil => nomatch h
  | cons c rest =>
    simp only [nameLength, Option.ite_none_right_eq_some, Option.some.injEq] at h
    obtain ⟨hc, rfl⟩ := h
    simpa [IsWord, Nat.add_comm 1] using hc

theorem isWord_of_anyNameLength {cs : List Char} {n : Nat} (h : anyNameLength cs = some n) :
    IsWord (String.ofList (cs.take n)) := by
  unfold anyNameLength at h
  split at h
  · obtain ⟨m, -, h⟩ := Option.bind_eq_some_iff.1 h
    simp only [Option.ite_none_left_eq_some, Option.some.injEq] at h
    obtain ⟨-, rfl⟩ := h
    have hr : Char.startsIdentifier 'r' = true := by decide
    simpa [IsWord] using hr
  · exact isWord_of_nameLength h

theorem sound_of_lifetime? {cs : List Char} {t : Token} {n : Nat}
    (h : lifetime? cs = some (t, n)) : Sound t := by
  obtain ⟨m, hm, h⟩ := Option.bind_eq_some_iff.1 h
  have ht : t = .lifetime (String.ofList (cs.take m)) := by
    split at h
    · nomatch h
    · split at h
      · exact (Prod.mk.inj (Option.some.inj h)).1.symm
      · nomatch h
    · exact (Prod.mk.inj (Option.some.inj h)).1.symm
  exact ht ▸ isWord_of_anyNameLength hm

theorem sound_of_leaf? {c : Char} {rest : List Char} (ho : opened? c = none)
    (hc : closed? c = none) {t : Token} {n : Nat} (h : leaf? (c :: rest) = some (t, n)) :
    Sound t := by
  rw [leaf?] at h
  split at h
  · obtain ⟨rfl, -⟩ := Prod.mk.inj (Option.some.inj h)
    exact isLeaf_take ho hc _
  split at h
  · split at h
    · exact sound_of_lifetime? h
    · obtain ⟨rfl, -⟩ := Prod.mk.inj (Option.some.inj h)
      exact isLeaf_ofList ho hc
  · obtain ⟨m, hm, heq⟩ := Option.map_eq_some_iff.1 h
    obtain ⟨rfl, -⟩ := Prod.mk.inj heq
    rw [identLength] at hm
    split at hm
    · exact absurd hm (Option.some_ne_none _).symm
    · exact isWord_of_anyNameLength hm

theorem isLeaf_quoted (s : String) : IsLeaf (quoted s) := by
  have hquoted : quoted s =
      String.ofList ('"' :: (String.join (s.toList.map Char.quoted) ++ "\"").toList) := by
    apply String.toList_injective
    simp [quoted]
  rw [hquoted]
  exact isLeaf_ofList rfl rfl

/-- The attribute of a documenting comment holds its text between quotes. -/
theorem sound_documentation (inner : Bool) (text : List Char) :
    Sound (documentation inner text) := by
  have hdoc : Sound "doc" := by decide
  have hmarks : IsLeaf "#" ∧ IsLeaf "!" ∧ IsLeaf "=" := by decide
  cases inner <;> simp [documentation, isLeaf_quoted, hdoc, hmarks]

theorem sound_of_documentation? {cs : List Char} {ts : List Token} {n : Nat}
    (h : documentation? cs = some (ts, n)) : Sound ts := by
  have hline : ∀ {inner text k},
      (if returnsPaired text then some (documentation inner text, k) else none) = some (ts, n) →
        Sound ts := by
    intro inner text k h
    simp only [Option.ite_none_right_eq_some, Option.some.injEq, Prod.mk.injEq] at h
    exact h.2.1 ▸ sound_documentation inner text
  have hblock : ∀ {inner} {text : Nat → List Char},
      ((blockLength 0 cs).bind fun k =>
        if returnsPaired (text k) then some (documentation inner (text k), k) else none) =
          some (ts, n) → Sound ts := by
    intro inner text h
    obtain ⟨k, -, h⟩ := Option.bind_eq_some_iff.1 h
    exact hline h
  unfold documentation? at h
  dsimp only at h
  split at h
  · exact hline h
  split at h
  · exact hblock h
  split at h
  · split at h
    · nomatch h
    · exact hline h
  split at h
  · split at h
    · nomatch h
    · exact hblock h
  · nomatch h

/-- The tokens that are taken off the front of a text are sound if those before them are. -/
theorem sound_of_tokensFrom {outer : List (Delimiter × List Token)} {done : List Token}
    {cs : List Char} {ts : List Token} (houter : Sound outer) (hdone : Sound done)
    (h : tokensFrom outer done cs = some ts) : Sound ts := by
  fun_induction tokensFrom outer done cs with
  | case1 =>
    obtain rfl := Option.some.inj h
    exact sound_reverse.2 hdone
  | case3 _ _ _ _ _ _ ih => exact ih houter hdone h
  | case4 _ _ _ _ _ ts _ hts ih =>
    exact ih houter (sound_append.2 ⟨sound_reverse.2 (sound_of_documentation? hts), hdone⟩) h
  | case5 _ _ _ _ _ _ d _ ih => exact ih (by simp [houter, hdone]) sound_nil h
  | case6 _ _ _ _ _ _ d before outer _ ih =>
    simp only [sound_cons, sound_pair] at houter
    refine ih houter.2 ?_ (by simpa using h)
    simp [hdone, houter.1.2]
  | case9 _ _ _ _ _ _ hc ho t _ ht ih =>
    exact ih houter (sound_cons.2 ⟨sound_of_leaf? ho hc ht, hdone⟩) h
  | _ => nomatch h

/-- The tokens of a text are sound. -/
theorem sound_of_tokens? {text : String} {ts : List Token} (h : tokens? text = some ts) :
    Sound ts := by
  rw [tokens?] at h
  split at h <;> exact sound_of_tokensFrom sound_nil sound_nil h

end FlatUnion.Code
