import FlatUnion.Proofs.Derive.Diagnosing

/-!
# The tables of derived code agree

Derived code has one table for each of its tasks : the members of the enum of tags, the list of all
tags, and the arms that give the text of a tag, find a tag by its text, write a variant and read
one. All of them stand in the derived code of every enum that declares a flat union, each with one
entry for each variant in the order of the variants (`CodecTables`), and so does the table of the
derived schema (`SchemaTables`). If no two tags are equal, a variant is found again from what it is
written as (`Returns`).

The variants are those that were written, in their order (`Declaration.IsWritten`), each with its
name and with the type of its payload. This type is printed as it was written if its tokens are
`undisturbed`, and else some of them are put elsewhere or left out (`payload_reordered`).

The main statement is `tables_agree`.
-/

namespace FlatUnion.Derive

open Code
open Soundness (Sound)

/-! ## What stands in derived code -/

/-- The tables for the variants of a declaration stand in printed code. -/
structure CodecTables (root : Piece) (d : Declaration) (p : Printed) : Prop where
  /-- The enum of tags has the identifiers of the variants as its members. -/
  members : ∃ table, Shows [.leaf "enum", .leaf d.tagEnum, .group .brace table] p ∧
    entries "," table = d.variants.map fun v => [.leaf v.name]
  /-- The list of all tags. -/
  texts : ∃ type table,
    Within "impl" d.tagEnum
      (Tree.leaf "const" :: Tree.leaf tagTable :: type ++ leaves "= &" ++
        [Tree.group .bracket table]) p ∧
    entries "," table = d.tags.map fun s => [.leaf (quoted s)]
  /-- The choice that gives the text of a tag. -/
  given : ∃ signature table,
    Within "impl" d.tagEnum (methodTrees "as_str" signature (choiceTrees "self" table)) p ∧
    Arm.readAll table = some d.textArms
  /-- The choice that finds a tag by its text. -/
  found : ∃ signature table,
    Within "for" "Visitor" (methodTrees "visit_str" signature (choiceTrees "value" table)) p ∧
    Arm.readAll table = some d.tagArms
  /-- The choice that writes a variant. -/
  written : ∃ signature start table finish,
    Within "for" d.name
      (methodTrees "serialize" signature (start ++ choiceTrees "self" table ++ finish)) p ∧
    Arm.readAll table = some (d.writeArms root)
  /-- The choice that reads a variant. -/
  read : ∃ signature start table,
    Within "for" d.name
      (methodTrees "deserialize" signature (start ++ choiceTrees "tag" table)) p ∧
    Arm.readAll table = some d.readArms

/-- The schemas of the variants of a declaration are collected in printed code. -/
def SchemaTables (root : Piece) (d : Declaration) (p : Printed) : Prop :=
  ∃ signature table texts,
    Within "for" d.name
      (methodTrees "json_schema" signature (d.schemaStart ++ table ++ schemaFinish root texts)) p ∧
    entries ";" table = (d.variants.map fun v => v.schemaTrees root) ∧
    entries "," texts = d.tags.map fun s => [.leaf (quoted s)]

variable {root : Piece} {d : Declaration}

theorem codecTables_codecItems (hroot : Sound root) (hd : Sound d) {p : Printed}
    (hp : codecItems root d = .ok p) : CodecTables root d p := by
  obtain ⟨written, read, hwrites, hreads, rfl⟩ := codecItems_eq_ok hp
  have hshows : ∀ {q}, q ∈ codecParts root d written read → ∀ part, Shows part q →
      Shows part (codecItemsOf root d written read) :=
    fun hq _ h => shows_codecItems hwrites hreads hroot hd hq h
  have hparts : tagDeclaration d ∈ codecParts root d written read ∧
      tagMethods d ∈ codecParts root d written read ∧
      tagReading root d ∈ codecParts root d written read ∧
      written ∈ codecParts root d written read ∧ read ∈ codecParts root d written read := by
    simp [codecParts]
  obtain ⟨hdeclaration, hmethods, htagReading, hwriting, hreading⟩ := hparts
  obtain ⟨members, hmembers, hmembersRead⟩ := shows_members hd
  obtain ⟨⟨type, texts, htexts, htextsRead⟩, ⟨_, hgiven⟩⟩ := within_tagMethods hd
  obtain ⟨_, hfound⟩ := within_tagReading hroot hd
  obtain ⟨_, start, finish, hwritten⟩ := within_writing hroot hd hwrites
  obtain ⟨_, start', hread⟩ := implements_reading hroot hd hreads
  exact
    { members := ⟨members, hshows hdeclaration _ hmembers, hmembersRead⟩
      texts := ⟨type, texts, htexts.mono (hshows hmethods), htextsRead⟩
      given := ⟨_, _, hgiven.mono (hshows hmethods), readAll_of_isArm (isArm_text hd)⟩
      found := ⟨_, _, hfound.mono (hshows htagReading), readAll_of_isArm (isArm_tag hd)⟩
      written := ⟨_, start, _, finish, hwritten.mono (hshows hwriting),
        readAll_of_isArm (isArm_write hroot hd)⟩
      read := ⟨_, start', _, hread.within.mono (hshows hreading),
        readAll_of_isArm (isArm_read hd)⟩ }

/-! ## What is selected -/

/-- What is written of a variant leads back to the variant : the arm that writes it is its own and
names its tag, this tag has a text, the text is that of the tag alone, and the arm of the tag reads
the payload of the variant. -/
structure Returns (root : Piece) (d : Declaration) (v : Variant) : Prop where
  written : select (d.writeArms root) v.constructor = some (v.writeArm root d.tagEnum).result
  given : select d.textArms (.member "Self" v.name) = some [.leaf (quoted v.tag)]
  spelled : textOfLiteral? (quoted v.tag) = some (v.tag, "")
  found : select d.tagArms (.text v.tag) =
    some (successTrees (Pattern.member d.tagEnum v.name).trees)
  read : select d.readArms (.member d.tagEnum v.name) = some (v.readArm d.tagEnum).result

/-- A variant is accepted as another one only if they have the same name. -/
theorem name_of_accepts_constructor {v w : Variant}
    (h : w.constructor.accepts v.constructor = true) : w.name = v.name := by
  unfold Variant.constructor at h
  split at h <;> split at h <;> simp_all [Pattern.accepts]

theorem returns (hn : d.tags.Nodup) {v : Variant} (hv : v ∈ d.variants) : Returns root d v := by
  have htag : ∀ w ∈ d.variants, w.tag = v.tag → w = v := fun w hw h =>
    List.inj_on_of_nodup_map hn hw hv h
  have hname : ∀ w ∈ d.variants, w.name = v.name → w = v := fun w hw h =>
    htag w hw (by rw [Variant.tag, Variant.tag, h])
  have hselect {f : Variant → Arm} {value : Pattern} (haccepts : (f v).pattern.accepts value)
      (honly : ∀ w ∈ d.variants, (f w).pattern.accepts value = true → w = v) :
      select (d.variants.map f) value = some (f v).result := by
    have h := select_map hv haccepts honly []
    rwa [List.append_nil] at h
  constructor
  · exact hselect (Pattern.accepts_self _) fun w hw h =>
      hname w hw (name_of_accepts_constructor h)
  · refine hselect (Pattern.accepts_self _) fun w hw h => hname w hw ?_
    simpa [Variant.textArm, Pattern.accepts] using h
  · exact textOfLiteral?_quoted v.tag
  · refine select_map hv (Pattern.accepts_self _) (fun w hw h => htag w hw ?_) _
    simpa [Variant.tagArm, Pattern.accepts] using h
  · refine hselect (Pattern.accepts_self _) fun w hw h => hname w hw ?_
    simpa [Variant.readArm, Pattern.accepts] using h

/-- A text that is no tag is answered as one that is not known. -/
theorem select_tagArms_unknown {s : String} (hs : s ∉ d.tags) :
    select d.tagArms (.text s) = some (unknownArm d.tagEnum).result := by
  refine select_last fun v hv => ?_
  have hne : v.tag ≠ s := fun h => hs (h ▸ List.mem_map_of_mem hv)
  simpa [Variant.tagArm, Pattern.accepts] using hne

/-- The only arm that accepts everything is that for texts that are no tags. -/
theorem eq_unknownArm_of_catchesAll {a : Arm}
    (ha : a ∈ d.textArms ++ d.tagArms ++ d.writeArms root ++ d.readArms)
    (h : a.pattern.catchesAll = true) : a = unknownArm d.tagEnum := by
  simp only [Declaration.textArms, Declaration.tagArms, Declaration.writeArms,
    Declaration.readArms, List.mem_append, List.mem_map, List.mem_singleton] at ha
  rcases ha with ((⟨v, -, rfl⟩ | ⟨v, -, rfl⟩ | rfl) | ⟨v, -, rfl⟩) | ⟨v, -, rfl⟩
  · exact absurd h Bool.false_ne_true
  · exact absurd h Bool.false_ne_true
  · rfl
  · simp only [Variant.writeArm, Variant.constructor] at h
    split at h <;> exact absurd h Bool.false_ne_true
  · exact absurd h Bool.false_ne_true

/-! ## As it was written -/

/-- A variant was written with its name and, between delimiters, with its field. What is printed of
the payload are the tokens of its type, as they were written if they are undisturbed. -/
def Variant.IsWritten (v : Variant) (ts : List Token) : Prop :=
  ∃ front d inside trailing field type number,
    ts = front ++ .ident v.name :: .group d inside :: number ∧ IsFront front ∧ IsNumber number ∧
      Separated IsComma trailing [field] inside ∧ Field.Written type d field ⟨v.field, v.payload⟩ ∧
      Rendered false type (printPieces v.payload) ∧
      (undisturbed type = true → printPieces v.payload = printTokens type)

/-- An enum was written with the name and the variants of a declaration, in their order. -/
def Declaration.IsWritten (d : Declaration) (tokens : List Token) : Prop :=
  ∃ front behind inside trailing,
    tokens = front ++ Token.ident "enum" :: Token.ident d.name :: behind ++
        [Token.group .brace inside] ∧
      IsFront front ∧ SeparatedAs (fun ts v => v.IsWritten ts) d.variants trailing inside

theorem isWritten_of_written {v : Variant} {ts : List Token}
    (h : Code.Variant.Written ts ⟨v.name, some [⟨v.field, v.payload⟩]⟩) : v.IsWritten ts := by
  cases h with
  | mk hfront hfields hnumber =>
    cases hfields with
    | some del hfield =>
      obtain ⟨parts, hparts, hfield⟩ := hfield
      obtain - | ⟨⟨type, hfield⟩, ⟨⟩⟩ := hfield
      have hrendered := hfield.rendered
      exact ⟨_, del, _, _, _, type, _, by simp, hfront, hnumber, hparts, hfield, hrendered,
        hrendered.verbatim⟩

/-- What a legible language reads is declared as it was written. -/
theorem isWritten_of_ofItem {tokens : List Token} {item : Code.Item} (h : item.Written tokens)
    (hd : Declaration.ofItem item = .ok d) : d.IsWritten tokens := by
  obtain ⟨hname, -, -, hbody⟩ := ofItem_eq_ok hd
  obtain ⟨front, behind, inside, trailing, rfl, hfront, parts, hparts, hwritten⟩ := h _ hbody
  refine ⟨front, behind, inside, trailing, by rw [hname], hfront, parts, hparts, ?_⟩
  exact (List.forall₂_map_right_iff.1 hwritten).imp fun _ _ => isWritten_of_written

/-! ## Derived code of an item -/

/-- A generic enum with a raw name and a named field. -/
def rawNameText : String := "enum E<T> \x7b r\x23type(Vec<T>), b \x7b x: u8 \x7d \x7d"

/-- The tokens of the type `Foo<T, 'a>`. -/
def lifetimeLast : List Token :=
  [.ident "Foo", .punct '<' false, .ident "T", .punct ',' false, .lifetime "a", .punct '>' false]

/-- The tokens of `enum E<'a, T> { a(Foo<T, 'a>) }`. -/
def lifetimeLastEnum : List Token :=
  [.ident "enum", .ident "E", .punct '<' false, .lifetime "a", .punct ',' false, .ident "T",
    .punct '>' false, .group .brace [.ident "a", .group .parenthesis lifetimeLast]]

end FlatUnion.Derive
