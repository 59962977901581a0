import Mathlib
import FlatUnion.Proofs.Code.Renderings

/-!
# Items as they were written

The variants of an enum are read as they were written, each from tokens of its own and in their
order (`Item.Written`). Attributes in front, who may see something, and the number behind a variant
are read over. The type of a field is what is printed of its tokens.

The main statement is `written_of_parseTokens` : what the grammar reads was written so.
-/

set_option mvcgen.warning false

namespace FlatUnion.Code

open Std.Do
open FlatUnion.Code.Parser

/-! ## What was written -/

/-- The attributes in front of something. -/
inductive IsAttributes : List Token → Prop
  | nil : IsAttributes []
  | cons (joint : Bool) (inside : List Token) {ts : List Token} (h : IsAttributes ts) :
      IsAttributes (.punct '#' joint :: .group .bracket inside :: ts)

/-- Who may see something. -/
inductive IsVisibility : List Token → Prop
  | inherited : IsVisibility []
  | everyone : IsVisibility [.ident "pub"]
  | place {name : String} (h : name ∈ ["crate", "self", "super"]) :
      IsVisibility [.ident "pub", .group .parenthesis [.ident name]]
  | path (inside : List Token) :
      IsVisibility [.ident "pub", .group .parenthesis (.ident "in" :: inside)]

/-- What stands in front of a declaration. -/
def IsFront (ts : List Token) : Prop :=
  ∃ attributes visibility, ts = attributes ++ visibility ∧ IsAttributes attributes ∧
    IsVisibility visibility

/-- A field as it was written between delimiters, with the tokens of its type. -/
inductive Field.Written (type : List Token) : Delimiter → List Token → Field → Prop
  | named {front : List Token} (hfront : IsFront front) (name : String) (joint : Bool)
      {code : List Piece} (h : Rendered false type (printPieces code)) :
      Written type .brace (front ++ .ident name :: .punct ':' joint :: type) ⟨some name, code⟩
  | unnamed {front : List Token} (hfront : IsFront front) {code : List Piece}
      (h : Rendered false type (printPieces code)) :
      Written type .parenthesis (front ++ type) ⟨none, code⟩

theorem Field.Written.rendered {type ts : List Token} {d : Delimiter} {f : Field}
    (h : Field.Written type d ts f) : Rendered false type (printPieces f.type) := by
  cases h <;> assumption

/-- The fields of a variant as they were written, if it has any. -/
inductive FieldsWritten : List Token → Option (List Field) → Prop
  | none : FieldsWritten [] none
  | some (d : Delimiter) {inside : List Token} {fields : List Field} {trailing : Bool}
      (h : SeparatedAs (fun ts f => ∃ type, Field.Written type d ts f) fields trailing inside) :
      FieldsWritten [.group d inside] (some fields)

/-- The number of a variant, if it has one. -/
def IsNumber (ts : List Token) : Prop := ts = [] ∨ ∃ joint code, ts = .punct '=' joint :: code

/-- A variant as it was written. -/
inductive Variant.Written : List Token → Variant → Prop
  | mk {front fields number : List Token} (hfront : IsFront front) {v : Variant}
      (hfields : FieldsWritten fields v.fields) (hnumber : IsNumber number) :
      Written (front ++ .ident v.name :: (fields ++ number)) v

/-- If an item is an enum, it was written with its name and with its variants, in their order. -/
def Item.Written (item : Item) (tokens : List Token) : Prop :=
  ∀ variants, item.body = .enum variants → ∃ front behind inside trailing,
    tokens = front ++ Token.ident "enum" :: Token.ident item.name :: behind ++
        [Token.group .brace inside] ∧
      IsFront front ∧ SeparatedAs Variant.Written variants trailing inside

/-! ## What is read -/

/-- Some tokens are read, whatever they are. -/
def Passes (i j : Input) : Prop := Consumes (fun _ => True) i j

namespace Passes

variable {i j k : Input}

@[simp]
theorem refl (i : Input) : Passes i i := fun h => ⟨h, [], rfl, trivial⟩

theorem trans (h : Passes i j) (h' : Passes j k) : Passes i k := by
  intro hk
  obtain ⟨hj, us, hus, -⟩ := h' hk
  obtain ⟨hi, ts, hts, -⟩ := h hj
  exact ⟨hi, ts ++ us, by simp [hts, hus], trivial⟩

theorem of_reads {inGroup : Bool} {p : Printed} (h : Reads inGroup i j p) : Passes i j := by
  intro hj
  obtain ⟨hi, ts, hts, -⟩ := h hj
  exact ⟨hi, ts, hts, trivial⟩

theorem of_took {s : String} (h : Took s i j) : Passes i j := .of_reads h.reads_inGroup

theorem of_tookToken {t : Token} (h : TookToken t i j) : Passes i j :=
  fun hj => ⟨h.2 ▸ hj, [t], h.1, trivial⟩

end Passes

namespace Consumes

variable {i j k l m n : Input}

theorem attributes_nil : Consumes IsAttributes i i := fun hi => ⟨hi, [], rfl, .nil⟩

theorem attributes_cons {p : Printed} (hmark : Took "#" i j) (hgroup : ReadsGroup .bracket j k p)
    (h : Consumes IsAttributes k l) : Consumes IsAttributes i l := by
  obtain ⟨joint, hrest, hleftover⟩ := Took.eq_cons (c := '#') hmark
  intro hl
  obtain ⟨hk, us, hus, hattributes⟩ := h hl
  obtain ⟨hj, ts, hts, -⟩ := hgroup hk
  exact ⟨hleftover ▸ hj, _, by simp [hrest, hts, hus], .cons joint ts hattributes⟩

theorem inherited : Consumes IsVisibility i i := fun hi => ⟨hi, [], rfl, .inherited⟩

theorem everyone (hpub : TookToken (.ident "pub") i j) : Consumes IsVisibility i j :=
  fun hj => ⟨hpub.2 ▸ hj, [.ident "pub"], hpub.1, .everyone⟩

theorem place (hpub : TookToken (.ident "pub") i j) (hplace : isPlaceOnly j.rest = true) :
    Consumes IsVisibility i { j with rest := j.rest.tail } := by
  unfold isPlaceOnly at hplace
  split at hplace
  · next name rest hrest =>
    rw [List.contains_iff_mem] at hplace
    refine fun hj => ⟨hpub.2 ▸ hj, [.ident "pub", .group .parenthesis [.ident name]], ?_,
      .place hplace⟩
    simp [hpub.1, hrest]
  · nomatch hplace

theorem path (hpub : TookToken (.ident "pub") i j) (hin : isInPath j.rest = true)
    (h : ConsumesGroup .parenthesis (fun _ => True) j k) : Consumes IsVisibility i k := by
  unfold isInPath at hin
  split at hin
  · next inside rest hrest =>
    obtain ⟨inside, rfl⟩ := exists_of_isWord hin
    intro hk
    obtain ⟨hj, ts, hts, -⟩ := h hk
    obtain ⟨rfl, rfl⟩ : .ident "in" :: inside = ts ∧ rest = k.rest := by
      simpa using hrest.symm.trans hts
    exact ⟨hpub.2 ▸ hj, [.ident "pub", .group .parenthesis (.ident "in" :: inside)],
      by simp [hpub.1, hrest], .path inside⟩
  · nomatch hin

theorem front (hattributes : Consumes IsAttributes i j) (hvisibility : Consumes IsVisibility j k) :
    Consumes IsFront i k := by
  intro hk
  obtain ⟨hj, us, hus, hvisibility⟩ := hvisibility hk
  obtain ⟨hi, ts, hts, hattributes⟩ := hattributes hj
  exact ⟨hi, ts ++ us, by simp [hts, hus], ts, us, rfl, hattributes, hvisibility⟩

theorem named (hfront : Consumes IsFront i j) {name : String} (hname : TookToken (.ident name) j k)
    (hcolon : Took ":" k l) {code : List Piece} (htype : ReadsSum true l m code) :
    Consumes (fun ts => ∃ type, Field.Written type .brace ts ⟨some name, code⟩) i m := by
  obtain ⟨joint, hrest, hleftover⟩ := Took.eq_cons (c := ':') hcolon
  intro hm
  obtain ⟨hl, type, htype, hprinted⟩ := htype.reads hm
  obtain ⟨hi, front, hts, hfront⟩ := hfront (hname.2 ▸ hleftover ▸ hl)
  exact ⟨hi, _, by simp [hts, hname.1, hrest, htype], type, .named hfront name joint hprinted⟩

theorem unnamed (hfront : Consumes IsFront i j) {code : List Piece}
    (htype : ReadsSum true j k code) :
    Consumes (fun ts => ∃ type, Field.Written type .parenthesis ts ⟨none, code⟩) i k := by
  intro hk
  obtain ⟨hj, type, htype, hprinted⟩ := htype.reads hk
  obtain ⟨hi, front, hts, hfront⟩ := hfront hj
  exact ⟨hi, _, by simp [hts, htype], type, .unnamed hfront hprinted⟩

theorem noFields : Consumes (FieldsWritten · none) i i := fun hi => ⟨hi, [], rfl, .none⟩

theorem someFields {d : Delimiter} {fields : List Field} {trailing : Bool}
    (h : ConsumesGroup d
      (SeparatedAs (fun ts f => ∃ type, Field.Written type d ts f) fields trailing) i j) :
    Consumes (FieldsWritten · (some fields)) i j := by
  intro hj
  obtain ⟨hi, ts, hts, hfields⟩ := h hj
  exact ⟨hi, [.group d ts], hts, .some d hfields⟩

theorem noNumber : Consumes IsNumber i i := fun hi => ⟨hi, [], rfl, .inl rfl⟩

theorem number (hequals : Took "=" i j) {p : Printed} (h : Reads true j k p) :
    Consumes IsNumber i k := by
  obtain ⟨joint, hrest, hleftover⟩ := Took.eq_cons (c := '=') hequals
  intro hk
  obtain ⟨hj, ts, hts, -⟩ := h hk
  exact ⟨hleftover ▸ hj, _, by simp [hrest, hts], .inr ⟨joint, ts, rfl⟩⟩

theorem variant (hfront : Consumes IsFront i j) {v : Variant}
    (hname : TookToken (.ident v.name) j k) (hfields : Consumes (FieldsWritten · v.fields) k l)
    (hnumber : Consumes IsNumber l m) : Consumes (Variant.Written · v) i m := by
  intro hm
  obtain ⟨hl, number, hts, hnumber⟩ := hnumber hm
  obtain ⟨hk, fields, hfieldsRest, hfields⟩ := hfields hl
  obtain ⟨hi, front, hi', hfront⟩ := hfront (hname.2 ▸ hk)
  exact ⟨hi, _, by simp [hi', hname.1, hfieldsRest, hts], .mk hfront hfields hnumber⟩

theorem enum (hfront : Consumes IsFront i j) (henum : TookToken (.ident "enum") j k)
    {item : Item} (hname : TookToken (.ident item.name) k l) (hpasses : Passes l m)
    {variants : List Variant} {trailing : Bool} (hvariants : item.body = .enum variants)
    (h : ConsumesGroup .brace (SeparatedAs Variant.Written variants trailing) m n) :
    Consumes item.Written i n := by
  intro hn
  obtain ⟨hm, inside, hinside, hwritten⟩ := h hn
  obtain ⟨hl, behind, hbehind, -⟩ := hpasses hm
  obtain ⟨hi, front, hi', hfront⟩ := hfront (henum.2 ▸ hname.2 ▸ hl)
  refine ⟨hi, _, ?_, fun variants' hvariants' =>
    ⟨front, behind, inside, trailing, rfl, hfront, ?_⟩⟩
  · simp [hi', henum.1, hname.1, hbehind, hinside]
  · obtain rfl : variants' = variants := by simpa [hvariants] using hvariants'.symm
    exact hwritten

end Consumes

attribute [local spec] gives_fail gives_expected gives_rest gives_next gives_atEnd gives_take
  gives_punct gives_word gives_name gives_anyWord gives_lifetime renders_barePath
  Renderings.lifetimeBounds Renderings.binder Renderings.type Renderings.boundsUntil
  Renderings.attributeBody

attribute [local grind .] Passes.refl

attribute [local grind →] Passes.trans Passes.of_took Passes.of_tookToken Passes.of_reads
  ReadsAngles.reads ReadsSum.reads Binds.reads

section Parsers

variable {i₀ : Input} {α : Type}

theorem gives_withFuel {rule : (fuel : Nat) → Parser α} {R : α → Input → Prop}
    (h : ∀ n, ⦃fun i => ⌜i = i₀⌝⦄ rule n ⦃⇓? x => fun i => ⌜R x i⌝⦄) :
    ⦃fun i => ⌜i = i₀⌝⦄ withFuel rule ⦃⇓? x => fun i => ⌜R x i⌝⦄ := by
  mvcgen [withFuel, h]
  all_goals simp_all

theorem gives_parseType :
    ⦃fun i => ⌜i = i₀⌝⦄ parseType ⦃⇓? x => fun i => ⌜ReadsSum true i₀ i x⌝⦄ :=
  gives_withFuel fun n => (renderings n).type true

theorem gives_parseExpression : Renders true parseExpression i₀ :=
  gives_withFuel fun n => (renderings n).expression

/-- Attributes are read with the brackets around each. -/
theorem gives_attributes (n : Nat) :
    ⦃fun i => ⌜i = i₀⌝⦄ attributes n ⦃⇓? _ => fun i => ⌜Consumes IsAttributes i₀ i⌝⦄ := by
  induction n generalizing i₀ with
  | zero => exact gives_tooDeep
  | succ n ih =>
    have h := renderings n
    unfold attributes
    mvcgen [gives_inside, ih]
    all_goals simp_all
    all_goals grind [Consumes.attributes_cons, Consumes.attributes_nil]

theorem gives_parseAttributes :
    ⦃fun i => ⌜i = i₀⌝⦄ parseAttributes ⦃⇓? _ => fun i => ⌜Consumes IsAttributes i₀ i⌝⦄ :=
  gives_withFuel gives_attributes

/-! Of the parameters and of the where clause it is enough that they are passed. -/

theorem passes_parseGenerics :
    ⦃fun i => ⌜i = i₀⌝⦄ Generics.parse ⦃⇓? _ => fun i => ⌜Passes i₀ i⌝⦄ := by
  have hparameters {i} := gives_withFuel fun n => @(renderings n).parameters i
  mvcgen [Generics.parse, hparameters]
  all_goals simp_all
  all_goals grind

theorem passes_parsePredicate :
    ⦃fun i => ⌜i = i₀⌝⦄ parsePredicate ⦃⇓? _ => fun i => ⌜Passes i₀ i⌝⦄ := by
  refine gives_withFuel fun n => ?_
  have h := renderings n
  mvcgen
  all_goals simp_all
  all_goals grind

theorem passes_parseSome (n : Nat) :
    ⦃fun i => ⌜i = i₀⌝⦄ WhereClause.parseSome n ⦃⇓? _ => fun i => ⌜Passes i₀ i⌝⦄ := by
  induction n generalizing i₀ with
  | zero =>
    mvcgen [WhereClause.parseSome]
    simp_all
  | succ n ih =>
    have hpredicate := @passes_parsePredicate
    mvcgen [WhereClause.parseSome, hpredicate, ih]
    all_goals simp_all
    all_goals grind

theorem passes_parseClause? :
    ⦃fun i => ⌜i = i₀⌝⦄ WhereClause.parse? ⦃⇓? _ => fun i => ⌜Passes i₀ i⌝⦄ := by
  have hsome := @passes_parseSome
  mvcgen [WhereClause.parse?, WhereClause.parse, hsome]
  all_goals simp_all
  all_goals grind

theorem passes_group (d : Delimiter) {p : Parser α}
    (hp : ∀ i, ⦃fun j => ⌜j = i⌝⦄ p ⦃⇓? _ => fun j => ⌜Passes i j⌝⦄) :
    ⦃fun i => ⌜i = i₀⌝⦄ inside d p
    ⦃⇓? _ => fun i => ⌜ConsumesGroup d (fun _ => True) i₀ i⌝⦄ := by
  refine gives_group d fun i => ?_
  mvcgen [hp]
  all_goals simp_all [Passes]

theorem gives_parseVisibility :
    ⦃fun i => ⌜i = i₀⌝⦄ parseVisibility ⦃⇓? _ => fun i => ⌜Consumes IsVisibility i₀ i⌝⦄ := by
  mvcgen [parseVisibility, passes_group]
  all_goals simp_all
  all_goals grind [Consumes.inherited, Consumes.everyone, Consumes.place, Consumes.path]

theorem gives_parseNamed :
    ⦃fun i => ⌜i = i₀⌝⦄ Field.parseNamed
    ⦃⇓? f => fun i => ⌜Consumes (fun ts => ∃ type, Field.Written type .brace ts f) i₀ i⌝⦄ := by
  have hattributes := @gives_parseAttributes
  have hvisibility := @gives_parseVisibility
  have htype := @gives_parseType
  mvcgen [Field.parseNamed, hattributes, hvisibility, htype]
  all_goals
    next hi _ _ ha _ _ hv _ _ _ _ hnext _ _ hname _ _ hcolon _ _ ht =>
      obtain rfl := hi
      obtain ⟨-, rfl⟩ := hnext
      exact (ha.front hv).named hname hcolon.2 ht

theorem gives_parseUnnamed :
    ⦃fun i => ⌜i = i₀⌝⦄ Field.parseUnnamed
    ⦃⇓? f => fun i =>
      ⌜Consumes (fun ts => ∃ type, Field.Written type .parenthesis ts f) i₀ i⌝⦄ := by
  have hattributes := @gives_parseAttributes
  have hvisibility := @gives_parseVisibility
  have htype := @gives_parseType
  mvcgen [Field.parseUnnamed, hattributes, hvisibility, htype]
  next hi _ _ ha _ _ hv _ _ ht =>
    obtain rfl := hi
    exact (ha.front hv).unnamed ht

theorem gives_parseFields (d : Delimiter) (hd : d = .brace ∨ d = .parenthesis) :
    ⦃fun i => ⌜i = i₀⌝⦄ Field.parseAll d
    ⦃⇓? fields => fun i => ⌜Consumes (FieldsWritten · (some fields)) i₀ i⌝⦄ := by
  have hfield : ∀ i, ⦃fun j => ⌜j = i⌝⦄
      (if d = .brace then Field.parseNamed else Field.parseUnnamed)
      ⦃⇓? f => fun j => ⌜Consumes (fun ts => ∃ type, Field.Written type d ts f) i j⌝⦄ := by
    intro i
    obtain rfl | rfl := hd
    · exact gives_parseNamed
    · exact gives_parseUnnamed
  have hgroup {i} := @gives_group i _ _ d _ fun i => @gives_commaSeparated i _ _ _ hfield
  mvcgen [Field.parseAll, hgroup]
  next hi _ _ h =>
    obtain rfl := hi
    exact .someFields h

theorem gives_parseVariant :
    ⦃fun i => ⌜i = i₀⌝⦄ Variant.parse
    ⦃⇓? v => fun i => ⌜Consumes (Variant.Written · v) i₀ i⌝⦄ := by
  have hattributes := @gives_parseAttributes
  have hvisibility := @gives_parseVisibility
  have hexpression := @gives_parseExpression
  have hfields := @gives_parseFields
  mvcgen [Variant.parse, hattributes, hvisibility, hexpression, hfields]
  all_goals
    casesm* _ ∧ _
    subst_vars
    have hfront := Consumes.front ‹Consumes IsAttributes _ _› ‹_›
    first
      | exact hfront.variant ‹_› ‹_› (.number ‹_› ‹_›)
      | exact hfront.variant ‹_› ‹_› .noNumber
      | exact hfront.variant ‹_› .noFields (.number ‹_› ‹_›)
      | exact hfront.variant ‹_› .noFields .noNumber

theorem gives_anything (p : Parser α) :
    ⦃fun i => ⌜i = i₀⌝⦄ p ⦃⇓? _ => fun _ => ⌜True⌝⦄ := by
  intro i hi
  simp only [wp, PredTrans.apply_pushArg]
  cases p.run i <;> trivial

/-- The grammar reads an item as it was written. -/
theorem gives_parseItem :
    ⦃fun i => ⌜i = i₀⌝⦄ Item.parse
    ⦃⇓? item => fun i =>
      ⌜∀ variants, item.body = .enum variants → Consumes item.Written i₀ i⌝⦄ := by
  have hattributes := @gives_parseAttributes
  have hvisibility := @gives_parseVisibility
  have hgenerics := @passes_parseGenerics
  have hclause := @passes_parseClause?
  have hstruct {i} := @gives_anything i _ parseStruct
  have hunion {i} := @gives_anything i _ (Field.parseAll .brace)
  have hvariants {i} := @gives_group i _ _ .brace _ fun i =>
    @gives_commaSeparated i _ _ _ fun _ => gives_parseVariant
  mvcgen [Item.parse, hattributes, hvisibility, hgenerics, hclause, hvariants, hstruct, hunion]
  · rintro variants ⟨⟩
  · next hi _ _ ha _ _ hv _ _ henum _ hrest _ _ htake _ _ hname _ _ hg _ _ hc _ _ h =>
    obtain rfl := hi
    obtain ⟨rfl, rfl⟩ := hrest
    obtain ⟨-, rfl, -⟩ := htake
    rintro variants ⟨⟩
    refine .enum (.front ha hv) ?_ hname (hg.trans hc) rfl h
    simpa using tookToken_of_isWord henum
  · rintro variants ⟨⟩

end Parsers

/-- An item that the grammar reads is read as it was written. -/
theorem written_of_parseTokens {tokens : List Token} {item : Item}
    (h : parseTokens Item.parse tokens = .ok item) : item.Written tokens := by
  have hread := of_run (@gives_parseItem { rest := tokens }) rfl (parseTokens_eq_ok_iff.1 h)
  intro variants hvariants
  obtain ⟨-, ts, rfl, hwritten⟩ := hread variants hvariants rfl
  simpa using hwritten variants hvariants

end FlatUnion.Code
