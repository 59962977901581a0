import Mathlib
import FlatUnion.Proofs.Code.Sound

/-!
# The grammar keeps code sound

A parser keeps code sound (`Parser.Keeps`) if from sound tokens it makes sound code and leaves sound
tokens. Parsers that take tokens do, and so does every rule of the grammar, by induction on the
number of rules that may be entered below it (`Rules`). As they make no texts but marks and words of
their own, this is so whatever is asked of texts.

The main statement is `sound_of_parseTokens` : an item that is read from sound tokens is sound.
-/

set_option mvcgen.warning false

namespace FlatUnion.Code

open Std.Do
open Soundness (Sound)
open FlatUnion.Code.Parser

/-- What a triple says of a parser is so of every run. -/
theorem Parser.of_run {α : Type} {p : Parser α} {P : Input → Prop} {R : α → Input → Prop}
    (hp : ⦃fun i => ⌜P i⌝⦄ p ⦃⇓? x => fun j => ⌜R x j⌝⦄) {i j : Input} (hi : P i) {x : α}
    (h : p.run i = .ok (x, j)) : R x j := by
  have hwp := hp i hi
  simp only [WP.wp, PredTrans.apply_pushArg] at hwp
  rw [h] at hwp
  exact hwp

section Spelling

variable [Spelling]

/-- From sound tokens a parser makes something sound, and leaves sound tokens. -/
abbrev Parser.Keeps {α : Type} [Soundness α] (p : Parser α) : Prop :=
  ⦃fun i => ⌜Sound i.rest⌝⦄ p ⦃⇓? x => fun i => ⌜Sound x ∧ Sound i.rest⌝⦄

/-- A result of a parser that keeps code sound. -/
theorem sound_of_run {α : Type} [Soundness α] {p : Parser α} (hp : p.Keeps) {i i' : Input}
    (hi : Sound i.rest) {x : α} (h : p.run i = .ok (x, i')) : Sound x ∧ Sound i'.rest :=
  Parser.of_run hp hi h

/-! ## Parsers of tokens -/

namespace Parser

variable {α : Type} [Soundness α]

theorem keeps_throw (c : Complaint) : Keeps (throw c : Parser α) :=
  fun _ _ => trivial

@[local spec]
theorem keeps_fail (p : Problem) : Keeps (fail p : Parser α) :=
  fun _ _ => trivial

@[local spec]
theorem keeps_expected (thing : String) : Keeps (expected thing : Parser α) :=
  keeps_fail _

/-- One parser after another. -/
theorem keeps_bind {β : Type} [Soundness β] {p : Parser α} {f : α → Parser β} (hp : Keeps p)
    (hf : ∀ x, Sound x → Keeps (f x)) : Keeps (p >>= f) := by
  mvcgen [hp, hf]
  all_goals simp_all

@[local spec]
theorem keeps_rest : Keeps rest := by
  mvcgen [rest]

@[local spec]
theorem keeps_setRest {ts : List Token} (h : Sound ts) : Keeps (setRest ts) :=
  fun _ _ => ⟨trivial, h⟩

@[local spec]
theorem keeps_atEnd : Keeps atEnd := by
  mvcgen [atEnd]
  simp_all

@[local spec]
theorem keeps_next (look : List Token → Bool) : Keeps (next look) := by
  mvcgen [next]
  simp_all

@[local spec]
theorem keeps_take (n : Nat) : Keeps (take n) := by
  mvcgen [take]
  all_goals simp_all [sound_take, sound_drop]

@[local spec]
theorem keeps_punct (operator : String) : Keeps (punct operator) := by
  mvcgen [punct, keeps_throw, -Spec.throw_MonadExcept]
  all_goals simp_all

@[local spec]
theorem keeps_word (s : String) : Keeps (word s) := by
  mvcgen [word]
  all_goals simp_all

@[local spec]
theorem keeps_name : Keeps name := by
  mvcgen [name]
  all_goals simp_all

@[local spec]
theorem keeps_anyWord : Keeps anyWord := by
  mvcgen [anyWord]
  all_goals simp_all

@[local spec]
theorem keeps_lifetime : Keeps lifetime := by
  mvcgen [lifetime]
  all_goals simp_all

@[local spec]
theorem keeps_inside (d : Delimiter) {p : Parser α} (hp : Keeps p) : Keeps (inside d p) := by
  mvcgen [inside, hp]
  all_goals simp_all +zetaDelta

theorem keeps_someSeparated {p : Parser α} (hp : Keeps p) (n : Nat) :
    Keeps (someSeparated p n) := by
  induction n with
  | zero => mvcgen [someSeparated]; simp_all
  | succ n ih =>
    mvcgen [someSeparated, hp, ih]
    all_goals simp_all

@[local spec]
theorem keeps_commaSeparated {p : Parser α} (hp : Keeps p) : Keeps (commaSeparated p) := by
  have hsome := keeps_someSeparated hp
  mvcgen [commaSeparated, hsome]
  simp_all

end Parser

attribute [local spec] keeps_fail keeps_expected keeps_rest keeps_setRest keeps_atEnd keeps_next
  keeps_take keeps_punct keeps_word keeps_name keeps_anyWord keeps_lifetime keeps_inside
  keeps_commaSeparated

/-! ## Pieces -/

@[simp]
theorem sound_mark {c : Char} (h : c ∉ ['(', ')', '[', ']', '\x7b', '\x7d']) :
    Sound (Piece.punct c) := by
  have htexts : delimiterTexts =
      ['(', ')', '[', ']', '\x7b', '\x7d'].map String.singleton := rfl
  have hsingle : Function.Injective String.singleton := fun b b' heq => by
    simpa using congrArg String.toList heq
  refine Spelling.mark c ?_
  rw [IsLeaf, htexts, List.mem_map_of_injective hsingle]
  exact h

@[simp]
theorem sound_wordPiece {name : String} : Sound (Piece.word name) ↔ Sound name := Iff.rfl

@[simp]
theorem sound_namePiece {name : String} : Sound (Piece.name name) ↔ Sound name := by
  simp [Piece.name]

@[simp]
theorem sound_tokenPieces {ts : List Token} : Sound (tokenPieces ts) ↔ Sound ts := sound_map

theorem sound_commaPieces {trailing : Bool} {xs : List (List Piece)} (h : Sound xs) :
    Sound (commaPieces trailing xs) := by
  fun_induction commaPieces trailing xs <;> simp_all
  split <;> simp

theorem sound_applied {p : Piece} {arguments : List Piece} (hp : Sound p)
    (harguments : Sound arguments) : Sound (p.applied arguments) := by
  cases p with
  | path role leading segments =>
    have hsegments := Piece.sound_path.1 hp
    have hlast : ∀ s ∈ segments.getLast?, Sound s.1 := fun s hs =>
      (hsegments s (List.mem_of_getLast? hs)).1
    simp only [Piece.applied, Piece.sound_path, sound_append, sound_map, Option.mem_toList]
    exact ⟨sound_of_subset (List.dropLast_subset segments) hsegments,
      fun s hs => ⟨hlast s hs, harguments⟩⟩
  | _ => exact hp

theorem sound_inRole {role : PathRole} {p : Piece} (h : Sound p) : Sound (p.inRole role) := by
  cases p with
  | path _ leading segments => exact h
  | _ => exact h

theorem sound_attributePieces {a : Attribute} (h : Sound a) : Sound a.pieces := by
  obtain ⟨path, body⟩ := a
  cases body <;> simp_all [Attribute.pieces]

theorem sound_attributes {as : List Attribute} (h : Sound as) :
    Sound (as.map Attribute.pieces).flatten :=
  sound_flatten.2 (sound_map.2 fun a ha => sound_attributePieces (h a ha))

theorem sound_asArgument {p : Param} (h : Sound p.name) : Sound p.asArgument := by
  obtain ⟨kind, name, attributes, bounds, default⟩ := p
  cases kind <;> simpa [Param.asArgument] using h

theorem sound_paramPieces {p : Param} (h : Sound p) : Sound p.pieces := by
  obtain ⟨hname, hattributes, hbounds, hdefault⟩ := h
  have hconst : Sound "const" := Spelling.const
  simp only [Param.pieces, sound_append]
  refine ⟨⟨⟨⟨sound_attributes hattributes, ?_⟩, sound_asArgument hname⟩, ?_⟩, ?_⟩
  · split <;> simp [hconst]
  · split <;> simp [hbounds]
  · split <;> simp_all

theorem sound_params {ps : List Param} (h : Sound ps) : Sound (ps.map Param.pieces) :=
  sound_map.2 fun p hp => sound_paramPieces (h p hp)

omit [Spelling] in
theorem sound_lifetimesFirst {α : Type} [Soundness α] {isLifetime : α → Bool} {xs : List α}
    (h : Sound xs) : Sound (lifetimesFirst isLifetime xs) := by
  have hfilter : ∀ q : α → Bool, Sound (xs.filter q) := fun q =>
    sound_of_subset (List.filter_sublist (p := q)).subset h
  exact sound_append.2 ⟨hfilter _, hfilter _⟩

theorem sound_arguments {items : List (Bool × List Piece)} (h : Sound items) :
    Sound ((lifetimesFirst (·.1) items).map (·.2)) :=
  sound_map.2 fun x hx => (sound_lifetimesFirst h x hx).2

/-! ## Helpers of the rules -/

@[local spec]
theorem keeps_operator (s : String) : Keeps (operator s) := by
  mvcgen [operator]
  simp_all

@[local spec]
theorem keeps_wordPiece (s : String) : Keeps (wordPiece s) := by
  mvcgen [wordPiece]
  simp_all

@[local spec]
theorem keeps_optionalWord (s : String) : Keeps (optionalWord s) := by
  mvcgen [optionalWord]
  all_goals simp_all

@[local spec]
theorem keeps_enclosed (d : Delimiter) {p : Parser (List Piece)} (hp : Keeps p) :
    Keeps (enclosed d p) := by
  mvcgen [enclosed, hp]
  simp_all

@[local spec]
theorem keeps_literal : Keeps literal := by
  mvcgen [literal]
  all_goals simp_all

theorem keeps_barePath_go (n : Nat) : Keeps (barePath.go n) := by
  induction n with
  | zero => mvcgen [barePath.go]; simp_all
  | succ n ih =>
    mvcgen [barePath.go, ih]
    all_goals simp_all

@[local spec]
theorem keeps_barePath : Keeps barePath := by
  have hgo := keeps_barePath_go
  have hbare : ∀ names : List String, Sound names →
      Sound (names.map fun s => (s, ([] : List Piece))) := fun names h =>
    sound_map.2 fun s hs => ⟨h s hs, sound_nil⟩
  mvcgen [barePath, hgo]
  all_goals simp_all

@[local spec]
theorem keeps_macroTokens : Keeps macroTokens := by
  mvcgen [macroTokens]
  all_goals simp_all

@[local spec]
theorem keeps_onlyLifetimes {α : Type} [Soundness α] (text : String) :
    Keeps (onlyLifetimes text : Parser α) :=
  keeps_throw _

theorem keeps_tooDeep {α : Type} [Soundness α] : Keeps (tooDeep : Parser α) :=
  keeps_fail _

/-! ## Rules -/

/-- All rules of the grammar keep code sound if so many may be entered below them. -/
structure Rules (n : Nat) : Prop where
  type : ∀ plus, Keeps (type plus n)
  pathType : ∀ {plus binder path}, Sound binder → Sound path →
    Keeps (pathType plus binder path n)
  parenthesized : ∀ plus, Keeps (parenthesized plus n)
  moreBounds : Keeps (moreBounds n)
  bounds : ∀ plus, Keeps (bounds plus n)
  boundsUntil : ∀ stop, Keeps (boundsUntil stop n)
  bound : Keeps (bound n)
  traitBound : Keeps (traitBound n)
  binder : Keeps (binder n)
  parameters : Keeps (parameters n)
  moreParameters : Keeps (moreParameters n)
  parameter : Keeps (parameter n)
  lifetimeBounds : ∀ stop, Keeps (lifetimeBounds stop n)
  returnType : Keeps (returnType n)
  functionPointer : Keeps (functionPointer n)
  functionArgument : Keeps (functionArgument n)
  path : ∀ inExpression role, Keeps (path inExpression role n)
  segments : ∀ inExpression, Keeps (segments inExpression n)
  segment : ∀ inExpression, Keeps (segment inExpression n)
  arguments : Keeps (arguments n)
  moreArguments : Keeps (moreArguments n)
  argument : Keeps (argument n)
  qualifiedPath : ∀ inExpression role, Keeps (qualifiedPath inExpression role n)
  constArgument : Keeps (constArgument n)
  expression : Keeps (expression n)
  moreOperands : Keeps (moreOperands n)
  operand : Keeps (operand n)
  trailers : Keeps (trailers n)
  atom : Keeps (atom n)
  elements : Keeps (elements n)
  block : Keeps (block n)
  statements : Keeps (statements n)
  attributes : Keeps (attributes n)
  attributeBody : Keeps (attributeBody n)

attribute [local spec] Rules.type Rules.pathType Rules.parenthesized Rules.moreBounds Rules.bounds
  Rules.boundsUntil Rules.bound Rules.traitBound Rules.binder Rules.parameters
  Rules.moreParameters Rules.parameter Rules.lifetimeBounds Rules.returnType Rules.functionPointer
  Rules.functionArgument Rules.path Rules.segments Rules.segment Rules.arguments
  Rules.moreArguments Rules.argument Rules.qualifiedPath Rules.constArgument Rules.expression
  Rules.moreOperands Rules.operand Rules.trailers Rules.atom Rules.elements Rules.block
  Rules.statements Rules.attributes Rules.attributeBody

section Step

variable {n : Nat} (h : Rules n)
include h

theorem keeps_type (plus : Bool) : Keeps (type plus (n + 1)) := by
  unfold type
  refine keeps_bind (keeps_next _) fun bound _ => ?_
  -- What comes after the bound lifetimes is the same with and without them, and is proved once.
  extract_lets whole
  have hwhole : ∀ binder, Sound binder → Keeps (whole binder) := by
    intro binder hbinder
    unfold whole
    extract_lets unbound
    have hunbound : Keeps (unbound ()) := by
      unfold unbound
      mvcgen
      all_goals simp_all
    split
    · refine keeps_bind (keeps_next _) fun _ _ => ?_
      split
      · exact keeps_bind (keeps_fail _) fun _ _ => hunbound
      · exact hunbound
    · exact hunbound
  split
  · exact keeps_bind h.binder hwhole
  · exact hwhole _ sound_nil

theorem keeps_pathType {plus : Bool} {binder path : List Piece} (hbinder : Sound binder)
    (hpath : Sound path) : Keeps (pathType plus binder path (n + 1)) := by
  have hplain : Sound (path.map (Piece.inRole .plain)) :=
    sound_map.2 fun p hp => sound_inRole (hpath p hp)
  unfold pathType
  mvcgen
  all_goals simp_all

theorem keeps_parenthesized (plus : Bool) : Keeps (parenthesized plus (n + 1)) := by
  unfold parenthesized
  mvcgen
  all_goals simp_all [sound_commaPieces]

theorem keeps_moreBounds : Keeps (moreBounds (n + 1)) := by
  unfold moreBounds
  mvcgen
  all_goals simp_all

theorem keeps_bounds (plus : Bool) : Keeps (bounds plus (n + 1)) := by
  unfold bounds
  mvcgen
  all_goals simp_all

theorem keeps_boundsUntil (stop : List Token → Bool) : Keeps (boundsUntil stop (n + 1)) := by
  unfold boundsUntil
  mvcgen
  all_goals simp_all

theorem keeps_bound : Keeps (bound (n + 1)) := by
  unfold bound
  mvcgen
  all_goals simp_all

theorem keeps_traitBound : Keeps (traitBound (n + 1)) := by
  unfold traitBound
  refine keeps_bind (keeps_next _) fun bound _ => ?_
  extract_lets called marked
  have hmarked : ∀ before, Sound before → Keeps (marked before) := by
    intro before hbefore
    unfold marked
    refine keeps_bind (keeps_next _) fun _ _ => ?_
    extract_lets followed
    have hfollowed : ∀ mark, Sound mark → Keeps (followed mark) := by
      intro mark hmark
      unfold followed
      mvcgen
      all_goals simp_all [sound_commaPieces, sound_applied]
    split
    · exact keeps_bind (keeps_operator _) hfollowed
    · exact hfollowed _ sound_nil
  split
  · exact keeps_bind h.binder hmarked
  · exact hmarked _ sound_nil

theorem keeps_binder : Keeps (binder (n + 1)) := by
  unfold binder
  mvcgen
  all_goals simp_all [sound_commaPieces, sound_params]

theorem keeps_parameters : Keeps (parameters (n + 1)) := by
  unfold parameters
  mvcgen
  all_goals simp_all

theorem keeps_moreParameters : Keeps (moreParameters (n + 1)) := by
  unfold moreParameters
  mvcgen
  all_goals simp_all

theorem keeps_parameter : Keeps (parameter (n + 1)) := by
  unfold parameter
  mvcgen
  all_goals simp_all

theorem keeps_lifetimeBounds (stop : List Token → Bool) :
    Keeps (lifetimeBounds stop (n + 1)) := by
  unfold lifetimeBounds
  mvcgen
  all_goals simp_all +zetaDelta

theorem keeps_returnType : Keeps (returnType (n + 1)) := by
  unfold returnType
  mvcgen
  all_goals simp_all

theorem keeps_functionPointer : Keeps (functionPointer (n + 1)) := by
  unfold functionPointer
  mvcgen
  all_goals simp_all [sound_commaPieces]

theorem keeps_functionArgument : Keeps (functionArgument (n + 1)) := by
  unfold functionArgument
  mvcgen
  all_goals simp_all +zetaDelta [sound_attributes]

theorem keeps_path (inExpression : Bool) (role : PathRole) :
    Keeps (path inExpression role (n + 1)) := by
  unfold path
  mvcgen
  all_goals simp_all

theorem keeps_segments (inExpression : Bool) : Keeps (segments inExpression (n + 1)) := by
  unfold segments
  mvcgen
  all_goals simp_all

theorem keeps_segment (inExpression : Bool) : Keeps (segment inExpression (n + 1)) := by
  unfold segment
  mvcgen
  all_goals simp_all

theorem keeps_arguments : Keeps (arguments (n + 1)) := by
  unfold arguments
  mvcgen
  all_goals simp_all [sound_commaPieces, sound_arguments]

theorem keeps_moreArguments : Keeps (moreArguments (n + 1)) := by
  unfold moreArguments
  mvcgen
  all_goals simp_all

theorem keeps_argument : Keeps (argument (n + 1)) := by
  unfold argument
  mvcgen
  all_goals simp_all +zetaDelta

theorem keeps_qualifiedPath (inExpression : Bool) (role : PathRole) :
    Keeps (qualifiedPath inExpression role (n + 1)) := by
  unfold qualifiedPath
  mvcgen
  all_goals simp_all

theorem keeps_constArgument : Keeps (constArgument (n + 1)) := by
  unfold constArgument
  mvcgen
  all_goals simp_all

theorem keeps_expression : Keeps (expression (n + 1)) := by
  unfold expression
  mvcgen
  all_goals simp_all

theorem keeps_moreOperands : Keeps (moreOperands (n + 1)) := by
  unfold moreOperands
  mvcgen
  all_goals simp_all

theorem keeps_operand : Keeps (operand (n + 1)) := by
  unfold operand
  mvcgen
  all_goals simp_all +zetaDelta [sound_attributes]

theorem keeps_trailers : Keeps (trailers (n + 1)) := by
  unfold trailers
  mvcgen
  all_goals simp_all [sound_commaPieces]

theorem keeps_atom : Keeps (atom (n + 1)) := by
  unfold atom
  mvcgen
  all_goals simp_all [sound_commaPieces]

theorem keeps_elements : Keeps (elements (n + 1)) := by
  unfold elements
  mvcgen
  all_goals simp_all [sound_commaPieces]

theorem keeps_block : Keeps (block (n + 1)) := by
  unfold block
  mvcgen
  all_goals simp_all

theorem keeps_statements : Keeps (statements (n + 1)) := by
  unfold statements
  mvcgen
  all_goals simp_all

theorem keeps_attributes : Keeps (attributes (n + 1)) := by
  unfold attributes
  mvcgen
  all_goals simp_all

theorem keeps_attributeBody : Keeps (attributeBody (n + 1)) := by
  unfold attributeBody
  mvcgen
  all_goals simp_all

end Step

/-- However many rules may be entered, the grammar keeps code sound. -/
theorem rules (n : Nat) : Rules n := by
  induction n with
  | zero => constructor <;> intros <;> exact keeps_tooDeep
  | succ n h =>
    exact
      { type := keeps_type h
        pathType := keeps_pathType h
        parenthesized := keeps_parenthesized h
        moreBounds := keeps_moreBounds h
        bounds := keeps_bounds h
        boundsUntil := keeps_boundsUntil h
        bound := keeps_bound h
        traitBound := keeps_traitBound h
        binder := keeps_binder h
        parameters := keeps_parameters h
        moreParameters := keeps_moreParameters h
        parameter := keeps_parameter h
        lifetimeBounds := keeps_lifetimeBounds h
        returnType := keeps_returnType h
        functionPointer := keeps_functionPointer h
        functionArgument := keeps_functionArgument h
        path := keeps_path h
        segments := keeps_segments h
        segment := keeps_segment h
        arguments := keeps_arguments h
        moreArguments := keeps_moreArguments h
        argument := keeps_argument h
        qualifiedPath := keeps_qualifiedPath h
        constArgument := keeps_constArgument h
        expression := keeps_expression h
        moreOperands := keeps_moreOperands h
        operand := keeps_operand h
        trailers := keeps_trailers h
        atom := keeps_atom h
        elements := keeps_elements h
        block := keeps_block h
        statements := keeps_statements h
        attributes := keeps_attributes h
        attributeBody := keeps_attributeBody h }

/-! ## Items -/

theorem keeps_withFuel {α : Type} [Soundness α] {rule : (fuel : Nat) → Parser α}
    (hrule : ∀ n, Keeps (rule n)) : Keeps (withFuel rule) := by
  mvcgen [withFuel, hrule]
  simp_all

@[local spec]
theorem keeps_parseType : Keeps parseType := keeps_withFuel fun n => (rules n).type true

@[local spec]
theorem keeps_parsePath : Keeps parsePath := keeps_withFuel fun n => (rules n).path false .plain

@[local spec]
theorem keeps_parseExpression : Keeps parseExpression :=
  keeps_withFuel fun n => (rules n).expression

@[local spec]
theorem keeps_parseAttributes : Keeps parseAttributes :=
  keeps_withFuel fun n => (rules n).attributes

@[local spec]
theorem keeps_parseGenerics : Keeps Generics.parse := by
  have hparameters : Keeps (withFuel parameters) := keeps_withFuel fun n => (rules n).parameters
  mvcgen [Generics.parse, hparameters]
  all_goals simp_all

@[local spec]
theorem keeps_parsePredicate : Keeps parsePredicate := by
  refine keeps_withFuel fun n => ?_
  have h := rules n
  mvcgen
  all_goals simp_all +zetaDelta

theorem keeps_parseSome (n : Nat) : Keeps (WhereClause.parseSome n) := by
  induction n with
  | zero =>
    mvcgen [WhereClause.parseSome]
    simp_all
  | succ n ih =>
    mvcgen [WhereClause.parseSome, ih]
    all_goals simp_all

@[local spec]
theorem keeps_parseClause : Keeps WhereClause.parse := by
  have hsome := keeps_parseSome
  mvcgen [WhereClause.parse, hsome]
  all_goals simp_all

@[local spec]
theorem keeps_parseClause? : Keeps WhereClause.parse? := by
  mvcgen [WhereClause.parse?]
  all_goals simp_all

@[local spec]
theorem keeps_parseVisibility : Keeps parseVisibility := by
  mvcgen [parseVisibility]
  all_goals simp_all

@[local spec]
theorem keeps_parseNamed : Keeps Field.parseNamed := by
  mvcgen [Field.parseNamed]
  all_goals simp_all

@[local spec]
theorem keeps_parseUnnamed : Keeps Field.parseUnnamed := by
  mvcgen [Field.parseUnnamed]
  all_goals simp_all

@[local spec]
theorem keeps_parseFields (d : Delimiter) : Keeps (Field.parseAll d) := by
  have hfield : Keeps (if d = .brace then Field.parseNamed else Field.parseUnnamed) := by
    split
    · exact keeps_parseNamed
    · exact keeps_parseUnnamed
  mvcgen [Field.parseAll, hfield]
  all_goals simp_all

@[local spec]
theorem keeps_parseVariant : Keeps Variant.parse := by
  mvcgen [Variant.parse]
  all_goals simp_all

@[local spec]
theorem keeps_parseStruct : Keeps parseStruct := by
  mvcgen [parseStruct]
  all_goals simp_all

@[local spec]
theorem keeps_parseItem : Keeps Item.parse := by
  mvcgen [Item.parse]
  all_goals simp_all

omit [Spelling] in
/-- What is made of all of some tokens is the result of a run that leaves nothing. -/
theorem parseTokens_eq_ok_iff {α : Type} {p : Parser α} {ts : List Token} {x : α} :
    parseTokens p ts = .ok x ↔ p.run { rest := ts } = .ok (x, { rest := [] }) := by
  unfold parseTokens
  cases p.run { rest := ts } with
  | error c => simp [bind, Except.bind]
  | ok r =>
    obtain ⟨y, left, leftover⟩ := r
    cases leftover <;> cases left <;> simp [bind, Except.bind, pure, Except.pure]

/-- What a parser that keeps code sound makes of all of some sound tokens is sound. -/
theorem sound_of_parseTokens {α : Type} [Soundness α] {p : Parser α} (hp : Keeps p)
    {ts : List Token} (hts : Sound ts) {x : α} (h : parseTokens p ts = .ok x) : Sound x :=
  (sound_of_run hp hts (parseTokens_eq_ok_iff.1 h)).1

end Spelling

/-- What a parser that keeps code sound makes of all of a text is sound. -/
theorem sound_of_parseAll {α : Type} [Soundness α] {p : Parser α} (hp : Keeps p)
    {text : String} {x : α} (h : parseAll p text = .ok x) : Sound x := by
  unfold parseAll at h
  split at h
  · nomatch h
  · next hts => exact sound_of_parseTokens hp (sound_of_tokens? hts) h

end FlatUnion.Code
