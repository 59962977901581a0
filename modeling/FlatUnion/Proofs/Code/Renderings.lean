import Mathlib
import FlatUnion.Proofs.Code.Reads

/-!
# The grammar reads what is printed

Of what a rule of the grammar reads, the code that is printed is that of its result (`Renderings`).
This is proved for each rule from what the rules below it read, by induction on the number of rules
that may be entered. What is read by one step behind the other is put together (`Reads.trans`), and
the lists in angle brackets and the binders by the lemmas on them.

Arguments are told apart by how they begin. So of bounds and types, which may begin with a lifetime,
it is said as well that they are more than that lifetime (`ReadsBound`, `ReadsSum`).

The main statement is `renderings`.
-/

set_option mvcgen.warning false

namespace FlatUnion.Code

open Std.Do
open FlatUnion.Code.Parser

attribute [local spec] gives_fail gives_expected gives_onlyLifetimes gives_rest gives_next
  gives_atEnd gives_take gives_punct gives_word gives_name gives_anyWord gives_lifetime gives_inside
  renders_commaSeparated gives_operator gives_wordPiece renders_optionalWord renders_enclosed
  renders_barePath gives_macroTokens renders_literal

attribute [local grind .] Reads.refl ReadsParameters.nil ReadsArguments.nil Binds.none

attribute [local grind →] Reads.trans Reads.of_list TookToken.ident TookToken.lifetime
  TookToken.group ReadsGroup.reads Took.colons Took.colon Took.equals Took.semicolon Took.hash
  Took.comma Took.arrow Took.called Reads.angles ReadsParameters.enclosed ReadsParameters.last
  ReadsParameters.cons ReadsArguments.enclosed ReadsArguments.last ReadsArguments.cons
  ReadsParameter.of_reads ReadsParameter.bounded ReadsParameter.defaulted ReadsArgument.lifetime
  ReadsArgument.of_reads ReadsArgument.of_readsTwo ReadsTwo.trans ReadsAngles.reads Binds.reads
  Binds.leftOut

attribute [local simp] isUnlisted printPieces_attribute printed_attribute
  printPieces_commaPieces_cons

/-! ## What rules read -/

/-- A path is read, which may begin with a type in angle brackets. -/
@[mk_iff]
structure ReadsPath (i j : Input) (x : List Piece × Bool) : Prop where
  reads : Reads false i j (printPieces x.1)
  angle : x.2 = true → isPunct "<" i.rest = true

/-- A bound is read, and a lifetime alone where one comes first. -/
@[mk_iff]
structure ReadsBound (i j : Input) (x : List Piece × Bool) : Prop where
  reads : Reads false i j (printPieces x.1)
  lifetime : isLifetime i.rest = true → ∃ s, TookToken (.lifetime s) i j

/-- Bounds are read, and more than a lifetime where a plus is behind it. -/
@[mk_iff]
structure ReadsSum (plus : Bool) (i j : Input) (x : List Piece) : Prop where
  reads : Reads false i j (printPieces x)
  two : plus = true → isLifetime i.rest = true → isPunct "+" i.rest.tail = true → ReadsTwo i j

attribute [local grind →] ReadsPath.reads ReadsPath.angle ReadsBound.reads ReadsBound.lifetime
  ReadsSum.reads ReadsSum.two

/-- Behind a lifetime stands what was behind it. -/
theorem readsTwo_of_plus {i j k : Input} {s : String} (h : TookToken (.lifetime s) i j)
    (h' : Took "+" j k) : ReadsTwo i k :=
  ReadsTwo.of_took (c := '+') h h'

theorem tail_of_tookToken {i j : Input} {t : Token} (h : TookToken t i j) :
    i.rest.tail = j.rest := by
  simp [h.1]

/-- A lifetime is nothing else. -/
theorem only_isLifetime {ts : List Token} (h : isLifetime ts = true) :
    (∀ s, isWord s ts = false) ∧ (∀ d, isGroup d ts = false) ∧ isName ts = false ∧
      isFunctionWord ts = false ∧ isPlaceWord ts = false ∧ isLiteral ts = false ∧
        ∀ s, s ≠ "" → isPunct s ts = false := by
  unfold isLifetime at h
  split at h
  · refine ⟨fun _ => rfl, fun _ => rfl, rfl, rfl, rfl, rfl, fun s hs => ?_⟩
    cases hlist : s.toList with
    | nil => exact absurd (String.toList_eq_nil_iff.1 hlist) hs
    | cons c cs => cases cs <;> simp [isPunct, hlist, isOperator]
  · exact absurd h Bool.false_ne_true

/-- No word is a mark or a group. -/
theorem no_word {ts : List Token} {d : Delimiter}
    (h : isGroup d ts = true ∨ isPunct "<" ts = true) :
    isName ts = false ∧ isFunctionWord ts = false ∧ isPlaceWord ts = false := by
  cases ts with
  | nil => exact ⟨rfl, rfl, rfl⟩
  | cons t ts =>
    cases t with
    | ident s => simp [isGroup, isPunct, isOperator] at h
    | _ => exact ⟨rfl, rfl, rfl⟩

theorem tookToken_of_isWord {s : String} {i : Input} (h : isWord s i.rest = true) :
    TookToken (.ident s) i { i with rest := i.rest.tail } := by
  obtain ⟨rest, hrest⟩ := exists_of_isWord h
  exact ⟨by simp [hrest], rfl⟩

theorem printPieces_associated (role : PathRole) (name : String) (arguments : List Piece) :
    printPieces [.path role false [(name, arguments)]] = name :: printPieces arguments := by
  simp [printSegments_single]

theorem boundPieces_nil : boundPieces [] = [] := rfl

theorem not_isLifetime {ts : List Token} (h : isLiteral ts = true ∨ isGroup .brace ts = true) :
    isLifetime ts = false := by
  unfold isLifetime
  split
  · simp [isLiteral, isGroup, isWord] at h
  · rfl

/-- One parser after another. -/
theorem gives_bind {α β : Type} {i₀ : Input} {p : Parser α} {f : α → Parser β}
    {R : α → Input → Prop} {Q : β → Input → Prop}
    (hp : ⦃fun i => ⌜i = i₀⌝⦄ p ⦃⇓? x => fun i => ⌜R x i⌝⦄)
    (hf : ∀ x j, R x j → ⦃fun i => ⌜i = j⌝⦄ f x ⦃⇓? y => fun i => ⌜Q y i⌝⦄) :
    ⦃fun i => ⌜i = i₀⌝⦄ (p >>= f) ⦃⇓? y => fun i => ⌜Q y i⌝⦄ := by
  mvcgen [hp, hf]
  all_goals simp_all

/-! ## The rules -/

/-- What is printed of what a rule has made is what the rule has read, if `n` rules may be entered
below it. -/
structure Renderings (n : Nat) : Prop where
  type : ∀ {i₀} plus, ⦃fun i => ⌜i = i₀⌝⦄ type plus n ⦃⇓? x => fun i => ⌜ReadsSum plus i₀ i x⌝⦄
  pathType : ∀ {i₀} plus binder path, ⦃fun i => ⌜i = i₀⌝⦄ pathType plus binder path n
    ⦃⇓? x => fun i => ⌜∀ j k, Binds j k binder → Reads false k i₀ (printPieces path) →
      Reads false j i (printPieces x)⌝⦄
  parenthesized : ∀ {i₀} plus, Renders false (parenthesized plus n) i₀
  moreBounds : ∀ {i₀}, Renders false (moreBounds n) i₀
  bounds : ∀ {i₀} plus, ⦃fun i => ⌜i = i₀⌝⦄ bounds plus n
    ⦃⇓? x => fun i => ⌜ReadsSum plus i₀ i x.1⌝⦄
  boundsUntil : ∀ {i₀} stop, Renders false (boundsUntil stop n) i₀
  bound : ∀ {i₀}, ⦃fun i => ⌜i = i₀⌝⦄ bound n ⦃⇓? x => fun i => ⌜ReadsBound i₀ i x⌝⦄
  traitBound : ∀ {i₀}, Renders false (traitBound n) i₀
  binder : ∀ {i₀}, ⦃fun i => ⌜i = i₀⌝⦄ binder n
    ⦃⇓? x => fun i => ⌜Binds i₀ i x⌝⦄
  parameters : ∀ {i₀}, ⦃fun i => ⌜i = i₀⌝⦄ parameters n
    ⦃⇓? x => fun i => ⌜ReadsAngles i₀ i
      ("<" :: (printPieces (commaPieces x.2 (x.1.map Param.pieces)) ++ [">"]))⌝⦄
  moreParameters : ∀ {i₀}, ⦃fun i => ⌜i = i₀⌝⦄ moreParameters n
    ⦃⇓? x => fun i => ⌜ReadsParameters i₀ i (x.1.map fun p => printPieces p.pieces) x.2⌝⦄
  parameter : ∀ {i₀}, ⦃fun i => ⌜i = i₀⌝⦄ parameter n
    ⦃⇓? x => fun i => ⌜ReadsParameter i₀ i (printPieces x.pieces)⌝⦄
  lifetimeBounds : ∀ {i₀} stop, Renders false (lifetimeBounds stop n) i₀
  returnType : ∀ {i₀}, Renders false (returnType n) i₀
  functionPointer : ∀ {i₀}, Renders false (functionPointer n) i₀
  functionArgument : ∀ {i₀}, Renders true (functionArgument n) i₀
  path : ∀ {i₀} inExpression role, ⦃fun i => ⌜i = i₀⌝⦄ path inExpression role n
    ⦃⇓? x => fun i => ⌜Reads false i₀ i x.printed ∧
      ∃ leading segments, x = .path role leading segments ∧ segments ≠ []⌝⦄
  segments : ∀ {i₀} inExpression, ⦃fun i => ⌜i = i₀⌝⦄ segments inExpression n
    ⦃⇓? x => fun i => ⌜Reads false i₀ i (printSegments x) ∧ x ≠ []⌝⦄
  segment : ∀ {i₀} inExpression, Renders false (segment inExpression n) i₀
  arguments : ∀ {i₀}, Renders false (arguments n) i₀
  moreArguments : ∀ {i₀}, ⦃fun i => ⌜i = i₀⌝⦄ moreArguments n
    ⦃⇓? x => fun i => ⌜ReadsArguments i₀ i (x.1.map fun a => (a.1, printPieces a.2)) x.2⌝⦄
  argument : ∀ {i₀}, ⦃fun i => ⌜i = i₀⌝⦄ argument n
    ⦃⇓? x => fun i => ⌜ReadsArgument i₀ i (x.1, printPieces x.2)⌝⦄
  qualifiedPath : ∀ {i₀} inExpression role, ⦃fun i => ⌜i = i₀⌝⦄ qualifiedPath inExpression role n
    ⦃⇓? x => fun i => ⌜ReadsPath i₀ i x⌝⦄
  constArgument : ∀ {i₀}, Renders false (constArgument n) i₀
  expression : ∀ {i₀}, Renders true (expression n) i₀
  moreOperands : ∀ {i₀}, Renders true (moreOperands n) i₀
  operand : ∀ {i₀}, Renders true (operand n) i₀
  trailers : ∀ {i₀}, Renders true (trailers n) i₀
  atom : ∀ {i₀}, Renders true (atom n) i₀
  elements : ∀ {i₀}, RendersAll (elements n) i₀
  block : ∀ {i₀}, Renders false (block n) i₀
  statements : ∀ {i₀}, Renders true (statements n) i₀
  attributes : ∀ {i₀}, Renders false (attributes n) i₀
  attributeBody : ∀ {i₀}, Renders true (attributeBody n) i₀

attribute [local spec] Renderings.type Renderings.pathType Renderings.parenthesized
  Renderings.moreBounds Renderings.bounds Renderings.boundsUntil Renderings.bound
  Renderings.traitBound Renderings.binder Renderings.parameters Renderings.moreParameters
  Renderings.parameter Renderings.lifetimeBounds Renderings.returnType Renderings.functionPointer
  Renderings.functionArgument Renderings.path Renderings.segments Renderings.segment
  Renderings.arguments Renderings.moreArguments Renderings.argument Renderings.qualifiedPath
  Renderings.constArgument Renderings.expression Renderings.moreOperands Renderings.operand
  Renderings.trailers Renderings.atom Renderings.elements Renderings.block Renderings.statements
  Renderings.attributes Renderings.attributeBody

section Step

variable {i₀ : Input} {n : Nat} (h : Renderings n)
include h

-- A path through a rule is left with the parts that were read on it, which the lemmas above put
-- together. No numbers are compared, so the search is kept from arithmetic.

/-! ### Types and bounds -/

theorem gives_type (plus : Bool) :
    ⦃fun i => ⌜i = i₀⌝⦄ type plus (n + 1) ⦃⇓? x => fun i => ⌜ReadsSum plus i₀ i x⌝⦄ := by
  unfold type
  mvcgen
  all_goals casesm* _ ∧ _
  all_goals simp_all [readsSum_iff]
  all_goals grind -lia -linarith [→ no_word, → only_isLifetime]

theorem gives_pathType (plus : Bool) (binder path : List Piece) :
    ⦃fun i => ⌜i = i₀⌝⦄ pathType plus binder path (n + 1)
    ⦃⇓? x => fun i => ⌜∀ j k, Binds j k binder → Reads false k i₀ (printPieces path) →
      Reads false j i (printPieces x)⌝⦄ := by
  unfold pathType
  mvcgen
  all_goals simp_all
  all_goals intros
  all_goals grind -lia -linarith [printPieces_nil]

theorem renders_parenthesized (plus : Bool) : Renders false (parenthesized plus (n + 1)) i₀ := by
  unfold parenthesized
  mvcgen
  all_goals simp_all
  all_goals grind -lia -linarith

theorem renders_moreBounds : Renders false (moreBounds (n + 1)) i₀ := by
  unfold moreBounds
  mvcgen
  all_goals simp_all
  all_goals grind -lia -linarith

theorem gives_bounds (plus : Bool) :
    ⦃fun i => ⌜i = i₀⌝⦄ bounds plus (n + 1) ⦃⇓? x => fun i => ⌜ReadsSum plus i₀ i x.1⌝⦄ := by
  unfold bounds
  mvcgen
  all_goals simp_all [readsSum_iff]
  all_goals grind -lia -linarith [→ readsTwo_of_plus, → tail_of_tookToken]

theorem renders_boundsUntil (stop : List Token → Bool) :
    Renders false (boundsUntil stop (n + 1)) i₀ := by
  unfold boundsUntil
  mvcgen
  all_goals simp_all
  all_goals grind -lia -linarith

theorem gives_bound :
    ⦃fun i => ⌜i = i₀⌝⦄ bound (n + 1) ⦃⇓? x => fun i => ⌜ReadsBound i₀ i x⌝⦄ := by
  unfold bound
  mvcgen
  all_goals simp_all [readsBound_iff]
  all_goals grind -lia -linarith [→ only_isLifetime]

theorem renders_traitBound : Renders false (traitBound (n + 1)) i₀ := by
  unfold traitBound
  refine gives_bind (gives_next _) fun bound j hj => ?_
  extract_lets called marked
  have hmarked : ∀ before k, Reads false i₀ k (printPieces before) →
      ⦃fun i => ⌜i = k⌝⦄ marked before ⦃⇓? x => fun i => ⌜Reads false i₀ i (printPieces x)⌝⦄ := by
    intro before k hbefore
    unfold marked
    refine gives_bind (gives_next _) fun _ l hl => ?_
    extract_lets followed
    have hfollowed : ∀ mark m, Reads false i₀ m (printPieces (before ++ mark)) →
        ⦃fun i => ⌜i = m⌝⦄ followed mark ⦃⇓? x => fun i => ⌜Reads false i₀ i (printPieces x)⌝⦄ := by
      intro mark m hmark
      unfold followed
      generalize before ++ mark = front at hmark ⊢
      mvcgen
      all_goals casesm* _ ∧ _, ∃ _, _
      all_goals simp_all [printed_applied, -printed_path]
      all_goals grind -lia -linarith [printPieces_nil]
    obtain ⟨-, rfl⟩ := hl
    split
    · refine gives_bind (gives_operator _) fun mark m hm => hfollowed mark m ?_
      rw [printPieces_append, hm.1]
      exact hbefore.trans (hm.2.2.2 (by decide))
    · exact hfollowed [] l (by simpa using hbefore)
  obtain ⟨-, rfl⟩ := hj
  split
  · exact gives_bind h.binder fun before k hk => hmarked before k hk.reads
  · exact hmarked [] j .refl

theorem gives_binder :
    ⦃fun i => ⌜i = i₀⌝⦄ binder (n + 1)
    ⦃⇓? x => fun i => ⌜Binds i₀ i x⌝⦄ := by
  unfold binder
  mvcgen
  next hi _ _ hfor _ _ hangles =>
    obtain rfl := hi
    exact .angles hfor.2 hangles (by simp [hfor.1])

theorem gives_parameters :
    ⦃fun i => ⌜i = i₀⌝⦄ parameters (n + 1)
    ⦃⇓? x => fun i => ⌜ReadsAngles i₀ i
      ("<" :: (printPieces (commaPieces x.2 (x.1.map Param.pieces)) ++ [">"]))⌝⦄ := by
  unfold parameters
  mvcgen
  all_goals simp_all
  all_goals grind -lia -linarith

theorem gives_moreParameters :
    ⦃fun i => ⌜i = i₀⌝⦄ moreParameters (n + 1)
    ⦃⇓? x => fun i => ⌜ReadsParameters i₀ i (x.1.map fun p => printPieces p.pieces) x.2⌝⦄ := by
  unfold moreParameters
  mvcgen
  all_goals simp_all
  all_goals grind -lia -linarith [List.isEmpty_map]

theorem gives_parameter :
    ⦃fun i => ⌜i = i₀⌝⦄ parameter (n + 1)
    ⦃⇓? x => fun i => ⌜ReadsParameter i₀ i (printPieces x.pieces)⌝⦄ := by
  unfold parameter
  mvcgen
  all_goals simp_all +zetaDelta [printPieces_param, Param.asArgument, boundPieces_nil]
  all_goals grind -lia -linarith [→ tookToken_of_isWord]

theorem renders_lifetimeBounds (stop : List Token → Bool) :
    Renders false (lifetimeBounds stop (n + 1)) i₀ := by
  unfold lifetimeBounds
  mvcgen
  all_goals simp_all +zetaDelta
  all_goals grind -lia -linarith

theorem renders_returnType : Renders false (returnType (n + 1)) i₀ := by
  unfold returnType
  mvcgen
  all_goals simp_all
  all_goals grind -lia -linarith

theorem renders_functionPointer : Renders false (functionPointer (n + 1)) i₀ := by
  unfold functionPointer
  mvcgen
  all_goals simp_all
  all_goals grind -lia -linarith [isLiteral]

theorem renders_functionArgument : Renders true (functionArgument (n + 1)) i₀ := by
  unfold functionArgument
  mvcgen
  all_goals simp_all +zetaDelta
  all_goals grind -lia -linarith

/-! ### Paths -/

theorem gives_path (inExpression : Bool) (role : PathRole) :
    ⦃fun i => ⌜i = i₀⌝⦄ path inExpression role (n + 1)
    ⦃⇓? x => fun i => ⌜Reads false i₀ i x.printed ∧
      ∃ leading segments, x = .path role leading segments ∧ segments ≠ []⌝⦄ := by
  unfold path
  mvcgen
  all_goals simp_all
  all_goals grind -lia -linarith

theorem gives_segments (inExpression : Bool) :
    ⦃fun i => ⌜i = i₀⌝⦄ segments inExpression (n + 1)
    ⦃⇓? x => fun i => ⌜Reads false i₀ i (printSegments x) ∧ x ≠ []⌝⦄ := by
  unfold segments
  mvcgen
  all_goals simp_all [printSegments_single, printSegments_cons]
  all_goals grind -lia -linarith

theorem renders_segment (inExpression : Bool) :
    Renders false (segment inExpression (n + 1)) i₀ := by
  unfold segment
  mvcgen
  all_goals simp_all
  all_goals grind -lia -linarith

theorem renders_arguments : Renders false (arguments (n + 1)) i₀ := by
  unfold arguments
  mvcgen
  all_goals simp_all
  all_goals grind -lia -linarith

theorem gives_moreArguments :
    ⦃fun i => ⌜i = i₀⌝⦄ moreArguments (n + 1)
    ⦃⇓? x => fun i => ⌜ReadsArguments i₀ i (x.1.map fun a => (a.1, printPieces a.2)) x.2⌝⦄ := by
  unfold moreArguments
  mvcgen
  all_goals simp_all
  all_goals grind -lia -linarith [List.isEmpty_map]

theorem gives_argument :
    ⦃fun i => ⌜i = i₀⌝⦄ argument (n + 1)
    ⦃⇓? x => fun i => ⌜ReadsArgument i₀ i (x.1, printPieces x.2)⌝⦄ := by
  unfold argument
  mvcgen
  all_goals simp_all +zetaDelta [printSegments_single]
  all_goals grind -lia -linarith [not_isLifetime, printPieces_associated]

theorem gives_qualifiedPath (inExpression : Bool) (role : PathRole) :
    ⦃fun i => ⌜i = i₀⌝⦄ qualifiedPath inExpression role (n + 1)
    ⦃⇓? x => fun i => ⌜ReadsPath i₀ i x⌝⦄ := by
  unfold qualifiedPath
  mvcgen
  all_goals simp_all [readsPath_iff]
  all_goals grind -lia -linarith

/-! ### Expressions -/

theorem renders_constArgument : Renders false (constArgument (n + 1)) i₀ := by
  unfold constArgument
  mvcgen
  all_goals simp_all
  all_goals grind -lia -linarith

theorem renders_expression : Renders true (expression (n + 1)) i₀ := by
  unfold expression
  mvcgen
  all_goals simp_all
  all_goals grind -lia -linarith

theorem renders_moreOperands : Renders true (moreOperands (n + 1)) i₀ := by
  unfold moreOperands
  mvcgen
  all_goals simp_all
  all_goals grind -lia -linarith

theorem renders_operand : Renders true (operand (n + 1)) i₀ := by
  unfold operand
  mvcgen
  all_goals simp_all
  all_goals grind -lia -linarith

theorem renders_trailers : Renders true (trailers (n + 1)) i₀ := by
  unfold trailers
  mvcgen
  all_goals simp_all
  all_goals grind -lia -linarith [printTokens, Token.printed]

theorem renders_atom : Renders true (atom (n + 1)) i₀ := by
  unfold atom
  mvcgen
  all_goals simp_all
  all_goals grind -lia -linarith

theorem renders_elements : RendersAll (elements (n + 1)) i₀ := by
  unfold elements
  mvcgen
  all_goals simp_all
  all_goals grind -lia -linarith

theorem renders_block : Renders false (block (n + 1)) i₀ := by
  unfold block
  mvcgen
  all_goals simp_all

theorem renders_statements : Renders true (statements (n + 1)) i₀ := by
  unfold statements
  mvcgen
  all_goals simp_all
  all_goals grind -lia -linarith

/-! ### Attributes -/

theorem renders_attributes : Renders false (attributes (n + 1)) i₀ := by
  unfold attributes
  mvcgen
  all_goals simp_all
  all_goals grind -lia -linarith

theorem renders_attributeBody : Renders true (attributeBody (n + 1)) i₀ := by
  unfold attributeBody
  mvcgen
  all_goals simp_all
  all_goals grind -lia -linarith [printTokens, Token.printed]

end Step

/-- However many rules may be entered, what is printed of code is what is read of it. -/
theorem renderings (n : Nat) : Renderings n := by
  induction n with
  | zero => constructor <;> intros <;> exact gives_tooDeep
  | succ n h =>
    exact
      { type := gives_type h
        pathType := gives_pathType h
        parenthesized := renders_parenthesized h
        moreBounds := renders_moreBounds h
        bounds := gives_bounds h
        boundsUntil := renders_boundsUntil h
        bound := gives_bound h
        traitBound := renders_traitBound h
        binder := gives_binder h
        parameters := gives_parameters h
        moreParameters := gives_moreParameters h
        parameter := gives_parameter h
        lifetimeBounds := renders_lifetimeBounds h
        returnType := renders_returnType h
        functionPointer := renders_functionPointer h
        functionArgument := renders_functionArgument h
        path := gives_path h
        segments := gives_segments h
        segment := renders_segment h
        arguments := renders_arguments h
        moreArguments := gives_moreArguments h
        argument := gives_argument h
        qualifiedPath := gives_qualifiedPath h
        constArgument := renders_constArgument h
        expression := renders_expression h
        moreOperands := renders_moreOperands h
        operand := renders_operand h
        trailers := renders_trailers h
        atom := renders_atom h
        elements := renders_elements h
        block := renders_block h
        statements := renders_statements h
        attributes := renders_attributes h
        attributeBody := renders_attributeBody h }

end FlatUnion.Code
