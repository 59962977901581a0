import FlatUnion.Derive.Argument

/-!
# Arguments spread over attributes

An argument as it should be written is `crate` with a text, or another name and behind it any
tokens but commas (`Argument`). Whatever stands in an attribute, a round reads such an argument with
the comma behind it, or it reads all that is left and says what is wrong with it (`Round`,
`round_next`). So the tokens of an attribute are cut into consecutive parts, and what is found in
them is found in each part alone (`flatten_parts`, `all_eq_map_parts`).

All that is found in the attributes of a declaration is noticed one after another
(`Arguments.read_eq`) : the first value of `crate` is kept, and the rest of the attributes is
complained about in the order in which it is written.

The main statement is `read_annotations`. Arguments as they should be written may be spread over any
attributes : `crate` is what the first argument for it says, and every other argument is complained
about exactly once.
-/

namespace FlatUnion.Derive

open Code

/-! ## Commas -/

/-- Whether a token is a comma. -/
def isComma : Token → Bool
  | .punct ',' _ => true
  | _ => false

theorem behindComma_of_whole {ts : List Token} (h : ∀ t ∈ ts, isComma t = false) :
    behindComma ts = [] := by
  fun_induction behindComma ts with
  | case1 => rfl
  | case2 joint rest => exact absurd (h _ (.head _)) Bool.true_eq_false.mp
  | case3 t rest _ ih => exact ih fun t ht => h t (.tail _ ht)

theorem behindComma_append {ts : List Token} (h : ∀ t ∈ ts, isComma t = false) (joint : Bool)
    (rest : List Token) : behindComma (ts ++ .punct ',' joint :: rest) = rest := by
  fun_induction behindComma ts with
  | case1 => rfl
  | case2 joint' ts => exact absurd (h _ (.head _)) Bool.true_eq_false.mp
  | case3 t ts hne ih =>
    rw [List.cons_append, behindComma.eq_3 _ _ hne]
    exact ih fun t ht => h t (.tail _ ht)

/-- Tokens hold no comma, or they can be cut at their first comma. -/
theorem whole_or_cut (ts : List Token) :
    (∀ t ∈ ts, isComma t = false) ∨
      ∃ front joint rest, ts = front ++ .punct ',' joint :: rest ∧
        ∀ t ∈ front, isComma t = false := by
  induction ts with
  | nil => exact .inl nofun
  | cons t ts ih =>
    by_cases ht : ∃ joint, t = .punct ',' joint
    · obtain ⟨joint, rfl⟩ := ht
      exact .inr ⟨[], joint, ts, rfl, nofun⟩
    · have hcomma : isComma t = false := by
        unfold isComma
        split
        · exact absurd ⟨_, rfl⟩ ht
        · rfl
      rcases ih with hts | ⟨front, joint, rest, rfl, hfront⟩
      · exact .inl (List.forall_mem_cons.2 ⟨hcomma, hts⟩)
      · exact .inr ⟨t :: front, joint, rest, rfl, List.forall_mem_cons.2 ⟨hcomma, hfront⟩⟩

/-! ## Arguments as they should be written -/

/-- An argument as it should be written : `crate`, an equals sign and a literal that is a text, or
another name and any tokens but commas. -/
inductive Argument
  | crate (value : CrateText) (literal : String) (joint : Bool)
    (holds : textOfLiteral? literal = some (value.text, value.suffix))
  | other (name : String) (more : List Token) (unlike : name ≠ "crate")
    (whole : ∀ t ∈ more, isComma t = false)

namespace Argument

def tokens : Argument → List Token
  | crate _ literal joint _ => [.ident "crate", .punct '=' joint, .literal literal]
  | other name more _ _ => .ident name :: more

/-- The value that an argument has for `crate`. -/
def value? : Argument → Option CrateText
  | crate value .. => some value
  | other .. => none

/-- What an argument is found to be. -/
def finding : Argument → Finding
  | crate value .. => .crate value
  | other name .. => .unrecognized name

/-- What is said about an argument that is of no use. -/
def complaint : Argument → Diagnostic
  | crate .. => .crateSetBefore
  | other name .. => .unrecognized name

end Argument

/-! ## Rounds -/

/-- A round of reading : the tokens in front of it, what it finds, and the tokens that it leaves. It
reads an argument as it should be written, with the comma behind it if there is one, or it reads all
the tokens and complains. -/
inductive Round : List Token → Finding → List Token → Prop
  | last (a : Argument) : Round a.tokens a.finding []
  | argument (a : Argument) (joint : Bool) (rest : List Token) :
    Round (a.tokens ++ .punct ',' joint :: rest) a.finding rest
  | broken {rest : List Token} {c : Complaint} (h : CrateText.read rest = .error c) :
    Round (.ident "crate" :: rest) (.broken c) []
  | noName {ts : List Token} (h : isAnyWord ts = false) :
    Round ts (.noName (nameMissing ts.isEmpty)) []

/-- A value of `crate` is read from an equals sign and a literal that is a text, at the end or with
a comma behind them. -/
theorem CrateText.read_eq_ok {ts rest : List Token} {value : CrateText} :
    CrateText.read ts = .ok (value, rest) ↔ ∃ joint literal,
      textOfLiteral? literal = some (value.text, value.suffix) ∧
        (ts = [.punct '=' joint, .literal literal] ∧ rest = [] ∨
          ∃ comma, ts = .punct '=' joint :: .literal literal :: .punct ',' comma :: rest) := by
  obtain ⟨text, suffix⟩ := value
  constructor
  · intro h
    unfold CrateText.read at h
    grind
  · rintro ⟨joint, literal, hliteral, ⟨rfl, rfl⟩ | ⟨comma, rfl⟩⟩ <;>
      simp [CrateText.read, hliteral]

namespace Finding

theorem next_argument (a : Argument) : next a.tokens = (a.finding, []) := by
  cases a with
  | crate value literal joint holds =>
    have hread := CrateText.read_eq_ok.2 ⟨joint, literal, holds, .inl ⟨rfl, rfl⟩⟩
    simp [Argument.tokens, Argument.finding, next, hread]
  | other name more unlike whole =>
    simp [Argument.tokens, Argument.finding, next, unlike, behindComma_of_whole whole]

theorem next_argument_comma (a : Argument) (joint : Bool) (rest : List Token) :
    next (a.tokens ++ .punct ',' joint :: rest) = (a.finding, rest) := by
  cases a with
  | crate value literal joint' holds =>
    have hread :
        CrateText.read (.punct '=' joint' :: .literal literal :: .punct ',' joint :: rest) =
          .ok (value, rest) := CrateText.read_eq_ok.2 ⟨joint', literal, holds, .inr ⟨joint, rfl⟩⟩
    simp [Argument.tokens, Argument.finding, next, hread]
  | other name more unlike whole =>
    simp [Argument.tokens, Argument.finding, next, unlike, behindComma_append whole]

/-- What a round can be. -/
theorem round_next (ts : List Token) : Round ts (next ts).1 (next ts).2 := by
  unfold next
  split
  · next name rest =>
    split
    · next hname =>
      subst hname
      split
      · next value left h =>
        obtain ⟨joint, literal, holds, ⟨rfl, rfl⟩ | ⟨comma, rfl⟩⟩ := CrateText.read_eq_ok.1 h
        · exact .last (.crate value literal joint holds)
        · exact .argument (.crate value literal joint holds) comma left
      · next c h => exact .broken h
    · next hname =>
      rcases whole_or_cut rest with hwhole | ⟨front, joint, left, rfl, hwhole⟩
      · rw [behindComma_of_whole hwhole]
        exact .last (.other name rest hname hwhole)
      · rw [behindComma_append hwhole]
        exact .argument (.other name front hname hwhole) joint left
  · next hword =>
    refine .noName ?_
    unfold isAnyWord
    split
    · exact absurd rfl (hword _ _)
    · rfl

/-! ## Parts -/

/-- What a round takes off the front. -/
def taken (ts : List Token) : List Token := ts.take (ts.length - (next ts).2.length)

/-- The parts that the rounds take. -/
def parts (ts : List Token) : List (List Token) :=
  if h : ts = [] then []
  else
    have := next_shorter h
    taken ts :: parts (next ts).2
termination_by ts.length

theorem taken_of_append {part rest : List Token} {f : Finding}
    (h : next (part ++ rest) = (f, rest)) : taken (part ++ rest) = part := by
  rw [taken, h]
  simp

/-- A round cuts tokens in two, and needs only the front of them for what it finds. -/
theorem exists_taken (ts : List Token) :
    ts = taken ts ++ (next ts).2 ∧ (next (taken ts)).1 = (next ts).1 := by
  have hround := round_next ts
  cases hnext : next ts with
  | mk f rest =>
    rw [hnext] at hround
    -- A round that leaves nothing takes all.
    have hall : rest = [] → ts = taken ts ++ rest ∧ (next (taken ts)).1 = f := by
      rintro rfl
      have htaken : taken ts = ts := by
        have h := hnext
        rw [← List.append_nil ts] at h
        simpa using taken_of_append h
      rw [htaken, hnext, List.append_nil]
      exact ⟨rfl, rfl⟩
    cases hround with
    | last a => exact hall rfl
    | broken h => exact hall rfl
    | noName h => exact hall rfl
    | argument a joint =>
      have hcut : a.tokens ++ .punct ',' joint :: rest =
          (a.tokens ++ [.punct ',' joint]) ++ rest := by simp
      rw [hcut] at hnext ⊢
      rw [taken_of_append hnext, next_argument_comma]
      exact ⟨rfl, rfl⟩

/-- The parts follow one another. -/
theorem flatten_parts (ts : List Token) : (parts ts).flatten = ts := by
  induction ts using parts.induct with
  | case1 => rw [parts, dif_pos rfl, List.flatten_nil]
  | case2 ts h _ ih => rw [parts, dif_neg h, List.flatten_cons, ih, ← (exists_taken ts).1]

/-- What is found in the tokens of an attribute is found in its parts. -/
theorem all_eq_map_parts (ts : List Token) :
    all ts = (parts ts).map fun part => (next part).1 := by
  induction ts using parts.induct with
  | case1 => rw [all, dif_pos rfl, parts, dif_pos rfl, List.map_nil]
  | case2 ts h _ ih =>
    rw [all, dif_neg h, parts, dif_neg h, List.map_cons, ih, (exists_taken ts).2]

theorem all_nil : all [] = [] := by
  rw [all, dif_pos rfl]

theorem all_of_next {ts rest : List Token} {f : Finding} (h : ts ≠ [])
    (hnext : next ts = (f, rest)) :
    all ts = f :: all rest := by
  rw [all, dif_neg h]
  simp only [hnext]

end Finding

/-! ## Notices -/

/-- What is noticed in the attributes of a declaration. -/
inductive Notice
  /-- An attribute has no list of arguments. -/
  | bare
  | found (f : Finding)

namespace Notice

/-- What is said about a notice, given that `crate` is set before it or is not. -/
def diagnostics (isSet : Bool) : Notice → List Diagnostic
  | bare => [.noArguments]
  | found f => f.diagnostics isSet

/-- The value that a notice has for `crate`. -/
def value? : Notice → Option CrateText
  | bare => none
  | found f => f.value?

/-- What is noticed in an attribute, part by part. -/
def ofAttribute (source : Attribute) : List Notice :=
  if source.path.name? = some "flat_tag" then
    match source.body with
    | .list _ tokens => (Finding.parts tokens).map fun part => .found (Finding.next part).1
    | _ => [.bare]
  else []

theorem ofAttribute_list {source : Attribute} {d : Delimiter} {tokens : List Token}
    (hname : source.path.name? = some "flat_tag") (hbody : source.body = .list d tokens) :
    ofAttribute source = (Finding.all tokens).map .found := by
  rw [ofAttribute, if_pos hname, hbody, Finding.all_eq_map_parts, List.map_map]
  rfl

/-- What is said about some notices, one after another. -/
def report : (isSet : Bool) → List Notice → List Diagnostic
  | _, [] => []
  | isSet, n :: rest => n.diagnostics isSet ++ report (isSet || n.value?.isSome) rest

theorem report_append (isSet : Bool) (ns ms : List Notice) :
    report isSet (ns ++ ms) =
      report isSet ns ++ report (isSet || ns.any fun n => n.value?.isSome) ms := by
  induction ns generalizing isSet with
  | nil => simp [report]
  | cons n ns ih => simp [report, ih, Bool.or_assoc]

end Notice

namespace Arguments

/-- Adds a notice. -/
def notice (a : Arguments) (n : Notice) : Arguments :=
  { crate := a.crate.or n.value?
    diagnostics := a.diagnostics ++ n.diagnostics a.crate.isSome }

theorem foldl_notice (a : Arguments) (ns : List Notice) :
    ns.foldl notice a =
      { crate := a.crate.or (ns.findSome? Notice.value?)
        diagnostics := a.diagnostics ++ Notice.report a.crate.isSome ns } := by
  induction ns generalizing a with
  | nil => simp [Notice.report]
  | cons n ns ih =>
    rw [List.foldl_cons, ih, List.findSome?_cons, Notice.report]
    obtain ⟨crate, diagnostics⟩ := a
    cases crate <;> cases hvalue : n.value? <;> simp [notice, hvalue]

theorem addAttribute_eq (a : Arguments) (source : Attribute) :
    a.addAttribute source = (Notice.ofAttribute source).foldl notice a := by
  unfold addAttribute Notice.ofAttribute
  split
  · cases source.body with
    | list d tokens =>
      simp only [Finding.all_eq_map_parts, List.foldl_map]
      rfl
    | _ => simp [notice, Notice.value?, Notice.diagnostics]
  · rfl

/-- What the attributes ask for is what the first value for `crate` says, and what is said about
them is said about each notice in turn. -/
theorem read_eq (attributes : List Attribute) :
    read attributes =
      { crate := (attributes.flatMap Notice.ofAttribute).findSome? Notice.value?
        diagnostics := Notice.report false (attributes.flatMap Notice.ofAttribute) } := by
  have hread : read attributes = (attributes.flatMap Notice.ofAttribute).foldl notice {} := by
    rw [List.foldl_flatMap]
    simp only [← addAttribute_eq]
    rfl
  rw [hread, foldl_notice]
  simp

end Arguments

/-! ## Lists of arguments -/

/-- Arguments with a comma behind each of them. -/
def withCommas (arguments : List (Argument × Bool)) : List Token :=
  arguments.flatMap fun a => a.1.tokens ++ [.punct ',' a.2]

/-- The arguments in an attribute, all of them as they should be written : those with a comma behind
them, and perhaps a last one without. -/
structure ArgumentList where
  front : List (Argument × Bool)
  last : Option Argument

namespace ArgumentList

def tokens (list : ArgumentList) : List Token :=
  withCommas list.front ++ list.last.toList.flatMap Argument.tokens

def arguments (list : ArgumentList) : List Argument := list.front.map (·.1) ++ list.last.toList

end ArgumentList

theorem Argument.tokens_ne_nil (a : Argument) : a.tokens ≠ [] := by
  cases a <;> exact List.cons_ne_nil _ _

theorem withCommas_cons (a : Argument × Bool) (arguments : List (Argument × Bool))
    (rest : List Token) : withCommas (a :: arguments) ++ rest =
      a.1.tokens ++ .punct ',' a.2 :: (withCommas arguments ++ rest) := by
  simp [withCommas]

/-- Arguments as they should be written are found to be what they are, whatever stands behind. -/
theorem all_withCommas (arguments : List (Argument × Bool)) (rest : List Token) :
    Finding.all (withCommas arguments ++ rest) =
      arguments.map (·.1.finding) ++ Finding.all rest := by
  induction arguments with
  | nil => rfl
  | cons a arguments ih =>
    rw [withCommas_cons, Finding.all_of_next (by simp) (Finding.next_argument_comma a.1 a.2 _), ih]
    rfl

theorem all_argumentList (list : ArgumentList) :
    Finding.all list.tokens = list.arguments.map Argument.finding := by
  obtain ⟨front, last⟩ := list
  rw [ArgumentList.tokens, all_withCommas, ArgumentList.arguments, List.map_append, List.map_map]
  congr 1
  cases last with
  | none => exact Finding.all_nil
  | some a =>
    have hall := Finding.all_of_next a.tokens_ne_nil (Finding.next_argument a)
    simpa [Finding.all_nil] using hall

/-! ## Arguments in several attributes -/

/-- Whether an argument is for `crate`. -/
def Argument.isCrate (a : Argument) : Bool := a.value?.isSome

/-- Of some arguments all are complained about, but for the first one that sets `crate`. -/
theorem report_arguments (isSet : Bool) (arguments : List Argument) :
    Notice.report isSet (arguments.map fun a => .found a.finding) =
      (if isSet then arguments else arguments.eraseP Argument.isCrate).map Argument.complaint := by
  induction arguments generalizing isSet with
  | nil => cases isSet <;> rfl
  | cons a arguments ih =>
    rw [List.map_cons, Notice.report, ih]
    cases a <;> cases isSet <;> rfl

/-- An attribute in front of a declaration, with arguments as they should be written or not looked
at. -/
inductive Annotation
  | holding (path : Piece) (d : Delimiter) (list : ArgumentList)
    (named : path.name? = some "flat_tag")
  | other (skipped : Attribute) (unnamed : skipped.path.name? ≠ some "flat_tag")

namespace Annotation

/-- The attribute as it is read. -/
def source : Annotation → Attribute
  | holding path d list _ => ⟨path, .list d list.tokens⟩
  | other skipped _ => skipped

def arguments : Annotation → List Argument
  | holding _ _ list _ => list.arguments
  | other .. => []

end Annotation

theorem Notice.ofAttribute_source (a : Annotation) :
    ofAttribute a.source = a.arguments.map fun b => .found b.finding := by
  cases a with
  | holding path d list named =>
    refine (ofAttribute_list named rfl).trans ?_
    rw [all_argumentList, List.map_map]
    rfl
  | other skipped unnamed => exact if_neg unnamed

/-- Let arguments as they should be written be spread over attributes in any way, among other
attributes and with or without a comma behind the last one. The value of `crate` is that of the
first argument for it. This argument apart, each one is complained about once, in the order in which
they are written : that `crate` is set before, or that its name is not known. So nothing depends on
how the arguments are spread. -/
theorem read_annotations (annotations : List Annotation) :
    Arguments.read (annotations.map Annotation.source) =
        { crate := (annotations.flatMap Annotation.arguments).findSome? Argument.value?
          diagnostics := ((annotations.flatMap Annotation.arguments).eraseP Argument.isCrate).map
            Argument.complaint } ∧
      ∀ others : List Annotation,
        others.flatMap Annotation.arguments = annotations.flatMap Annotation.arguments →
          Arguments.read (others.map Annotation.source) =
            Arguments.read (annotations.map Annotation.source) := by
  have hread : ∀ as : List Annotation, Arguments.read (as.map Annotation.source) =
      { crate := (as.flatMap Annotation.arguments).findSome? Argument.value?
        diagnostics :=
          ((as.flatMap Annotation.arguments).eraseP Argument.isCrate).map Argument.complaint } := by
    intro as
    have hnotices : (as.map Annotation.source).flatMap Notice.ofAttribute =
        (as.flatMap Annotation.arguments).map fun b => .found b.finding := by
      rw [List.flatMap_map, List.map_flatMap]
      simp only [Notice.ofAttribute_source]
    have hvalue : (Notice.value? ∘ fun b : Argument => .found b.finding) = Argument.value? := by
      funext b
      cases b <;> rfl
    rw [Arguments.read_eq, hnotices, report_arguments, List.findSome?_map, hvalue]
    rfl
  exact ⟨hread annotations, fun others h => by rw [hread, hread, h]⟩

end FlatUnion.Derive
