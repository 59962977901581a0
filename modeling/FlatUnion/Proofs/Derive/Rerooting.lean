import FlatUnion.Proofs.Derive.Heads

/-!
# Derived code for another root

Derived code refers to the library by paths that begin with its root, which is `::serde_flat_tag` if
the declaration sets none. A declaration that sets another root has the same derived code, with the
other path in place of every `::serde_flat_tag` (`rerooted`).

Replacing the path in one piece of printed code after another gives the same as replacing it in the
whole, as long as no path begins in one piece and ends in the next (`Rerooted`). So it is enough to
follow the pieces that derived code is put together from. What they are put together with is tagged
for `gcongr`, and what it leaves are words, phrases and paths. Where no implementation can be made
for one root, none can be made for another (`Alike`).

The main statement is `alike_items_of_tokens`.
-/

namespace FlatUnion.Derive

open Code
open Soundness (Sound)

/-! ## Alike outcomes -/

/-- Outcomes that are the same failure, or values that are related. -/
inductive Alike {α β : Type} (R : α → β → Prop) : Except Complaint α → Except Complaint β → Prop
  | error (c : Complaint) : Alike R (.error c) (.error c)
  | ok {x : α} {y : β} (h : R x y) : Alike R (.ok x) (.ok y)

namespace Alike

variable {α β γ δ : Type} {R : α → β → Prop} {S : γ → δ → Prop} {x : Except Complaint α}
  {y : Except Complaint β}

theorem map (h : Alike R x y) {f : α → γ} {g : β → δ} (hfg : ∀ a b, R a b → S (f a) (g b)) :
    Alike S (x.map f) (y.map g) := by
  cases h with
  | error c => exact .error c
  | ok h => exact .ok (hfg _ _ h)

theorem bind (h : Alike R x y) {f : α → Except Complaint γ} {g : β → Except Complaint δ}
    (hfg : ∀ a b, R a b → Alike S (f a) (g b)) : Alike S (x >>= f) (y >>= g) := by
  cases h with
  | error c => exact .error c
  | ok h => exact hfg _ _ h

end Alike

/-! ## Renamed code -/

/-- The name of the library, in the path that is used if the declaration sets none. -/
def libraryName : String := "serde_flat_tag"

mutual

/-- Whether a token is called by a name, or one inside of it is. -/
def mentions (name : String) : Token → Bool
  | .ident s | .lifetime s | .literal s => s = name
  | .punct _ _ => false
  | .group _ tokens => anyMentions name tokens

/-- Whether one of some tokens is called by a name. -/
def anyMentions (name : String) : List Token → Bool
  | [] => false
  | t :: rest => mentions name t || anyMentions name rest

end

/-- Code in which another path stands for every `::serde_flat_tag`. -/
def rerooted (root : Printed) : Printed → Printed
  | ":" :: ":" :: "serde_flat_tag" :: rest => root ++ rerooted root rest
  | t :: rest => t :: rerooted root rest
  | [] => []

/-- Code does not begin with the name of the library, nor with a colon and that name. So no path to
the library ends in it that begins in front of it. -/
def Separate (p : Printed) : Prop := ¬ [libraryName] <+: p ∧ ¬ [":", libraryName] <+: p

theorem separate_nil : Separate [] := by simp [Separate]

theorem Separate.cons {t : String} {p : Printed} (ht : t ≠ libraryName) (hp : Separate p) :
    Separate (t :: p) := by
  simp only [Separate, List.cons_prefix_cons, List.nil_prefix, and_true] at hp ⊢
  exact ⟨fun h => ht h.symm, fun h => hp.1 h.2⟩

theorem rerooted_cons {root p : Printed} {t : String} (hp : Separate p) :
    rerooted root (t :: p) = t :: rerooted root p := by
  rw [rerooted]
  rintro rest rfl rfl
  exact hp.2 (by simp [libraryName])

/-- Renaming the library in some code gives other code, whatever stands behind it. -/
structure Rerooted (root p q : Printed) : Prop where
  renames : ∀ {rest}, Separate rest → rerooted root (p ++ rest) = q ++ rerooted root rest
  separate : ∀ {rest}, Separate rest → Separate (p ++ rest)
  absent : libraryName ∉ q

namespace Rerooted

variable {root p p' q q' : Printed}

@[simp]
theorem nil : Rerooted root [] [] := ⟨fun _ => rfl, id, by simp⟩

@[gcongr]
theorem append (h : Rerooted root p q) (h' : Rerooted root p' q') :
    Rerooted root (p ++ p') (q ++ q') where
  renames hrest := by
    rw [List.append_assoc, h.renames (h'.separate hrest), h'.renames hrest, List.append_assoc]
  separate hrest := by
    rw [List.append_assoc]
    exact h.separate (h'.separate hrest)
  absent := by simp [h.absent, h'.absent]

theorem single {t : String} (ht : t ≠ libraryName) : Rerooted root [t] [t] :=
  ⟨rerooted_cons, .cons ht, by simpa using ht.symm⟩

@[gcongr]
theorem cons {t : String} (ht : t ≠ libraryName) (h : Rerooted root p q) :
    Rerooted root (t :: p) (t :: q) :=
  (single ht).append h

/-- Code that does not name the library stays as it is. -/
theorem same (h : libraryName ∉ p) : Rerooted root p p := by
  induction p with
  | nil => exact nil
  | cons t p ih =>
    rw [List.mem_cons, not_or] at h
    exact .cons (Ne.symm h.1) (ih h.2)

/-- A phrase none of whose words is the name of the library stays as it is. It is given by its
letters, as they are decided upon much faster than its text. -/
theorem phrase {cs : List Char} (h : libraryName ∉ wordsBehind [] cs) :
    Rerooted root (Derive.phrase (String.ofList cs)) (Derive.phrase (String.ofList cs)) := by
  rw [Derive.phrase, String.toList_ofList]
  exact .same h

theorem enclosed (d : Delimiter) (h : Rerooted root p q) :
    Rerooted root (Printed.enclosed d p) (Printed.enclosed d q) := by
  refine .cons ?_ (h.append (single ?_)) <;> cases d <;> decide

theorem flatten_map {α : Type} {xs : List α} {f g : α → Printed}
    (h : ∀ x ∈ xs, Rerooted root (f x) (g x)) :
    Rerooted root (xs.map f).flatten (xs.map g).flatten := by
  induction xs with
  | nil => exact nil
  | cons x xs ih =>
    obtain ⟨hx, hxs⟩ := List.forall_mem_cons.1 h
    exact hx.append (ih hxs)

theorem eq (h : Rerooted root p q) : rerooted root p = q := by
  have heq := h.renames separate_nil
  rwa [List.append_nil, rerooted, List.append_nil] at heq

end Rerooted

/-! ## Roots -/

theorem isRoot_defaultRoot : IsRoot defaultRoot := ⟨_, _, _, _, rfl⟩

theorem IsRoot.extend {p : Piece} (names : List String) : IsRoot p → IsRoot (p.extend names)
  | ⟨_, _, _, _, h⟩ => ⟨_, _, _, _, by rw [h, Piece.extend, List.cons_append]⟩

theorem printSegments_behind (s : String × List Piece) (segments : List (String × List Piece))
    (name : String) (arguments : List Piece) :
    printSegments (s :: segments ++ [(name, arguments)]) =
      printSegments (s :: segments) ++ pathSeparator ++ name :: printPieces arguments := by
  induction segments generalizing s with
  | nil => simp [printSegments]
  | cons s' segments ih =>
    simp only [List.cons_append, printSegments] at ih ⊢
    simp [ih]

theorem printed_extend_single {p : Piece} (hp : IsRoot p) (name : String) :
    (p.extend [name]).printed = p.printed ++ pathSeparator ++ [name] := by
  obtain ⟨role, leading, s, segments, rfl⟩ := hp
  simp only [Piece.extend, Piece.printed, List.map_cons, List.map_nil, printSegments_behind]
  simp [printPieces]

/-- A path that goes on is printed as the path and the names behind it. -/
theorem printed_extend {p : Piece} (hp : IsRoot p) (names : List String) :
    (p.extend names).printed = p.printed ++ names.flatMap fun name => pathSeparator ++ [name] := by
  induction names generalizing p with
  | nil =>
    obtain ⟨role, leading, s, segments, rfl⟩ := hp
    simp [Piece.extend]
  | cons name names ih =>
    have hsplit : p.extend (name :: names) = (p.extend [name]).extend names :=
      extend_append p [name] names
    rw [hsplit, ih (hp.extend _), printed_extend_single hp]
    simp

theorem printed_lasting {p : Piece} (hp : IsRoot p) (name life : String) :
    (lasting (p.extend [name]) life).printed =
      (p.extend [name]).printed ++ ["<", lifetimeText life, ">"] := by
  obtain ⟨role, leading, s, segments, rfl⟩ := hp
  simp only [lasting, Piece.extend, Piece.applied, Piece.printed, List.map_cons, List.map_nil,
    List.dropLast_concat, List.getLast?_concat, Option.toList_some, printSegments_behind]
  simp [printPieces, Piece.printed, Piece.punct, Token.printed]

/-! ## Texts -/

theorem singleton_ne (c : Char) : String.singleton c ≠ libraryName := by
  intro h
  have hlength := congrArg String.length h
  rw [String.length_singleton] at hlength
  exact absurd hlength (by decide)

theorem lifetimeText_ne (name : String) : lifetimeText name ≠ libraryName := by
  intro h
  have hhead := congrArg (fun s => s.toList.head?) h
  simp [lifetimeText, libraryName] at hhead

@[simp]
theorem quoted_ne_libraryName (s : String) : quoted s ≠ libraryName :=
  Pattern.quoted_ne (by decide)

@[simp]
theorem tagEnum_ne (d : Declaration) : d.tagEnum ≠ libraryName := by
  intro h
  have hhead := congrArg (fun s => s.toList.head?) h
  simp [Declaration.tagEnum, libraryName] at hhead

@[simp]
theorem append_usize_ne (s : String) : s ++ "usize" ≠ libraryName := by
  intro h
  have hlast := congrArg (fun s => s.toList.getLast?) h
  simp [libraryName] at hlast

theorem FirstFree.ne_libraryName {g : Generics} {life : String} (h : FirstFree g "de" life) :
    life ≠ libraryName := by
  cases h with
  | hint => decide
  | letter => exact singleton_ne _
  | number =>
    intro h
    have hhead := congrArg (fun s => s.toList.head?) h
    simp [libraryName] at hhead

/-! ## Paths -/

/-- A path that can stand for that of the library : it does not name the library itself. -/
structure Replaces (root : Piece) : Prop where
  isRoot : IsRoot root
  absent : libraryName ∉ root.printed

section Paths

variable {root : Piece} (hroot : Replaces root)
include hroot

theorem rerooted_defaultRoot : Rerooted root.printed defaultRoot.printed root.printed where
  renames _ := rfl
  separate _ := by
    simp [Separate, defaultRoot, printSegments, printPieces, libraryName]
  absent := hroot.absent

theorem rerooted_extend {names : List String} (hnames : libraryName ∉ names) :
    Rerooted root.printed (defaultRoot.extend names).printed (root.extend names).printed := by
  rw [printed_extend isRoot_defaultRoot, printed_extend hroot.isRoot]
  refine (rerooted_defaultRoot hroot).append (.same ?_)
  simp only [List.mem_flatMap, List.mem_append, List.mem_singleton, not_exists, not_and, not_or]
  intro name hname
  exact ⟨by decide, fun h => hnames (h ▸ hname)⟩

theorem rerooted_lasting (names : List String) (name life : String)
    (hnames : libraryName ∉ names ++ [name]) :
    Rerooted root.printed (lasting (defaultRoot.extend (names ++ [name])) life).printed
      (lasting (root.extend (names ++ [name])) life).printed := by
  have h := rerooted_extend hroot hnames
  rw [extend_append, extend_append] at h ⊢
  rw [printed_lasting (isRoot_defaultRoot.extend _), printed_lasting (hroot.isRoot.extend _)]
  exact h.append (.cons (by decide) (.cons (lifetimeText_ne life) (.single (by decide))))

end Paths

/-! ## Code of the declaration -/

section Unnamed

/-- Nothing is called like the library. -/
local instance unnamed : Spelling where
  Name name := name ≠ libraryName
  Leaf text := text ≠ libraryName
  const := by decide
  mark c _ := singleton_ne c

section Own

variable {root : Printed} {d : Declaration}

theorem composes_rerooted (root : Printed) : Composes fun p => Rerooted root p p where
  nil := .nil
  name h := .single h
  leaf h := .single h
  lifetime name := .single (lifetimeText_ne name)
  separator := .same (by decide)
  append := .append
  enclosed := .enclosed

theorem rerooted_pieces {ps : List Piece} (h : Sound ps) :
    Rerooted root (printPieces ps) (printPieces ps) :=
  (composes_rerooted root).pieces h

theorem rerooted_printedAs {g : Generics} {print : Param → List Piece}
    (h : ∀ p ∈ g.params, Sound (print p)) :
    Rerooted root (g.printedAs print) (g.printedAs print) := by
  rw [Generics.printedAs]
  split
  · exact .nil
  · exact rerooted_pieces (by simp [sound_commaPieces (sound_printedParams h)])

theorem rerooted_printedHead {g : Generics} (h : Sound g) :
    Rerooted root g.printedHead g.printedHead :=
  rerooted_printedAs (sound_headPieces h)

theorem rerooted_type (hd : Sound d) : Rerooted root d.type d.type :=
  .cons hd.1 (rerooted_printedAs fun p hp => sound_asArgument (hd.2.1 p hp).1)

theorem rerooted_memberOf {type name : String} (htype : type ≠ libraryName)
    (hname : name ≠ libraryName) : Rerooted root (memberOf type name) (memberOf type name) :=
  .cons htype (.cons (by decide) (.cons (by decide) (.single hname)))

theorem rerooted_pattern {v : Variant} (hv : Sound v) {bound : String}
    (hbound : bound ≠ libraryName) : Rerooted root (v.pattern bound) (v.pattern bound) := by
  obtain ⟨name, field, payload⟩ := v
  obtain ⟨hname, hfield, -⟩ := hv
  refine (rerooted_memberOf (by decide) hname).append ?_
  cases field with
  | none => exact .enclosed .parenthesis (.single hbound)
  | some field =>
    exact .enclosed .brace (.cons (hfield field rfl) (.cons (by decide) (.single hbound)))

end Own

namespace Rerooted

variable {root p p' q q' : Printed}

@[gcongr]
theorem parenthesized (h : Rerooted root p q) :
    Rerooted root (Derive.parenthesized p) (Derive.parenthesized q) :=
  .enclosed .parenthesis h

@[gcongr]
theorem bracketed (h : Rerooted root p q) :
    Rerooted root (Derive.bracketed p) (Derive.bracketed q) :=
  .enclosed .bracket h

@[gcongr]
theorem braced (h : Rerooted root p q) : Rerooted root (Derive.braced p) (Derive.braced q) :=
  .enclosed .brace h

@[gcongr]
theorem branch (hp : Rerooted root p p') (hq : Rerooted root q q') :
    Rerooted root (Derive.branch p q) (Derive.branch p' q') :=
  .append (.append (.append hp (.same (by decide))) hq) (.same (by decide))

theorem choice {value : String} {ps qs : List Printed} (hvalue : value ≠ libraryName)
    (h : Rerooted root ps.flatten qs.flatten) :
    Rerooted root (Derive.choice value ps) (Derive.choice value qs) :=
  .cons (by decide) (.cons hvalue (.braced h))

@[simp]
theorem textType : Rerooted root textType textType := .phrase (by decide)

theorem generatedMark : Rerooted root generatedMark generatedMark := .same (by decide)

@[gcongr]
theorem resultType (hp : Rerooted root p p') (hq : Rerooted root q q') :
    Rerooted root (Derive.resultType p q) (Derive.resultType p' q') :=
  .append (.append (.append (.phrase (by decide)) hp) (.cons (by decide) hq)) (.same (by decide))

@[gcongr]
theorem success (hp : Rerooted root p p') : Rerooted root (Derive.success p) (Derive.success p') :=
  .append (.phrase (by decide)) (.parenthesized hp)

@[gcongr]
theorem failure (hp : Rerooted root p p') : Rerooted root (Derive.failure p) (Derive.failure p') :=
  .append (.phrase (by decide)) (.parenthesized hp)

theorem implementation {head type clause clause' : Printed} {trait trait' : Piece}
    (hhead : Rerooted root head head) (htrait : Rerooted root trait.printed trait'.printed)
    (htype : Rerooted root type type) (hclause : Rerooted root clause clause')
    (hbody : Rerooted root p p') :
    Rerooted root (Derive.implementation head trait type clause p)
      (Derive.implementation head trait' type clause' p') :=
  .append (.append (.append (.append (.cons (by decide) hhead) htrait) (.cons (by decide) htype))
    hclause) (.enclosed .brace hbody)

theorem commaBetween {ps qs : List Printed} (h : List.Forall₂ (Rerooted root) ps qs) :
    Rerooted root (Derive.commaBetween ps) (Derive.commaBetween qs) := by
  induction h with
  | nil => exact nil
  | cons hpq hrest ih =>
    cases hrest with
    | nil => exact hpq
    | cons => exact .append hpq (.cons (by decide) ih)

theorem forall₂_map {α : Type} {xs : List α} {f g : α → Printed}
    (h : ∀ x ∈ xs, Rerooted root (f x) (g x)) :
    List.Forall₂ (Rerooted root) (xs.map f) (xs.map g) := by
  rw [List.forall₂_map_left_iff, List.forall₂_map_right_iff, List.forall₂_same]
  exact h

end Rerooted

section Clauses

variable {root : Printed} {d : Declaration} (hd : Sound d)
include hd

theorem rerooted_clauseText {trait trait' : Printed} (h : Rerooted root trait trait') :
    Rerooted root (d.clauseText trait) (d.clauseText trait') := by
  have hpredicates : List.Forall₂ (Rerooted root) d.predicates d.predicates := by
    rw [List.forall₂_same, Declaration.predicates]
    split
    · next w hw => exact List.forall_mem_map.2 fun p hp => rerooted_pieces (hd.2.2.1 w hw p hp)
    · exact fun _ h => absurd h List.not_mem_nil
  have hbounds : List.Forall₂ (Rerooted root) (d.bounds trait) (d.bounds trait') :=
    Rerooted.forall₂_map fun v hv =>
      (rerooted_pieces (hd.2.2.2 v (List.mem_of_mem_filter hv)).2.2).append (.cons (by decide) h)
  have hempty : (d.predicates ++ d.bounds trait).isEmpty =
      (d.predicates ++ d.bounds trait').isEmpty := by
    rw [Bool.eq_iff_iff]
    simp [Declaration.bounds]
  have hcomma : d.commaBehind trait = d.commaBehind trait' := by
    simp [Declaration.commaBehind, Declaration.bounds]
  rw [Declaration.clauseText, Declaration.clauseText, hempty, hcomma]
  split
  · exact .nil
  · refine .append (.cons (by decide) (.commaBetween (List.rel_append hpredicates hbounds))) ?_
    exact .same (by split <;> decide)

theorem alike_boundClause {trait trait' : Piece}
    (h : Rerooted root trait.printed trait'.printed) :
    Alike (fun clause clause' =>
        Rerooted root (WhereClause.printed? clause) (WhereClause.printed? clause'))
      (boundClause d trait) (boundClause d trait') := by
  cases hrefused : d.isRefused with
  | true =>
    rw [boundClause_eq_error hrefused, boundClause_eq_error hrefused]
    exact .error _
  | false =>
    obtain ⟨clause, hclause⟩ := exists_boundClause hrefused trait
    obtain ⟨clause', hclause'⟩ := exists_boundClause hrefused trait'
    rw [hclause, hclause']
    refine .ok ?_
    rw [printed_boundClause hclause, printed_boundClause hclause']
    exact rerooted_clauseText hd h

theorem rerooted_clause :
    Rerooted root (WhereClause.printed? d.clause) (WhereClause.printed? d.clause) := by
  have hword : Sound "where" := show "where" ≠ libraryName by decide
  cases hclause : d.clause with
  | none => exact .nil
  | some w =>
    rw [WhereClause.printed?, Option.map_some, Option.getD_some, WhereClause.printed]
    split
    · exact .nil
    · exact rerooted_pieces (by simp [hword, sound_commaPieces (hd.2.2.1 w hclause)])

theorem sound_readGenerics : Sound (readGenerics d).1 := by
  obtain ⟨hlife, hgenerics⟩ := readGenerics_eq d
  rw [hgenerics, sound_generics, sound_cons, sound_param]
  exact ⟨⟨(firstFree_of_freshLifetime hlife).ne_libraryName, sound_nil, sound_nil, sound_none⟩,
    hd.2.1⟩

end Clauses

section Methods

variable {root : Piece} (hroot : Replaces root)
include hroot

theorem rerooted_writeMethod {p q : Printed} (h : Rerooted root.printed p q) :
    Rerooted root.printed (writeMethod defaultRoot p) (writeMethod root q) := by
  unfold writeMethod
  gcongr
  any_goals decide
  any_goals exact Rerooted.phrase (by decide)
  any_goals exact rerooted_extend hroot (by decide)
  any_goals exact rerooted_memberOf (by decide) (by decide)
  all_goals simp

theorem rerooted_readMethod {p q : Printed} (life : String) (h : Rerooted root.printed p q) :
    Rerooted root.printed (readMethod defaultRoot life p) (readMethod root life q) := by
  have htrait := rerooted_lasting hroot ["internal__", "serde"] "Deserializer" life (by decide)
  unfold readMethod
  gcongr
  any_goals decide
  any_goals exact Rerooted.phrase (by decide)
  any_goals exact htrait
  any_goals exact rerooted_memberOf (by decide) (by decide)
  all_goals simp

end Methods

/-! ## Derived code -/

section Tags

variable {d : Declaration} (hd : Sound d)
include hd

theorem rerooted_tagDeclaration {root : Printed} :
    Rerooted root (tagDeclaration d) (tagDeclaration d) := by
  have hmembers : Rerooted root (tagMembers d).flatten (tagMembers d).flatten :=
    .flatten_map fun v hv => .cons (hd.2.2.2 v hv).1 (.single (by decide))
  unfold tagDeclaration
  gcongr
  any_goals decide
  all_goals simp

omit hd in
theorem rerooted_tagTexts {root : Printed} :
    Rerooted root (commaBetween (tagTexts d)) (commaBetween (tagTexts d)) :=
  .commaBetween (Rerooted.forall₂_map fun v _ => .single (quoted_ne_libraryName v.tag))

theorem rerooted_tagMethods {root : Printed} : Rerooted root (tagMethods d) (tagMethods d) := by
  have hbranches : Rerooted root (tagWriteBranches d).flatten (tagWriteBranches d).flatten :=
    .flatten_map fun v hv => .branch (rerooted_memberOf (by decide) (hd.2.2.2 v hv).1)
      (.single (quoted_ne_libraryName v.tag))
  have hchoice := Rerooted.choice (show "self" ≠ libraryName by decide) hbranches
  have htexts : Rerooted root (commaBetween (tagTexts d)) _ := rerooted_tagTexts
  unfold tagMethods
  dsimp only
  gcongr
  any_goals decide
  any_goals exact Rerooted.phrase (by decide)
  all_goals simp

variable {root : Piece} (hroot : Replaces root)
include hroot

omit hd in
theorem rerooted_tagWriting :
    Rerooted root.printed (tagWriting defaultRoot d) (tagWriting root d) := by
  refine .append .generatedMark (.implementation .nil (rerooted_extend hroot (by decide))
    (.single (tagEnum_ne d)) .nil (rerooted_writeMethod hroot ?_))
  exact .append (rerooted_extend hroot (by decide)) (.parenthesized (.phrase (by decide)))

omit hroot in
theorem rerooted_tagReadBranches :
    Rerooted root.printed (tagReadBranches d ++ [unknownTagBranch d]).flatten
      (tagReadBranches d ++ [unknownTagBranch d]).flatten := by
  have hknown : Rerooted root.printed (tagReadBranches d).flatten (tagReadBranches d).flatten :=
    .flatten_map fun v hv => .branch (.single (quoted_ne_libraryName v.tag))
      (.success (rerooted_memberOf (tagEnum_ne d) (hd.2.2.2 v hv).1))
  have hunknown : Rerooted root.printed (unknownTagBranch d) (unknownTagBranch d) := by
    have htable : Rerooted root.printed (memberOf d.tagEnum tagTable) _ :=
      rerooted_memberOf (tagEnum_ne d) (by decide)
    unfold unknownTagBranch
    gcongr
    any_goals decide
    any_goals exact rerooted_memberOf (by decide) (by decide)
    all_goals simp
  rw [List.flatten_append]
  exact .append hknown (.append hunknown .nil)

theorem rerooted_tagVisitor :
    Rerooted root.printed (tagVisitor defaultRoot d) (tagVisitor root d) := by
  have htrait := rerooted_lasting hroot ["internal__", "serde", "de"] "Visitor" "de" (by decide)
  have hbranches : Rerooted root.printed (tagReadBranches d ++ [unknownTagBranch d]).flatten _ :=
    rerooted_tagReadBranches hd
  have hchoice := Rerooted.choice (show "value" ≠ libraryName by decide) hbranches
  refine .append (.phrase (by decide)) (.implementation (.phrase (by decide)) htrait
    (.single (by decide)) .nil ?_)
  gcongr
  any_goals decide
  any_goals exact Rerooted.phrase (by decide)
  any_goals exact rerooted_extend hroot (by decide)
  any_goals exact rerooted_memberOf (by decide) (by decide)
  all_goals simp

theorem rerooted_tagReading :
    Rerooted root.printed (tagReading defaultRoot d) (tagReading root d) := by
  have hvisitor := rerooted_tagVisitor hd hroot
  have htrait := rerooted_lasting hroot ["internal__", "serde"] "Deserialize" "de" (by decide)
  refine .append .generatedMark (.implementation (.phrase (by decide)) htrait
    (.single (tagEnum_ne d)) .nil (rerooted_readMethod hroot "de" ?_))
  exact .append (.append hvisitor (rerooted_extend hroot (by decide)))
    (.parenthesized (.phrase (by decide)))

theorem rerooted_tagItems :
    Rerooted root.printed (tagItems defaultRoot d) (tagItems root d) :=
  .append (.append (.append (rerooted_tagDeclaration hd) (rerooted_tagMethods hd))
    (rerooted_tagWriting hroot)) (rerooted_tagReading hd hroot)

end Tags

section Items

variable {d : Declaration} (hd : Sound d) {root : Piece} (hroot : Replaces root)
include hd hroot

theorem rerooted_writeBranches :
    Rerooted root.printed (writeBranches defaultRoot d).flatten (writeBranches root d).flatten := by
  refine .flatten_map fun v hv => ?_
  have hpattern : Rerooted root.printed (v.pattern payloadName) _ :=
    rerooted_pattern (hd.2.2.2 v hv) (by decide)
  have hmember : Rerooted root.printed (memberOf d.tagEnum v.name) _ :=
    rerooted_memberOf (tagEnum_ne d) (hd.2.2.2 v hv).1
  dsimp only
  gcongr
  any_goals decide
  any_goals exact Rerooted.phrase (by decide)
  any_goals exact rerooted_extend hroot (by decide)
  all_goals simp

theorem alike_writing :
    Alike (Rerooted root.printed) (writing defaultRoot d) (writing root d) := by
  have htrait := rerooted_extend hroot
    (show libraryName ∉ ["internal__", "serde", "Serialize"] by decide)
  have hchoice := Rerooted.choice (show "self" ≠ libraryName by decide)
    (rerooted_writeBranches hd hroot)
  refine (alike_boundClause hd htrait).map fun _ _ hclause => ?_
  refine .append .generatedMark (.implementation (rerooted_printedHead hd.2.1) htrait
    (rerooted_type hd) hclause (rerooted_writeMethod hroot ?_))
  gcongr
  any_goals decide
  any_goals exact Rerooted.phrase (by decide)
  any_goals exact rerooted_extend hroot (by decide)
  all_goals simp

omit hroot in
theorem rerooted_readBranches :
    Rerooted root.printed (readBranches d).flatten (readBranches d).flatten := by
  refine .flatten_map fun v hv => ?_
  have hpattern : Rerooted root.printed (v.pattern payloadName) _ :=
    rerooted_pattern (hd.2.2.2 v hv) (by decide)
  have hmember : Rerooted root.printed (memberOf d.tagEnum v.name) _ :=
    rerooted_memberOf (tagEnum_ne d) (hd.2.2.2 v hv).1
  have hpayload : Rerooted root.printed (printPieces v.payload) _ :=
    rerooted_pieces (hd.2.2.2 v hv).2.2
  dsimp only
  gcongr
  any_goals decide
  any_goals exact Rerooted.phrase (by decide)
  any_goals exact rerooted_memberOf (by decide) (by decide)
  all_goals simp

theorem alike_reading :
    Alike (Rerooted root.printed) (reading defaultRoot d) (reading root d) := by
  have htrait := rerooted_lasting hroot ["internal__", "serde"] "Deserialize" (readGenerics d).2
    (by decide)
  have hbranches : Rerooted root.printed (readBranches d).flatten _ := rerooted_readBranches hd
  have hchoice := Rerooted.choice (show "tag" ≠ libraryName by decide) hbranches
  refine (alike_boundClause hd htrait).map fun _ _ hclause => ?_
  refine .append .generatedMark (.implementation (rerooted_printedHead (sound_readGenerics hd))
    htrait (rerooted_type hd) hclause (rerooted_readMethod hroot (readGenerics d).2 ?_))
  gcongr
  any_goals decide
  any_goals exact Rerooted.phrase (by decide)
  any_goals exact rerooted_extend hroot (by decide)
  any_goals exact rerooted_memberOf (by decide) (by decide)
  all_goals simp

theorem rerooted_schemaSteps :
    Rerooted root.printed (schemaSteps defaultRoot d).flatten (schemaSteps root d).flatten := by
  refine .flatten_map fun v hv => ?_
  have hpayload : Rerooted root.printed (printPieces v.payload) _ :=
    rerooted_pieces (hd.2.2.2 v hv).2.2
  dsimp only
  gcongr
  any_goals decide
  any_goals exact Rerooted.phrase (by decide)
  any_goals exact rerooted_extend hroot (by decide)
  all_goals simp

theorem rerooted_schemaMethod :
    Rerooted root.printed (schemaMethod defaultRoot d) (schemaMethod root d) := by
  have hsteps := rerooted_schemaSteps hd hroot
  have htexts : Rerooted root.printed (commaBetween (tagTexts d)) _ := rerooted_tagTexts
  unfold schemaMethod
  dsimp only
  gcongr
  any_goals decide
  any_goals exact Rerooted.phrase (by decide)
  any_goals exact rerooted_extend hroot (by decide)
  all_goals simp

omit hd in
theorem rerooted_schemaName :
    Rerooted root.printed (schemaName defaultRoot d) (schemaName root d) := by
  unfold schemaName
  gcongr
  any_goals exact Rerooted.phrase (by decide)
  any_goals exact rerooted_extend hroot (by decide)
  all_goals simp

omit hd hroot in
theorem rerooted_schemaIdentity : Rerooted root.printed schemaIdentity schemaIdentity := by
  unfold schemaIdentity
  gcongr
  any_goals decide
  any_goals exact Rerooted.phrase (by decide)

theorem alike_describing :
    Alike (Rerooted root.printed) (describing defaultRoot d) (describing root d) := by
  have htrait := rerooted_extend hroot
    (show libraryName ∉ ["internal__", "schemars", "JsonSchema"] by decide)
  refine (alike_boundClause hd htrait).map fun _ _ hclause => ?_
  exact .append .generatedMark (.implementation (rerooted_printedHead hd.2.1) htrait
    (rerooted_type hd) hclause
    (.append (.append (rerooted_schemaName hroot) rerooted_schemaIdentity)
      (rerooted_schemaMethod hd hroot)))

theorem rerooted_conformance :
    Rerooted root.printed (conformance defaultRoot d) (conformance root d) :=
  .append .generatedMark (.implementation (rerooted_printedHead hd.2.1)
    (rerooted_extend hroot (by decide)) (rerooted_type hd) (rerooted_clause hd) .nil)

theorem alike_codecItems :
    Alike (Rerooted root.printed) (codecItems defaultRoot d) (codecItems root d) := by
  have htags := rerooted_tagItems hd hroot
  have hconformance := rerooted_conformance hd hroot
  refine (alike_writing hd hroot).bind fun _ _ hwriting => ?_
  refine (alike_reading hd hroot).bind fun _ _ hreading => .ok ?_
  unfold codecItemsOf
  dsimp only
  gcongr
  any_goals decide
  any_goals exact Rerooted.phrase (by decide)
  all_goals simp

/-- The items of a declaration that does not name the library, for another root. -/
theorem alike_items (target : Target) :
    Alike (Rerooted root.printed) (target.items defaultRoot d) (target.items root d) := by
  unfold Target.items
  split
  · exact .ok .nil
  · cases target with
    | codec => exact alike_codecItems hd hroot
    | schema => exact alike_describing hd hroot

end Items

/-! ## Tokens that do not name the library -/

mutual

theorem sound_of_not_mentions : ∀ {t : Token}, mentions libraryName t = false → t.IsSound
  | .ident _, h | .lifetime _, h | .literal _, h => of_decide_eq_false h
  | .punct c _, _ => singleton_ne c
  | .group _ _, h => tokensSound_of_not_mention h

theorem tokensSound_of_not_mention : ∀ {ts : List Token}, anyMentions libraryName ts = false →
    tokensSound ts
  | [], _ => trivial
  | _ :: _, h =>
    have ⟨ht, hts⟩ := Bool.or_eq_false_iff.1 h
    ⟨sound_of_not_mentions ht, tokensSound_of_not_mention hts⟩

end

/-- The items that are derived from tokens that do not name the library, for another root. -/
theorem alike_items_of_tokens {language : Language} (hl : Faithful language) {tokens : List Token}
    {item : Code.Item} {d : Declaration} {root : Piece} (hitem : language.item tokens = .ok item)
    (hd : Declaration.ofItem item = .ok d) (hmentions : anyMentions libraryName tokens = false)
    (hroot : Replaces root) (target : Target) :
    Alike (Rerooted root.printed) (target.items defaultRoot d) (target.items root d) :=
  have htokens : Sound tokens := tokensSound_iff.1 (tokensSound_of_not_mention hmentions)
  alike_items (sound_of_ofItem (hl.itemTexts htokens hitem) hd) hroot target

end Unnamed

end FlatUnion.Derive
