import FlatUnion.Derive.Expansion
import FlatUnion.Proofs.Code.Tables
import FlatUnion.Proofs.Derive.Language
import FlatUnion.Proofs.Parts

/-!
# Derived code is read

The declaration that a sound item is, is sound, and so is the root of its paths
(`sound_of_ofItem`, `sound_root`). What is printed of them in derived code can be read as trees
whatever it is, and what is always the same can be read too. So what a part of an implementation
shows, the whole implementation shows (`shows_implementation`), and a method is found in it by its
name (`IsMethod`).

There is derived code unless the where clause is refused that the implementations of a declaration
need (`Declaration.isRefused`). Then none of them can be made, whichever trait it is for
(`boundClause_eq_error`).
-/

namespace FlatUnion.Derive

open Code
open Soundness (Sound)

/-! ## Sound declarations -/

instance [Spelling] : Soundness Variant := ⟨fun v => Sound v.name ∧ Sound v.field ∧ Sound v.payload⟩

instance [Spelling] : Soundness Declaration :=
  ⟨fun d => Sound d.name ∧ Sound d.generics ∧ Sound d.clause ∧ Sound d.variants⟩

/-- What each member of a list is made into, where nothing fails. -/
theorem forall₂_of_mapM {α β ε : Type} {f : α → Except ε β} {xs : List α} {ys : List β}
    (h : xs.mapM f = .ok ys) : List.Forall₂ (fun x y => f x = .ok y) xs ys := by
  induction xs generalizing ys with
  | nil =>
    obtain rfl : [] = ys := by simpa [pure, Except.pure] using h
    exact .nil
  | cons x xs ih =>
    rw [List.mapM_cons] at h
    cases hx : f x with
    | error e => simp [hx, bind, Except.bind] at h
    | ok y =>
      cases hxs : xs.mapM f with
      | error e => simp [hx, hxs, bind, Except.bind] at h
      | ok ys' =>
        obtain rfl : y :: ys' = ys := by
          simpa [hx, hxs, bind, Except.bind, pure, Except.pure] using h
        exact .cons hx (ih hxs)

/-- A variant of a flat union is a variant of the enum whose only field is the payload. -/
theorem ofEnum_eq_ok_iff {v : Code.Variant} {w : Variant} :
    Variant.ofEnum v = .ok w ↔ v = ⟨w.name, some [⟨w.field, w.payload⟩]⟩ := by
  obtain ⟨name, fields⟩ := v
  obtain ⟨name', field, payload⟩ := w
  unfold Variant.ofEnum
  rcases fields with - | (- | ⟨f, - | ⟨g, fields⟩⟩) <;> simp
  rintro -
  obtain ⟨field', type⟩ := f
  simp

/-- A flat union is declared by an enum whose variants are those of the flat union. -/
theorem ofItem_eq_ok {item : Code.Item} {d : Declaration} (h : Declaration.ofItem item = .ok d) :
    d.name = item.name ∧ d.generics = item.generics ∧ d.clause = item.clause ∧
      item.body = .enum (d.variants.map fun v => ⟨v.name, some [⟨v.field, v.payload⟩]⟩) := by
  unfold Declaration.ofItem at h
  split at h
  · next variants hbody =>
    cases hvariants : variants.mapM Variant.ofEnum with
    | error e => simp [hvariants, bind, Except.bind] at h
    | ok ws =>
      obtain rfl : _ = d := by simpa [hvariants, bind, Except.bind, pure, Except.pure] using h
      refine ⟨rfl, rfl, rfl, ?_⟩
      rw [hbody]
      congr 1
      have hforall := forall₂_of_mapM hvariants
      clear h hvariants hbody
      induction hforall with
      | nil => rfl
      | cons hv _ ih => rw [List.map_cons, ← ofEnum_eq_ok_iff.1 hv, ← ih]
  · nomatch h

/-- The declaration that a sound item is, is sound. -/
theorem sound_of_ofItem [Spelling] {item : Code.Item} (hitem : Sound item) {d : Declaration}
    (h : Declaration.ofItem item = .ok d) : Sound d := by
  obtain ⟨hname, hgenerics, hclause, hbody⟩ := ofItem_eq_ok h
  obtain ⟨-, hn, hg, hc, hb⟩ := hitem
  rw [hbody, sound_enum, sound_map] at hb
  refine ⟨hname ▸ hn, hgenerics ▸ hg, hclause ▸ hc, fun v hv => ?_⟩
  simpa [Sound] using hb v hv

theorem eq_ok_of_toOption {ε α : Type} {e : Except ε α} {x : α} (h : e.toOption = some x) :
    e = .ok x := by
  cases e with
  | error c => nomatch h
  | ok y => exact congrArg _ (Option.some.inj h)

/-- The declaration that sound tokens are, is sound. -/
theorem sound_of_tokens {language : Language} (hl : Faithful language) {tokens : List Token}
    {item : Code.Item} {d : Declaration} (htokens : Sound tokens)
    (hitem : language.item tokens = .ok item) (hd : Declaration.ofItem item = .ok d) : Sound d :=
  sound_of_ofItem (hl.itemTexts htokens hitem) hd

/-- The declaration that a text is in the language of the grammar. -/
def Declaration.ofText? (text : String) : Option Declaration :=
  (tokens? text).bind fun tokens =>
    (Language.grammar.item tokens).toOption.bind fun item => (Declaration.ofItem item).toOption

/-- A declaration that a text is, if it has variants and what is asked of it. -/
theorem exists_declared (text : String) {P : Declaration → Prop} [DecidablePred P]
    (h : (Declaration.ofText? text).any fun d => d.variants ≠ [] ∧ P d) :
    ∃ tokens item d, tokens? text = some tokens ∧ Language.grammar.item tokens = .ok item ∧
      Declaration.ofItem item = .ok d ∧ d.variants ≠ [] ∧ P d := by
  obtain ⟨d, htext, hd⟩ := (Option.any_eq_true _ _).1 h
  obtain ⟨tokens, htokens, htext⟩ := Option.bind_eq_some_iff.1 htext
  obtain ⟨item, hitem, hofItem⟩ := Option.bind_eq_some_iff.1 htext
  exact ⟨tokens, item, d, htokens, eq_ok_of_toOption hitem, eq_ok_of_toOption hofItem,
    of_decide_eq_true hd⟩

/-! ## Sound paths -/

section Paths

variable {root : Piece} {names : List String}

theorem extend_append (p : Piece) (front back : List String) :
    p.extend (front ++ back) = (p.extend front).extend back := by
  cases p <;> simp [Piece.extend]

theorem sound_extend {p : Piece} (hp : Sound p) (hnames : Sound names) :
    Sound (p.extend names) := by
  cases p with
  | path role leading segments =>
    rw [Piece.extend, Piece.sound_path, sound_append]
    exact ⟨Piece.sound_path.1 hp, sound_map.2 fun n hn => ⟨hnames n hn, sound_nil⟩⟩
  | _ => exact hp

theorem sound_defaultRoot : Sound defaultRoot := by
  have hname : Sound "serde_flat_tag" := by decide
  simp [defaultRoot, hname]

/-- The root of the paths in what is derived from an item. -/
def rootOf (language : Language) (item : Code.Item) : Piece :=
  ((Arguments.read item.attributes).crate? language).getD defaultRoot

theorem eq_ok_of_crateText {language : Language} {value : CrateText} {p : Piece}
    (h : value.path language = .ok p) : language.path value.text = .ok p := by
  obtain ⟨q, hq, h⟩ := bind_eq_ok.1 h
  split at h
  · exact hq.trans h
  · nomatch h

theorem sound_root {language : Language} (hl : Faithful language) (item : Code.Item) :
    Sound (rootOf language item) := by
  rw [rootOf]
  cases h : (Arguments.read item.attributes).crate? language with
  | none => exact sound_defaultRoot
  | some path =>
    obtain ⟨value, -, hvalue⟩ := Option.bind_eq_some_iff.1 h
    exact hl.pathTexts (eq_ok_of_crateText (eq_ok_of_toOption hvalue))

/-- What is derived from tokens is derived from the declaration that they are. -/
theorem ofTokens_eq {language : Language} {tokens : List Token} {item : Code.Item}
    {d : Declaration} (hitem : language.item tokens = .ok item)
    (hd : Declaration.ofItem item = .ok d) (target : Target) :
    Expansion.ofTokens language target tokens =
      (target.items (rootOf language item) d).map fun items =>
        { items
          diagnostics := (Arguments.read item.attributes).diagnostics ++
            (Arguments.read item.attributes).crateDiagnostics language } := by
  simp only [Expansion.ofTokens, hitem, Expansion.ofItem, hd, rootOf]
  cases target.items _ d <;> rfl

theorem items_of_variants {d : Declaration} (hvariants : d.variants ≠ []) (root : Piece) :
    Target.codec.items root d = codecItems root d ∧
      Target.schema.items root d = describing root d := by
  have hempty : d.variants.isEmpty = false := by simpa using hvariants
  simp [Target.items, hempty]

theorem sound_internalPath (hroot : Sound root) (hnames : Sound names) :
    Sound (internalPath root names) :=
  sound_extend hroot (sound_cons.2 ⟨by decide, hnames⟩)

theorem sound_codecPath (hroot : Sound root) (hnames : Sound names) :
    Sound (codecPath root names) :=
  sound_internalPath hroot (sound_cons.2 ⟨by decide, hnames⟩)

theorem sound_schemaPath (hroot : Sound root) (hnames : Sound names) :
    Sound (schemaPath root names) :=
  sound_internalPath hroot (sound_cons.2 ⟨by decide, hnames⟩)

theorem sound_lasting {trait : Piece} {life : String} (htrait : Sound trait) (hlife : Sound life) :
    Sound (lasting trait life) :=
  sound_applied htrait (by simp [hlife])

end Paths

/-! ## Parameters and where clauses -/

section Heads

variable {d : Declaration} {g : Generics} {clause : Option WhereClause} {trait : Piece}

theorem sound_printedParams [Spelling] {print : Param → List Piece} {ps : List Param}
    (h : ∀ p ∈ ps, Sound (print p)) :
    Sound ((lifetimesFirst Param.isLifetime ps).map print) := by
  rw [sound_map]
  intro p hp
  simp only [lifetimesFirst, List.mem_append, List.mem_filter] at hp
  exact h p (hp.elim (·.1) (·.1))

theorem readable_printedAs {print : Param → List Piece} (h : ∀ p ∈ g.params, Sound (print p)) :
    Readable (g.printedAs print) := by
  rw [Generics.printedAs]
  split
  · exact .nil
  · exact .pieces (by simp [sound_commaPieces (sound_printedParams h)])

theorem sound_headPieces [Spelling] (h : Sound g) : ∀ p ∈ g.params, Sound p.withoutDefault.pieces :=
  fun p hp =>
    have hparam := sound_param.1 (h p hp)
    sound_paramPieces ⟨hparam.1, hparam.2.1, hparam.2.2.1, sound_none⟩

theorem readable_printedHead (h : Sound g) : Readable g.printedHead :=
  readable_printedAs (sound_headPieces h)

theorem readable_printedArguments (h : Sound g) : Readable g.printedArguments :=
  readable_printedAs fun p hp => sound_asArgument (h p hp).1

theorem readable_clause (h : Sound clause) : Readable (WhereClause.printed? clause) := by
  cases clause with
  | none => exact .nil
  | some w =>
    have hword : Sound "where" := by decide
    rw [WhereClause.printed?, Option.map_some, Option.getD_some, WhereClause.printed]
    split
    · exact .nil
    · exact .pieces (by simp [hword, sound_commaPieces (h w rfl)])

theorem sound_boundClause (hd : Sound d) (htrait : Sound trait)
    (h : boundClause d trait = .ok clause) : Sound clause := by
  obtain ⟨-, -, hclause, hvariants⟩ := hd
  have hbounds : Sound (d.genericPayloads.map fun payload => payload ++ [.punct ':', trait]) := by
    rw [sound_map]
    intro payload hpayload
    obtain ⟨v, hv, rfl⟩ := List.mem_map.1 (List.mem_filter.1 hpayload).1
    simp [(hvariants v hv).2.2, htrait]
  unfold boundClause WhereClause.extend at h
  split at h
  · next w hw =>
    obtain rfl := pure_eq_ok.1 h
    rw [sound_some, sound_whereClause, sound_append]
    exact ⟨hclause w hw, hbounds⟩
  split at h
  · obtain rfl := pure_eq_ok.1 h
    exact sound_none
  split at h
  · nomatch h
  · obtain rfl := pure_eq_ok.1 h
    exact sound_some.2 hbounds

end Heads

/-! ## Where clauses that are refused -/

/-- The declaration has no where clause, and the first payload that uses a parameter begins as
generic parameters do, such as `<T>::Item`. So the where clause that is put together for an
implementation is not one. -/
def Declaration.isRefused (d : Declaration) : Bool :=
  d.clause.isNone && d.genericPayloads.head?.any fun payload =>
    WhereClause.beginsParameters (pieceTokens (payload ++ [Piece.punct ':']))

theorem pieceTokens_append (xs ys : List Piece) :
    pieceTokens (xs ++ ys) = pieceTokens xs ++ pieceTokens ys := by
  induction xs with
  | nil => simp [pieceTokens]
  | cons p xs ih => simp [pieceTokens, ih]

/-- An operator is seen from no more tokens than it has characters. -/
theorem isOperator_append {cs : List Char} {ts : List Token} (h : cs.length ≤ ts.length)
    (us : List Token) : isOperator cs (ts ++ us) = isOperator cs ts := by
  induction cs generalizing ts with
  | nil => rfl
  | cons c cs ih =>
    obtain - | ⟨t, ts⟩ := ts
    · simp at h
    · have hrest : isOperator cs (ts ++ us) = isOperator cs ts := ih (by simpa using h)
      cases t with
      | punct c' joint =>
        cases cs with
        | nil => rfl
        | cons => simp only [List.cons_append, isOperator, hrest]
      | _ => cases cs <;> rfl

/-- Whether generic parameters begin is seen from four tokens. -/
theorem beginsParameters_four (a b c t : Token) (ts : List Token) :
    WhereClause.beginsParameters (a :: b :: c :: t :: ts) =
      WhereClause.beginsParameters [a, b, c, t] := by
  have hpunct : ∀ (t t' : Token) ts operator, operator.toList.length ≤ 2 →
      isPunct operator (t :: t' :: ts) = isPunct operator [t, t'] :=
    fun t t' ts operator h => @isOperator_append operator.toList [t, t'] h ts
  have hword : isWord "const" (b :: c :: t :: ts) = isWord "const" [b, c, t] := by
    cases b <;> rfl
  have hlook : isLifetime (b :: c :: t :: ts) = isLifetime [b, c, t] ∧
      isName (b :: c :: t :: ts) = isName [b, c, t] := by
    cases b <;> exact ⟨rfl, rfl⟩
  simp only [WhereClause.beginsParameters, List.drop_succ_cons, List.drop_zero, hword, hlook]
  simp (disch := decide) only [hpunct a b (c :: t :: ts), hpunct a b [c, t],
    hpunct b c (t :: ts), hpunct b c [t], hpunct c t ts]

/-- Whether generic parameters begin is seen from the tokens in front of a colon. -/
theorem beginsParameters_append (ts us : List Token) :
    WhereClause.beginsParameters (ts ++ Token.punct ':' false :: us) =
      WhereClause.beginsParameters (ts ++ [Token.punct ':' false]) := by
  rcases ts with - | ⟨a, - | ⟨b, - | ⟨c, - | ⟨e, ts⟩⟩⟩⟩
  · rfl
  · cases a <;> rfl
  · cases a <;> cases b <;> rfl
  · exact beginsParameters_four ..
  · exact (beginsParameters_four ..).trans (beginsParameters_four ..).symm
section Refused

variable {d : Declaration} {trait : Piece}

/-- Whether generic parameters begin where predicates are added depends on the first payload. -/
theorem beginsParameters_bounds {payload : List Piece} {payloads : List (List Piece)} :
    WhereClause.beginsParameters (pieceTokens (commaPieces true
        ((payload :: payloads).map fun payload => payload ++ [Piece.punct ':', trait]))) =
      WhereClause.beginsParameters (pieceTokens (payload ++ [Piece.punct ':'])) := by
  obtain ⟨behind, hbehind⟩ : ∃ behind, commaPieces true
      ((payload :: payloads).map fun payload => payload ++ [Piece.punct ':', trait]) =
        payload ++ Piece.punct ':' :: behind := by
    cases payloads <;> exact ⟨_, List.append_assoc _ _ _⟩
  rw [hbehind, pieceTokens_append, pieceTokens_append]
  exact beginsParameters_append _ _

/-- If it is refused, no implementation has a where clause, whichever trait it is for. -/
theorem boundClause_eq_error (h : d.isRefused = true) :
    boundClause d trait = .error ⟨WhereClause.parametersReserved, false⟩ := by
  obtain ⟨hclause, hbegins⟩ := Bool.and_eq_true_iff.1 h
  cases hpayloads : d.genericPayloads with
  | nil => simp [hpayloads] at hbegins
  | cons payload payloads =>
    rw [hpayloads, List.head?_cons, Option.any_some] at hbegins
    rw [boundClause, Option.isNone_iff_eq_none.1 hclause, hpayloads, WhereClause.extend,
      beginsParameters_bounds, hbegins]
    rfl

theorem exists_boundClause (h : d.isRefused = false) (trait : Piece) :
    ∃ clause, boundClause d trait = .ok clause := by
  rw [boundClause]
  cases hclause : d.clause with
  | some w => exact ⟨_, rfl⟩
  | none =>
    cases hpayloads : d.genericPayloads with
    | nil => exact ⟨_, rfl⟩
    | cons payload payloads =>
      rw [Declaration.isRefused, hclause, hpayloads, List.head?_cons, Option.any_some] at h
      rw [Option.isNone_none, Bool.true_and] at h
      rw [WhereClause.extend, beginsParameters_bounds, h]
      exact ⟨_, rfl⟩

end Refused

/-! ## The added lifetime -/

section Lifetime

variable {d : Declaration}

/-- There are more numbered names than lifetimes, so one of them is free. -/
theorem exists_freshLifetime (g : Generics) (hint : String) :
    ∃ life, g.freshLifetime? hint = some life := by
  rw [← Option.isSome_iff_exists, Generics.freshLifetime?, List.find?_isSome]
  by_contra hnone
  push Not at hnone
  let numbered : List String := (List.range (g.params.length + 1)).map fun i => "_" ++ toString i
  have hnodup : numbered.Nodup := List.nodup_range.map fun i j h =>
    Nat.repr_injective ((String.append_right_inj "_").1 h)
  have hsubset : numbered ⊆ g.lifetimes := fun name hname => by
    simpa using hnone name (List.mem_append_right _ hname)
  have hlength := (hnodup.subperm hsubset).length_le
  have hparams : g.lifetimes.length ≤ g.params.length := by
    rw [Generics.lifetimes, List.length_map]
    exact List.length_filter_le _ _
  rw [List.length_map, List.length_range] at hlength
  omega

/-- The lifetime that is added for what is read is the first free one. -/
theorem readGenerics_eq (d : Declaration) :
    d.generics.freshLifetime? "de" = some (readGenerics d).2 ∧
      (readGenerics d).1 =
        { d.generics with
          params := { kind := .lifetime, name := (readGenerics d).2 } :: d.generics.params } := by
  obtain ⟨life, h⟩ := exists_freshLifetime d.generics "de"
  simp [readGenerics, Declaration.withLifetime?, Generics.withLifetime?, h]

/-- The lifetime that is added for what is read has a name. -/
theorem sound_readLife (d : Declaration) : Sound (readGenerics d).2 := by
  have hnames : ∀ name ∈ d.generics.lifetimeNames "de", Sound name := by
    have hletters : Sound ("abcdefghijklmnopqrstuvwxyz".toList.map String.singleton) := by
      decide +kernel
    rw [Generics.lifetimeNames]
    refine sound_append.2 ⟨sound_cons.2 ⟨by decide, hletters⟩, sound_map.2 fun i _ => ?_⟩
    have hmark : Char.startsIdentifier '_' = true := by decide
    simpa [Sound, IsWord] using hmark
  exact hnames _ (List.mem_of_find?_eq_some (readGenerics_eq d).1)

/-- The head of the implementation that reads begins with the added lifetime. -/
theorem trees?_readHead (hd : Sound d) :
    ∃ rest, trees? (readGenerics d).1.printedHead =
      some ([.leaf "<", .leaf (lifetimeText (readGenerics d).2)] ++ rest) := by
  let life := (readGenerics d).2
  let others := (lifetimesFirst Param.isLifetime d.generics.params).map fun p =>
    p.withoutDefault.pieces
  -- The lifetime is printed first, whatever stands behind it.
  obtain ⟨trailing, hhead⟩ : ∃ trailing, (readGenerics d).1.printedHead =
      printPieces (Piece.punct '<' :: (commaPieces trailing ([.lifetime life] :: others) ++
        [Piece.punct '>'])) := by
    rw [(readGenerics_eq d).2]
    exact ⟨_, rfl⟩
  obtain ⟨more, hmore⟩ : ∃ more, commaPieces trailing ([.lifetime life] :: others) =
      .lifetime life :: more := by
    cases others <;> exact ⟨_, rfl⟩
  have hsound : Sound (commaPieces trailing ([.lifetime life] :: others)) :=
    sound_commaPieces (sound_cons.2 ⟨sound_cons.2 ⟨sound_readLife d, sound_nil⟩,
      sound_printedParams (sound_headPieces hd.2.1)⟩)
  have hrest : Readable (printPieces (more ++ [Piece.punct '>'])) :=
    .pieces (sound_append.2 ⟨(sound_cons.1 (hmore ▸ hsound)).2, by simp⟩)
  rw [hhead, hmore]
  exact ⟨_, trees?_cons (by decide) (trees?_cons (isLeaf_lifetimeText life) hrest.trees?)⟩

end Lifetime

theorem isWord_tagEnum (d : Declaration) : IsWord d.tagEnum := by
  have hmark : Char.startsIdentifier '_' = true := by decide
  simpa [IsWord, Declaration.tagEnum] using hmark

/-! ## Implementations -/

theorem trees?_braced {p : Printed} {ts : List Tree} (h : trees? p = some ts) :
    trees? (braced p) = some [.group .brace ts] :=
  trees?_enclosed .brace h

theorem trees?_parenthesized {p : Printed} {ts : List Tree} (h : trees? p = some ts) :
    trees? (parenthesized p) = some [.group .parenthesis ts] :=
  trees?_enclosed .parenthesis h

/-- The trees of a phrase that has no groups. -/
def leaves (text : String) : List Tree := (phrase text).map .leaf

/-- What stands inside the braces of an implementation, which is found by a word and the type behind
it. -/
def Within (word type : String) (part : List Tree) (p : Printed) : Prop :=
  ∃ rest items, Shows (Tree.leaf word :: Tree.leaf type :: rest ++ [Tree.group .brace items]) p ∧
    Holds part items

/-- A method in code. -/
def methodTrees (name : String) (signature body : List Tree) : List Tree :=
  Tree.leaf "fn" :: Tree.leaf name :: signature ++ [Tree.group .brace body]

/-- What stands in an implementation of a trait for a type, and what its head begins with. -/
def Implements (front : List Tree) (type : String) (part : List Tree) (p : Printed) : Prop :=
  ∃ between rest items,
    Shows (Tree.leaf "impl" :: (front ++ between) ++
      Tree.leaf "for" :: Tree.leaf type :: rest ++ [Tree.group .brace items]) p ∧
    Holds part items

theorem Implements.mono {front : List Tree} {type : String} {part : List Tree} {p q : Printed}
    (hpq : ∀ part, Shows part p → Shows part q) :
    Implements front type part p → Implements front type part q
  | ⟨between, rest, items, h, hpart⟩ => ⟨between, rest, items, hpq _ h, hpart⟩

theorem Implements.within {front : List Tree} {type : String} {part : List Tree} {p : Printed} :
    Implements front type part p → Within "for" type part p
  | ⟨between, rest, items, ⟨code, hcode, h⟩, hpart⟩ => by
    refine ⟨rest, items, ⟨code, hcode, h.trans ?_⟩, hpart⟩
    rw [List.append_assoc]
    exact .append_left _ (.refl _)

theorem Within.shows {word type : String} {part : List Tree} {p : Printed} :
    Within word type part p → Shows part p
  | ⟨rest, _, ⟨code, hcode, hitems⟩, hpart⟩ =>
    ⟨code, hcode, hitems.trans (.inside (_ :: _ :: rest) [] .brace hpart)⟩

theorem Within.readable {word type : String} {part : List Tree} {p : Printed} :
    Within word type part p → Readable p
  | ⟨_, _, h, _⟩ => h.readable

theorem Within.mono {word type : String} {part : List Tree} {p q : Printed}
    (hpq : ∀ part, Shows part p → Shows part q) :
    Within word type part p → Within word type part q
  | ⟨rest, items, h, hpart⟩ => ⟨rest, items, hpq _ h, hpart⟩

section Implementations

variable {root trait : Piece} {head arguments clause body : Printed} {name life : String}
  {part ts : List Tree}

theorem implements_implementation {front : List Tree}
    (hhead : ∃ between, trees? head = some (front ++ between)) (htrait : Sound trait)
    (hname : IsLeaf name) (harguments : Readable arguments) (hclause : Readable clause)
    (h : Shows part body) :
    Implements front name part (implementation head trait (name :: arguments) clause body) := by
  obtain ⟨items, hitems, hpart⟩ := h
  obtain ⟨between, hhead⟩ := hhead
  have himpl : IsLeaf "impl" := by decide
  have hfor : IsLeaf "for" := by decide
  have htrees := trees?_append (trees?_append (trees?_append (trees?_append
    (trees?_cons himpl hhead) (Readable.piece htrait).trees?)
    (trees?_cons hfor (trees?_cons hname harguments.trees?))) hclause.trees?) (trees?_braced hitems)
  refine ⟨between ++ treesOf trait.printed, treesOf arguments ++ treesOf clause, items, ?_, hpart⟩
  simp only [implementation, List.append_assoc, List.cons_append] at htrees ⊢
  exact .of_trees htrees

theorem within_implementation (hhead : Readable head) (htrait : Sound trait) (hname : IsLeaf name)
    (harguments : Readable arguments) (hclause : Readable clause) (h : Shows part body) :
    Within "for" name part (implementation head trait (name :: arguments) clause body) :=
  have himplements : Implements [] name part _ :=
    implements_implementation hhead htrait hname harguments hclause h
  himplements.within

/-- What the body of an implementation shows, the implementation shows. -/
theorem shows_implementation (hhead : Readable head) (htrait : Sound trait) (hname : IsLeaf name)
    (harguments : Readable arguments) (hclause : Readable clause) (h : Shows part body) :
    Shows part (implementation head trait (name :: arguments) clause body) :=
  (within_implementation hhead htrait hname harguments hclause h).shows

/-- What stands in an implementation of a type itself. -/
theorem within_impl (hname : IsLeaf name) (h : Shows part body) :
    Within "impl" name part (["impl", name] ++ braced body) := by
  obtain ⟨items, hitems, hpart⟩ := h
  exact ⟨[], items, .of_trees (trees?_cons (by decide) (trees?_cons hname (trees?_braced hitems))),
    hpart⟩

theorem readable_implementation (hhead : Readable head) (htrait : Sound trait) (hname : IsLeaf name)
    (harguments : Readable arguments) (hclause : Readable clause) (hbody : Readable body) :
    Readable (implementation head trait (name :: arguments) clause body) :=
  (within_implementation hhead htrait hname harguments hclause
    (.of_trees hbody.trees?)).readable

end Implementations

/-! ## Methods -/

/-- Printed code that is a method with a body, and what its signature begins with. -/
def IsMethod (name : String) (front body p : Printed) : Prop :=
  ∃ rest, Readable rest ∧ p = "fn" :: name :: (front ++ rest ++ braced body)

namespace IsMethod

variable {name : String} {front body p : Printed} {fs ts : List Tree}

theorem trees? (h : IsMethod name front body p) (hname : IsLeaf name)
    (hfront : trees? front = some fs) (hbody : trees? body = some ts) :
    ∃ rest, trees? p = some (methodTrees name (fs ++ rest) ts) := by
  obtain ⟨rest, hrest, rfl⟩ := h
  have hfn : IsLeaf "fn" := by decide
  have htrees := trees?_append (trees?_append hfront hrest.trees?) (trees?_braced hbody)
  exact ⟨treesOf rest, trees?_cons hfn (trees?_cons hname htrees)⟩

theorem readable (h : IsMethod name front body p) (hname : IsLeaf name) (hfront : Readable front)
    (hbody : Readable body) : Readable p :=
  have ⟨_, hp⟩ := h.trees? hname hfront.trees? hbody.trees?
  ⟨_, hp⟩

/-- What the body of a method shows, the method shows. -/
theorem shows (h : IsMethod name front body p) (hname : IsLeaf name) (hfront : Readable front)
    {part : List Tree} : Shows part body → Shows part p
  | ⟨_, hbody, hpart⟩ =>
    have ⟨rest, hp⟩ := h.trees? hname hfront.trees? hbody
    ⟨_, hp, .inside (.leaf "fn" :: .leaf name :: (treesOf front ++ rest)) [] .brace hpart⟩

end IsMethod

/-- The beginning of the type parameters of a method. -/
def parameterFront (name : String) : Printed := ["<", name, ":"]

theorem trees?_parameterFront {name : String} (hname : IsLeaf name) :
    trees? (parameterFront name) = some [.leaf "<", .leaf name, .leaf ":"] :=
  trees?_cons (by decide) (trees?_cons hname (trees?_leaf (by decide)))

section Methods

variable {root : Piece} {life : String}

theorem isMethod_writeMethod (hroot : Sound root) (body : Printed) :
    IsMethod "serialize" (parameterFront writerParameter) body (writeMethod root body) := by
  have hpath : Readable (codecPath root ["Serializer"]).printed :=
    .piece (sound_codecPath hroot (by decide))
  have hback : Readable (phrase "> ( & self , serializer :" ++ [writerParameter] ++
      phrase ") - >" ++ resultType (memberOf writerParameter "Ok")
        (memberOf writerParameter "Error")) := ⟨_, rfl⟩
  refine ⟨_, .append hpath hback, ?_⟩
  simp only [writeMethod, List.append_assoc]
  rfl

theorem isMethod_readMethod (hroot : Sound root) (hlife : Sound life) (body : Printed) :
    IsMethod "deserialize" (parameterFront readerParameter) body (readMethod root life body) := by
  have hpath : Readable (lasting (codecPath root ["Deserializer"]) life).printed :=
    .piece (sound_lasting (sound_codecPath hroot (by decide)) hlife)
  have hback : Readable (phrase "> ( deserializer :" ++ [readerParameter] ++ phrase ") - >" ++
      resultType ["Self"] (memberOf readerParameter "Error")) := ⟨_, rfl⟩
  refine ⟨_, .append hpath hback, ?_⟩
  simp only [readMethod, List.append_assoc]
  rfl

end Methods

end FlatUnion.Derive
