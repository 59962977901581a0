import FlatUnion.Proofs.Derive.Context
import FlatUnion.Proofs.Derive.Rerooting

/-!
# The path of the crate

An attribute of the declaration can set another path for the library that derived code refers to
(`SetsCrate`). It is written in front of the declaration (`setting`) or anywhere among its
attributes. What is derived with it is what is derived without it, with the other path in place of
every `::serde_flat_tag`, provided that neither the declaration nor the path names the library.

While a declaration is looked at, the paths into the library are kept beside its root (`Context`).
Whatever happens, they go on from the root there is, and what has been said stays said
(`Context.Steady`).

The main statement is `crate_renames`.
-/

namespace FlatUnion.Derive

open Code

/-! ## The attribute -/

/-- An attribute sets the path of the crate to a value, and does nothing else. -/
structure SetsCrate (a : Attribute) (value : CrateText) : Prop where
  named : a.path.name? = some "flat_tag"
  holds : ∃ d joint literal, a.body = .list d [.ident "crate", .punct '=' joint, .literal literal] ∧
    textOfLiteral? literal = some (value.text, value.suffix)

theorem SetsCrate.ofAttribute {a : Attribute} {value : CrateText} (h : SetsCrate a value) :
    Notice.ofAttribute a = [.found (.crate value)] := by
  obtain ⟨hnamed, d, joint, literal, hbody, hliteral⟩ := h
  let argument := Argument.crate value literal joint hliteral
  have hall : Finding.all argument.tokens = [argument.finding] := by
    rw [Finding.all_of_next argument.tokens_ne_nil (Finding.next_argument argument),
      Finding.all_nil]
  rw [Notice.ofAttribute_list hnamed hbody]
  exact congrArg (List.map Notice.found) hall

/-- If nothing sets the path, it does not matter for what is said whether it is set before. -/
theorem report_of_unset {ns : List Notice} (h : ∀ n ∈ ns, n.value? = none) (isSet isSet' : Bool) :
    Notice.report isSet ns = Notice.report isSet' ns := by
  induction ns generalizing isSet isSet' with
  | nil => rfl
  | cons n ns ih =>
    obtain ⟨hn, hns⟩ := List.forall_mem_cons.1 h
    have hdiagnostics : n.diagnostics isSet = n.diagnostics isSet' := by
      cases n with
      | bare => rfl
      | found f => cases f <;> first | rfl | nomatch hn
    rw [Notice.report, Notice.report, hdiagnostics, ih hns]

/-- An attribute that sets the path adds nothing to what is said if no other attribute does. -/
theorem read_setting {before after : List Attribute} {a : Attribute} {value : CrateText}
    (ha : SetsCrate a value) (hunset : (Arguments.read (before ++ after)).crate = none) :
    Arguments.read (before ++ a :: after) =
      { Arguments.read (before ++ after) with crate := some value } := by
  rw [Arguments.read_eq, List.flatMap_append] at hunset
  rw [Arguments.read_eq, Arguments.read_eq, List.flatMap_append, List.flatMap_append,
    List.flatMap_cons, ha.ofAttribute, List.singleton_append]
  generalize before.flatMap Notice.ofAttribute = ms at hunset ⊢
  generalize after.flatMap Notice.ofAttribute = ns at hunset ⊢
  obtain ⟨hms, hns⟩ := List.forall_mem_append.1 (List.findSome?_eq_none_iff.1 hunset)
  have hcrate : (ms ++ .found (.crate value) :: ns).findSome? Notice.value? = some value := by
    rw [List.findSome?_append, List.findSome?_eq_none_iff.2 hms]
    rfl
  have hset : (ms.any fun n => n.value?.isSome) = false := by simpa using hms
  have hreport : Notice.report false (ms ++ .found (.crate value) :: ns) =
      Notice.report false (ms ++ ns) := by
    rw [Notice.report_append, Notice.report_append, hset]
    exact congrArg (Notice.report false ms ++ ·) (report_of_unset hns true false)
  rw [hcrate, hreport]

/-! ## Items with the attribute -/

/-- The tokens of an attribute that sets the path of the crate to a literal. -/
def setting (literal : String) : List Token :=
  attributeTokens .parenthesis [.ident "crate", .punct '=' false, .literal literal]

/-- A declaration of a flat union that does not name the library, nor sets a path for it. -/
structure Overridable (language : Language) (tokens : List Token) (item : Code.Item) : Prop where
  parsed : language.item tokens = .ok item
  valid : ∃ d, Declaration.ofItem item = .ok d
  unset : (Arguments.read item.attributes).crate = none
  unnamed : anyMentions libraryName tokens = false

/-- Some tokens are the item with an attribute more, which sets the path of the crate. -/
def Overrides (language : Language) (value : CrateText) (item : Code.Item) (tokens : List Token) :
    Prop :=
  ∃ before a after, item.attributes = before ++ after ∧ SetsCrate a value ∧
    language.item tokens = .ok { item with attributes := before ++ a :: after }

theorem overrides_setting {language : Language} (hl : Faithful language) {tokens : List Token}
    {item : Code.Item} {value : CrateText} {literal : String}
    (hitem : language.item tokens = .ok item)
    (hliteral : textOfLiteral? literal = some (value.text, value.suffix)) :
    Overrides language value item (setting literal ++ tokens) :=
  ⟨[], listAttribute .parenthesis _, item.attributes, rfl, ⟨rfl, _, _, literal, rfl, hliteral⟩,
    hl.front hitem .parenthesis _⟩

/-! ## Expansions with the attribute -/

/-- An expansion that refers to the library by another path than the one used by default, and is the
same but for that. -/
structure Renamed (root : Piece) (e e' : Expansion) : Prop where
  printed : e'.printed = rerooted root.printed e.printed
  absent : libraryName ∉ e'.printed
  diagnostics : e'.diagnostics = e.diagnostics

theorem rerooted_diagnostics (root : Printed) (ds : List Diagnostic) :
    Rerooted root (ds.flatMap Expansion.printedDiagnostic)
      (ds.flatMap Expansion.printedDiagnostic) := by
  rw [List.flatMap_def]
  exact .flatten_map fun d _ => .append (.same (by decide))
    (.enclosed .brace (.single (quoted_ne_libraryName d.message)))

theorem renamed_of_overrides {language : Language} (hl : Faithful language)
    {tokens tokens' : List Token} {item : Code.Item} {value : CrateText} {root : Piece}
    (htokens : Overridable language tokens item) (hvalue : value.path language = .ok root)
    (hroot : libraryName ∉ root.printed) (htokens' : Overrides language value item tokens')
    (target : Target) :
    Alike (Renamed root) (Expansion.ofTokens language target tokens)
      (Expansion.ofTokens language target tokens') := by
  obtain ⟨before, a, after, hattributes, ha, hitem'⟩ := htokens'
  obtain ⟨d, hd⟩ := htokens.valid
  have hd' : Declaration.ofItem { item with attributes := before ++ a :: after } = .ok d := hd
  have hunset := htokens.unset
  have hread := read_setting ha (hattributes ▸ hunset)
  have hwithout : Expansion.ofTokens language target tokens =
      (target.items defaultRoot d).map fun items =>
        { items, diagnostics := (Arguments.read item.attributes).diagnostics } := by
    rw [ofTokens_eq htokens.parsed hd]
    simp [rootOf, Arguments.crate?, hunset, Arguments.crateDiagnostics]
  have hwith : Expansion.ofTokens language target tokens' =
      (target.items root d).map fun items =>
        { items, diagnostics := (Arguments.read item.attributes).diagnostics } := by
    rw [ofTokens_eq hitem' hd']
    simp [rootOf, Arguments.crate?, hread, hvalue, Arguments.crateDiagnostics, hattributes,
      Except.toOption]
  have hreplaces : Replaces root := ⟨hl.pathSegments (eq_ok_of_crateText hvalue), hroot⟩
  rw [hwithout, hwith]
  refine (alike_items_of_tokens hl htokens.parsed hd htokens.unnamed hreplaces target).map ?_
  intro p q hitems
  have hprinted := hitems.append (rerooted_diagnostics root.printed
    (Arguments.read item.attributes).diagnostics)
  exact ⟨hprinted.eq.symm, hprinted.absent, rfl⟩

/-- At every moment, whatever is looked at, the paths into the library are those behind its root,
and all is known that has been said, before another root is set and afterwards. And what is derived
from a declaration that does not name the library, with an attribute more that sets a path that does
not name it either, is what is derived without it, with the path in place of every
`::serde_flat_tag` : the library is not named any more. If nothing can be derived without the
attribute, nothing can with it, for the same reason. The attribute can always be written in front of
the declaration. -/
theorem crate_renames {language : Language} (hl : Faithful language) (tokens : List Token) :
    (∀ done left, Context.happenings language tokens = done ++ left →
      Context.Steady done (Context.moment done)) ∧
    (∀ target, Expansion.ofTokens language target tokens =
      (Context.moment (Context.happenings language tokens)).derived language target tokens) ∧
    ∀ item, Overridable language tokens item → ∀ value root, value.path language = .ok root →
      libraryName ∉ root.printed →
        (∀ tokens', Overrides language value item tokens' → ∀ target,
          Alike (Renamed root) (Expansion.ofTokens language target tokens)
            (Expansion.ofTokens language target tokens')) ∧
        ∀ literal, textOfLiteral? literal = some (value.text, value.suffix) →
          Overrides language value item (setting literal ++ tokens) := by
  refine ⟨fun done _ _ => Context.steady_moment done,
    fun target => Context.ofTokens_eq_derived language target tokens, ?_⟩
  intro item hitem value root hvalue hroot
  exact ⟨fun tokens' htokens' => renamed_of_overrides hl hitem hvalue hroot htokens',
    fun literal => overrides_setting hl hitem.parsed⟩

theorem exists_overridable (text : String)
    (h : ((tokens? text).any fun tokens => anyMentions libraryName tokens = false ∧
      (Language.grammar.item tokens).toOption.any fun item =>
        (Declaration.ofItem item).toOption.any (fun d => d.isRefused = false) ∧
          (Arguments.read item.attributes).crate = none) = true) :
    ∃ tokens item, tokens? text = some tokens ∧ Overridable .grammar tokens item ∧
      ¬ Refused item := by
  obtain ⟨tokens, htokens, h⟩ := (Option.any_eq_true _ _).1 h
  obtain ⟨hunnamed, h⟩ := of_decide_eq_true h
  obtain ⟨item, hitem, h⟩ := (Option.any_eq_true _ _).1 h
  obtain ⟨hvalid, hunset⟩ := of_decide_eq_true h
  obtain ⟨d, hd, hrefused⟩ := (Option.any_eq_true _ _).1 hvalid
  have hd := eq_ok_of_toOption hd
  refine ⟨tokens, item, htokens, ⟨eq_ok_of_toOption hitem, ⟨d, hd⟩, hunset, hunnamed⟩, ?_⟩
  rintro ⟨d', hd', hrefused'⟩
  obtain rfl := Except.ok.inj (hd.symm.trans hd')
  exact absurd hrefused' (by simpa using hrefused)

/-- An enum with a parameter, and the path of a crate that exports the library. -/
theorem crate_renames_reexported :
    ∃ tokens item root e e', tokens? "enum E<T> \x7b a(T) \x7d" = some tokens ∧
      Overridable .grammar tokens item ∧
      CrateText.path .grammar ⟨"::reexport::flat", ""⟩ = .ok root ∧
      libraryName ∉ root.printed ∧
      Expansion.ofTokens .grammar .codec tokens = .ok e ∧
      Expansion.ofTokens .grammar .codec (setting (quoted "::reexport::flat") ++ tokens) = .ok e' ∧
      Renamed root e e' := by
  obtain ⟨tokens, item, htokens, hitem, hrefused⟩ :=
    exists_overridable "enum E<T> \x7b a(T) \x7d" (by decide +kernel)
  obtain ⟨root, hvalue, hroot⟩ : ∃ root,
      CrateText.path .grammar ⟨"::reexport::flat", ""⟩ = .ok root ∧
        libraryName ∉ root.printed := by
    have h : ((CrateText.path .grammar ⟨"::reexport::flat", ""⟩).toOption.any fun root =>
        libraryName ∉ root.printed) = true := by decide +kernel
    obtain ⟨root, hvalue, hroot⟩ := (Option.any_eq_true _ _).1 h
    exact ⟨root, eq_ok_of_toOption hvalue, of_decide_eq_true hroot⟩
  obtain ⟨-, -, hrenames⟩ := crate_renames faithful_grammar tokens
  obtain ⟨hrenamed, hsetting⟩ := hrenames item hitem _ root hvalue hroot
  obtain ⟨e, he⟩ := Expansion.exists_ofItem .grammar hrefused .codec
  have he : Expansion.ofTokens .grammar .codec tokens = .ok e := by
    rw [Expansion.ofTokens, hitem.parsed]
    exact he
  have halike := hrenamed _ (hsetting (quoted "::reexport::flat") (textOfLiteral?_quoted _)) .codec
  rw [he] at halike
  generalize he' : Expansion.ofTokens .grammar .codec
    (setting (quoted "::reexport::flat") ++ tokens) = outcome at halike
  cases halike with
  | ok hrenamed =>
    exact ⟨tokens, item, root, e, _, htokens, hitem, hvalue, hroot, he, he', hrenamed⟩

end FlatUnion.Derive
