import FlatUnion.Proofs.Derive.Arguments
import FlatUnion.Proofs.Derive.Tables

/-!
# What is said about an item

An item is looked at in three stages : its attributes, the path that they set for the crate, and
what it declares. At the first stage something is said about each notice in turn, at the others at
most one thing (`pathFault?`, `declarationFault?`), and no stage depends on what has been said
before. Items are generated if nothing is wrong with the declaration and it has variants, all else
may be as it likes (`items_ne_nil_iff`), unless the where clause is refused that they need. Then
there is no derived code, and nothing is said (`Refused`).

The main statement is `ofTokens_expands` : what is derived from any tokens, in any language, and how
it is printed.
-/

namespace FlatUnion.Derive

open Code

/-! ## Faults of declarations -/

/-- A variant has one field, which is its payload. -/
def HasPayload (v : Code.Variant) : Prop := ∃ f, v.fields = some [f]

/-- What is wrong with the fields of a variant. -/
def fieldFault? (v : Code.Variant) : Option Diagnostic :=
  match v.fields with
  | none => some .noFields
  | some fields => if fields.length = 1 then none else some .fieldCount

/-- What is wrong with what an item declares : it is no enum, or its first variant with a fault. -/
def declarationFault? (item : Code.Item) : Option Diagnostic :=
  match item.body with
  | .enum variants => variants.findSome? fieldFault?
  | .struct | .union => some .notAnEnum

theorem fieldFault?_eq_none_iff {v : Code.Variant} : fieldFault? v = none ↔ HasPayload v := by
  obtain ⟨name, fields⟩ := v
  cases fields with
  | none => simp [fieldFault?, HasPayload]
  | some fields => simp [fieldFault?, HasPayload, List.length_eq_one_iff]

theorem declarationFault?_eq_none_iff {item : Code.Item} :
    declarationFault? item = none ↔
      ∃ variants, item.body = .enum variants ∧ ∀ v ∈ variants, HasPayload v := by
  unfold declarationFault?
  cases item.body with
  | enum variants => simp [fieldFault?_eq_none_iff]
  | _ => simp

/-- What went wrong. -/
def faultOf {ε α : Type} : Except ε α → Option ε
  | .error e => some e
  | .ok _ => none

/-- Of a list the first fault is found. -/
theorem faultOf_mapM {α β ε : Type} (f : α → Except ε β) (xs : List α) :
    faultOf (xs.mapM f) = xs.findSome? fun x => faultOf (f x) := by
  induction xs with
  | nil => rfl
  | cons x xs ih =>
    rw [List.mapM_cons, List.findSome?_cons, ← ih]
    cases f x with
    | error e => rfl
    | ok y => cases xs.mapM f <;> rfl

theorem faultOf_ofEnum (v : Code.Variant) : faultOf (Variant.ofEnum v) = fieldFault? v := by
  obtain ⟨name, fields⟩ := v
  rcases fields with - | (- | ⟨f, - | ⟨g, fields⟩⟩) <;> simp [Variant.ofEnum, fieldFault?, faultOf]

theorem faultOf_ofItem (item : Code.Item) :
    faultOf (Declaration.ofItem item) = declarationFault? item := by
  unfold Declaration.ofItem declarationFault?
  cases item.body with
  | enum variants =>
    have hvariants : faultOf (variants.mapM Variant.ofEnum) = variants.findSome? fieldFault? := by
      rw [faultOf_mapM]
      simp only [faultOf_ofEnum]
    simp only [← hvariants]
    cases variants.mapM Variant.ofEnum <;> rfl
  | _ => rfl

/-! ## Stages -/

/-- What is noticed in the attributes of an item. -/
def notices (item : Code.Item) : List Notice := item.attributes.flatMap Notice.ofAttribute

/-- What is wrong with the path for the crate that the attributes of an item set. -/
def pathFault? (language : Language) (item : Code.Item) : Option Diagnostic :=
  ((notices item).findSome? Notice.value?).bind fun value =>
    (faultOf (value.path language)).map .invalidCrate

theorem crateDiagnostics_eq (language : Language) (item : Code.Item) :
    (Arguments.read item.attributes).crateDiagnostics language =
      (pathFault? language item).toList := by
  rw [Arguments.crateDiagnostics, Arguments.read_eq, pathFault?, notices]
  cases (item.attributes.flatMap Notice.ofAttribute).findSome? Notice.value? with
  | none => rfl
  | some value =>
    cases hpath : value.path language <;> simp [hpath, faultOf]

/-- An item declares a flat union whose implementations need a where clause that is refused. -/
def Refused (item : Code.Item) : Prop :=
  ∃ d, Declaration.ofItem item = .ok d ∧ d.isRefused = true

/-- The items of a declaration can be made exactly if no where clause is refused. -/
theorem exists_targetItems {d : Declaration} (h : d.isRefused = false) (target : Target)
    (root : Piece) : ∃ p, target.items root d = .ok p := by
  have hok {α : Type} (trait : Piece) (f : Option WhereClause → α) :
      ∃ p, (boundClause d trait).map f = .ok p := by
    obtain ⟨clause, hclause⟩ := exists_boundClause h trait
    exact ⟨f clause, by rw [hclause]; rfl⟩
  unfold Target.items
  split
  · exact ⟨[], rfl⟩
  cases target with
  | codec =>
    obtain ⟨written, hwritten⟩ : ∃ p, writing root d = .ok p := hok _ _
    obtain ⟨read, hread⟩ : ∃ p, reading root d = .ok p := hok _ _
    exact ⟨_, by rw [codecItems, hwritten, hread]; rfl⟩
  | schema => exact hok _ _

theorem variants_ne_nil_of_isRefused {d : Declaration} (h : d.isRefused = true) :
    d.variants ≠ [] := by
  intro hnil
  simp [Declaration.isRefused, Declaration.genericPayloads, hnil] at h

theorem targetItems_eq_error {d : Declaration} (h : d.isRefused = true) (target : Target)
    (root : Piece) : target.items root d = .error ⟨WhereClause.parametersReserved, false⟩ := by
  have herror {α : Type} (trait : Piece) (f : Option WhereClause → α) :
      (boundClause d trait).map f = .error ⟨WhereClause.parametersReserved, false⟩ := by
    rw [boundClause_eq_error h]
    rfl
  obtain ⟨hcodec, hschema⟩ := items_of_variants (variants_ne_nil_of_isRefused h) root
  cases target with
  | codec =>
    have hwriting : writing root d = .error _ := herror _ _
    rw [hcodec, codecItems, hwriting]
    rfl
  | schema => exact hschema.trans (herror _ _)

namespace Expansion

/-- There is derived code unless a where clause is refused. -/
theorem exists_ofItem (language : Language) {item : Code.Item} (h : ¬ Refused item)
    (target : Target) : ∃ e, ofItem language target item = .ok e := by
  unfold ofItem
  cases hd : Declaration.ofItem item with
  | error fault => exact ⟨_, rfl⟩
  | ok d =>
    have hrefused : d.isRefused = false := Bool.eq_false_iff.2 fun hd' => h ⟨d, hd, hd'⟩
    obtain ⟨p, hp⟩ := exists_targetItems hrefused target
      (((Arguments.read item.attributes).crate? language).getD defaultRoot)
    exact ⟨_, by simp only [hp]; rfl⟩

theorem ofItem_eq_error (language : Language) {item : Code.Item} (h : Refused item)
    (target : Target) :
    ofItem language target item = .error ⟨WhereClause.parametersReserved, false⟩ := by
  obtain ⟨d, hd, hrefused⟩ := h
  simp only [ofItem, hd, targetItems_eq_error hrefused]
  rfl

variable {language : Language} {target : Target} {item : Code.Item} {e : Expansion}

/-- What is said about an item does not depend on what is derived. -/
theorem diagnostics_ofItem (he : ofItem language target item = .ok e) :
    e.diagnostics =
      Notice.report false (notices item) ++ (pathFault? language item).toList ++
        (declarationFault? item).toList := by
  have hattributes : (Arguments.read item.attributes).diagnostics =
      Notice.report false (notices item) := by
    rw [Arguments.read_eq]
    rfl
  rw [← hattributes, ← crateDiagnostics_eq, ← faultOf_ofItem]
  unfold ofItem at he
  cases hd : Declaration.ofItem item with
  | error fault =>
    simp only [hd, pure_eq_ok] at he
    simp [← he, faultOf]
  | ok d =>
    simp only [hd, bind_eq_ok, pure_eq_ok] at he
    obtain ⟨p, -, rfl⟩ := he
    simp [faultOf]

theorem targetItems_eq_nil_iff {root : Piece} {d : Declaration} {p : Printed}
    (hp : target.items root d = .ok p) : p = [] ↔ d.variants = [] := by
  unfold Target.items at hp
  split at hp
  · next h =>
    obtain rfl := pure_eq_ok.1 hp
    exact iff_of_true rfl (List.isEmpty_iff.1 h)
  · next h =>
    refine iff_of_false ?_ fun hnil => h (List.isEmpty_iff.2 hnil)
    cases target with
    | codec =>
      obtain ⟨written, read, -, -, rfl⟩ := codecItems_eq_ok hp
      simp [codecItemsOf]
    | schema =>
      obtain ⟨clause, -, rfl⟩ := map_eq_ok.1 hp
      simp [generatedMark]

/-- Items are generated for an enum with variants each of which has one field. -/
theorem items_ne_nil_iff (he : ofItem language target item = .ok e) :
    e.items ≠ [] ↔
      ∃ variants, item.body = .enum variants ∧ variants ≠ [] ∧ ∀ v ∈ variants, HasPayload v := by
  have hfault := faultOf_ofItem item
  unfold ofItem at he
  cases hd : Declaration.ofItem item with
  | error fault =>
    rw [hd] at hfault
    simp only [hd, pure_eq_ok] at he
    refine iff_of_false (by simp [← he]) ?_
    rintro ⟨variants, hbody, -, hvariants⟩
    have hnone := declarationFault?_eq_none_iff.2 ⟨variants, hbody, hvariants⟩
    simp [← hfault, faultOf] at hnone
  | ok d =>
    rw [hd] at hfault
    simp only [hd, bind_eq_ok, pure_eq_ok] at he
    obtain ⟨p, hp, rfl⟩ := he
    obtain ⟨variants, hbody, hvariants⟩ := declarationFault?_eq_none_iff.1 hfault.symm
    have hempty : d.variants = [] ↔ variants = [] := by
      have h := (ofItem_eq_ok hd).2.2.2
      rw [hbody] at h
      rw [ItemBody.enum.inj h, List.map_eq_nil_iff]
    simp only [ne_eq, targetItems_eq_nil_iff hp, hempty]
    constructor
    · exact fun h => ⟨variants, hbody, h, hvariants⟩
    · rintro ⟨variants', hbody', hne, -⟩
      rwa [ItemBody.enum.inj (hbody.symm.trans hbody')]

end Expansion

/-! ## Derived code -/

/-- A diagnostic as it stands in derived code. -/
def Diagnostic.trees (d : Diagnostic) : List Tree :=
  leaves ": : core : : compile_error !" ++ [Tree.group .brace [Tree.leaf (quoted d.message)]]

theorem trees?_printedDiagnostics (ds : List Diagnostic) :
    trees? (ds.flatMap Expansion.printedDiagnostic) = some (ds.flatMap Diagnostic.trees) := by
  rw [List.flatMap_def, List.flatMap_def]
  refine trees?_flatten_map fun d _ => ?_
  exact trees?_append rfl (trees?_braced (trees?_leaf (isLeaf_quoted _)))

/-- What is derived from tokens of a language. -/
structure Expands (language : Language) (tokens : List Token) (e : Expansion) : Prop where
  /-- Items are generated exactly for an enum that has variants, and one field in each of them. -/
  emitted : e.items ≠ [] ↔ ∃ item variants, language.item tokens = .ok item ∧
    item.body = .enum variants ∧ variants ≠ [] ∧ ∀ v ∈ variants, HasPayload v
  /-- Of tokens that are no item nothing else is said. -/
  unread : ∀ c, language.item tokens = .error c → e.diagnostics = [.complaint c]
  /-- Of an item the faults of its three stages are named one after another. -/
  stages : ∀ item, language.item tokens = .ok item →
    e.diagnostics = Notice.report false (notices item) ++ (pathFault? language item).toList ++
      (declarationFault? item).toList
  /-- What is noticed in the attributes is read from their tokens, part by part. -/
  inOrder : ∀ item, language.item tokens = .ok item →
    ∀ source ∈ item.attributes, source.path.name? = some "flat_tag" →
      ∀ d ts, source.body = .list d ts → ∃ parts : List (List Token),
        parts.flatten = ts ∧
          Notice.ofAttribute source = parts.map fun part => .found (Finding.next part).1
  /-- Nothing is wrong with the declaration exactly if it is an enum with one field in each of its
  variants. -/
  declared : ∀ item, language.item tokens = .ok item →
    (declarationFault? item = none ↔
      ∃ variants, item.body = .enum variants ∧ ∀ v ∈ variants, HasPayload v)
  /-- An enum without variants has no fault, and nothing is generated for it. -/
  withoutVariants : ∀ item, language.item tokens = .ok item → item.body = .enum [] →
    e.items = [] ∧ declarationFault? item = none
  /-- Behind the items stands every diagnostic once, in the same order. -/
  printed : ∃ behind, e.printed = e.items ++ behind ∧
    trees? behind = some (e.diagnostics.flatMap Diagnostic.trees)

/-- What is noticed in an attribute is found in consecutive parts of its tokens. -/
theorem Notice.exists_parts {source : Attribute} {d : Delimiter} {ts : List Token}
    (hname : source.path.name? = some "flat_tag") (hbody : source.body = .list d ts) :
    ∃ parts : List (List Token), parts.flatten = ts ∧
      ofAttribute source = parts.map fun part => .found (Finding.next part).1 := by
  refine ⟨Finding.parts ts, Finding.flatten_parts ts, ?_⟩
  rw [ofAttribute_list hname hbody, Finding.all_eq_map_parts, List.map_map]
  rfl

theorem expands_ofTokens {language : Language} {target : Target} {tokens : List Token}
    {e : Expansion} (he : Expansion.ofTokens language target tokens = .ok e) :
    Expands language tokens e := by
  have hprinted : ∃ behind, e.printed = e.items ++ behind ∧
      trees? behind = some (e.diagnostics.flatMap Diagnostic.trees) :=
    ⟨_, rfl, trees?_printedDiagnostics _⟩
  cases hitem : language.item tokens with
  | error c =>
    rw [Expansion.ofTokens, hitem] at he
    obtain rfl := pure_eq_ok.1 he
    have hno : ∀ item, language.item tokens ≠ .ok item := by simp [hitem]
    exact
      { emitted := iff_of_false (by simp) (by simp [hitem])
        unread := fun c' h => by rw [Except.error.inj (hitem.symm.trans h)]
        stages := fun item h => absurd h (hno item)
        inOrder := fun item h => absurd h (hno item)
        declared := fun item h => absurd h (hno item)
        withoutVariants := fun item h => absurd h (hno item)
        printed := hprinted }
  | ok item =>
    rw [Expansion.ofTokens, hitem] at he
    have hsame : ∀ {item'}, language.item tokens = .ok item' → item = item' :=
      fun h => Except.ok.inj (hitem.symm.trans h)
    have hitems := Expansion.items_ne_nil_iff he
    refine
      { emitted := ?_
        unread := fun c h => absurd h (by simp [hitem])
        stages := fun item' h => hsame h ▸ Expansion.diagnostics_ofItem he
        inOrder := fun _ _ _ _ hname _ _ hbody => Notice.exists_parts hname hbody
        declared := fun _ _ => declarationFault?_eq_none_iff
        withoutVariants := fun item' h hbody => ?_
        printed := hprinted }
    · rw [hitems]
      constructor
      · rintro ⟨variants, h⟩
        exact ⟨item, variants, hitem, h⟩
      · rintro ⟨item', variants, h, hvariants⟩
        exact hsame h ▸ ⟨variants, hvariants⟩
    · obtain rfl := hsame h
      refine ⟨?_, declarationFault?_eq_none_iff.2 ⟨[], hbody, by simp⟩⟩
      by_contra hne
      obtain ⟨variants, hvariants, hnil, -⟩ := hitems.1 hne
      exact hnil (ItemBody.enum.inj (hvariants.symm.trans hbody))

/-- Whatever is derived from tokens of a language, items are generated exactly for an enum with
variants each of which has one field. Of tokens that are no item only this is said. Of an item its
faults are named stage by stage : those of its attributes in the order in which they are written,
that of the path set in them, and that of the declaration, which is of its first variant at fault.
All of them stand behind the items, and they are the same for both things that can be derived. Only
an item that is refused has no derived code at all, and nothing is said of it but that. -/
theorem ofTokens_expands (language : Language) (tokens : List Token) :
    ((∃ item, language.item tokens = .ok item ∧ Refused item) →
      ∀ target, Expansion.ofTokens language target tokens =
        .error ⟨WhereClause.parametersReserved, false⟩) ∧
    ((∀ item, language.item tokens = .ok item → ¬ Refused item) →
      ∃ diagnostics, ∀ target, ∃ e, Expansion.ofTokens language target tokens = .ok e ∧
        Expands language tokens e ∧ e.diagnostics = diagnostics) := by
  refine ⟨fun ⟨item, hitem, hrefused⟩ target => ?_, fun hrefused => ?_⟩
  · rw [Expansion.ofTokens, hitem]
    exact Expansion.ofItem_eq_error language hrefused target
  cases hitem : language.item tokens with
  | error c =>
    refine ⟨[.complaint c], fun target => ?_⟩
    have he : Expansion.ofTokens language target tokens =
        .ok { items := [], diagnostics := [.complaint c] } := by
      rw [Expansion.ofTokens, hitem]
      rfl
    exact ⟨_, he, expands_ofTokens he, rfl⟩
  | ok item =>
    refine ⟨Notice.report false (notices item) ++ (pathFault? language item).toList ++
      (declarationFault? item).toList, fun target => ?_⟩
    obtain ⟨e, he⟩ := Expansion.exists_ofItem language (hrefused item hitem) target
    have he : Expansion.ofTokens language target tokens = .ok e := by
      rw [Expansion.ofTokens, hitem]
      exact he
    have hexpands := expands_ofTokens he
    exact ⟨e, he, hexpands, hexpands.stages item hitem⟩

/-- Something is wrong at each of the stages. -/
example :
    ((tokens? "#[flat_tag(crate = \"a b\", 5)] enum E \x7b a(A), b, c() \x7d").bind
      fun tokens => (Expansion.ofTokens .grammar .codec tokens).toOption.map (·.diagnostics)) =
    some [.complaint (nameMissing false), .invalidCrate ⟨.leftover none, false⟩, .noFields] := by
  decide +kernel

/-- An enum whose only payload is what a parameter's trait associates with it. -/
def associatedText : String := "enum E<T: Tr> \x7b a(<T>::X) \x7d"

/-- Nothing is derived from this enum, though each of its variants has one field. -/
theorem nothing_derived :
    ∃ tokens item variants, tokens? associatedText = some tokens ∧
      Language.grammar.item tokens = .ok item ∧ item.body = .enum variants ∧ variants ≠ [] ∧
      (∀ v ∈ variants, HasPayload v) ∧
      ∀ target, ∃ c, Expansion.ofTokens .grammar target tokens = .error c := by
  obtain ⟨tokens, item, d, htokens, hitem, hd, hvariants, hrefused⟩ :=
    exists_declared associatedText (P := fun d => d.isRefused = true) (by decide +kernel)
  refine ⟨tokens, item, _, htokens, hitem, (ofItem_eq_ok hd).2.2.2, by simpa using hvariants, ?_,
    fun target => ⟨⟨WhereClause.parametersReserved, false⟩, ?_⟩⟩
  · exact List.forall_mem_map.2 fun v _ => ⟨_, rfl⟩
  · rw [Expansion.ofTokens, hitem]
    exact Expansion.ofItem_eq_error .grammar ⟨d, hd, hrefused⟩ target

end FlatUnion.Derive
