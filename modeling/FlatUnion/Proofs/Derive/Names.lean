import FlatUnion.Proofs.Derive.Agreement
import FlatUnion.Proofs.Derive.Diagnosing

/-!
# Names in derived code

Derived code introduces names beside those of the declaration : a type parameter for each of the
methods that write and read, a lifetime for what is read, and the constant with all tags in the enum
of tags (`Introduced`). They stand where names of the declaration stand too (`Introduced.In`) : the
methods in implementations for the declared type, the payloads in the method that reads, and the
constant beside the variants.

The lifetime is looked for, it is the first one that is free (`isFirstFree_iff`). But it is compared
with the parameters alone, and the other names are always the same. So a name of the declaration
may be taken for one of these (`names_captured`).

The main statement is `spares_iff` : for which declarations no name is taken for another one.
-/

namespace FlatUnion.Derive

open Code
open Soundness (Sound)

/-! ## Names in code -/

mutual

/-- The names that the paths in a piece of code begin with. -/
def heads : Piece → List String
  | .token _ | .lifetime _ => []
  | .group _ inside => headsIn inside
  | .path _ leading segments =>
    (if leading then [] else segments.head?.toList.map fun s => plainName s.1) ++
      argumentHeads segments

def headsIn : List Piece → List String
  | [] => []
  | p :: rest => heads p ++ headsIn rest

def argumentHeads : List (String × List Piece) → List String
  | [] => []
  | (_, arguments) :: rest => headsIn arguments ++ argumentHeads rest

end

/-- The lifetimes among the parameters of a binder, up to its closing angle bracket. `begins` holds
where a parameter may begin. -/
def binderLifetimes : (begins : Bool) → List Piece → List String
  | true, .lifetime name :: rest => plainName name :: binderLifetimes false rest
  | true, .token (.punct '#' _) :: .group _ _ :: rest => binderLifetimes true rest
  | _, .token (.punct ',' _) :: rest => binderLifetimes true rest
  | _, .token (.punct '-' _) :: .token (.punct '>' _) :: rest => binderLifetimes false rest
  | _, .token (.punct '>' _) :: _ => []
  | _, _ :: rest => binderLifetimes false rest
  | _, [] => []

mutual

/-- The lifetimes that are bound inside of a piece of code. -/
def boundIn : Piece → List String
  | .token _ | .lifetime _ => []
  | .group _ inside => boundAmong inside
  | .path _ _ segments => argumentBound segments

/-- The lifetimes that are bound in some pieces of code. -/
def boundAmong : List Piece → List String
  | [] => []
  | .token (.ident "for") :: .token (.punct '<' _) :: rest =>
    binderLifetimes true rest ++ boundAmong rest
  | p :: rest => boundIn p ++ boundAmong rest

def argumentBound : List (String × List Piece) → List String
  | [] => []
  | (_, arguments) :: rest => boundAmong arguments ++ argumentBound rest

end

/-! ## What derived code introduces -/

/-- The names that derived code introduces where names of the declaration stand too. -/
structure Introduced where
  /-- The type parameter of the method that writes. -/
  writer : String
  /-- The type parameter of the method that reads. -/
  reader : String
  /-- The lifetime of what is read. -/
  life : String
  /-- The constant of the enum of tags. -/
  constant : String

/-- The names that are introduced for a declaration. -/
def Declaration.introduced (d : Declaration) : Introduced :=
  ⟨writerParameter, readerParameter, (readGenerics d).2, tagTable⟩

/-- The code of a declaration in which lifetimes may be bound : the bounds of its parameters, its
where clause and its payloads. -/
def Declaration.codes (d : Declaration) : List (List Piece) :=
  d.generics.params.map (·.bounds) ++ (d.clause.map (·.predicates)).getD [] ++
    d.variants.map (·.payload)

namespace Introduced

/-- Printed code introduces some names for a declaration. The payloads stand in the method that
reads, and the constant stands beside the members that are named like the variants. -/
structure In (n : Introduced) (d : Declaration) (p : Printed) : Prop where
  writer : ∃ rest body,
    Within "for" d.name
      (methodTrees "serialize" (.leaf "<" :: .leaf n.writer :: .leaf ":" :: rest) body) p
  reader : ∃ rest body,
    Implements [.leaf "<", .leaf (lifetimeText n.life)] d.name
      (methodTrees "deserialize" (.leaf "<" :: .leaf n.reader :: .leaf ":" :: rest) body) p ∧
    ∀ v ∈ d.variants, Holds v.payloadTrees body
  members : ∃ table, Shows [.leaf "enum", .leaf d.tagEnum, .group .brace table] p ∧
    entries "," table = d.variants.map fun v => [.leaf v.name]
  constant : ∃ rest, Within "impl" d.tagEnum (.leaf "const" :: .leaf n.constant :: rest) p
  /-- The constant is referred to by its path. -/
  referred : Shows (Pattern.member d.tagEnum n.constant).trees p

variable (n : Introduced) (d : Declaration)

/-- No parameter of the declaration has the name of a parameter of a method. -/
def SparesParameters : Prop :=
  ∀ q ∈ d.generics.params, q.kind ≠ .lifetime →
    plainName q.name ≠ plainName n.writer ∧ plainName q.name ≠ plainName n.reader

/-- No path in a payload begins with the parameter of the method in which payloads stand. -/
def SparesPayloads : Prop := ∀ v ∈ d.variants, plainName n.reader ∉ headsIn v.payload

/-- The lifetime is bound nowhere in the declaration. -/
def SparesLifetimes : Prop := ∀ code ∈ d.codes, plainName n.life ∉ boundAmong code

/-- No variant has the name of the constant. -/
def SparesVariants : Prop := ∀ v ∈ d.variants, plainName v.name ≠ n.constant

/-- None of some introduced names is taken for a name of the declaration, nor the other way. -/
structure Spares : Prop where
  parameters : n.SparesParameters d
  payloads : n.SparesPayloads d
  lifetimes : n.SparesLifetimes d
  variants : n.SparesVariants d

instance : Decidable (n.SparesParameters d) := inferInstanceAs (Decidable (∀ q ∈ _, _))

instance : Decidable (n.SparesPayloads d) := inferInstanceAs (Decidable (∀ v ∈ _, _))

instance : Decidable (n.SparesLifetimes d) := inferInstanceAs (Decidable (∀ code ∈ _, _))

instance : Decidable (n.SparesVariants d) := inferInstanceAs (Decidable (∀ v ∈ _, _))

end Introduced

/-- The arm for texts that are no tags refers to the list of all tags. -/
theorem holds_unknownArm (tagEnum : String) :
    Holds (Pattern.member tagEnum tagTable).trees (unknownArm tagEnum).result :=
  .inside _ [] .parenthesis (.inside _ [] .parenthesis (.append_left _ (.refl _)))

/-- The arm that reads a payload names its type. -/
theorem holds_readArm (v : Variant) (tagEnum : String) :
    Holds v.payloadTrees (v.readArm tagEnum).result :=
  .inside [] [] .brace ((((Holds.refl _).append_left _).append_right _).append_right _)

/-- What an arm of a choice holds, code with the choice holds. -/
theorem holds_choice {arms : List Arm} {a : Arm} (ha : a ∈ arms) {part : List Tree}
    (h : Holds part a.result) (start : List Tree) (value : String) :
    Holds part (start ++ choiceTrees value (Arm.tableOf arms)) :=
  .append_left _ (.inside [.leaf "match", .leaf value] [] .brace (Arm.holds_tableOf ha h))

/-- The names that derived code introduces stand in it. -/
theorem introduced_in {root : Piece} {d : Declaration} {p : Printed} (hroot : Sound root)
    (hd : Sound d) (hp : codecItems root d = .ok p) : d.introduced.In d p := by
  have hmembers := (codecTables_codecItems hroot hd hp).members
  obtain ⟨written, read, hwrites, hreads, rfl⟩ := codecItems_eq_ok hp
  obtain ⟨⟨type, texts, htexts, -⟩, -⟩ := within_tagMethods hd
  obtain ⟨signature, hfound⟩ := within_tagReading hroot hd
  obtain ⟨rest, start, finish, hwritten⟩ := within_writing hroot hd hwrites
  obtain ⟨rest', start', hread⟩ := implements_reading hroot hd hreads
  have hunknown : Holds (Pattern.member d.tagEnum tagTable).trees
      (methodTrees "visit_str" signature (choiceTrees "value" (Arm.tableOf d.tagArms))) :=
    .inside (_ :: _ :: signature) [] .brace (holds_choice
      (List.mem_append_right _ List.mem_cons_self) (holds_unknownArm d.tagEnum) [] "value")
  have hpayloads : ∀ v ∈ d.variants, Holds v.payloadTrees
      (start' ++ choiceTrees "tag" (Arm.tableOf d.readArms)) := fun v hv =>
    holds_choice (List.mem_map_of_mem hv) (holds_readArm v d.tagEnum) start' "tag"
  have hshows : ∀ {q}, q ∈ codecParts root d written read → ∀ part, Shows part q →
      Shows part (codecItemsOf root d written read) :=
    fun hq _ h => shows_codecItems hwrites hreads hroot hd hq h
  exact
    { writer := ⟨rest, _, hwritten.mono (hshows (by simp [codecParts]))⟩
      reader := ⟨rest', _, hread.mono (hshows (by simp [codecParts])), hpayloads⟩
      members := hmembers
      constant := ⟨_, htexts.mono (hshows (by simp [codecParts]))⟩
      referred := hshows (by simp [codecParts]) _ (hfound.shows.trans hunknown) }

/-! ## The added lifetime -/

/-- A name for a new lifetime is the first one that is free. -/
def IsFirstFree (g : Generics) (hint life : String) : Prop :=
  ∃ before after, g.lifetimeNames hint = before ++ life :: after ∧
    (∀ name ∈ before, name ∈ g.lifetimes) ∧ life ∉ g.lifetimes

/-- The lifetime that is added is the first free one, and no other is. -/
theorem isFirstFree_iff (d : Declaration) {life : String} :
    IsFirstFree d.generics "de" life ↔ life = (readGenerics d).2 := by
  have hfree : IsFirstFree d.generics "de" life ↔
      d.generics.freshLifetime? "de" = some life := by
    simp only [Generics.freshLifetime?, List.find?_eq_some_iff_append, IsFirstFree]
    constructor
    · rintro ⟨before, after, heq, hbefore, hlife⟩
      exact ⟨by simpa using hlife, before, after, heq, fun n hn => by simpa using hbefore n hn⟩
    · rintro ⟨hlife, before, after, heq, hbefore⟩
      exact ⟨before, after, heq, fun n hn => by simpa using hbefore n hn, by simpa using hlife⟩
  rw [hfree, (readGenerics_eq d).1, Option.some.injEq, eq_comm]

/-! ## Names that are taken for others -/

/-- The names stand in what is derived from tokens, unless it is refused. -/
theorem introduced_in_ofTokens {language : Language} (hl : Faithful language)
    {tokens : List Token} {item : Code.Item} {d : Declaration} (htokens : Sound tokens)
    (hitem : language.item tokens = .ok item) (hd : Declaration.ofItem item = .ok d)
    (hvariants : d.variants ≠ []) (hrefused : d.isRefused = false) :
    ∃ e, Expansion.ofTokens language .codec tokens = .ok e ∧ d.introduced.In d e.items := by
  obtain ⟨p, hp⟩ := exists_targetItems hrefused .codec (rootOf language item)
  have hcodec := (items_of_variants hvariants (rootOf language item)).1
  rw [ofTokens_eq hitem hd, hp]
  exact ⟨_, rfl, introduced_in (sound_root hl item) (sound_of_tokens hl htokens hitem hd)
    (hcodec ▸ hp)⟩

/-- The names that are introduced for a declaration are taken for no names of it exactly if no type
or constant is a parameter `S` or `D`, no path in a payload begins with `D`, the first lifetime that
is not a parameter is not bound in the declaration, and no variant is called `VARIANTS`. In whatever
language the declaration is read, these are the names that stand in the code derived from it. -/
theorem spares_iff (d : Declaration) :
    (d.introduced.Spares d ↔
      (∀ q ∈ d.generics.params, q.kind ≠ .lifetime → plainName q.name ∉ ["S", "D"]) ∧
      (∀ v ∈ d.variants, "D" ∉ headsIn v.payload) ∧
      (∀ life, IsFirstFree d.generics "de" life →
        ∀ code ∈ d.codes, plainName life ∉ boundAmong code) ∧
      "VARIANTS" ∉ d.tags) ∧
    ∀ {language : Language} {tokens : List Token} {item : Code.Item}, Faithful language →
      Sound tokens → language.item tokens = .ok item → Declaration.ofItem item = .ok d →
      d.variants ≠ [] → d.isRefused = false →
      ∃ e, Expansion.ofTokens language .codec tokens = .ok e ∧ d.introduced.In d e.items := by
  refine ⟨?_, fun hl htokens => introduced_in_ofTokens hl htokens⟩
  have hnames : plainName writerParameter = "S" ∧ plainName readerParameter = "D" := by
    decide +kernel
  have hparameters : d.introduced.SparesParameters d ↔
      ∀ q ∈ d.generics.params, q.kind ≠ .lifetime → plainName q.name ∉ ["S", "D"] := by
    simp [Introduced.SparesParameters, Declaration.introduced, hnames]
  have hpayloads : d.introduced.SparesPayloads d ↔
      ∀ v ∈ d.variants, "D" ∉ headsIn v.payload := by
    simp [Introduced.SparesPayloads, Declaration.introduced, hnames]
  have hlifetimes : d.introduced.SparesLifetimes d ↔
      ∀ life, IsFirstFree d.generics "de" life →
        ∀ code ∈ d.codes, plainName life ∉ boundAmong code := by
    simp [Introduced.SparesLifetimes, Declaration.introduced, isFirstFree_iff]
  have htags : d.introduced.SparesVariants d ↔ "VARIANTS" ∉ d.tags := by
    simp [Introduced.SparesVariants, Declaration.introduced, Declaration.tags, Variant.tag,
      tagTable]
  rw [← hparameters, ← hpayloads, ← hlifetimes, ← htags]
  constructor
  · intro h
    exact ⟨h.parameters, h.payloads, h.lifetimes, h.variants⟩
  · rintro ⟨hp, hpay, hl, hv⟩
    exact ⟨hp, hpay, hl, hv⟩

/-- A text that declares a flat union, and from which code is derived that introduces names. -/
def Derived (text : String) (d : Declaration) : Prop :=
  ∃ tokens item e, tokens? text = some tokens ∧ Language.grammar.item tokens = .ok item ∧
    Declaration.ofItem item = .ok d ∧ Expansion.ofTokens .grammar .codec tokens = .ok e ∧
    d.introduced.In d e.items

/-- A lifetime is bound in the payload, but not the one that is added. -/
theorem spares_iff_bound :
    ∃ d, Derived "enum E<T> \x7b a(Box<dyn for<'a> F<'a, T>>) \x7d" d ∧
      d.introduced.Spares d := by
  obtain ⟨tokens, item, d, htokens, hitem, hd, hne, hrefused, hparameters, hpayloads, hlifetimes,
      htags⟩ :=
    exists_declared "enum E<T> \x7b a(Box<dyn for<'a> F<'a, T>>) \x7d" (P := fun d =>
      d.isRefused = false ∧
        (∀ q ∈ d.generics.params, q.kind ≠ .lifetime → plainName q.name ∉ ["S", "D"]) ∧
        (∀ v ∈ d.variants, "D" ∉ headsIn v.payload) ∧
        (∀ code ∈ d.codes, plainName (readGenerics d).2 ∉ boundAmong code) ∧
        "VARIANTS" ∉ d.tags) (by decide +kernel)
  obtain ⟨hspares, hin⟩ := spares_iff d
  obtain ⟨e, he, hin⟩ :=
    hin faithful_grammar (sound_of_tokens? htokens) hitem hd hne hrefused
  exact ⟨d, ⟨tokens, item, e, htokens, hitem, hd, he, hin⟩, hspares.2 ⟨hparameters, hpayloads,
    fun life hlife => (isFirstFree_iff d).1 hlife ▸ hlifetimes, htags⟩⟩

/-! ## Names that are captured -/

theorem exists_derived {text : String} {P : Declaration → Prop} [DecidablePred P]
    (h : (Declaration.ofText? text).any fun d =>
      d.variants ≠ [] ∧ d.isRefused = false ∧ P d) :
    ∃ d, Derived text d ∧ P d := by
  obtain ⟨tokens, item, d, htokens, hitem, hd, hne, hrefused, hP⟩ :=
    exists_declared text (P := fun d => d.isRefused = false ∧ P d) h
  obtain ⟨e, he, hin⟩ := introduced_in_ofTokens faithful_grammar (sound_of_tokens? htokens) hitem
    hd hne hrefused
  exact ⟨d, ⟨tokens, item, e, htokens, hitem, hd, he, hin⟩, hP⟩

/-- A parameter `D` of the declaration, a payload `D`, a lifetime `'de` that is bound in a payload,
and a variant `VARIANTS` are not kept apart from what is introduced. -/
theorem names_captured :
    (∃ d, Derived "enum E<D> \x7b a(D) \x7d" d ∧ ¬ d.introduced.SparesParameters d) ∧
    (∃ d, Derived "enum E \x7b a(D) \x7d" d ∧ ¬ d.introduced.SparesPayloads d) ∧
    (∃ d, Derived "enum E \x7b a(Box<dyn for<'de> F<'de>>) \x7d" d ∧
      ¬ d.introduced.SparesLifetimes d) ∧
    ∃ d, Derived "enum E \x7b VARIANTS(u8) \x7d" d ∧ ¬ d.introduced.SparesVariants d :=
  ⟨exists_derived (by decide +kernel), exists_derived (by decide +kernel),
    exists_derived (by decide +kernel), exists_derived (by decide +kernel)⟩

end FlatUnion.Derive
