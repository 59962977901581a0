import FlatUnion.Proofs.Derive.Diagnosing

/-!
# The heads of implementations

The implementation that reads has one lifetime more than the declaration. A name for it is always
found : the hint, or else the first free letter, or else the first free number (`FirstFree`).

Behind the head of an implementation stands its where clause. Its predicates are those of the
declaration, and behind them one for each payload that uses a parameter, in the order of the
variants (`Declaration.clauseText`). Whether a payload uses one is told by `anyUses`, so all
implementations ask the same payloads for their trait. A clause of added predicates alone can be
refused, and then it is refused to all of them (`Declaration.isRefused`).

The main statements are `withLifetime?_fresh` and `where_clauses`.
-/

namespace FlatUnion.Derive

open Code

/-! ## The added lifetime -/

/-- The name for a new lifetime : the hint if it is free, or else the first letter that is free, or
else the first number that is free, behind an underscore. -/
inductive FirstFree (g : Generics) (hint : String) : String → Prop
  | hint (hhint : hint ∉ g.lifetimes) : FirstFree g hint hint
  | letter {before after : List Char} {c : Char} (hhint : hint ∈ g.lifetimes)
      (hletters : "abcdefghijklmnopqrstuvwxyz".toList = before ++ c :: after)
      (hbefore : ∀ b ∈ before, String.singleton b ∈ g.lifetimes)
      (hfree : String.singleton c ∉ g.lifetimes) : FirstFree g hint (String.singleton c)
  | number {i : Nat} (hhint : hint ∈ g.lifetimes)
      (hletters : ∀ c ∈ "abcdefghijklmnopqrstuvwxyz".toList, String.singleton c ∈ g.lifetimes)
      (hbefore : ∀ j < i, "_" ++ toString j ∈ g.lifetimes)
      (hfree : "_" ++ toString i ∉ g.lifetimes) : FirstFree g hint ("_" ++ toString i)

variable {g : Generics} {hint life : String}

theorem FirstFree.not_mem (h : FirstFree g hint life) : life ∉ g.lifetimes := by
  cases h <;> assumption

theorem firstFree_of_freshLifetime (h : g.freshLifetime? hint = some life) :
    FirstFree g hint life := by
  rw [Generics.freshLifetime?, Generics.lifetimeNames, List.cons_append, List.find?_cons] at h
  split at h
  · next hfree =>
    obtain rfl := Option.some.inj h
    exact .hint (by simpa using hfree)
  next htaken =>
  have hhint : hint ∈ g.lifetimes := by simpa using htaken
  rw [List.find?_append, Option.or_eq_some_iff, List.find?_map, List.find?_map,
    Option.map_eq_some_iff, Option.map_eq_some_iff, Option.map_eq_none_iff] at h
  obtain ⟨c, hc, rfl⟩ | ⟨hletters, i, hi, rfl⟩ := h
  · obtain ⟨hfree, before, after, heq, hbefore⟩ := List.find?_eq_some_iff_append.1 hc
    exact .letter hhint heq (fun b hb => by simpa using hbefore b hb) (by simpa using hfree)
  · rw [List.find?_range_eq_some] at hi
    exact .number hhint (by simpa using hletters) (by simpa using hi.2.2) (by simpa using hi.1)

/-- A lifetime is always added, whatever the parameters and the hint. It is the first free one, so
none of the lifetimes that were declared, and it stands in front of the parameters, which stay as
they were. Nothing else of a declaration with these parameters is touched, so its where clause is
the same. -/
theorem withLifetime?_fresh (g : Generics) (hint : String) :
    ∃ life, g.withLifetime? hint =
        some ({ g with params := { kind := .lifetime, name := life } :: g.params }, life) ∧
      life ∉ g.lifetimes ∧ FirstFree g hint life ∧
      ∀ name clause variants, (Declaration.mk name g clause variants).withLifetime? hint =
        some (⟨name, { g with params := { kind := .lifetime, name := life } :: g.params }, clause,
          variants⟩, life) := by
  obtain ⟨life, h⟩ := exists_freshLifetime g hint
  have hfirst := firstFree_of_freshLifetime h
  have hadded : g.withLifetime? hint =
      some ({ g with params := { kind := .lifetime, name := life } :: g.params }, life) := by
    rw [Generics.withLifetime?, h, Option.map_some]
  refine ⟨life, hadded, hfirst.not_mem, hfirst, fun name clause variants => ?_⟩
  rw [Declaration.withLifetime?, hadded, Option.map_some]

/-! ## Printed where clauses -/

/-- Pieces with commas between them are printed with commas between what is printed of each. -/
theorem printPieces_commaPieces (trailing : Bool) (xs : List (List Piece)) :
    printPieces (commaPieces trailing xs) =
      commaBetween (xs.map printPieces) ++ if trailing && !xs.isEmpty then [","] else [] := by
  fun_induction commaPieces trailing xs with
  | case1 => simp [printPieces, commaBetween]
  | case2 x =>
    cases trailing <;>
      simp [printPieces_append, printPieces, commaBetween, Piece.printed, Piece.punct,
        Token.printed]
  | case3 x rest hrest ih =>
    obtain ⟨y, ys, rfl⟩ := List.exists_cons_of_ne_nil hrest
    rw [printPieces_append, printPieces, ih]
    simp [commaBetween, Piece.punct, Token.printed]

/-! ## Bounds -/

namespace Declaration

/-- The predicates of the declaration. -/
def predicates (d : Declaration) : List Printed :=
  match d.clause with
  | some w => w.predicates.map printPieces
  | none => []

/-- What an implementation of a trait asks of the payloads : each one that uses a parameter
implements the trait. -/
def bounds (d : Declaration) (trait : Printed) : List Printed :=
  (d.variants.filter fun v => anyUses d.generics v.payload).map fun v =>
    printPieces v.payload ++ ":" :: trait

/-- Whether a comma stands behind the last predicate : as in the declaration if nothing is added
there, and always if the declaration has no where clause. -/
def commaBehind (d : Declaration) (trait : Printed) : Bool :=
  match d.clause with
  | some w => w.trailing && (d.bounds trait).isEmpty
  | none => true

/-- The where clause of an implementation of a trait, none if it has no predicates. -/
def clauseText (d : Declaration) (trait : Printed) : Printed :=
  if (d.predicates ++ d.bounds trait).isEmpty then []
  else
    "where" :: commaBetween (d.predicates ++ d.bounds trait) ++
      if d.commaBehind trait then [","] else []

end Declaration

variable {d : Declaration} {root trait : Piece}

theorem bounds_eq : d.bounds trait.printed =
    (d.genericPayloads.map fun payload => payload ++ [.punct ':', trait]).map printPieces := by
  simp [Declaration.bounds, Declaration.genericPayloads, List.filter_map, Function.comp_def,
    printPieces_append, printPieces, Piece.printed, Piece.punct, Token.printed]

theorem printed_whereClause (w : WhereClause) :
    w.printed = if (w.predicates.map printPieces).isEmpty then [] else
      "where" :: commaBetween (w.predicates.map printPieces) ++
        if w.trailing then [","] else [] := by
  rw [WhereClause.printed, List.isEmpty_map]
  split
  · rfl
  · next hne =>
    rw [printPieces, printPieces_commaPieces, Bool.eq_false_of_not_eq_true hne, Bool.not_false,
      Bool.and_true]
    rfl

/-- The where clause of an implementation is printed as what is asked. -/
theorem printed_boundClause {clause : Option WhereClause} (h : boundClause d trait = .ok clause) :
    WhereClause.printed? clause = d.clauseText trait.printed := by
  have hempty : (d.genericPayloads.map fun payload => payload ++ [.punct ':', trait]).isEmpty =
      (d.bounds trait.printed).isEmpty := by
    rw [bounds_eq]
    exact List.isEmpty_map.symm
  rw [boundClause] at h
  rw [Declaration.clauseText, Declaration.commaBehind, Declaration.predicates]
  cases hclause : d.clause with
  | some w =>
    rw [hclause, WhereClause.extend] at h
    obtain rfl := pure_eq_ok.1 h
    rw [WhereClause.printed?, Option.map_some, Option.getD_some, printed_whereClause,
      List.map_append, ← bounds_eq, hempty]
  | none =>
    rw [hclause, WhereClause.extend, hempty] at h
    rw [List.nil_append]
    split at h
    · next hnil =>
      obtain rfl := pure_eq_ok.1 h
      rw [if_pos hnil]
      rfl
    · next hne =>
      split at h
      · cases h
      obtain rfl := pure_eq_ok.1 h
      rw [WhereClause.printed?, Option.map_some, Option.getD_some, printed_whereClause, ← bounds_eq,
        if_neg hne]

/-- There is no where clause if and only if there is none in the declaration and nothing is
added. -/
theorem extend_eq_none_iff {clause : Option WhereClause} {more : List (List Piece)} :
    WhereClause.extend clause more = .ok none ↔ clause = none ∧ more = [] := by
  cases clause with
  | some w => simp [WhereClause.extend]
  | none =>
    cases more with
    | nil => simp [WhereClause.extend]
    | cons p ps =>
      simp only [WhereClause.extend, List.isEmpty_cons, Bool.false_eq_true, if_false]
      split <;> simp [throw, throwThe, MonadExceptOf.throw]

theorem boundClause_eq_none_iff :
    boundClause d trait = .ok none ↔
      d.clause = none ∧ ∀ v ∈ d.variants, anyUses d.generics v.payload = false := by
  rw [boundClause, extend_eq_none_iff]
  simp [Declaration.genericPayloads, List.filter_eq_nil_iff]

/-! ## Implementations with where clauses -/

/-- In printed code stands an implementation of a trait for the declared type that has some
parameters at its head, and behind it the where clause that the trait asks for. -/
def Bounded (d : Declaration) (g : Generics) (trait : Piece) (p : Printed) : Prop :=
  ∃ body, generatedMark ++
    implementation g.printedHead trait d.type (d.clauseText trait.printed) body <:+: p

theorem bounded_describing {p : Printed} (hp : describing root d = .ok p) :
    Bounded d d.generics (schemaPath root ["JsonSchema"]) p := by
  obtain ⟨clause, hclause, rfl⟩ := map_eq_ok.1 hp
  rw [printed_boundClause hclause]
  exact ⟨_, List.infix_rfl⟩

theorem bounded_writing {p : Printed} (hp : writing root d = .ok p) :
    Bounded d d.generics (codecPath root ["Serialize"]) p := by
  obtain ⟨clause, hclause, rfl⟩ := map_eq_ok.1 hp
  rw [printed_boundClause hclause]
  exact ⟨_, List.infix_rfl⟩

theorem bounded_reading {p : Printed} (hp : reading root d = .ok p) :
    Bounded d (readGenerics d).1 (lasting (codecPath root ["Deserialize"]) (readGenerics d).2)
      p := by
  obtain ⟨clause, hclause, rfl⟩ := map_eq_ok.1 hp
  rw [printed_boundClause hclause]
  exact ⟨_, List.infix_rfl⟩

theorem Bounded.mono {g : Generics} {p q : Printed} (hpq : p <:+: q) :
    Bounded d g trait p → Bounded d g trait q
  | ⟨body, h⟩ => ⟨body, h.trans hpq⟩

/-- A part of what is derived for reading and writing stands in it as it is. -/
theorem infix_codecItems {written read p : Printed} (hp : p ∈ codecParts root d written read) :
    p <:+: codecItemsOf root d written read := by
  rw [codecItemsOf, flatten_codecParts, braced, Printed.enclosed]
  exact (List.infix_of_mem_flatten hp).trans (.trans ⟨_ :: [], _, rfl⟩ ⟨_, _, rfl⟩)

/-- The implementations in what is derived for reading and writing. The lifetime of the trait that
reads is the one that stands in front of the parameters. -/
theorem bounded_codecItems {p : Printed} (hp : codecItems root d = .ok p) :
    Bounded d d.generics (codecPath root ["Serialize"]) p ∧
    ∃ life, FirstFree d.generics "de" life ∧
      Bounded d
        { d.generics with params := { kind := .lifetime, name := life } :: d.generics.params }
        (lasting (codecPath root ["Deserialize"]) life) p := by
  obtain ⟨written, read, hwritten, hread, rfl⟩ := codecItems_eq_ok hp
  obtain ⟨hlife, hgenerics⟩ := readGenerics_eq d
  have hwriting : written ∈ codecParts root d written read := by simp [codecParts]
  have hreading : read ∈ codecParts root d written read := by simp [codecParts]
  refine ⟨(bounded_writing hwritten).mono (infix_codecItems hwriting), (readGenerics d).2,
    firstFree_of_freshLifetime hlife, ?_⟩
  rw [← hgenerics]
  exact (bounded_reading hread).mono (infix_codecItems hreading)

/-- The implementations that are derived from an enum that declares a flat union, and their where
clauses, whichever language the enum is read in. If the where clause is refused that they need, it
is refused to each of them, and nothing is derived. Otherwise the implementations that write, read
and describe ask the payloads that use a parameter for their trait, behind the predicates of the
declaration, and the lifetime of the trait that reads is the one that stands in front of the
parameters. There is no where clause if and only if the declaration has none and no payload uses a
parameter. -/
theorem where_clauses {language : Language} {tokens : List Token} {item : Code.Item}
    {d : Declaration} (hitem : language.item tokens = .ok item)
    (hd : Declaration.ofItem item = .ok d) (hvariants : d.variants ≠ []) :
    (d.isRefused = true →
      (∀ trait, boundClause d trait = .error ⟨WhereClause.parametersReserved, false⟩) ∧
      ∀ target, Expansion.ofTokens language target tokens =
        .error ⟨WhereClause.parametersReserved, false⟩) ∧
    (d.isRefused = false → ∃ codec schema,
      Expansion.ofTokens language .codec tokens = .ok codec ∧
      Expansion.ofTokens language .schema tokens = .ok schema ∧
      Bounded d d.generics (codecPath (rootOf language item) ["Serialize"]) codec.items ∧
      (∃ life, FirstFree d.generics "de" life ∧
        Bounded d
          { d.generics with params := { kind := .lifetime, name := life } :: d.generics.params }
          (lasting (codecPath (rootOf language item) ["Deserialize"]) life) codec.items) ∧
      Bounded d d.generics (schemaPath (rootOf language item) ["JsonSchema"]) schema.items) ∧
    ∀ trait, boundClause d trait = .ok none ↔
      d.clause = none ∧ ∀ v ∈ d.variants, anyUses d.generics v.payload = false := by
  obtain ⟨hcodec, hschema⟩ := items_of_variants hvariants (rootOf language item)
  refine ⟨fun hrefused => ⟨fun _ => boundClause_eq_error hrefused, fun target => ?_⟩,
    fun hrefused => ?_, fun _ => boundClause_eq_none_iff⟩
  · rw [ofTokens_eq hitem hd, targetItems_eq_error hrefused]
    rfl
  obtain ⟨p, hp⟩ := exists_targetItems hrefused .codec (rootOf language item)
  obtain ⟨q, hq⟩ := exists_targetItems hrefused .schema (rootOf language item)
  obtain ⟨hwriting, hreading⟩ := bounded_codecItems (hcodec ▸ hp)
  rw [ofTokens_eq hitem hd, ofTokens_eq hitem hd, hp, hq]
  exact ⟨_, _, rfl, rfl, hwriting, hreading, bounded_describing (hschema ▸ hq)⟩

/-- An enum with a where clause, and a lifetime that is called like the one that is added. -/
def borrowingText : String :=
  "enum E<'de, T> where T: Copy, \x7b a(Vec<T>), b(u8), c(&'de str) \x7d"

theorem where_clauses_borrowing :
    ∃ tokens item d codec schema life, tokens? borrowingText = some tokens ∧
      (d.clauseText ["Trait"] =
          ["where", "T", ":", "Copy", ",", "Vec", "<", "T", ">", ":", "Trait", ",",
            "&", "'de", "str", ":", "Trait"] ∧
        d.generics.lifetimes = ["de"]) ∧
      Expansion.ofTokens .grammar .codec tokens = .ok codec ∧
      Expansion.ofTokens .grammar .schema tokens = .ok schema ∧
      Bounded d d.generics (codecPath (rootOf .grammar item) ["Serialize"]) codec.items ∧
      (FirstFree d.generics "de" life ∧
        Bounded d
          { d.generics with params := { kind := .lifetime, name := life } :: d.generics.params }
          (lasting (codecPath (rootOf .grammar item) ["Deserialize"]) life) codec.items) ∧
      Bounded d d.generics (schemaPath (rootOf .grammar item) ["JsonSchema"]) schema.items := by
  obtain ⟨tokens, item, d, htokens, hitem, hd, hne, hrefused, htext⟩ :=
    exists_declared borrowingText (P := fun d => d.isRefused = false ∧
      d.clauseText ["Trait"] =
          ["where", "T", ":", "Copy", ",", "Vec", "<", "T", ">", ":", "Trait", ",",
            "&", "'de", "str", ":", "Trait"] ∧
        d.generics.lifetimes = ["de"]) (by decide +kernel)
  obtain ⟨codec, schema, hcodec, hschema, hwriting, ⟨life, hreading⟩, hdescribing⟩ :=
    (where_clauses hitem hd hne).2.1 hrefused
  exact ⟨tokens, item, d, codec, schema, life, htokens, htext, hcodec, hschema, hwriting, hreading,
    hdescribing⟩

/-- A payload of this enum uses its parameter, and no predicate can be added for it. -/
theorem predicate_refused :
    ∃ tokens item d, tokens? associatedText = some tokens ∧
      Language.grammar.item tokens = .ok item ∧ Declaration.ofItem item = .ok d ∧
      d.clause = none ∧ (∃ v ∈ d.variants, anyUses d.generics v.payload = true) ∧
      ∀ trait, ∃ c, boundClause d trait = .error c := by
  obtain ⟨tokens, item, d, htokens, hitem, hd, -, hrefused, huses⟩ :=
    exists_declared associatedText (P := fun d => d.isRefused = true ∧
      ∃ v ∈ d.variants, anyUses d.generics v.payload = true) (by decide +kernel)
  exact ⟨tokens, item, d, htokens, hitem, hd,
    Option.isNone_iff_eq_none.1 (Bool.and_eq_true_iff.1 hrefused).1, huses,
    fun _ => ⟨_, boundClause_eq_error hrefused⟩⟩

end FlatUnion.Derive
