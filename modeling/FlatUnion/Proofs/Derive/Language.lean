import FlatUnion.Derive.Argument
import FlatUnion.Proofs.Code.Fuel
import FlatUnion.Proofs.Code.Written

/-!
# Languages that read what is written

What is derived from an item does not look at how the item was read. All that is asked of a language
is that it is `Faithful` : it makes no texts of its own, the paths that it reads have segments, and
it reads the attributes in front of an item first. Where what is derived is compared with what was
written, a language is asked for items as they were written, too (`Legible`). Nothing is asked of
what it can read.

The main statement is `legible_grammar` : the language of the grammar is faithful and legible.
-/

namespace FlatUnion.Derive

open Code
open FlatUnion.Code.Parser
open Soundness (Sound)

/-! ## Faithful languages -/

/-- A path with a segment. -/
def IsRoot (p : Piece) : Prop := ∃ role leading s segments, p = .path role leading (s :: segments)

/-- The tokens of an attribute `flat_tag` with a list of arguments. -/
def attributeTokens (d : Delimiter) (arguments : List Token) : List Token :=
  [.punct '#' false, .group .bracket [.ident "flat_tag", .group d arguments]]

/-- The attribute that these tokens are. -/
def listAttribute (d : Delimiter) (arguments : List Token) : Attribute where
  path := .name "flat_tag"
  body := .list d arguments

/-- What is asked of a language. -/
structure Faithful (language : Language) : Prop where
  /-- The texts of an item are those of its tokens, whatever is asked of them, beside the marks and
  words of the language itself. -/
  itemTexts : ∀ [Spelling] {tokens : List Token} {item : Code.Item},
    Sound tokens → language.item tokens = .ok item → Sound item
  /-- A path is made of names and of what can stand in code. -/
  pathTexts : ∀ {text : String} {p : Piece}, language.path text = .ok p → Sound p
  pathSegments : ∀ {text : String} {p : Piece}, language.path text = .ok p → IsRoot p
  /-- An attribute in front of an item is read as its first one. -/
  front : ∀ {tokens : List Token} {item : Code.Item}, language.item tokens = .ok item →
    ∀ d arguments, language.item (attributeTokens d arguments ++ tokens) =
      .ok { item with attributes := listAttribute d arguments :: item.attributes }

/-- A faithful language that reads items as they were written. -/
structure Legible (language : Language) : Prop extends Faithful language where
  written : ∀ {tokens : List Token} {item : Code.Item}, language.item tokens = .ok item →
    item.Written tokens

/-! ## Paths that are read -/

theorem run_tooDeep_ne_ok {α : Type} {i : Input} {r : α × Input} :
    (tooDeep : Parser α).run i ≠ .ok r :=
  nofun

theorem eq_of_run_pure {α : Type} {x y : α} {i j : Input}
    (h : (pure x : Parser α).run i = .ok (y, j)) : x = y :=
  (Prod.mk.inj (Except.ok.inj h)).1

theorem segments_ne_nil {inExpression : Bool} {n : Nat} {i j : Input}
    {segments : List (String × List Piece)}
    (h : (Code.segments inExpression n).run i = .ok (segments, j)) : segments ≠ [] := by
  cases n with
  | zero =>
    rw [Code.segments] at h
    exact absurd h run_tooDeep_ne_ok
  | succ n =>
    rw [Code.segments] at h
    obtain ⟨s, k, -, h⟩ := run_bind_eq_ok h
    obtain ⟨more, k', -, h⟩ := run_bind_eq_ok h
    split at h
    · obtain ⟨_, k', -, h⟩ := run_bind_eq_ok h
      obtain ⟨rest, k', -, h⟩ := run_bind_eq_ok h
      exact eq_of_run_pure h ▸ List.cons_ne_nil _ _
    · exact eq_of_run_pure h ▸ List.cons_ne_nil _ _

theorem isRoot_of_path {inExpression : Bool} {role : PathRole} {n : Nat} {i j : Input} {p : Piece}
    (h : (Code.path inExpression role n).run i = .ok (p, j)) : IsRoot p := by
  cases n with
  | zero =>
    rw [Code.path] at h
    exact absurd h run_tooDeep_ne_ok
  | succ n =>
    rw [Code.path] at h
    obtain ⟨leading, k, -, h⟩ := run_bind_eq_ok h
    have hbehind : ∀ k, ((do return .path role leading (← Code.segments inExpression n)) :
        Parser Piece).run k = .ok (p, j) → IsRoot p := by
      intro k h
      obtain ⟨segments, k', hsegments, h⟩ := run_bind_eq_ok h
      obtain ⟨s, rest, rfl⟩ := List.exists_cons_of_ne_nil (segments_ne_nil hsegments)
      exact ⟨_, _, _, _, (eq_of_run_pure h).symm⟩
    split at h
    · obtain ⟨_, k', -, h⟩ := run_bind_eq_ok h
      exact hbehind _ h
    · exact hbehind _ h

/-- A path that is all of a text has a segment. -/
theorem isRoot_of_parseAll {text : String} {p : Piece} (h : parseAll parsePath text = .ok p) :
    IsRoot p := by
  unfold parseAll at h
  split at h
  · nomatch h
  · obtain ⟨ts, k, -, hpath⟩ := run_bind_eq_ok (parseTokens_eq_ok_iff.1 h)
    exact isRoot_of_path hpath

/-! ## Attributes in front -/

/-- The attributes of an item are read first, and are not looked at in what stands behind them. -/
theorem exists_parseItem_eq : ∃ behind : List Attribute → Parser Code.Item,
    Code.Item.parse = parseAttributes >>= behind ∧
      ∀ as, behind as = (fun item => { item with attributes := as }) <$> behind [] := by
  have hfail : ∀ (f : Code.Item → Code.Item) p, f <$> (fail p : Parser Code.Item) = fail p :=
    fun _ _ => rfl
  refine ⟨_, rfl, fun as => ?_⟩
  simp only [map_bind, map_pure, apply_ite (Functor.map _), hfail]

section Attributes

variable (d : Delimiter) (arguments : List Token)

theorem attributes_attributeTokens (n : Nat) (ts : List Token) :
    (attributes (n + 2)).run { rest := attributeTokens d arguments ++ ts } =
      ((listAttribute d arguments :: ·) <$> attributes (n + 1)).run { rest := ts } := by
  rw [attributes]
  rfl

theorem run_withFuel {α : Type} (rule : (fuel : Nat) → Parser α) (i : Input) :
    (withFuel rule).run i = (rule (16 * (weigh i.rest + 2))).run i :=
  run_bind_of_ok rfl

/-- With the tokens of the attribute in front, the same attributes are read behind it. -/
theorem parseAttributes_attributeTokens {ts : List Token} {as : List Attribute} {i : Input}
    (h : parseAttributes.run { rest := ts } = .ok (as, i)) :
    parseAttributes.run { rest := attributeTokens d arguments ++ ts } =
      .ok (listAttribute d arguments :: as, i) := by
  -- There is more to read now, so more rules may be entered.
  have hweigh : weigh ts < weigh (attributeTokens d arguments ++ ts) := by
    simp only [attributeTokens, List.cons_append, List.nil_append, weigh, Token.weight]
    omega
  obtain ⟨n, hn⟩ : ∃ n, 16 * (weigh (attributeTokens d arguments ++ ts) + 2) = n + 2 :=
    Nat.exists_eq_add_of_le' (by omega)
  have hle : 16 * (weigh ts + 2) ≤ n + 1 := by omega
  rw [parseAttributes, run_withFuel] at h ⊢
  rw [hn, attributes_attributeTokens, StateT.run_map, (rulesBelow hle).attributes _ _ h]
  rfl

/-- With the tokens of the attribute in front, an item is read with the attribute in front. -/
theorem parse_attributeTokens {tokens : List Token} {item : Code.Item}
    (h : parseTokens Code.Item.parse tokens = .ok item) :
    parseTokens Code.Item.parse (attributeTokens d arguments ++ tokens) =
      .ok { item with attributes := listAttribute d arguments :: item.attributes } := by
  obtain ⟨behind, hparse, hbehind⟩ := exists_parseItem_eq
  rw [parseTokens_eq_ok_iff, hparse] at h ⊢
  obtain ⟨as, i, has, h⟩ := run_bind_eq_ok h
  rw [run_bind_of_ok (parseAttributes_attributeTokens d arguments has)]
  rw [hbehind, StateT.run_map] at h ⊢
  cases hrun : (behind []).run i with
  | error c => simp [hrun] at h
  | ok r =>
    obtain ⟨item', left⟩ := r
    rw [hrun] at h
    obtain ⟨rfl, rfl⟩ := Prod.mk.inj (Except.ok.inj h)
    rfl

end Attributes

/-- The language of the grammar is faithful. -/
theorem faithful_grammar : Faithful .grammar where
  itemTexts htokens h := sound_of_parseTokens keeps_parseItem htokens h
  pathTexts h := sound_of_parseAll keeps_parsePath h
  pathSegments := isRoot_of_parseAll
  front h d arguments := parse_attributeTokens d arguments h

/-- The language of the grammar is legible. -/
theorem legible_grammar : Legible .grammar where
  toFaithful := faithful_grammar
  written := written_of_parseTokens

end FlatUnion.Derive
