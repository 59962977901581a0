import Mathlib.Data.List.Basic
import FlatUnion.Json.Number
import FlatUnion.Schema.Flat

/-!
# What schemas mean

A schema is a condition on JSON values (`Schema.Allows`), the conjunction of its rules. What a
reference stands for, and what a keyword means that is only kept, is told by a `Schema.Reading`.

The main statement is `Schema.flat_allows_iff` : the schema of a flat union allows an object exactly
if its tag is a text among the tags, and the payload schemas under this tag allow it. It does not
matter whether a condition stands alone or in a list of all, and a payload under another tag never
matters.
-/

namespace FlatUnion

/-! ## JSON values -/

-- Powers are those of the naturals and the integers, whatever else is imported beside this.
attribute [local instance (high)] instPowNat

/-- Whether a number is finite and has no fraction. -/
def Real.isWhole : Real → Bool
  | .finite _ mantissa exponent => 0 ≤ exponent || mantissa % 2 ^ (-exponent).toNat = 0
  | _ => false

namespace Json

/-- Whether a number has no fraction, however it is written. -/
def Number.isWhole : Number → Bool
  | .unsigned _ | .signed _ => true
  | .float bits => (double.decode bits).isWhole

/-- A JSON value. The properties of an object stand in some order. -/
inductive Value
  | null
  | bool (b : Bool)
  | number (n : Number)
  | string (s : String)
  | array (items : List Value)
  | object (properties : List (String × Value))

namespace Value

/-- The properties of an object. Other values have none. -/
def properties : Value → List (String × Value)
  | .object properties => properties
  | _ => []

/-- The names of the properties. -/
def names (x : Value) : List String := x.properties.map (·.1)

/-- The property of a name. -/
def property? (x : Value) (name : String) : Option Value := x.properties.lookup name

end Value

end Json

open Json (Value)

/-! ## Meaning -/

/-- Whether a value is of a kind. A number without a fraction is an integer too. -/
def Kind.Allows : Kind → Value → Prop
  | .null, .null | .boolean, .bool _ | .object, .object _ | .array, .array _ | .number, .number _
  | .string, .string _ => True
  | .integer, .number n => n.isWhole
  | _, _ => False

/-- What schemas leave open. -/
structure Schema.Reading where
  /-- The values that a definition allows. -/
  reference : String → Value → Prop
  /-- The values that a keyword allows which is kept as it is, among the rules of its schema. -/
  keyword : List Rule → String → Datum → Value → Prop

section

variable (ρ : Schema.Reading)

mutual

/-- Whether a schema allows a value. -/
def Schema.Allows : Schema → Value → Prop
  | .all allowed, _ => allowed
  | .rules rs, x => rulesAllow rs rs x

/-- Whether all of some rules of a schema allow a value. -/
def rulesAllow (all : List Rule) : List Rule → Value → Prop
  | [], _ => True
  | r :: rest, x => r.Allows all x ∧ rulesAllow all rest x

/-- Whether a rule of a schema allows a value. Rules about objects and arrays allow all others. -/
def Rule.Allows (all : List Rule) : Rule → Value → Prop
  | .kind k, x => k.Allows x
  | .kinds ks, x => ∃ k ∈ ks, k.Allows x
  | .const value, x => x = .string value
  | .enum values, x => ∃ value ∈ values, x = .string value
  | .properties entries, x => propertiesAllow entries x
  | .required names, x => ∀ properties, x = .object properties → ∀ name ∈ names, name ∈ x.names
  | .items s, x => ∀ items, x = .array items → ∀ y ∈ items, s.Allows y
  | .conditional premise conclusion, x => premise.Allows x → conclusion.Allows x
  | .allOf schemas, x => allAllow schemas x
  | .anyOf schemas, x => anyAllows schemas x
  | .reference name, x => ρ.reference name x
  | .other keyword value, x => ρ.keyword all keyword value x

/-- Whether each property that is there is allowed by the schema of its name. -/
def propertiesAllow : List (String × Schema) → Value → Prop
  | [], _ => True
  | (name, s) :: rest, x =>
    (∀ y, x.property? name = some y → s.Allows y) ∧ propertiesAllow rest x

def allAllow : List Schema → Value → Prop
  | [], _ => True
  | s :: rest, x => s.Allows x ∧ allAllow rest x

def anyAllows : List Schema → Value → Prop
  | [], _ => False
  | s :: rest, x => s.Allows x ∨ anyAllows rest x

end

end

variable {ρ : Schema.Reading} {x : Value}

theorem rulesAllow_iff {all rs : List Rule} :
    rulesAllow ρ all rs x ↔ ∀ r ∈ rs, r.Allows ρ all x := by
  induction rs with
  | nil => simp [rulesAllow]
  | cons r rest ih => simp [rulesAllow, ih]

theorem allAllow_iff {schemas : List Schema} :
    allAllow ρ schemas x ↔ ∀ s ∈ schemas, s.Allows ρ x := by
  induction schemas with
  | nil => simp [allAllow]
  | cons s rest ih => simp [allAllow, ih]

namespace Schema

theorem allows_rules {rs : List Rule} : (rules rs).Allows ρ x ↔ ∀ r ∈ rs, r.Allows ρ rs x := by
  rw [Allows, rulesAllow_iff]

theorem allows_ofRule {r : Rule} : (ofRule r).Allows ρ x ↔ r.Allows ρ [r] x := by
  simp [ofRule, allows_rules]

end Schema

/-! ## Objects -/

theorem Json.Value.mem_names {name : String} :
    name ∈ x.names ↔ ∃ y, x.property? name = some y := by
  simp only [names, List.mem_map, ← Option.isSome_iff_exists, property?, List.lookup_isSome_iff,
    beq_iff_eq]
  exact exists_congr fun p => and_congr_right' eq_comm

theorem Json.Value.eq_object_of_property? {name : String} {y : Value}
    (h : x.property? name = some y) : x = .object x.properties := by
  cases x with
  | object properties => rfl
  | _ => nomatch h

namespace Schema

variable {name : String} {s : Schema}

/-- The rules for objects with one property, whatever rules they stand among. -/
theorem objectRules_allow {all : List Rule} :
    (∀ r ∈ objectRules [(name, s)], r.Allows ρ all x) ↔
      ∃ y, x.property? name = some y ∧ s.Allows ρ y := by
  have hrules : objectRules [(name, s)] =
      [.kind .object, .properties [(name, s)], .required [name]] := rfl
  rw [hrules]
  simp only [List.forall_mem_cons, Rule.Allows, propertiesAllow, and_true, List.not_mem_nil,
    false_implies, implies_true]
  constructor
  · rintro ⟨hobject, hs, hname⟩
    obtain ⟨properties, rfl⟩ : ∃ properties, x = .object properties := by
      cases x with
      | object properties => exact ⟨properties, rfl⟩
      | _ => exact hobject.elim
    obtain ⟨y, hy⟩ := Value.mem_names.1 (hname properties rfl)
    exact ⟨y, hy, hs y hy⟩
  · rintro ⟨y, hy, hs⟩
    refine ⟨?_, fun z hz => ?_, fun _ _ => Value.mem_names.2 ⟨y, hy⟩⟩
    · rw [Value.eq_object_of_property? hy]
      trivial
    · obtain rfl := Option.some.inj (hy.symm.trans hz)
      exact hs

theorem object_allows :
    (object [(name, s)]).Allows ρ x ↔ ∃ y, x.property? name = some y ∧ s.Allows ρ y := by
  rw [object, allows_rules, objectRules_allow]

theorem constant_allows {value : String} :
    (constant value).Allows ρ x ↔ x = .string value := by
  simp only [constant, allows_rules, List.forall_mem_cons, Rule.Allows]
  constructor
  · exact fun h => h.2.1
  · rintro rfl
    exact ⟨trivial, rfl, nofun⟩

/-! ## Flat unions -/

variable {tagField : String} {tags : List String} {variants : List (String × Schema)}

/-- The schema of the tags. -/
theorem tags_allow :
    (rules [.kind .string, .enum tags]).Allows ρ x ↔ ∃ t ∈ tags, x = .string t := by
  simp only [allows_rules, List.forall_mem_cons, Rule.Allows]
  constructor
  · exact fun h => h.2.1
  · rintro ⟨t, ht, rfl⟩
    exact ⟨trivial, ⟨t, ht, rfl⟩, nofun⟩

/-- The condition of a variant says something where the tag is this one, and nothing elsewhere. -/
theorem variant_allows {all : List Rule} {payload : Schema} :
    (variant tagField name payload).Allows ρ all x ↔
      (x.property? tagField = some (.string name) → payload.Allows ρ x) := by
  simp only [variant, Rule.Allows, object_allows, constant_allows, exists_eq_right]

/-- Conditions mean the same alone and in a list of all, if they do not look at what they stand
among. -/
theorem combine_allows {conditions : List Rule} {all : List Rule}
    (h : ∀ c ∈ conditions, ∀ all, c.Allows ρ all x ↔ c.Allows ρ [c] x) :
    (∀ r ∈ combine conditions, r.Allows ρ all x) ↔ ∀ c ∈ conditions, c.Allows ρ [c] x := by
  match conditions with
  | [] => simp [combine]
  | [c] => simp [combine, h c List.mem_cons_self all]
  | c :: d :: rest => simp [combine, Rule.Allows, allAllow_iff, allows_ofRule]

theorem combine_variants_allow {all : List Rule} :
    (∀ r ∈ combine (variants.map fun v => variant tagField v.1 v.2), r.Allows ρ all x) ↔
      ∀ v ∈ variants, x.property? tagField = some (.string v.1) → v.2.Allows ρ x := by
  rw [combine_allows, List.forall_mem_map]
  · simp only [variant_allows]
  · rw [List.forall_mem_map]
    exact fun v _ all => variant_allows.trans variant_allows.symm

/-- The rules of the tag, and the conditions of all variants. -/
theorem flat_allows :
    (flat tagField tags (variants.map fun v => variant tagField v.1 v.2)).Allows ρ x ↔
      (∃ t ∈ tags, x.property? tagField = some (.string t)) ∧
        ∀ v ∈ variants, x.property? tagField = some (.string v.1) → v.2.Allows ρ x := by
  rw [flat, allows_rules, List.forall_mem_append, objectRules_allow, combine_variants_allow]
  simp only [tags_allow]
  refine and_congr_left' ⟨?_, ?_⟩
  · rintro ⟨_, hy, t, ht, rfl⟩
    exact ⟨t, ht, hy⟩
  · rintro ⟨t, ht, hy⟩
    exact ⟨_, hy, t, ht, rfl⟩

/-- The schema of a flat union allows exactly the objects whose tag is a text among the tags, if all
payload schemas under this tag allow them. One condition means the same as a list of this one, and
payloads under other tags do not matter. -/
theorem flat_allows_iff (ρ : Reading) (tagField : String) (tags : List String)
    (variants : List (String × Schema)) (x : Value) :
    ((flat tagField tags (variants.map fun v => variant tagField v.1 v.2)).Allows ρ x ↔
      ∃ properties t, x = .object properties ∧ x.property? tagField = some (.string t) ∧
        t ∈ tags ∧ ∀ v ∈ variants, v.1 = t → v.2.Allows ρ x) ∧
    (∀ name payload, (flat tagField tags [variant tagField name payload]).Allows ρ x ↔
      (rules (objectRules [(tagField, .rules [.kind .string, .enum tags])] ++
        [.allOf [ofRule (variant tagField name payload)]])).Allows ρ x) ∧
    ∀ (t : String) (others : List (String × Schema)),
      x.property? tagField = some (.string t) →
      others.filter (·.1 = t) = variants.filter (·.1 = t) →
      ((flat tagField tags (others.map fun v => variant tagField v.1 v.2)).Allows ρ x ↔
        (flat tagField tags (variants.map fun v => variant tagField v.1 v.2)).Allows ρ x) := by
  refine ⟨?_, fun name payload => ?_, fun t others ht hothers => ?_⟩
  · rw [flat_allows]
    constructor
    · rintro ⟨⟨t, ht, hy⟩, hv⟩
      exact ⟨_, t, Value.eq_object_of_property? hy, hy, ht, fun v hmem hname =>
        hv v hmem (hname ▸ hy)⟩
    · rintro ⟨_, t, -, hy, ht, hv⟩
      refine ⟨⟨t, ht, hy⟩, fun v hmem hname => hv v hmem ?_⟩
      exact Value.string.inj (Option.some.inj (hname.symm.trans hy))
  · simp only [flat, combine, allows_rules, List.forall_mem_append, objectRules_allow,
      List.forall_mem_singleton, variant_allows, Rule.Allows, allAllow_iff, allows_ofRule]
  · have hunder : ∀ vs : List (String × Schema),
        (∀ v ∈ vs, x.property? tagField = some (.string v.1) → v.2.Allows ρ x) ↔
          ∀ v ∈ vs.filter (·.1 = t), v.2.Allows ρ x := by
      intro vs
      simp only [ht, Option.some.injEq, Value.string.injEq, List.mem_filter, decide_eq_true_eq,
        and_imp, eq_comm (a := t)]
    rw [flat_allows, flat_allows, hunder, hunder, hothers]

/-- An object with the second of two tags. The payload under the first allows nothing at all. -/
theorem flat_allows_iff_secondTag :
    (flat "type" ["a", "b"] ([("a", .all false), ("b", .all true)].map fun v =>
      variant "type" v.1 v.2)).Allows ⟨fun _ _ => False, fun _ _ _ _ => False⟩
      (.object [("x", .null), ("type", .string "b")]) := by
  refine (flat_allows_iff _ "type" ["a", "b"] [("a", .all false), ("b", .all true)] _).1.2
    ⟨_, "b", rfl, rfl, by decide, ?_⟩
  simp [Allows]

end Schema

end FlatUnion
