import FlatUnion.Json.Writer
import FlatUnion.Proofs.Acceptance
import FlatUnion.Write.Record

/-!
# Writing and reading back

A payload that is a struct or a map is written into the map of its union entry by entry, whether it
hands over entries whole or keys and values alone, and through options and newtypes
(`Datum.named?`). What is written is then the tag and these entries, in this order and in every
format (`recordItems_named`, `jsonItems_named`).

Read back in any order, and with values in whatever form can be kept, these entries tell the
variant that was written, and its reader is given all of them and nothing else
(`readUnion_entries`). A variant whose reader gives the payload back is therefore read as it was
written.
-/

namespace FlatUnion

/-! ## Entries under texts -/

/-- The text that a datum is written as. -/
def Datum.asText? : Datum → Option String
  | .text s | .display s => Option.some s
  | _ => Option.none

/-- The entries that calls make on an open map, each under a text. A key alone must have its value
right behind it. -/
def Item.named? : List (Item Datum) → Option (List (String × Datum))
  | [] => some []
  | .entry k v :: rest | .key k :: .value v :: rest => do
    return (← k.asText?, v) :: (← named? rest)
  | _ => none

theorem Item.named?_entry {k v : Datum} {rest : List (Item Datum)} {es : List (String × Datum)} :
    named? (.entry k v :: rest) = some es ↔
      ∃ s es', k.asText? = some s ∧ named? rest = some es' ∧ (s, v) :: es' = es := by
  simp [named?, Option.bind_eq_some_iff]

theorem Item.named?_key_value {k v : Datum} {rest : List (Item Datum)}
    {es : List (String × Datum)} : named? (.key k :: .value v :: rest) = some es ↔
      ∃ s es', k.asText? = some s ∧ named? rest = some es' ∧ (s, v) :: es' = es := by
  simp [named?, Option.bind_eq_some_iff]

/-- The fields of a struct that are written. -/
def presentFields (fields : List (String × Option Datum)) : List (String × Datum) :=
  fields.filterMap fun f => f.2.map (f.1, ·)

/-- The entries of a payload that is a struct, or a map with texts as keys, under options and
newtypes. -/
def Datum.named? : Datum → Option (List (String × Datum))
  | .some inner | .newtypeStruct _ inner => inner.named?
  | .struct _ fields => Option.some (presentFields fields)
  | .map items => Item.named? items
  | _ => Option.none

theorem named?_fieldItems (fields : List (String × Option Datum)) :
    Item.named? (fieldItems fields) = some (presentFields fields) := by
  induction fields with
  | nil => rfl
  | cons field rest ih =>
    obtain ⟨name, _ | d⟩ := field
    · simpa [fieldItems, presentFields] using ih
    · rw [fieldItems, Item.named?, ih]
      rfl

/-- A payload makes its entries on the map that it is flattened into. -/
theorem named?_flatten : ∀ {p : Datum} {es : List (String × Datum)}, p.named? = some es →
    Item.named? p.flatten = some es
  | .some inner, es, h | .newtypeStruct _ inner, es, h => named?_flatten (p := inner) h
  | .struct _ fields, es, h => by
    rw [Datum.flatten, named?_fieldItems]
    exact h
  | .map items, es, h => h

/-- A union is written as the entry of the tag and then those of the payload. -/
theorem Tagged.named?_datum (tag : String) {p : Datum} {es : List (String × Datum)}
    (hp : p.named? = some es) :
    ∃ items, (Tagged.mk tag p).datum = .map items ∧
      Item.named? items = some ((tagField, .text tag) :: es) := by
  refine ⟨_, rfl, ?_⟩
  rw [Item.named?, named?_flatten hp]
  rfl

/-! ## Formats -/

namespace Emission

theorem append_assoc {α : Type} [Append α] [Std.Associative (α := α) (· ++ ·)]
    (a b c : Emission α) : a ++ b ++ c = a ++ (b ++ c) := by
  simp only [append_def]
  cases ha : a.fault with
  | some f => simp [ha]
  | none =>
    cases hb : b.fault with
    | some f => simp [hb]
    | none =>
      have hassoc : ∀ x y z : α, x ++ y ++ z = x ++ (y ++ z) := Std.Associative.assoc
      simp [hassoc]

end Emission

theorem record_of_asText? {k : Datum} {s : String} (h : k.asText? = some s) :
    k.record = .ok (.text s) := by
  cases k <;> simp_all [Datum.asText?, Datum.record]

theorem jsonKeyed_of_asText? {k : Datum} {s : String} (h : k.asText? = some s) (first : Bool) :
    k.jsonKeyed first = (Datum.text s).jsonKeyed first := by
  cases k <;> simp_all [Datum.asText?, Datum.jsonKeyed, Datum.jsonKey]

/-- What is recorded depends on the entries only, not on the calls that make them. -/
theorem recordItems_named : ∀ {items : List (Item Datum)} {es : List (String × Datum)},
    Item.named? items = some es →
      recordItems items = recordItems (es.map fun e => .entry (.text e.1) e.2)
  | [], es, h => by
    obtain rfl := Option.some.inj h
    rfl
  | .entry k v :: rest, es, h => by
    obtain ⟨s, es, hk, hes, rfl⟩ := Item.named?_entry.1 h
    simp only [List.map_cons, recordItems, recordItem, record_of_asText? hk, Datum.record,
      recordItems_named hes]
  | .key k :: .value v :: rest, es, h => by
    obtain ⟨s, es, hk, hes, rfl⟩ := Item.named?_key_value.1 h
    simp only [List.map_cons, recordItems, recordItem, record_of_asText? hk, Datum.record,
      recordItems_named hes]
    cases v.record with
    | error f => rfl
    | ok d => rfl

/-- What is written as JSON depends on the entries only, not on the calls that make them. -/
theorem jsonItems_named : ∀ {items : List (Item Datum)} {es : List (String × Datum)}
    (first : Bool), Item.named? items = some es →
      jsonItems first items = jsonItems first (es.map fun e => .entry (.text e.1) e.2)
  | [], es, first, h => by
    obtain rfl := Option.some.inj h
    rfl
  | .entry k v :: rest, es, first, h => by
    obtain ⟨s, es, hk, hes, rfl⟩ := Item.named?_entry.1 h
    simp only [List.map_cons, jsonItems, jsonItem, jsonKeyed_of_asText? hk, Item.hasKey,
      jsonItems_named _ hes]
  | .key k :: .value v :: rest, es, first, h => by
    obtain ⟨s, es, hk, hes, rfl⟩ := Item.named?_key_value.1 h
    simp only [List.map_cons, jsonItems, jsonItem, jsonKeyed_of_asText? hk, Item.hasKey,
      Bool.not_true, Bool.and_false, Bool.false_and, jsonItems_named _ hes, Emission.append_assoc]

/-! ## Reading back -/

/-- An entry is presented under its text, with a value in any form that can be kept. -/
def Offer.Presents (o : Offer × Offer) (e : String × Datum) : Prop :=
  o.1.asText? = Option.some e.1 ∧ o.2.keepable

theorem Offer.keys_presents {os : List (Offer × Offer)} {es : List (String × Datum)}
    (h : List.Forall₂ Presents os es) : keys os = es.map (·.1) := by
  induction h with
  | nil => rfl
  | cons h _ ih =>
    rw [keys, List.filterMap_cons, h.1, List.map_cons]
    exact congrArg _ ih

theorem Offer.keepable_of_asText? {o : Offer} {s : String} (h : o.asText? = Option.some s) :
    o.keepable := by
  unfold asText? at h
  split at h
  · rfl
  · exact nomatch h

theorem Offer.entriesKeepable_presents {os : List (Offer × Offer)} {es : List (String × Datum)}
    (h : List.Forall₂ Presents os es) : entriesKeepable os := by
  induction h with
  | nil => rfl
  | cons h _ ih => simp [entriesKeepable, keepable_of_asText? h.1, h.2, ih]

/-- A scalar that readers of text take for one is kept as a tag of this text. -/
theorem Snapshot.tagText?_ofScalar (told : Scalar) : (ofScalar told).tagText? = told.asText? := by
  cases told <;> rfl

/-- A tag and other entries, in any order, tell the variant with this tag, and are kept one by one
as they stand. -/
theorem Offered.tells_of_perm {tag : String} {es : List (String × Datum)}
    (hkeys : (es.map (·.1)).Nodup) (hfield : tagField ∉ es.map (·.1)) {lending : Lending}
    {told : Scalar} (htold : told.asText? = some tag) {rest shown : List (Offer × Offer)}
    (hrest : List.Forall₂ Offer.Presents rest es)
    (hperm : shown.Perm ((.scalar (.text lending tagField), .scalar told) :: rest))
    (hint : Option Nat) (readable : Bool) :
    ∃ kept, List.Forall₂ Snapshot.Keeps shown kept ∧
      (⟨.map shown hint, readable⟩ : Offered).Tells kept tag := by
  have hkeepable : Offer.entriesKeepable shown := by
    rw [Snapshot.mem_entriesKeepable]
    intro o ho
    obtain rfl | ho := List.mem_cons.1 (hperm.mem_iff.1 ho)
    · exact ⟨rfl, rfl⟩
    · exact Snapshot.mem_entriesKeepable.1 (Offer.entriesKeepable_presents hrest) o ho
  have hnodup : (Offer.keys shown).Nodup := by
    rw [Offer.keys, (hperm.filterMap _).nodup_iff]
    show (tagField :: Offer.keys rest).Nodup
    rw [Offer.keys_presents hrest]
    exact List.nodup_cons.2 ⟨hfield, hkeys⟩
  obtain ⟨kept, hkept⟩ := (Snapshot.entriesKeepable_iff shown).1 hkeepable
  have hkeeps := Snapshot.ofEntries_eq_ok.1 hkept
  obtain ⟨⟨key, value⟩, hmem, hkey, hvalue⟩ :=
    exists_right_of_mem hkeeps (hperm.mem_iff.2 List.mem_cons_self)
  obtain rfl := Except.ok.inj hkey
  obtain rfl := Except.ok.inj hvalue
  exact ⟨kept, hkeeps, ⟨shown, hint, rfl, hkept, hnodup⟩, _, hmem,
    (Snapshot.tagText?_ofScalar told).trans htold⟩

/-- With different tags, a payload that is a struct or a map of different texts, none of them the
tag field, is written as one map, of the tag and of the payload's entries in their order. Whoever
shows these entries, in any order and with the values in any form that can be kept, has the variant
selected that was written, and its reader is given all of the entries, one for one. If that reader
gives the payload back, the union is read as it was written. -/
theorem readUnion_entries (variants : List (PayloadReader Snapshot))
    (hn : (variants.map (·.tag)).Nodup) (i : Nat) (v : PayloadReader Snapshot)
    (hv : variants[i]? = some v) (p : Datum) (es : List (String × Datum))
    (hp : p.named? = some es) (hkeys : (es.map (·.1)).Nodup) (hfield : tagField ∉ es.map (·.1)) :
    (∃ items, (Tagged.mk v.tag p).datum = .map items ∧
      Item.named? items = some ((tagField, .text v.tag) :: es)) ∧
    (Tagged.mk v.tag p).datum.record = (JsonValue.object ((tagField, .text v.tag) :: es)).record ∧
    (Tagged.mk v.tag p).datum.json = (JsonValue.object ((tagField, .text v.tag) :: es)).json ∧
    ∀ (lending : Lending) (told : Scalar) (rest shown : List (Offer × Offer)) (hint : Option Nat)
      (readable : Bool), told.asText? = some v.tag → List.Forall₂ Offer.Presents rest es →
      shown.Perm ((.scalar (.text lending tagField), .scalar told) :: rest) →
      ∃ kept, List.Forall₂ Snapshot.Keeps shown kept ∧
        readUnion variants (⟨.map shown hint, readable⟩ : Offered) =
          (v.read (.map kept)).map (⟨v.tag, ·⟩) ∧
        (v.read (.map kept) = .ok p →
          readUnion variants (⟨.map shown hint, readable⟩ : Offered) = .ok ⟨v.tag, p⟩) := by
  obtain ⟨items, hitems, hnamed⟩ := Tagged.named?_datum v.tag hp
  refine ⟨⟨items, hitems, hnamed⟩, ?_, ?_, ?_⟩
  · rw [hitems, JsonValue.object, Datum.ofEntries, Datum.record, Datum.record,
      recordItems_named hnamed, List.map_map]
    rfl
  · rw [hitems, JsonValue.object, Datum.ofEntries, Datum.json, Datum.json,
      jsonItems_named true hnamed, List.map_map]
    rfl
  · intro lending told rest shown hint readable htold hrest hperm
    obtain ⟨kept, hkept, htells⟩ :=
      Offered.tells_of_perm hkeys hfield htold hrest hperm hint readable
    have hread := readUnion_told hn hv htells
    refine ⟨kept, hkept, hread, fun hx => ?_⟩
    rw [hread, hx]
    rfl

/-- Variants whose payload lies under one option, and under two. -/
def underOptions : List (PayloadReader Snapshot) :=
  payloadReaders [("t", .option Catalog.textMessage), ("o", .option (.option Catalog.textMessage))]

theorem readUnion_entries_underOptions :
    (underOptions.map (·.tag)).Nodup ∧
      (Datum.some (.some (.struct "TextMessage" [("text", some (.text "hi"))]))).named? =
        some [("text", .text "hi")] ∧
      readUnion underOptions (⟨.map [(.scalar (.text .lasting "text"), .scalar (.text .owned "hi")),
        (.scalar (.text .passing "type"), .scalar (.char 'o'))] (some 5), false⟩ : Offered) =
        .ok ⟨"o", .some (.some (.struct "TextMessage" [("text", some (.text "hi"))]))⟩ := by
  refine ⟨by decide, rfl, ?_⟩
  obtain ⟨kept, hkept, -, hread⟩ :=
    (readUnion_entries underOptions (by decide) 1
      ⟨"o", (Ty.option (.option Catalog.textMessage)).read⟩ rfl
      (.some (.some (.struct "TextMessage" [("text", some (.text "hi"))])))
      [("text", .text "hi")] rfl (by decide) (by decide)).2.2.2
      .passing (.char 'o') [(.scalar (.text .lasting "text"), .scalar (.text .owned "hi"))]
      [(.scalar (.text .lasting "text"), .scalar (.text .owned "hi")),
        (.scalar (.text .passing "type"), .scalar (.char 'o'))]
      (some 5) false rfl (.cons ⟨rfl, rfl⟩ .nil) (.swap _ _ _)
  obtain rfl := Except.ok.inj (Snapshot.ofEntries_eq_ok.2 hkept)
  exact hread rfl

end FlatUnion
