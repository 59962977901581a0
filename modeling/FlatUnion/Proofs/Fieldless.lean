import FlatUnion.Proofs.KeptTag
import FlatUnion.Proofs.Rejecting

/-!
# Payloads without fields

A payload that is a scalar, a sequence, a tuple or an enum in the external form has no entries that
could stand beside the tag (`Ty.fieldless`). It is never written (`Ty.not_hasEntries_of_fieldless`),
and it is not read either, as most readers of such types refuse a map.

One reader does not : an enum in the external form is read from a map of one entry, whose key is its
variant. If nothing stands beside the tag, that entry is the one of the tag, and a newtype variant
of this name takes the tag for its content (`Ty.ReadsTag`). The main statement,
`fieldless_rejected`, says that nothing else is read.
-/

namespace FlatUnion

/-! ## Types without fields -/

/-- Whether no value of a type is a struct or a map, options and newtypes around it aside. -/
def Ty.fieldless : Ty → Bool
  | .option t | .newtypeStruct _ t => t.fieldless
  | .result _ _ | .enum _ .external _ => true
  | t => t.refusesMaps

/-- What a type without fields is read as from the tag alone : the variant that has the name of the
tag's field, with the tag for its content. -/
def Ty.ReadsTag : Ty → Snapshot → Datum → Prop
  | .option t, c, d => ∃ e, t.ReadsTag c e ∧ .some e = d
  | .newtypeStruct name t, c, d => ∃ e, t.ReadsTag c e ∧ .newtypeStruct name e = d
  | .enum name .external variants, c, d =>
    ∃ i u e, variants.findIdx? (·.1 = tagField) = some i ∧
      variants[i]? = some (tagField, .newtype, u) ∧ u.read c = .ok e ∧
        .newtypeVariant ⟨name, i, tagField⟩ e = d
  | _, _, _ => False

/-- A value of a type without fields has no entries. -/
theorem Ty.not_hasEntries_of_fieldless : ∀ {t : Ty} {present : Bool} {d : Datum}, t.fieldless →
    t.Has present d → d.hasEntries = false
  | .option t, _, _, ht, h => by
    obtain ⟨-, rfl⟩ | ⟨e, rfl, he⟩ := h
    · rfl
    · have hentries : e.hasEntries = false := t.not_hasEntries_of_fieldless ht he
      exact hentries
  | .newtypeStruct _ t, _, _, ht, h => by
    obtain ⟨e, rfl, he⟩ := h
    have hentries : e.hasEntries = false := t.not_hasEntries_of_fieldless ht he
    exact hentries
  | .result _ _, _, _, _, h => by
    obtain ⟨e, rfl, -⟩ | ⟨e, rfl, -⟩ := h <;> rfl
  | .enum _ .external _, _, _, _, h => by
    obtain ⟨i, variant, c, rfl, -⟩ := h
    cases c <;> rfl
  | .bool, _, _, _, h | .f32, _, _, _, h | .f64, _, _, _, h | .char, _, _, _, h
  | .text, _, _, _, h | .borrowed, _, _, _, h | .bytes, _, _, _, h => by
    obtain ⟨_, rfl⟩ := h
    rfl
  | .int _, _, _, _, h => by
    obtain ⟨n, -, rfl⟩ := h
    rfl
  | .unit, _, _, _, h | .unitStruct _, _, _, _, h => by
    obtain rfl := h
    rfl
  | .list _, _, _, _, h | .array _ _, _, _, _, h | .tuple _, _, _, _, h
  | .tupleStruct _ _, _, _, _, h => by
    obtain ⟨es, rfl, -⟩ := h
    rfl

/-! ## Reading -/

/-- A map that holds a tag is an enum in the external form if it holds nothing else. -/
theorem consult_enum_eq_ok {α : Type} {kept : List (Snapshot × Snapshot)} {c : Snapshot}
    (hc : (.text tagField, c) ∈ kept) {visit : Call Snapshot → Outcome α} {x : α} :
    consult .enum (Snapshot.map kept) visit = .ok x ↔
      kept = [(.text tagField, c)] ∧
        (visit (.enum (.text tagField) (some c))).result = .ok x := by
  match kept with
  | [] => simp at hc
  | [(v, content)] =>
    obtain ⟨rfl, rfl⟩ := Prod.mk.inj (List.mem_singleton.1 hc)
    rw [consult_eq_ok]
    constructor
    · rintro ⟨a, ha, hx, -⟩
      obtain rfl := Except.ok.inj ha
      exact ⟨rfl, hx⟩
    · rintro ⟨-, hx⟩
      exact ⟨_, rfl, hx, rfl⟩
  | _ :: _ :: _ =>
    refine iff_of_false (fun h => ?_) (by simp)
    obtain ⟨a, ha, -⟩ := consult_eq_ok.1 h
    cases ha

/-- A text is read as the first of the variants that has this name. -/
theorem consult_variant_eq_ok {names : List String} {s : String} {i : Nat} :
    consult .identifier (Snapshot.text s) (Visit.variant names) = .ok i ↔
      names.findIdx? (· = s) = some i := by
  have hfind : (Visit.Name.text s).find? (names.map ([·])) = names.findIdx? (· = s) := by
    rw [Visit.Name.find?, List.findIdx?_map]
    congr 1
    funext n
    simp [eq_comm]
  have hcall : Visit.name? (Snapshot.text s).call = some (.text s) := rfl
  rw [consult_eq_ok]
  constructor
  · rintro ⟨a, ha, h, -⟩
    obtain rfl := Except.ok.inj ha
    simp only [Snapshot.replay, Visit.variant, hcall, hfind] at h
    split at h
    · next i hi => exact hi.trans (congrArg some (Except.ok.inj h))
    all_goals simp at h
  · intro h
    refine ⟨_, rfl, ?_, rfl⟩
    simp only [Snapshot.replay, Visit.variant, hcall, hfind, h]
    rfl

theorem getElem?_variantReaders {σ : Type} [Source σ] : ∀ (variants : List (String × Form × Ty))
    (i : Nat), (variantReaders variants : List (VariantReader σ))[i]? =
      (variants[i]?).map fun v =>
        ⟨v.1, v.2.1, v.2.2.read, v.2.2.items, v.2.2.fields, v.2.2.isOption⟩
  | [], _ => rfl
  | _ :: _, 0 => rfl
  | _ :: rest, i + 1 => getElem?_variantReaders rest i

theorem eq_of_tagText? {c : Snapshot} {tag : String} (h : c.tagText? = some tag) :
    c = .text tag ∨ ∃ x, c = .char x := by
  cases c with
  | text s => exact .inl (congrArg Snapshot.text (Option.some.inj h))
  | char x => exact .inr ⟨x, rfl⟩
  | _ => simp [Snapshot.tagText?] at h

/-- A tag is the content of newtype variants only. -/
theorem externalContent_tag {enum tag : String} {r : VariantReader Snapshot} {c : Snapshot}
    (hc : c.tagText? = some tag) {content : VariantContent} :
    Visit.externalContent enum r (some c) = .ok content ↔
      r.form = .newtype ∧ ∃ e, r.read c = .ok e ∧ .newtype e = content := by
  obtain ⟨name, form, read, items, fields, optional⟩ := r
  cases form with
  | newtype => simp [Visit.externalContent, bind_eq_ok, pure, Except.pure]
  | _ =>
    refine ⟨fun h => ?_, fun h => by simp at h⟩
    obtain rfl | ⟨x, rfl⟩ := eq_of_tagText? hc <;> cases h

/-- An enum in the external form is read if its variant and the content of the variant are. -/
theorem externalEnum_eq_ok {name : String} {readers : List (VariantReader Snapshot)} {v : Snapshot}
    {content : Option Snapshot} {d : Datum} :
    (Visit.externalEnum name readers (.enum v content)).result = .ok d ↔
      ∃ i, consult .identifier v (Visit.variant (readers.map (·.name))) = .ok i ∧
        ∃ r, readers[i]? = some r ∧ ∃ c, Visit.externalContent name r content = .ok c ∧
          externalDatum ⟨name, i, r.name⟩ c = d := by
  refine bind_eq_ok.trans (exists_congr fun i => and_congr_right fun _ =>
    bind_eq_ok.trans (exists_congr fun r => and_congr Visit.pick_eq_ok
      (bind_eq_ok.trans (exists_congr fun c => and_congr_right fun _ => ?_))))
  cases c <;> exact iff_of_eq (Except.ok.injEq _ _)

/-- From the entry of a tag alone an enum in the external form is read as a newtype variant. -/
theorem externalEnum_tag {name tag : String} {variants : List (String × Form × Ty)} {c : Snapshot}
    (htag : c.tagText? = some tag) {d : Datum} :
    (Visit.externalEnum name (variantReaders variants)
        (.enum (Snapshot.text tagField) (some c))).result = .ok d ↔
      (Ty.enum name .external variants).ReadsTag c d := by
  simp only [externalEnum_eq_ok, map_name_variantReaders, consult_variant_eq_ok, List.findIdx?_map,
    externalContent_tag htag, getElem?_variantReaders, Option.map_eq_some_iff]
  constructor
  · rintro ⟨i, hi, r, ⟨⟨variant, form, u⟩, hv, rfl⟩, content, ⟨hform, e, he, rfl⟩, rfl⟩
    obtain rfl : form = .newtype := hform
    obtain ⟨hlt, hname, -⟩ := List.findIdx?_eq_some_iff_getElem.1 hi
    obtain rfl : variant = tagField := by
      simpa [(List.getElem?_eq_some_iff.1 hv).2] using hname
    exact ⟨i, u, e, hi, hv, he, rfl⟩
  · rintro ⟨i, u, e, hi, hv, he, rfl⟩
    exact ⟨i, hi, _, ⟨_, hv, rfl⟩, .newtype e, ⟨rfl, e, he, rfl⟩, rfl⟩

theorem Ty.read_option_map (t : Ty) (kept : List (Snapshot × Snapshot)) :
    (Ty.option t).read (Snapshot.map kept) = (t.read (Snapshot.map kept)).map .some := by
  have h : (Ty.option t).read (Snapshot.map kept) =
      Answer.finish ({ call := .some (.map kept) } : Answer Snapshot)
        (Visit.option t.read (.some (Snapshot.map kept))) := rfl
  rw [h, Visit.option, Visit.optional]
  cases t.read (Snapshot.map kept) <;> rfl

theorem Ty.read_newtypeStruct_map (name : String) (t : Ty) (kept : List (Snapshot × Snapshot)) :
    (Ty.newtypeStruct name t).read (Snapshot.map kept) =
      (t.read (Snapshot.map kept)).map (.newtypeStruct name) := by
  have h : (Ty.newtypeStruct name t).read (Snapshot.map kept) =
      Answer.finish ({ call := .newtype (.map kept) } : Answer Snapshot)
        (Visit.newtypeStruct name t.read (.newtype (Snapshot.map kept))) := rfl
  rw [h, Visit.newtypeStruct]
  cases t.read (Snapshot.map kept) <;> rfl

/-- The tag's field is neither a success nor a failure. -/
theorem Ty.read_result_map (ok error : Ty) {kept : List (Snapshot × Snapshot)} {c : Snapshot}
    (hc : (.text tagField, c) ∈ kept) (d : Datum) :
    (Ty.result ok error).read (Snapshot.map kept) ≠ .ok d := by
  intro h
  obtain ⟨-, h⟩ := (consult_enum_eq_ok hc).1 h
  obtain ⟨i, hi, -⟩ := bind_eq_ok.1 h
  cases hi

/-- From a map that holds a tag, a type without fields is read from the tag alone or not at all. -/
theorem Ty.read_fieldless : ∀ {t : Ty}, t.fieldless → ∀ {kept : List (Snapshot × Snapshot)}
    {c : Snapshot} {tag : String} {d : Datum}, (.text tagField, c) ∈ kept → c.tagText? = some tag →
      (t.read (Snapshot.map kept) = .ok d ↔ kept = [(.text tagField, c)] ∧ t.ReadsTag c d)
  | .option t, ht, kept, c, tag, d, hc, htag => by
    have ih : ∀ e, t.read (Snapshot.map kept) = .ok e ↔ _ := fun e => t.read_fieldless ht hc htag
    simp only [read_option_map, map_eq_ok, ih, and_assoc, exists_and_left, ReadsTag]
  | .newtypeStruct name t, ht, kept, c, tag, d, hc, htag => by
    have ih : ∀ e, t.read (Snapshot.map kept) = .ok e ↔ _ := fun e => t.read_fieldless ht hc htag
    simp only [read_newtypeStruct_map, map_eq_ok, ih, and_assoc, exists_and_left, ReadsTag]
  | .result ok error, _, kept, c, tag, d, hc, _ =>
    iff_of_false (read_result_map ok error hc d) And.right
  | .enum _ .external _, _, _, _, _, _, hc, htag =>
    (consult_enum_eq_ok hc).trans (and_congr_right fun _ => externalEnum_tag htag)
  | .bool, ht, _, _, _, _, _, _ | .f32, ht, _, _, _, _, _, _ | .f64, ht, _, _, _, _, _, _
  | .char, ht, _, _, _, _, _, _ | .text, ht, _, _, _, _, _, _ | .borrowed, ht, _, _, _, _, _, _
  | .bytes, ht, _, _, _, _, _, _ | .int _, ht, _, _, _, _, _, _ | .unit, ht, _, _, _, _, _, _
  | .unitStruct _, ht, _, _, _, _, _, _ | .list _, ht, _, _, _, _, _, _
  | .array _ _, ht, _, _, _, _, _, _ | .tuple _, ht, _, _, _, _, _, _
  | .tupleStruct _ _, ht, _, _, _, _, _, _ =>
    iff_of_false (refuses_map ht _ _) And.right

/-! ## Unions -/

/-- A payload without entries fails when it is written behind its tag, in a record and as JSON. -/
theorem union_fails {tag : String} {d : Datum} (h : d.hasEntries = false) :
    ∃ fault, (Datum.union tag d).record = .error fault ∧
      (Datum.union tag d).json.fault = some fault := by
  obtain ⟨fault, hfault⟩ := d.flatten_of_not_hasEntries h
  rw [Datum.union, hfault]
  exact ⟨fault, rfl, rfl⟩

/-- Let a variant of a union have a payload without fields. No value of the payload is written, and
whatever map tells the variant is refused, unless it holds the tag alone and the payload is an enum
in the external form, under any options and newtypes, with a newtype variant that has the name of
the tag's field and can be read from the tag. An option is never read as empty. -/
theorem fieldless_rejected {variants : List (String × Ty)} (hn : (variants.map (·.1)).Nodup)
    {tag : String} {t : Ty} (ht : (tag, t) ∈ variants) :
    (t.fieldless →
      (∀ d, t.Has false d → ∃ fault, (Tagged.mk tag d).datum.record = .error fault ∧
        (Tagged.mk tag d).datum.json.fault = some fault) ∧
      ∀ (σ : Type) [Source σ] (s : σ) (kept : List (Snapshot × Snapshot)) (c : Snapshot),
        Flat.read s = .ok ⟨kept⟩ → (.text tagField, c) ∈ kept → c.tagText? = some tag →
          ∀ x, Tagged.read variants s = .ok x ↔
            x.tag = tag ∧ kept = [(.text tagField, c)] ∧ t.ReadsTag c x.payload) ∧
    (t.isOption → ∀ (σ : Type) [Source σ] (s : σ), Tagged.read variants s ≠ .ok ⟨tag, .none⟩) := by
  obtain ⟨i, hi⟩ := List.mem_iff_getElem?.1 ht
  refine ⟨fun hless => ⟨fun d hd => union_fails (t.not_hasEntries_of_fieldless hless hd),
    fun σ _ s kept c hs hc htag x => ?_⟩, fun hoption σ _ s hread => ?_⟩
  · have hkeys : (Snapshot.keys kept).Nodup := by
      obtain ⟨-, -, -, -, -, -, hkeys, -⟩ := Flat.read_eq_ok.1 hs
      exact hkeys
    rw [Tagged.read, readUnion_tagged (by rwa [map_tag_payloadReaders]) hs hkeys hc
      (getElem?_payloadReaders hi) htag, map_eq_ok]
    constructor
    · rintro ⟨d, hread, rfl⟩
      exact ⟨rfl, (t.read_fieldless hless hc htag).1 hread⟩
    · rintro ⟨rfl, hread⟩
      exact ⟨x.payload, (t.read_fieldless hless hc htag).2 hread, rfl⟩
  · obtain ⟨j, u, kept, c, hj, -, -, -, -, hread⟩ := Tagged.read_ok hread
    obtain ⟨-, rfl⟩ := Prod.mk.inj
      (List.inj_on_of_nodup_map hn ht (List.mem_of_getElem? hj) rfl)
    cases t with
    | option v =>
      obtain ⟨hpresent, -⟩ | ⟨e, he, -⟩ := (Ty.option v).has_of_read_map hread
      · cases hpresent
      · cases he
    | _ => cases hoption

/-- Payloads without fields. The last one has a variant that the tag is read as. -/
def fieldlessShape : List (String × Ty) :=
  [("unit", .unit), ("missing", .option .text),
   ("choice", .option (.newtypeStruct "N" (.enum "Choice" .external [("One", .newtype, .text)]))),
   ("kind", .enum "Kind" .external [("type", .newtype, .text)])]

/-- A map of texts that is offered. -/
def offeredTexts (entries : List (String × String)) : Offered :=
  ⟨.map (entries.map fun e => (.scalar (.text .owned e.1), .scalar (.text .owned e.2))) none, true⟩

theorem fieldless_rejected_choice :
    (∃ fault, (Tagged.mk "choice" .none).datum.record = .error fault ∧
      (Tagged.mk "choice" .none).datum.json.fault = some fault) ∧
    (∀ x, Tagged.read fieldlessShape (offeredTexts [("type", "choice"), ("One", "a")]) ≠ .ok x) ∧
    Tagged.read fieldlessShape (offeredTexts [("type", "choice")]) ≠ .ok ⟨"choice", .none⟩ := by
  obtain ⟨hless, hoption⟩ := @fieldless_rejected fieldlessShape (by decide) "choice" _
    (.tail _ (.tail _ (.head _)))
  obtain ⟨hwrite, hread⟩ := hless rfl
  refine ⟨hwrite .none (.inl ⟨rfl, rfl⟩), fun x hx => ?_, hoption rfl Offered _⟩
  have hiff := hread Offered (offeredTexts [("type", "choice"), ("One", "a")])
    [(.text "type", .text "choice"), (.text "One", .text "a")] (.text "choice") rfl
    (.head _) rfl x
  obtain ⟨-, hkept, -⟩ := hiff.1 hx
  simp at hkept

/-- A payload without fields that is read from its tag. -/
theorem fieldless_read_from_tag :
    (fieldlessShape.lookup "kind").any Ty.fieldless ∧
      Tagged.read fieldlessShape (offeredTexts [("type", "kind")]) =
        .ok ⟨"kind", .newtypeVariant ⟨"Kind", 0, "type"⟩ (.text "kind")⟩ :=
  ⟨rfl, rfl⟩

end FlatUnion
