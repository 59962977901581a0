import FlatUnion.Proofs.Reencoding

/-!
# What becomes of the tag

A payload sees the entry of the tag among its own entries. Many payloads either keep it or cannot be
read beside it at all (`Ty.KeepsTag`) : a map that takes texts for keys keeps every key it is shown,
a map of other keys and a struct that knows all its fields refuse this one, and a union inside a
union has its own tag in the same field.

Two forms of types are decided, those that keep the tag or are never read beside it
(`Ty.keepsTag_of_keeps`) and those that pass it over (`Ty.returns_of_bears`).
-/

namespace FlatUnion

open Replaying (of)

/-- Whether a payload has kept the tag among its entries whenever it could be read beside one. -/
def Ty.KeepsTag (t : Ty) : Prop :=
  ∀ {kept : List (Snapshot × Snapshot)} {c : Snapshot} {d : Datum}, (.text tagField, c) ∈ kept →
    t.read (Snapshot.map kept) = .ok d → tagField ∈ Item.keys d.flatten

theorem Ty.KeepsTag.returns {t : Ty} (h : t.KeepsTag) (tag : String) : t.Returns tag :=
  fun _ _ _ _ hc _ hread hfield => absurd (h hc hread) hfield

theorem Ty.KeepsTag.of_refuses {t : Ty}
    (h : ∀ entries d, t.read (Snapshot.map entries) ≠ .ok d) : t.KeepsTag :=
  fun _ hread => absurd hread (h _ _)

/-! ## Maps -/

namespace Visit

/-- An entry that is put among others under texts is there, and the keys of the others stay. -/
theorem mem_keys_insertSorted {s key : String} {v : Datum} :
    ∀ {es : List (Datum × Datum)}, (∀ e ∈ es, ∃ k, e.1 = .text k) →
      s = key ∨ Datum.text s ∈ es.map (·.1) →
        Datum.text s ∈ (insertSorted (.text key) v es).map (·.1)
  | [], _, h => by
    obtain rfl | h := h
    · exact List.mem_cons_self
    · simp at h
  | (k', v') :: rest, htexts, h => by
    obtain ⟨k', rfl⟩ : ∃ k, k' = Datum.text k := htexts _ List.mem_cons_self
    have ih : s = key ∨ Datum.text s ∈ rest.map (·.1) →
        Datum.text s ∈ (insertSorted (.text key) v rest).map (·.1) :=
      mem_keys_insertSorted fun e he => htexts e (List.mem_cons_of_mem _ he)
    rw [insertSorted]
    split_ifs with hlt hgt
    · simpa [eq_comm] using h
    · simp only [List.map_cons, List.mem_cons] at h ⊢
      obtain h | h | h := h
      · exact .inr (ih (.inl h))
      · exact .inl h
      · exact .inr (ih (.inr h))
    · -- neither is before the other, so the keys are the same
      obtain rfl : key = k' := Datum.eq_of_not_before (by simpa using hlt) (by simpa using hgt)
      simpa [eq_comm] using h

theorem mem_keys_foldl_insertSorted {s : String} :
    ∀ {pairs sorted : List (Datum × Datum)}, (∀ e ∈ pairs, ∃ k, e.1 = .text k) →
      (∀ e ∈ sorted, ∃ k, e.1 = .text k) →
        Datum.text s ∈ pairs.map (·.1) ∨ Datum.text s ∈ sorted.map (·.1) →
          Datum.text s ∈
            (pairs.foldl (fun sorted e => insertSorted e.1 e.2 sorted) sorted).map (·.1)
  | [], _, _, _, h => by simpa using h
  | p :: pairs, sorted, hp, hs, h => by
    obtain ⟨key, hkey⟩ := hp p List.mem_cons_self
    rw [List.foldl_cons]
    refine mem_keys_foldl_insertSorted (fun e he => hp e (List.mem_cons_of_mem _ he))
      (fun e he => ?_) ?_
    · obtain ⟨h | ⟨e', he', h⟩, -⟩ := mem_insertSorted he
      · exact ⟨key, h.trans hkey⟩
      · exact h ▸ hs e' he'
    · rw [List.map_cons, List.mem_cons, or_assoc] at h
      rw [hkey]
      obtain h | h | h := h
      · exact .inr (mem_keys_insertSorted hs (.inl (Datum.text.inj (h.trans hkey))))
      · exact .inl h
      · exact .inr (mem_keys_insertSorted hs (.inr h))

end Visit

theorem mem_keys_ofEntries {s : String} {es : List (Datum × Datum)}
    (h : Datum.text s ∈ es.map (·.1)) : s ∈ Item.keys (Datum.ofEntries es).flatten := by
  obtain ⟨⟨k, v⟩, he, rfl⟩ := List.mem_map.1 h
  exact List.mem_filterMap.2 ⟨_, List.mem_map.2 ⟨_, he, rfl⟩, rfl⟩

/-- A map with texts for keys keeps every key that was read. -/
theorem Visit.map_keeps {σ : Type} {readKey readValue : σ → Except Fault Datum}
    {entries : List (σ × σ)} {hint : Option Nat} {d : Datum} {s : String} {e : σ × σ}
    (hkeys : ∀ k x, readKey k = .ok x → ∃ s, x = .text s)
    (h : (Visit.map readKey readValue (.map entries hint)).result = .ok d) (he : e ∈ entries)
    (hs : readKey e.1 = .ok (.text s)) : s ∈ Item.keys d.flatten := by
  obtain ⟨pairs, hpairs, rfl⟩ := map_eq_ok.1 h
  have hpairs := (readEntries_eq_ok.1 (Outcome.eq_mk_of_result hpairs)).2
  obtain ⟨p, hp, hread, -⟩ := exists_right_of_mem hpairs he
  have hp1 : Datum.text s = p.1 := Except.ok.inj (hs.symm.trans hread)
  refine mem_keys_ofEntries (mem_keys_foldl_insertSorted (fun q hq => ?_) (by simp) (.inl ?_))
  · obtain ⟨e', -, hk, -⟩ := exists_left_of_mem hpairs hq
    exact hkeys _ _ hk
  · exact List.mem_map.2 ⟨p, hp, hp1.symm⟩

theorem Ty.text_of_read {σ : Type} [Source σ] {s : σ} {d : Datum}
    (h : Ty.text.read s = .ok d) : ∃ s, d = .text s :=
  Ty.text.has_of_read h

theorem Ty.map_text_keeps {σ : Type} [Replaying σ] {v : Ty} {kept : List (Snapshot × Snapshot)}
    {s : String} {c : Snapshot} {d : Datum} (hc : (.text s, c) ∈ kept)
    (h : (Ty.map .text v).read (of (.map kept) : σ) = .ok d) : s ∈ Item.keys d.flatten := by
  have hread := result_of_consult .map (.map kept) rfl nofun nofun rfl h
  have hs : Ty.text.read (of (.text s) : σ) = .ok (.text s) :=
    Ty.read_shown false (t := .text) (d := .text s) rfl ⟨s, rfl⟩
  exact Visit.map_keeps (fun _ _ => Ty.text_of_read) hread (List.mem_map.2 ⟨_, hc, rfl⟩) hs

theorem Ty.keepsTag_map_text (v : Ty) : (Ty.map .text v).KeepsTag :=
  fun hc h => map_text_keeps (σ := Snapshot) hc h

/-- A map whose keys cannot be texts is not read. -/
theorem Ty.keepsTag_map {k : Ty} (hk : ∀ d, k.read (Snapshot.text tagField) ≠ .ok d) (v : Ty) :
    (Ty.map k v).KeepsTag := by
  intro kept c d hc h
  obtain ⟨a, ha, hread, -⟩ := consult_eq_ok.1 h
  obtain rfl := Except.ok.inj ha
  obtain ⟨pairs, hpairs, -⟩ := map_eq_ok.1 hread
  have hpairs := (readEntries_eq_ok.1 (Outcome.eq_mk_of_result hpairs)).2
  obtain ⟨p, -, hp, -⟩ := exists_right_of_mem hpairs hc
  exact absurd hp (hk _)

namespace JsonValue

theorem mem_keys_insert {s k : String} {v : Datum} : ∀ {es : List (String × Datum)},
    s = k ∨ s ∈ es.map (·.1) → s ∈ (insert k v es).map (·.1)
  | [], h => by simpa [insert] using h
  | (k', v') :: rest, h => by
    rw [insert]
    split_ifs with hk
    · subst hk
      simpa using h
    · simp only [List.map_cons, List.mem_cons] at h ⊢
      obtain h | h | h := h
      · exact .inr (mem_keys_insert (.inl h))
      · exact .inl h
      · exact .inr (mem_keys_insert (.inr h))

/-- An object keeps the keys it has, and those that are read. -/
theorem mem_keys_readEntries {exact : Bool} {s : String} : ∀ {offered : List (Offer × Offer)}
    {first : Bool} {sofar all : List (String × Datum)},
      readEntries exact first sofar offered = .ok all →
        s ∈ sofar.map (·.1) ∨ (∃ o, (.scalar (.text .owned s), o) ∈ offered) →
          s ∈ all.map (·.1)
  | [], _, _, _, h, hs => by
    obtain rfl := Except.ok.inj h
    simpa using hs
  | (k, v) :: rest, first, sofar, all, h, hs => by
    obtain ⟨name, hname, h⟩ := bind_eq_ok.1 h
    obtain ⟨value, -, h⟩ := bind_eq_ok.1 h
    refine mem_keys_readEntries h ?_
    obtain hs | ⟨o, ho⟩ := hs
    · exact .inl (mem_keys_insert (.inr hs))
    · obtain he | ho := List.mem_cons.1 ho
      · obtain ⟨rfl, rfl⟩ := Prod.mk.inj he
        obtain rfl := Except.ok.inj hname
        exact .inl (mem_keys_insert (.inl rfl))
      · exact .inr ⟨o, ho⟩

end JsonValue

theorem Snapshot.mem_entriesToOffer {e : Snapshot × Snapshot} :
    ∀ {entries : List (Snapshot × Snapshot)}, e ∈ entries →
      (e.1.toOffer, e.2.toOffer) ∈ entriesToOffer entries
  | (k, v) :: rest, h => by
    rw [entriesToOffer]
    obtain rfl | h := List.mem_cons.1 h
    · exact List.mem_cons_self
    · exact List.mem_cons_of_mem _ (mem_entriesToOffer h)

theorem Ty.keepsTag_json : Ty.json.KeepsTag := by
  intro kept c d hc h
  obtain ⟨all, hall, h⟩ := bind_eq_ok.1
    (h : (JsonValue.readEntries false true [] (Snapshot.entriesToOffer kept) >>= _) = .ok d)
  obtain rfl := Except.ok.inj h
  have hkey : tagField ∈ all.map (·.1) :=
    JsonValue.mem_keys_readEntries hall (.inr ⟨_, Snapshot.mem_entriesToOffer hc⟩)
  refine mem_keys_ofEntries ?_
  obtain ⟨e, he, hkey⟩ := List.mem_map.1 hkey
  exact List.mem_map.2 ⟨_, List.mem_map.2 ⟨e, he, rfl⟩, congrArg Datum.text hkey⟩

/-! ## Structs -/

theorem fieldItems_written {fields : List Field} (h : fields.any (·.flattened) = false)
    (values : List Datum) :
    fieldItems (List.zipWith Field.written fields values) = structItems fields values := by
  induction fields generalizing values with
  | nil => rfl
  | cons f fields ih =>
    cases values with
    | nil => rfl
    | cons d values =>
      obtain ⟨hf, hfields⟩ := Bool.or_eq_false_iff.1 (List.any_cons ▸ h)
      rw [List.zipWith_cons_cons, structItems, ← ih hfields, hf]
      obtain ⟨key, o⟩ := f.written d
      cases o <;> rfl

/-- The entries of a struct are those of its fields, whether it is written as a map or not. -/
theorem flatten_structDatum (name : String) (fields : List Field) (values : List Datum) :
    (structDatum name fields values).flatten = structItems fields values := by
  unfold structDatum
  split_ifs with h
  · rfl
  · exact fieldItems_written (Bool.not_eq_true _ ▸ h) values

/-- A field that is always written is among the entries. -/
theorem mem_keys_structItems : ∀ {fields : List (Field × Ty)} {values : List Datum},
    fieldsHave fields values → (∃ f ∈ fields, f.1.name = tagField ∧ f.1.writing = .always ∧
      f.1.flattened = false) → tagField ∈ Item.keys (structItems (fields.map (·.1)) values)
  | (f, t) :: rest, values, ⟨e, es, hvalues, _, hes⟩, ⟨g, hg, hname, hwriting, hflat⟩ => by
    subst hvalues
    rw [List.map_cons, structItems, keys_append, List.mem_append]
    obtain rfl | hg := List.mem_cons.1 hg
    · have hwritten : f.written e = (f.name, some e) := by simp_all [Field.written]
      refine .inl ?_
      simp only at hname hflat
      rw [hflat, hwritten, hname]
      exact List.mem_cons_self
    · exact .inr (mem_keys_structItems hes ⟨g, hg, hname, hwriting, hflat⟩)

theorem Ty.keepsTag_written (info : StructInfo) {fields : List (Field × Ty)}
    (h : ∃ f ∈ fields, f.1.name = tagField ∧ f.1.writing = .always ∧ f.1.flattened = false) :
    (Ty.struct info fields).KeepsTag := by
  intro kept c d _ hread
  obtain ⟨values, rfl, hvalues⟩ := (Ty.struct info fields).has_of_read_map hread
  rw [flatten_structDatum]
  exact mem_keys_structItems hvalues h

/-- What is lent for as long as the input lives is not read from what was kept. -/
theorem Ty.borrowed_refuses (c : Snapshot) (d : Datum) : Ty.borrowed.read c ≠ .ok d := by
  cases c <;> exact nofun

theorem mem_fieldReaders {σ : Type} [Source σ] {f : Field} {t : Ty} :
    ∀ {fields : List (Field × Ty)}, (f, t) ∈ fields →
      (⟨f, t.isOption, t.read, t.readFlattened⟩ : FieldReader σ) ∈ fieldReaders fields
  | g :: rest, h => by
    obtain rfl | h := List.mem_cons.1 h
    · exact List.mem_cons_self
    · exact List.mem_cons_of_mem _ (mem_fieldReaders h)

theorem Ty.keepsTag_borrowed (info : StructInfo) {fields : List (Field × Ty)} {f : Field}
    (hf : (f, Ty.borrowed) ∈ fields) (hdefault : f.default = none) :
    (Ty.struct info fields).KeepsTag := by
  refine KeepsTag.of_refuses fun entries d h => ?_
  simp only [Ty.read] at h
  obtain ⟨c, hc⟩ := exists_call_of_consult h
  obtain ⟨values, hvalues, rfl⟩ := map_eq_ok.1 hc
  have hreader : ⟨f, false, Ty.borrowed.read, Ty.borrowed.readFlattened⟩ ∈
      (fieldReaders fields : List (FieldReader Snapshot)) := mem_fieldReaders hf
  obtain ⟨value, -, ⟨s, hs⟩ | hmissing | ⟨entries, hflat⟩⟩ :=
    exists_right_of_mem (Visit.struct_ok hvalues) hreader
  · exact Ty.borrowed_refuses s value hs
  · simp [FieldReader.missing, hdefault] at hmissing
  · simp [Ty.readFlattened] at hflat

/-! ## Keys of structs -/

namespace Visit

variable {σ : Type} [Source σ]

/-- A step has read the key of its entry, keeps what was left before, and adds a key that is to be
collected. -/
theorem Slots.Step.reads {named : List (FieldReader σ)} {readKey : σ → Except Fault FieldKey}
    {collecting : Bool} {e : σ × σ} {found next : Slots}
    (h : Slots.Step named readKey collecting e found next) :
    (∀ l ∈ found.rest, l ∈ next.rest) ∧ ∃ key, readKey e.1 = .ok key ∧
      ∀ c, key = .other c → collecting = true → ∃ v, (c, v) ∈ next.rest := by
  cases h with
  | taken hk hr hfree hd => exact ⟨fun _ hl => hl, _, hk, fun _ hc => by simp at hc⟩
  | @collected k v _ key c hcollecting hk hv =>
    refine ⟨fun _ hl => List.mem_append_left _ hl, _, hk, fun c' hc' _ => ⟨c, ?_⟩⟩
    obtain rfl := FieldKey.other.inj hc'
    exact List.mem_append_right _ (List.mem_singleton.2 rfl)
  | skipped hcollecting hk hv =>
    exact ⟨fun _ hl => hl, _, hk, fun _ _ hc => absurd hc (by simp [hcollecting])⟩

/-- Every key of a struct that was read is a key of it, and one that is collected stands among the
entries that are left. -/
theorem slots_reads {named : List (FieldReader σ)} {readKey : σ → Except Fault FieldKey}
    {collecting : Bool} (hlt : ∀ k i, readKey k = .ok (.known i) → i < named.length) :
    ∀ {entries : List (σ × σ)} {done : Nat} {found all : Slots},
      (slots named readKey collecting done found entries).result = .ok all →
        (∀ l ∈ found.rest, l ∈ all.rest) ∧ ∀ e ∈ entries, ∃ key, readKey e.1 = .ok key ∧
          ∀ c, key = .other c → collecting = true → ∃ v, (c, v) ∈ all.rest
  | [], _, _, _, h => by
    obtain rfl := Except.ok.inj h
    simp
  | (k, v) :: rest, done, found, all, h => by
    obtain ⟨next, hstep, h⟩ | ⟨i, hi, hnone, -⟩ := exists_step_of_slots h
    · obtain ⟨hkept, key, hkey, hcollected⟩ := hstep.reads
      obtain ⟨hnext, hrest⟩ := slots_reads hlt h
      refine ⟨fun l hl => hnext l (hkept l hl), List.forall_mem_cons.2 ⟨⟨key, hkey, ?_⟩, hrest⟩⟩
      intro c hc hcollecting
      obtain ⟨v, hv⟩ := hcollected c hc hcollecting
      exact ⟨v, hnext _ hv⟩
    · rw [List.getElem?_eq_none_iff] at hnone
      exact absurd (hlt k i hi) (by omega)

theorem Name.lt_of_find?_eq_some {names : List (List String)} {n : Name} {i : Nat}
    (h : n.find? names = some i) : i < names.length := by
  unfold Name.find? at h
  split at h
  · exact (List.findIdx?_eq_some_iff_getElem.1 h).1
  · exact (List.findIdx?_eq_some_iff_getElem.1 h).1
  · split_ifs at h with hlt
    exact Option.some.inj h ▸ hlt

omit [Source σ] in
/-- A field that is told by a key is found by a name. -/
theorem fieldKey_eq_known {readers : List (FieldReader σ)} {strict collecting : Bool} {c : Call σ}
    {i : Nat} (h : (fieldKey readers strict collecting c).result = .ok (.known i)) :
    ∃ n, name? c = some n ∧
      n.find? ((readers.filter fun r => !r.field.flattened).map FieldReader.names) = some i := by
  simp only [fieldKey] at h
  split at h
  · split at h
    · split_ifs at h <;> simp [refuse] at h
    · simp at h
    · split at h
      · next hn =>
        obtain ⟨n, hc, hn⟩ := Option.bind_eq_some_iff.1 hn
        obtain rfl := FieldKey.known.inj (Except.ok.inj h)
        exact ⟨n, hc, hn⟩
      · simp at h
    · simp at h
    · simp [refuse] at h
  · split at h
    · simp [refuse] at h
    · next hc =>
      split at h
      · next hn =>
        obtain rfl := FieldKey.known.inj (Except.ok.inj h)
        exact ⟨_, hc, hn⟩
      · split_ifs at h
        · simp at h
        · split at h <;> simp at h

/-- What is left of a struct that was read from a map, and that all keys of the map were read. -/
theorem struct_reads {what : String} {strict : Bool} {readers : List (FieldReader σ)}
    {entries : List (σ × σ)} {hint : Option Nat} {ds : List Datum}
    (h : (struct what strict readers (.map entries hint)).result = .ok ds) :
    let collecting := readers.any (·.field.flattened)
    ∃ own left, complete (strict && collecting) readers own left = .ok ds ∧ ∀ e ∈ entries, ∃ key,
      consult .identifier e.1 (fieldKey readers strict collecting) = .ok key ∧
        ∀ c, key = .other c → collecting = true → ∃ v, (c, v) ∈ left := by
  intro collecting
  simp only [struct] at h
  obtain ⟨all, hall, h⟩ := bind_eq_ok.1
    (h : ((slots _ _ collecting 0 _ entries).result >>= _) = .ok ds)
  obtain ⟨own, -, h⟩ := bind_eq_ok.1 h
  refine ⟨own, all.rest, h, (slots_reads (fun k i hk => ?_) hall).2⟩
  obtain ⟨c, hc⟩ := exists_call_of_consult hk
  obtain ⟨n, -, hn⟩ := fieldKey_eq_known hc
  simpa using Name.lt_of_find?_eq_some hn

/-- A text that is no name of a field is collected, or refused by a struct that knows all its
fields. -/
theorem fieldKey_of_unknown {readers : List (FieldReader Snapshot)} {strict collecting : Bool}
    {s : String} (hs : s ∉ fieldNames readers) {key : FieldKey}
    (h : consult .identifier (Snapshot.text s) (fieldKey readers strict collecting) = .ok key) :
    (collecting = false → strict = false) ∧ (collecting = true → key = .other (.text s)) := by
  have hfind : ((readers.filter fun r => !r.field.flattened).map FieldReader.names).findIdx?
      (fun ns => ns.contains s) = none := by
    rw [List.findIdx?_eq_none_iff]
    intro ns hns
    obtain ⟨r, hr, rfl⟩ := List.mem_map.1 hns
    have hr : r.names ∈ readers.map FieldReader.names :=
      List.mem_map.2 ⟨r, List.mem_of_mem_filter hr, rfl⟩
    simpa using fun h => hs (List.mem_flatten.2 ⟨_, hr, h⟩)
  obtain ⟨a, ha, h, -⟩ := consult_eq_ok.1 h
  obtain rfl := Except.ok.inj ha
  simp only [Snapshot.replay, Snapshot.call, fieldKey, name?, Name.find?, Option.bind_some,
    hfind] at h
  cases collecting with
  | true => exact ⟨fun hc => by simp at hc, fun _ => (Except.ok.inj h).symm⟩
  | false =>
    cases strict with
    | true => simp at h
    | false => exact ⟨fun _ => rfl, fun hc => by simp at hc⟩

end Visit

theorem any_flattened_fieldReaders {σ : Type} [Source σ] : ∀ fields : List (Field × Ty),
    (fieldReaders fields : List (FieldReader σ)).any (·.field.flattened) =
      fields.any (·.1.flattened)
  | [] => rfl
  | (f, _) :: rest => congrArg (f.flattened || ·) (any_flattened_fieldReaders rest)

/-- The tag that no field is named after is left over by a struct that collects, and is passed over
by one that does not, unless it knows all its fields. -/
theorem Ty.tag_left_of_read {info : StructInfo} {fields : List (Field × Ty)}
    (htag : tagField ∉ namesOf fields) {kept : List (Snapshot × Snapshot)} {c : Snapshot}
    {d : Datum} (hc : (.text tagField, c) ∈ kept)
    (h : (Ty.struct info fields).read (Snapshot.map kept) = .ok d) :
    ∃ refusing own left values,
      Visit.complete refusing (fieldReaders fields : List (FieldReader Snapshot)) own left =
        .ok values ∧
        d = structDatum info.name (fields.map (·.1)) values ∧
        (fields.any (·.1.flattened) = false → info.strict = false) ∧
        (fields.any (·.1.flattened) = true → ∃ v, (.text tagField, v) ∈ left) := by
  have hnames : tagField ∉ fieldNames (fieldReaders fields : List (FieldReader Snapshot)) := by
    rwa [fieldNames_fieldReaders]
  have hanswer : Source.answer (if fields.any (·.1.flattened) then .map else .struct)
      (Snapshot.map kept) = .ok (Snapshot.map kept).replay := by
    split_ifs <;> rfl
  simp only [Ty.read] at h
  obtain ⟨a, ha, hread, -⟩ := consult_eq_ok.1 h
  obtain rfl := Except.ok.inj (hanswer.symm.trans ha)
  obtain ⟨values, hvalues, hd⟩ := map_eq_ok.1 hread
  obtain ⟨own, left, hcomplete, hkeys⟩ := Visit.struct_reads hvalues
  obtain ⟨key, hkey, hcollected⟩ := hkeys _ hc
  rw [any_flattened_fieldReaders] at hkey hcollected
  obtain ⟨hpassed, hother⟩ := Visit.fieldKey_of_unknown hnames hkey
  exact ⟨_, own, left, values, hcomplete, hd.symm, hpassed, fun hflat =>
    hcollected _ (hother hflat) hflat⟩

/-- A struct that knows all its fields, and no such field, refuses the tag. -/
theorem Ty.keepsTag_strict {info : StructInfo} {fields : List (Field × Ty)}
    (hstrict : info.strict = true) (hflat : fields.any (·.1.flattened) = false)
    (htag : tagField ∉ namesOf fields) : (Ty.struct info fields).KeepsTag := by
  intro kept c d hc h
  obtain ⟨-, -, -, -, -, -, hpassed, -⟩ := Ty.tag_left_of_read htag hc h
  exact absurd (hpassed hflat) (by simp [hstrict])

/-- Whether a type is a map that takes texts for keys. -/
def Ty.isTextMap : Ty → Bool
  | .map .text _ => true
  | _ => false

/-- Whether the first of the flattened fields takes all entries under texts. -/
def collects : List (Field × Ty) → Bool
  | [] => false
  | (f, t) :: rest => if f.flattened then t.isTextMap else collects rest

theorem Ty.eq_map_of_isTextMap : ∀ {t : Ty}, t.isTextMap → ∃ v, t = .map .text v
  | .map .text v, _ => ⟨v, rfl⟩

/-- What is left by the fields that have names stands among the entries of a struct that collects
it. -/
theorem complete_collects {refusing : Bool} {left : List (Snapshot × Snapshot)} {v : Snapshot}
    (hv : (.text tagField, v) ∈ left) : ∀ {fields : List (Field × Ty)} {own values : List Datum},
      collects fields →
        Visit.complete refusing (fieldReaders fields : List (FieldReader Snapshot)) own left =
            .ok values →
          tagField ∈ Item.keys (structItems (fields.map (·.1)) values)
  | (f, t) :: rest, own, values, hcollects, h => by
    rw [fieldReaders] at h
    rw [collects] at hcollects
    cases hf : f.flattened with
    | true =>
      simp only [hf, if_true] at hcollects
      obtain ⟨value, rfl⟩ := Ty.eq_map_of_isTextMap hcollects
      obtain ⟨d, ds, hmap, -, rfl⟩ := (Visit.complete_flattened_eq_ok hf).1 h
      simp only [Ty.readFlattened, Leftover.seen] at hmap
      have hentry : ((⟨.text tagField⟩, ⟨v⟩) : Exacting × Exacting) ∈
          left.map (fun e => (⟨e.1⟩, ⟨e.2⟩)) := List.mem_map.2 ⟨_, hv, rfl⟩
      have hkey := Visit.map_keeps (fun _ _ => Ty.text_of_read) hmap hentry rfl
      obtain ⟨es, rfl, -⟩ := Visit.map_ok hmap
      rw [List.map_cons, structItems, hf, keys_append]
      exact List.mem_append_left _ hkey
    | false =>
      simp only [hf, Bool.false_eq_true, if_false] at hcollects
      obtain ⟨ds, hds, rfl⟩ := (Visit.complete_own_eq_ok hf).1 h
      rw [List.map_cons, structItems, keys_append]
      exact List.mem_append_right _ (complete_collects hv hcollects hds)

theorem flattened_of_collects : ∀ {fields : List (Field × Ty)}, collects fields →
    fields.any (·.1.flattened)
  | (f, t) :: rest, h => by
    rw [collects] at h
    rw [List.any_cons, Bool.or_eq_true]
    split_ifs at h with hf
    · exact .inl hf
    · exact .inr (flattened_of_collects h)

/-- A struct that collects what it does not know collects the tag. -/
theorem Ty.keepsTag_collects (info : StructInfo) {fields : List (Field × Ty)}
    (hcollects : collects fields) (htag : tagField ∉ namesOf fields) :
    (Ty.struct info fields).KeepsTag := by
  intro kept c d hc h
  obtain ⟨refusing, own, left, values, hcomplete, rfl, -, hleft⟩ := Ty.tag_left_of_read htag hc h
  obtain ⟨v, hv⟩ := hleft (flattened_of_collects hcollects)
  rw [flatten_structDatum]
  exact complete_collects hv hcollects hcomplete

/-! ## Enums -/

/-- A name that is none of the variants'. -/
theorem Visit.variant_unknown {σ : Type} {names : List String} {name : String} (h : name ∉ names)
    (l : Lending) (i : Nat) :
    (Visit.variant names (.scalar (.text l name) : Call σ)).result ≠ .ok i := by
  have hfind : (names.map ([·])).findIdx? (fun ns => ns.contains name) = none := by
    rw [List.findIdx?_eq_none_iff]
    intro ns hns
    obtain ⟨n, hn, rfl⟩ := List.mem_map.1 hns
    simpa using fun heq : name = n => h (heq ▸ hn)
  simp only [Visit.variant, Visit.name?, Visit.Name.find?, hfind]
  intro hok
  cases hok

/-- An enum in the external form takes the one key of a map for its variant. -/
theorem Ty.keepsTag_external (name : String) {variants : List (String × Form × Ty)}
    (htag : tagField ∉ variants.map (·.1)) : (Ty.enum name .external variants).KeepsTag := by
  intro kept c d hc h
  obtain ⟨a, ha, hread, -⟩ := consult_eq_ok.1 h
  obtain ⟨⟨variant, content⟩, hvariant, ha⟩ := bind_eq_ok.1 ha
  obtain rfl := Except.ok.inj ha
  have hvariant : variant = .text tagField := by
    match kept, hvariant, hc with
    | [(k, v)], hvariant, hc =>
      obtain ⟨rfl, -⟩ := Prod.mk.inj (Except.ok.inj hvariant)
      exact (Prod.mk.inj (List.mem_singleton.1 hc)).1.symm
  subst hvariant
  obtain ⟨i, hi, -⟩ := bind_eq_ok.1 hread
  obtain ⟨a, ha, hi, -⟩ := consult_eq_ok.1 hi
  obtain rfl := Except.ok.inj ha
  rw [← map_name_variantReaders (σ := Snapshot)] at htag
  exact absurd hi (Visit.variant_unknown htag _ i)

theorem form_of_getElem?_variantReaders {σ : Type} [Source σ] :
    ∀ {variants : List (String × Form × Ty)} {i : Nat} {r : VariantReader σ},
      (variantReaders variants)[i]? = some r → ∃ v ∈ variants, v.2.1 = r.form
  | v :: _, 0, _, h => by
    obtain rfl := Option.some.inj h
    exact ⟨v, List.mem_cons_self, rfl⟩
  | _ :: rest, i + 1, _, h => by
    have h : (variantReaders rest)[i]? = some _ := h
    obtain ⟨v, hv, hform⟩ := form_of_getElem?_variantReaders h
    exact ⟨v, List.mem_cons_of_mem _ hv, hform⟩

/-- An enum whose own tag stands in the field of the union's writes it there. -/
theorem Ty.keepsTag_internal (name : String) {variants : List (String × Form × Ty)}
    (hforms : ∀ v ∈ variants, v.2.1 = .unit ∨ v.2.1 = .struct) :
    (Ty.enum name (.internal tagField) variants).KeepsTag := by
  intro kept c d _ h
  obtain ⟨i, variant, content, ⟨r, hr, -, hyields⟩, rfl⟩ := Visit.internalEnum_ok h
  obtain ⟨v, hv, hform⟩ := form_of_getElem?_variantReaders hr
  have hforms := hform ▸ hforms v hv
  cases content with
  | unit | struct => exact List.mem_cons_self
  | newtype | tuple => simp [hyields.1] at hforms

theorem Ty.keepsTag_union (name : String) (variants : List (String × Ty)) :
    (Ty.union name variants).KeepsTag := by
  intro kept c d _ h
  obtain ⟨tag, e, rfl, -⟩ := (Ty.union name variants).has_of_read_map h
  exact List.mem_cons_self

/-! ## Deciding it -/

/-- Whether a type is never read from a map. -/
def Ty.refusesMaps : Ty → Bool
  | .bool | .int _ | .f32 | .f64 | .char | .text | .borrowed | .bytes | .unit | .list _
  | .array _ _ | .tuple _ | .unitStruct _ | .tupleStruct _ _ => true
  | .newtypeStruct _ t => t.refusesMaps
  | _ => false

theorem Ty.refuses_map : ∀ {t : Ty}, t.refusesMaps → ∀ (entries : List (Snapshot × Snapshot))
    (d : Datum), t.read (Snapshot.map entries) ≠ .ok d
  | .bool, _, _, _ | .int _, _, _, _ | .f32, _, _, _ | .f64, _, _, _ | .char, _, _, _
  | .text, _, _, _ | .borrowed, _, _, _ | .bytes, _, _, _ | .unit, _, _, _ | .list _, _, _, _
  | .array _ _, _, _, _ | .tuple _, _, _, _ | .unitStruct _, _, _, _
  | .tupleStruct _ _, _, _, _ => nofun
  | .newtypeStruct name t, h, entries, d => by
    intro hread
    obtain ⟨a, ha, hread, -⟩ := consult_eq_ok.1 hread
    obtain rfl := Except.ok.inj ha
    obtain ⟨e, he, -⟩ := map_eq_ok.1 hread
    exact t.refuses_map h entries e he

/-- Whether a field is given by what is lent only. -/
def isLent (f : Field × Ty) : Bool :=
  match f.2 with
  | .borrowed => f.1.default.isNone
  | _ => false

/-- Whether a type is known to keep the tag, or never to be read beside one. -/
def Ty.keeps : Ty → Bool
  | .json | .union _ _ | .map .text _ | .map .bool _ | .map .char _ | .map (.int _) _ => true
  | .struct info fields =>
    fields.any (fun f => f.1.name = tagField && f.1.writing = .always && !f.1.flattened) ||
      fields.any isLent ||
      (!(namesOf fields).contains tagField &&
        (collects fields || info.strict && !fields.any (·.1.flattened)))
  | .enum _ .external variants => !(variants.map (·.1)).contains tagField
  | .enum _ (.internal tag) variants =>
    tag = tagField && variants.all fun v => v.2.1 = .unit || v.2.1 = .struct
  | t => t.refusesMaps

theorem Ty.keepsTag_struct {info : StructInfo} {fields : List (Field × Ty)}
    (h : (Ty.struct info fields).keeps) : (Ty.struct info fields).KeepsTag := by
  simp only [keeps, Bool.or_eq_true, Bool.and_eq_true, Bool.not_eq_true', List.any_eq_true,
    decide_eq_true_eq, List.contains_eq_mem, decide_eq_false_iff_not] at h
  obtain (⟨f, hf, ⟨hname, hwriting⟩, hflat⟩ | ⟨⟨f, t⟩, hf, hlent⟩) | ⟨htag, h⟩ := h
  · exact keepsTag_written info ⟨f, hf, hname, hwriting, hflat⟩
  · cases t with
    | borrowed => exact keepsTag_borrowed info hf (Option.isNone_iff_eq_none.1 hlent)
    | _ => simp [isLent] at hlent
  · obtain hcollects | ⟨hstrict, hflat⟩ := h
    · exact keepsTag_collects info hcollects htag
    · exact keepsTag_strict hstrict hflat htag

/-- What is known to keep the tag does so. -/
theorem Ty.keepsTag_of_keeps {t : Ty} (h : t.keeps) : t.KeepsTag := by
  cases t with
  | json => exact keepsTag_json
  | union name variants => exact keepsTag_union name variants
  | struct info fields => exact keepsTag_struct h
  | map k v =>
    cases k with
    | text => exact keepsTag_map_text v
    | bool | char | int =>
      refine keepsTag_map (fun d h => ?_) v
      nomatch h
    | _ => simp [keeps, refusesMaps] at h
  | enum name tagging variants =>
    cases tagging with
    | external => exact keepsTag_external name (by simpa [keeps] using h)
    | internal tag =>
      simp only [keeps, Bool.and_eq_true, decide_eq_true_eq, List.all_eq_true,
        Bool.or_eq_true] at h
      obtain ⟨rfl, hforms⟩ := h
      exact keepsTag_internal name hforms
    | _ => simp [keeps, refusesMaps] at h
  | _ => exact KeepsTag.of_refuses (refuses_map h)

/-! ## Payloads that bear a tag -/

/-- A payload that bears a tag returns. -/
theorem Ty.returns_of_bears {t : Ty} (h : t.bears) (tag : String) : t.Returns tag := by
  intro kept c d _ _ _ hread _
  have hd := t.has_of_read_map hread
  obtain ⟨fields, hfields⟩ := t.flatten_of_bears h hd
  obtain ⟨es, hes⟩ : ∃ es, d.flatten = entryItems es :=
    ⟨_, hfields.trans (fieldItems_eq_entryItems fields)⟩
  have hplain := t.flatten_plain h hd
  rw [hes, itemsPlain_entryItems] at hplain
  refine ⟨es, hes, hplain, ?_, fun marks => (t.read_beside_tag marks h hd tag).2⟩
  have hkeys := (t.read_beside_tag false h hd tag).1
  rw [Datum.besideTag, hes] at hkeys
  rw [← keys_shownItems false]
  exact (List.nodup_cons.1 hkeys).2

end FlatUnion
