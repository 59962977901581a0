import FlatUnion.Proofs.Yields
import FlatUnion.Type.Read

/-!
# Values of a type

`Ty.Has` says which data are values of a type, without reference to a source. Every reader gives
values of its type only (`Ty.has_of_read`), whatever kind of source it reads, and one that is given
a map finds something under every option of the type (`Ty.has_of_read_map`).

The proof follows the type. What a reader gives is told by the readers of its parts, and these read
as the types of the parts do (`Ty.Sound`).
-/

namespace FlatUnion

/-! ## Values -/

/-- The fields of a struct type, none if it is no struct. -/
def Ty.fieldInfos : Ty → List Field
  | .struct _ fields => fields.map (·.1)
  | _ => []

mutual

/-- A datum is a value of a type. Where the value is known to be there, the options around it are
not empty. -/
def Ty.Has : Ty → (present : Bool) → Datum → Prop
  | .bool, _, d => ∃ b, d = .bool b
  | .int w, _, d => ∃ n, w.fits n ∧ d = .int w n
  | .f32, _, d => ∃ bits, d = .f32 bits
  | .f64, _, d => ∃ bits, d = .f64 bits
  | .char, _, d => ∃ c, d = .char c
  | .text, _, d | .borrowed, _, d => ∃ s, d = .text s
  | .bytes, _, d => ∃ bs, d = .bytes bs
  | .unit, _, d => d = .unit
  | .json, _, _ => True
  | .option t, present, d => present = false ∧ d = .none ∨ ∃ e, d = .some e ∧ t.Has present e
  | .list t, _, d => ∃ es, d = .seq es ∧ ∀ e ∈ es, t.Has false e
  | .array n t, _, d => ∃ es, d = .tuple es ∧ es.length = n ∧ ∀ e ∈ es, t.Has false e
  | .tuple ts, _, d => ∃ es, d = .tuple es ∧ itemsHave ts es
  | .map k v, _, d =>
    ∃ es, d = .ofEntries es ∧ Ascending es ∧ ∀ e ∈ es, k.Has false e.1 ∧ v.Has false e.2
  | .result ok error, _, d =>
    (∃ e, d = .newtypeVariant ⟨"Result", 0, "Ok"⟩ e ∧ ok.Has false e) ∨
      ∃ e, d = .newtypeVariant ⟨"Result", 1, "Err"⟩ e ∧ error.Has false e
  | .unitStruct name, _, d => d = .unitStruct name
  | .newtypeStruct name t, present, d => ∃ e, d = .newtypeStruct name e ∧ t.Has present e
  | .tupleStruct name ts, _, d => ∃ es, d = .tupleStruct name es ∧ itemsHave ts es
  | .struct info fields, _, d =>
    ∃ values, d = structDatum info.name (fields.map (·.1)) values ∧ fieldsHave fields values
  | .enum name .external variants, _, d =>
    ∃ i variant c, d = externalDatum ⟨name, i, variant⟩ c ∧ variantsHave variants i variant c
  | .enum name (.internal tag) variants, _, d =>
    ∃ i variant c, d = Visit.taggedDatum name tag variant c ∧ variantsHave variants i variant c
  | .enum name (.adjacent tag content) variants, _, d =>
    ∃ i variant c, d = Visit.adjacentDatum tag content ⟨name, i, variant⟩ c ∧
      variantsHave variants i variant c
  | .enum _ .untagged variants, _, d =>
    ∃ i variant c, d = Visit.bareDatum variant c ∧ variantsHave variants i variant c
  | .union _ variants, _, d => ∃ tag e, d = .union tag e ∧ payloadsHave variants tag e

/-- Values of the elements of a tuple. -/
def itemsHave : List Ty → List Datum → Prop
  | [], ds => ds = []
  | t :: rest, ds => ∃ e es, ds = e :: es ∧ t.Has false e ∧ itemsHave rest es

/-- Values of the fields of a struct. A default need not be a value of the field's type. -/
def fieldsHave : List (Field × Ty) → List Datum → Prop
  | [], ds => ds = []
  | (f, t) :: rest, ds =>
    ∃ e es, ds = e :: es ∧ (t.Has false e ∨ f.default = some e) ∧ fieldsHave rest es

/-- Values of the elements of a tuple type, none if it is no tuple. -/
def Ty.itemsHave : Ty → List Datum → Prop
  | .tuple ts, ds => FlatUnion.itemsHave ts ds
  | _, ds => ds = []

/-- Values of the fields of a struct type, none if it is no struct. -/
def Ty.fieldsHave : Ty → List Datum → Prop
  | .struct _ fields, ds => FlatUnion.fieldsHave fields ds
  | _, ds => ds = []

/-- The content of the variant at a place. -/
def variantsHave : List (String × Form × Ty) → (i : Nat) → (variant : String) → VariantContent →
    Prop
  | [], _, _, _ => False
  | (name, form, t) :: _, 0, variant, c =>
    variant = name ∧
      match form, c with
      | .unit, .unit => True
      | .newtype, .newtype d => t.Has false d
      | .tuple, .tuple ds => t.itemsHave ds
      | .struct, .struct fields =>
        ∃ values, fields = List.zipWith Field.written t.fieldInfos values ∧ t.fieldsHave values
      | _, _ => False
  | _ :: rest, i + 1, variant, c => variantsHave rest i variant c

/-- The payload of the variant with a tag. -/
def payloadsHave : List (String × Ty) → (tag : String) → Datum → Prop
  | [], _, _ => False
  | (name, t) :: rest, tag, d => tag = name ∧ t.Has true d ∨ payloadsHave rest tag d

end

/-! ## Reading values -/

theorem name_of_variantsHave : ∀ {variants : List (String × Form × Ty)} {i : Nat}
    {variant : String} {c : VariantContent}, variantsHave variants i variant c →
      (variants[i]?).map (·.1) = some variant
  | (_, _, _) :: _, 0, variant, c, h => congrArg some h.1.symm
  | _ :: _, i + 1, variant, c, h => by
    rw [List.getElem?_cons_succ]
    exact name_of_variantsHave h

/-- A union is read as one of its variants, from the entries that were kept. -/
theorem readUnion_ok {σ : Type} [Source σ] {variants : List (PayloadReader Snapshot)} {s : σ}
    {y : Tagged} (h : readUnion variants s = .ok y) :
    ∃ flat i v, Flat.read s = .ok flat ∧ variants[i]? = some v ∧ y.tag = v.tag ∧
      flat.readTag tagField (fun value =>
        consult .str value (Visit.tag (variants.map (·.tag)))) = .ok i ∧
      v.read (.map flat.entries) = .ok y.payload := by
  obtain ⟨flat, hflat, h⟩ := bind_eq_ok.1 h
  obtain ⟨i, hi, h⟩ := bind_eq_ok.1 h
  obtain ⟨v, hv, h⟩ := bind_eq_ok.1 h
  obtain ⟨x, hx, h⟩ := bind_eq_ok.1 h
  obtain rfl := Except.ok.inj h
  exact ⟨flat, i, v, hflat, Visit.pick_eq_ok.1 hv, rfl, hi, hx⟩

theorem Ty.has_none_of_isOption {t : Ty} (h : t.isOption) : t.Has false .none := by
  cases t with
  | option t => exact .inl ⟨rfl, rfl⟩
  | _ => simp [Ty.isOption] at h

theorem map_field_fieldReaders {σ : Type} [Source σ] : ∀ fields : List (Field × Ty),
    (fieldReaders fields : List (FieldReader σ)).map (·.field) = fields.map (·.1)
  | [] => rfl
  | (f, t) :: rest => by rw [fieldReaders, List.map_cons, map_field_fieldReaders rest]; rfl

theorem Ty.map_field_fields {σ : Type} [Source σ] (t : Ty) :
    (t.fields : List (FieldReader σ)).map (·.field) = t.fieldInfos := by
  cases t with
  | struct info fields => exact map_field_fieldReaders fields
  | _ => rfl

theorem Leftover.exists_of_chosen {enum : String} {names : List String}
    {read : Call Exacting → Outcome Datum} {entries : List (Snapshot × Snapshot)} {d : Datum}
    (h : (Leftover.chosen enum names read entries).1 = .ok d) : ∃ c, (read c).result = .ok d := by
  unfold Leftover.chosen at h
  split at h
  · exact ⟨_, h⟩
  · nomatch h

/-- Whether all readers of a type give values of the type, and readers of a map such as are known
to be there. -/
def Ty.Sound (t : Ty) : Prop :=
  (∀ {σ : Type} [Source σ] (s : σ) (d : Datum), t.read s = .ok d → t.Has false d) ∧
    ∀ (entries : List (Snapshot × Snapshot)) (d : Datum),
      t.read (Snapshot.map entries) = .ok d → t.Has true d

/-- For most types it makes no difference where the value was. -/
theorem Ty.Sound.of_read {t : Ty} (hp : ∀ d, t.Has false d → t.Has true d)
    (h : ∀ {σ : Type} [Source σ] (s : σ) (d : Datum), t.read s = .ok d → t.Has false d) :
    t.Sound :=
  ⟨h, fun _ d hd => hp d (h _ d hd)⟩

section Parts

variable {σ : Type} [Source σ] {c : Call σ} {d : Datum}

theorem Ty.has_of_map {k v : Ty} (hk : k.Sound) (hv : v.Sound)
    (h : (Visit.map k.read v.read c).result = .ok d) : (Ty.map k v).Has false d := by
  obtain ⟨es, rfl, horder, hes⟩ := Visit.map_ok h
  refine ⟨es, rfl, horder, fun e he => ?_⟩
  obtain ⟨⟨key, hkey⟩, value, hvalue⟩ := hes e he
  exact ⟨hk.1 key _ hkey, hv.1 value _ hvalue⟩

theorem Ty.has_of_result {ok error : Ty} (hok : ok.Sound) (herror : error.Sound)
    (h : (Visit.resultEnum ok.read error.read c).result = .ok d) :
    (Ty.result ok error).Has false d := by
  obtain ⟨s, e, he, rfl⟩ | ⟨s, e, he, rfl⟩ := Visit.resultEnum_ok h
  · exact .inl ⟨e, rfl, hok.1 s e he⟩
  · exact .inr ⟨e, rfl, herror.1 s e he⟩

theorem Ty.has_adjacent {name tag key variant : String} {variants : List (String × Form × Ty)}
    {i : Nat} {x : VariantContent} (h : variantsHave variants i variant x) :
    (Ty.enum name (.adjacent tag key) variants).Has false
      (Visit.adjacentDatum tag key ⟨name, i, ((variants[i]?).map (·.1)).getD ""⟩ x) := by
  rw [name_of_variantsHave h]
  exact ⟨i, variant, x, rfl, h⟩

end Parts

mutual

theorem Ty.sound : ∀ t : Ty, t.Sound
  | .bool => .of_read (fun _ h => h) fun s d h =>
    (exists_call_of_consult h).elim fun _ => Visit.bool_ok
  | .int w => .of_read (fun _ h => h) fun s d h =>
    (exists_call_of_consult h).elim fun _ => Visit.int_ok
  | .f32 => .of_read (fun _ h => h) fun s d h =>
    (exists_call_of_consult h).elim fun _ => Visit.f32_ok
  | .f64 => .of_read (fun _ h => h) fun s d h =>
    (exists_call_of_consult h).elim fun _ => Visit.f64_ok
  | .char => .of_read (fun _ h => h) fun s d h =>
    (exists_call_of_consult h).elim fun _ => Visit.char_ok
  | .text => .of_read (fun _ h => h) fun s d h =>
    (exists_call_of_consult h).elim fun _ => Visit.text_ok
  | .borrowed => .of_read (fun _ h => h) fun s d h =>
    (exists_call_of_consult h).elim fun _ => Visit.borrowed_ok
  | .bytes => .of_read (fun _ h => h) fun s d h =>
    (exists_call_of_consult h).elim fun _ => Visit.bytes_ok
  | .unit => .of_read (fun _ h => h) fun s d h =>
    (exists_call_of_consult h).elim fun _ => Visit.unit_ok
  | .json => .of_read (fun _ h => h) fun s d h => trivial
  | .option t => by
    refine ⟨fun s d h => ?_, fun entries d h => ?_⟩
    · obtain ⟨c, hc⟩ := exists_call_of_consult h
      obtain ⟨rfl, -⟩ | ⟨s, e, -, he, rfl⟩ := Visit.option_ok hc
      · exact .inl ⟨rfl, rfl⟩
      · exact .inr ⟨e, rfl, t.sound.1 s e he⟩
    · obtain ⟨a, ha, hread, -⟩ := consult_eq_ok.1 h
      obtain rfl := Except.ok.inj ha
      obtain ⟨-, hne⟩ | ⟨s, e, hs, he, rfl⟩ := Visit.option_ok hread
      · exact absurd rfl (hne _)
      · obtain rfl := Call.some.inj hs
        exact .inr ⟨e, rfl, t.sound.2 entries e he⟩
  | .list t => .of_read (fun _ h => h) fun s d h => by
    obtain ⟨c, hc⟩ := exists_call_of_consult h
    obtain ⟨es, rfl, hes⟩ := Visit.list_ok hc
    exact ⟨es, rfl, fun e he => (hes e he).elim fun s hs => t.sound.1 s e hs⟩
  | .array n t => .of_read (fun _ h => h) fun s d h => by
    simp only [Ty.read] at h
    obtain ⟨c, hc⟩ := exists_call_of_consult h
    obtain ⟨es, hes, rfl⟩ := map_eq_ok.1 hc
    have hes := Visit.items_ok hes
    refine ⟨es, rfl, by simpa using hes.length_eq.symm, fun e he => ?_⟩
    obtain ⟨read, hread, s, hs⟩ := exists_left_of_mem hes he
    obtain rfl := List.eq_of_mem_replicate hread
    exact t.sound.1 s e hs
  | .tuple ts => .of_read (fun _ h => h) fun s d h => by
    simp only [Ty.read] at h
    obtain ⟨c, hc⟩ := exists_call_of_consult h
    obtain ⟨es, hes, rfl⟩ := map_eq_ok.1 hc
    exact ⟨es, rfl, items_sound ts (Visit.items_ok hes)⟩
  | .map k v => .of_read (fun _ h => h) fun s d h =>
    (exists_call_of_consult h).elim fun _ => Ty.has_of_map k.sound v.sound
  | .result ok error => .of_read (fun _ h => h) fun s d h =>
    (exists_call_of_consult h).elim fun _ => Ty.has_of_result ok.sound error.sound
  | .unitStruct name => .of_read (fun _ h => h) fun s d h =>
    (exists_call_of_consult h).elim fun _ => Visit.unitStruct_ok
  | .newtypeStruct name t => by
    refine ⟨fun s d h => ?_, fun entries d h => ?_⟩
    · obtain ⟨c, hc⟩ := exists_call_of_consult h
      obtain ⟨s, e, he, rfl, -⟩ := Visit.newtypeStruct_ok hc
      exact ⟨e, rfl, t.sound.1 s e he⟩
    · obtain ⟨a, ha, hread, -⟩ := consult_eq_ok.1 h
      obtain rfl := Except.ok.inj ha
      obtain ⟨s, e, he, rfl, hs⟩ := Visit.newtypeStruct_ok hread
      obtain rfl := hs _ rfl
      exact ⟨e, rfl, t.sound.2 entries e he⟩
  | .tupleStruct name ts => .of_read (fun _ h => h) fun s d h => by
    simp only [Ty.read] at h
    obtain ⟨c, hc⟩ := exists_call_of_consult h
    obtain ⟨es, hes, rfl⟩ := map_eq_ok.1 hc
    exact ⟨es, rfl, items_sound ts (Visit.items_ok hes)⟩
  | .struct info fields => .of_read (fun _ h => h) fun s d h => by
    simp only [Ty.read] at h
    obtain ⟨c, hc⟩ := exists_call_of_consult h
    obtain ⟨values, hvalues, rfl⟩ := map_eq_ok.1 hc
    exact ⟨values, rfl, fields_sound fields (Visit.struct_ok hvalues)⟩
  | .enum name .external variants => .of_read (fun _ h => h) fun s d h => by
    obtain ⟨c, hc⟩ := exists_call_of_consult h
    obtain ⟨i, variant, content, htold, rfl⟩ := Visit.externalEnum_ok hc
    exact ⟨i, variant, content, rfl, variants_sound variants htold⟩
  | .enum name (.internal tag) variants => .of_read (fun _ h => h) fun s d h => by
    obtain ⟨i, variant, content, htold, rfl⟩ := Visit.internalEnum_ok h
    exact ⟨i, variant, content, rfl, variants_sound variants htold⟩
  | .enum name (.adjacent tag key) variants => .of_read (fun _ h => h) fun s d h => by
    obtain ⟨⟨i, content⟩, hread, h⟩ := bind_eq_ok.1 h
    obtain rfl := Except.ok.inj h
    obtain ⟨c, hc⟩ := exists_call_of_consult hread
    obtain ⟨variant, htold⟩ | ⟨variant, htold⟩ := Visit.adjacentEnum_ok hc
    · exact Ty.has_adjacent (variants_sound variants htold)
    · exact Ty.has_adjacent (variants_sound variants htold)
  | .enum name .untagged variants => .of_read (fun _ h => h) fun s d h => by
    obtain ⟨kept, -, h⟩ := bind_eq_ok.1 h
    obtain ⟨i, variant, content, htold, rfl⟩ := Visit.untaggedEnum_ok h
    exact ⟨i, variant, content, rfl, variants_sound variants htold⟩
  | .union name variants => .of_read (fun _ h => h) fun s d h => by
    obtain ⟨y, hy, rfl⟩ := map_eq_ok.1 h
    obtain ⟨flat, i, v, -, hv, htag, -, hx⟩ := readUnion_ok hy
    exact ⟨y.tag, y.payload, rfl, htag ▸ payloads_sound variants hv hx⟩

theorem items_sound : ∀ (ts : List Ty) {σ : Type} [Source σ] {ds : List Datum},
    List.Forall₂ (fun (read : σ → Except Fault Datum) d => ∃ s, read s = .ok d) (itemReaders ts)
      ds → itemsHave ts ds
  | [], σ, _, ds, h => List.forall₂_nil_left_iff.1 h
  | t :: rest, σ, _, ds, h => by
    obtain ⟨d, ds, ⟨s, hs⟩, hrest, rfl⟩ := List.forall₂_cons_left_iff.1 h
    exact ⟨d, ds, rfl, t.sound.1 s d hs, items_sound rest hrest⟩

theorem fields_sound : ∀ (fields : List (Field × Ty)) {σ : Type} [Source σ] {ds : List Datum},
    List.Forall₂ FieldReader.Yields (fieldReaders fields : List (FieldReader σ)) ds →
      fieldsHave fields ds
  | [], σ, _, ds, h => List.forall₂_nil_left_iff.1 h
  | (f, t) :: rest, σ, _, ds, h => by
    obtain ⟨d, ds, hd, hrest, rfl⟩ := List.forall₂_cons_left_iff.1 h
    refine ⟨d, ds, rfl, ?_, fields_sound rest hrest⟩
    obtain ⟨s, hs⟩ | hm | ⟨entries, hf⟩ := hd
    · exact .inl (t.sound.1 s d hs)
    · unfold FieldReader.missing at hm
      split at hm
      · next d' hd' => exact .inr (hd'.trans (congrArg some (Except.ok.inj hm)))
      · split_ifs at hm with ho
        obtain rfl := Except.ok.inj hm
        exact .inl (t.has_none_of_isOption ho)
    · exact .inl (t.flattened_sound hf)

theorem Ty.flattened_sound : ∀ (t : Ty) {entries : List (Snapshot × Snapshot)} {d : Datum},
    (t.readFlattened entries).1 = .ok d → t.Has false d
  | .struct info fields, entries, d, h => by
    rw [Ty.readFlattened] at h
    split_ifs at h
    all_goals
      obtain ⟨values, hvalues, rfl⟩ := map_eq_ok.1 h
      exact ⟨values, rfl, fields_sound fields (Visit.struct_ok hvalues)⟩
  | .map k v, entries, d, h => Ty.has_of_map k.sound v.sound h
  | .option t, entries, d, h => by
    rw [Ty.readFlattened] at h
    obtain rfl := Except.ok.inj h
    cases he : (t.readFlattened entries).1 with
    | ok e => exact .inr ⟨e, rfl, t.flattened_sound he⟩
    | error f => exact .inl ⟨rfl, rfl⟩
  | .newtypeStruct name t, entries, d, h => by
    obtain ⟨e, he, rfl⟩ := map_eq_ok.1 h
    exact ⟨e, rfl, t.flattened_sound he⟩
  | .unit, entries, d, h => (Except.ok.inj h).symm
  | .unitStruct name, entries, d, h => (Except.ok.inj h).symm
  | .json, entries, d, h => trivial
  | .result ok error, entries, d, h =>
    (Leftover.exists_of_chosen h).elim fun _ => Ty.has_of_result ok.sound error.sound
  | .enum name .external variants, entries, d, h => by
    obtain ⟨c, hc⟩ := Leftover.exists_of_chosen h
    obtain ⟨i, variant, content, htold, rfl⟩ := Visit.externalEnum_ok hc
    exact ⟨i, variant, content, rfl, variants_sound variants htold⟩
  | .enum name (.internal tag) variants, entries, d, h => by
    obtain ⟨i, variant, content, htold, rfl⟩ := Visit.internalEnum_ok h
    exact ⟨i, variant, content, rfl, variants_sound variants htold⟩
  | .enum name (.adjacent tag key) variants, entries, d, h => by
    obtain ⟨⟨i, content⟩, hc, rfl⟩ := map_eq_ok.1 h
    obtain ⟨variant, htold⟩ | ⟨variant, htold⟩ := Visit.adjacentEnum_ok hc
    · exact Ty.has_adjacent (variants_sound variants htold)
    · exact Ty.has_adjacent (variants_sound variants htold)
  | .enum name .untagged variants, entries, d, h => by
    obtain ⟨i, variant, content, htold, rfl⟩ := Visit.untaggedEnum_ok h
    exact ⟨i, variant, content, rfl, variants_sound variants htold⟩
  | .union name variants, entries, d, h => by
    obtain ⟨y, hy, rfl⟩ := map_eq_ok.1 h
    obtain ⟨flat, i, v, -, hv, htag, -, hx⟩ := readUnion_ok hy
    exact ⟨y.tag, y.payload, rfl, htag ▸ payloads_sound variants hv hx⟩
  | .bool, _, _, h | .int _, _, _, h | .f32, _, _, h | .f64, _, _, h | .char, _, _, h
  | .text, _, _, h | .borrowed, _, _, h | .bytes, _, _, h | .list _, _, _, h
  | .array _ _, _, _, h | .tuple _, _, _, h | .tupleStruct _ _, _, _, h => nomatch h

theorem Ty.items_sound : ∀ (t : Ty) {σ : Type} [Source σ] {ds : List Datum},
    List.Forall₂ (fun (read : σ → Except Fault Datum) d => ∃ s, read s = .ok d) t.items ds →
      t.itemsHave ds
  | .tuple ts, _, _, _, h => FlatUnion.items_sound ts h
  | .bool, _, _, _, h | .int _, _, _, _, h | .f32, _, _, _, h | .f64, _, _, _, h
  | .char, _, _, _, h | .text, _, _, _, h | .borrowed, _, _, _, h | .bytes, _, _, _, h
  | .unit, _, _, _, h | .json, _, _, _, h | .list _, _, _, _, h | .array _ _, _, _, _, h
  | .option _, _, _, _, h | .result _ _, _, _, _, h | .unitStruct _, _, _, _, h
  | .newtypeStruct _ _, _, _, _, h | .tupleStruct _ _, _, _, _, h | .enum _ _ _, _, _, _, h
  | .union _ _, _, _, _, h | .map _ _, _, _, _, h | .struct _ _, _, _, _, h =>
    List.forall₂_nil_left_iff.1 h

theorem Ty.fields_sound : ∀ (t : Ty) {σ : Type} [Source σ] {ds : List Datum},
    List.Forall₂ FieldReader.Yields (t.fields : List (FieldReader σ)) ds → t.fieldsHave ds
  | .struct _ fields, _, _, _, h => FlatUnion.fields_sound fields h
  | .bool, _, _, _, h | .int _, _, _, _, h | .f32, _, _, _, h | .f64, _, _, _, h
  | .char, _, _, _, h | .text, _, _, _, h | .borrowed, _, _, _, h | .bytes, _, _, _, h
  | .unit, _, _, _, h | .json, _, _, _, h | .list _, _, _, _, h | .array _ _, _, _, _, h
  | .option _, _, _, _, h | .result _ _, _, _, _, h | .unitStruct _, _, _, _, h
  | .newtypeStruct _ _, _, _, _, h | .tupleStruct _ _, _, _, _, h | .enum _ _ _, _, _, _, h
  | .union _ _, _, _, _, h | .map _ _, _, _, _, h | .tuple _, _, _, _, h =>
    List.forall₂_nil_left_iff.1 h

theorem variants_sound : ∀ (variants : List (String × Form × Ty)) {σ : Type} [Source σ] {i : Nat}
    {variant : String} {c : VariantContent},
      VariantReader.Told (variantReaders variants : List (VariantReader σ)) i variant c →
        variantsHave variants i variant c
  | [], σ, _, i, variant, c, ⟨r, hr, _⟩ => nomatch hr
  | (name, form, t) :: rest, σ, _, 0, variant, c, ⟨r, hr, hvariant, hc⟩ => by
    obtain rfl := Option.some.inj hr
    refine ⟨hvariant, ?_⟩
    cases c with
    | unit =>
      obtain rfl : form = .unit := hc
      trivial
    | newtype d =>
      obtain ⟨rfl, ⟨s, hs⟩ | ⟨ho, rfl⟩⟩ : form = .newtype ∧ _ := hc
      · exact t.sound.1 s d hs
      · exact t.has_none_of_isOption ho
    | tuple ds =>
      obtain ⟨rfl, hds⟩ : form = .tuple ∧ _ := hc
      exact t.items_sound hds
    | struct fields =>
      obtain ⟨rfl, values, rfl, hvalues⟩ : form = .struct ∧ _ := hc
      exact ⟨values, congrArg (List.zipWith _ · _) t.map_field_fields, t.fields_sound hvalues⟩
  | _ :: rest, σ, _, i + 1, variant, c, h =>
    have h : VariantReader.Told (variantReaders rest : List (VariantReader σ)) i variant c := h
    variants_sound rest h

theorem payloads_sound : ∀ (variants : List (String × Ty)) {i : Nat} {v : PayloadReader Snapshot}
    {entries : List (Snapshot × Snapshot)} {d : Datum}, (payloadReaders variants)[i]? = some v →
      v.read (.map entries) = .ok d → payloadsHave variants v.tag d
  | (tag, t) :: rest, 0, v, entries, d, hv, h => by
    obtain rfl := Option.some.inj hv
    exact .inl ⟨rfl, t.sound.2 entries d h⟩
  | _ :: rest, i + 1, v, entries, d, hv, h => .inr (payloads_sound rest hv h)

end

/-- Whatever is read as a type is a value of the type. -/
theorem Ty.has_of_read (t : Ty) {σ : Type} [Source σ] {s : σ} {d : Datum} (h : t.read s = .ok d) :
    t.Has false d :=
  t.sound.1 s d h

/-- What is read from a map is there, under all options. -/
theorem Ty.has_of_read_map (t : Ty) {entries : List (Snapshot × Snapshot)} {d : Datum}
    (h : t.read (Snapshot.map entries) = .ok d) : t.Has true d :=
  t.sound.2 entries d h

end FlatUnion
