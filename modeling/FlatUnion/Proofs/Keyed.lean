import FlatUnion.Proofs.Following

/-!
# Types and the keys of their maps

`Ty.ordinary` are the types whose values are read alike from sources that show the same in different
ways : scalars, options, sequences, structs and enums in the external form, and maps under texts,
characters, integers and booleans. The reader of such a type follows itself along every simulation,
and so do two readers that differ in the keys of their maps only, if those of the keys do
(`Ty.read_follows`).

A map under a type without values is empty. `Ty.underTexts` puts such a type in the place of all
keys but texts and characters, so it admits no entries where keys are integers or booleans, and
leaves the rest of the type as it is (`Ty.underTexts_of_textual`). What is read as it is also read
as the type itself (`Ty.read_of_underTexts`).
-/

namespace FlatUnion

/-! ## Keys -/

mutual

/-- The type with other types of keys in its maps. -/
def Ty.mapKeys (f : Ty → Ty) : Ty → Ty
  | .option t => .option (t.mapKeys f)
  | .list t => .list (t.mapKeys f)
  | .array n t => .array n (t.mapKeys f)
  | .tuple ts => .tuple (itemsMapKeys f ts)
  | .map k v => .map (f k) (v.mapKeys f)
  | .newtypeStruct name t => .newtypeStruct name (t.mapKeys f)
  | .tupleStruct name ts => .tupleStruct name (itemsMapKeys f ts)
  | .struct info fields => .struct info (fieldsMapKeys f fields)
  | .enum name tagging variants => .enum name tagging (variantsMapKeys f variants)
  | t => t

def itemsMapKeys (f : Ty → Ty) : List Ty → List Ty
  | [] => []
  | t :: rest => t.mapKeys f :: itemsMapKeys f rest

def fieldsMapKeys (f : Ty → Ty) : List (Field × Ty) → List (Field × Ty)
  | [] => []
  | (field, t) :: rest => (field, t.mapKeys f) :: fieldsMapKeys f rest

def variantsMapKeys (f : Ty → Ty) : List (String × Form × Ty) → List (String × Form × Ty)
  | [] => []
  | (name, form, t) :: rest => (name, form, t.mapKeys f) :: variantsMapKeys f rest

end

mutual

/-- The types of the keys of all maps in a type. -/
def Ty.keys : Ty → List Ty
  | .option t | .list t | .array _ t | .newtypeStruct _ t => t.keys
  | .map k v => k :: v.keys
  | .tuple ts | .tupleStruct _ ts => itemsKeys ts
  | .struct _ fields => fieldsKeys fields
  | .enum _ _ variants => variantsKeys variants
  | _ => []

def itemsKeys : List Ty → List Ty
  | [] => []
  | t :: rest => t.keys ++ itemsKeys rest

def fieldsKeys : List (Field × Ty) → List Ty
  | [] => []
  | (_, t) :: rest => t.keys ++ fieldsKeys rest

def variantsKeys : List (String × Form × Ty) → List Ty
  | [] => []
  | (_, _, t) :: rest => t.keys ++ variantsKeys rest

end

/-- A type without values. -/
def Ty.never : Ty := .enum "Never" .external []

/-- The types whose values are texts when they are keys. -/
def Ty.isTextKey : Ty → Bool
  | .text | .char => true
  | _ => false

/-- The types of keys that a text can show. -/
def Ty.isKey : Ty → Bool
  | .text | .char | .bool | .int _ => true
  | _ => false

/-- A type of keys, or the type without values if these keys are no texts. -/
def Ty.textKey (k : Ty) : Ty := if k.isTextKey then k else .never

/-- The type whose maps hold something only under texts and characters. -/
def Ty.underTexts (t : Ty) : Ty := t.mapKeys textKey

mutual

/-- The types that are read alike from sources that show the same. With `zeros` there may be
negative zeros, and no signed integer of the widest kind is read. -/
def Ty.ordinary (zeros : Bool) : Ty → Bool
  | .bool | .f32 | .f64 | .char | .text | .unit | .unitStruct _ => true
  | .int w => !(zeros && w = .i128)
  | .option t | .list t | .array _ t | .newtypeStruct _ t => t.ordinary zeros
  | .map k v => k.isKey && v.ordinary zeros
  | .tuple ts | .tupleStruct _ ts => itemsOrdinary zeros ts
  | .struct _ fields => fieldsOrdinary zeros fields
  | .enum _ .external variants => variantsOrdinary zeros variants
  | _ => false

def itemsOrdinary (zeros : Bool) : List Ty → Bool
  | [] => true
  | t :: rest => t.ordinary zeros && itemsOrdinary zeros rest

def fieldsOrdinary (zeros : Bool) : List (Field × Ty) → Bool
  | [] => true
  | (f, t) :: rest => !f.flattened && t.ordinary zeros && fieldsOrdinary zeros rest

def variantsOrdinary (zeros : Bool) : List (String × Form × Ty) → Bool
  | [] => true
  | (_, form, t) :: rest => (form = .unit || t.ordinary zeros) && variantsOrdinary zeros rest

end

@[simp] theorem Ty.isOption_mapKeys (f : Ty → Ty) (t : Ty) :
    (t.mapKeys f).isOption = t.isOption := by
  cases t <;> rfl

@[simp] theorem length_itemsMapKeys (f : Ty → Ty) : ∀ ts : List Ty,
    (itemsMapKeys f ts).length = ts.length
  | [] => rfl
  | _ :: rest => congrArg (· + 1) (length_itemsMapKeys f rest)

theorem map_field_fieldsMapKeys (f : Ty → Ty) : ∀ fields : List (Field × Ty),
    (fieldsMapKeys f fields).map (·.1) = fields.map (·.1)
  | [] => rfl
  | (field, _) :: rest => congrArg (field :: ·) (map_field_fieldsMapKeys f rest)

theorem any_flattened_fieldsMapKeys (f : Ty → Ty) {zeros : Bool} : ∀ {fields : List (Field × Ty)},
    fieldsOrdinary zeros fields → (fieldsMapKeys f fields).any (·.1.flattened) = false
  | [], _ => rfl
  | (field, t) :: rest, h => by
    simp only [fieldsOrdinary, Bool.and_eq_true, Bool.not_eq_true'] at h
    simp [fieldsMapKeys, h.1.1, any_flattened_fieldsMapKeys f h.2]

/-! ## Reading types -/

section Reading

variable {σ τ : Type} [Source σ] [Source τ] {zeros : Bool}

/-- Two readers that do alike on values that are alike. -/
abbrev ReadersAlike (S : Simulation zeros σ τ) (read : σ → Except Fault Datum)
    (read' : τ → Except Fault Datum) : Prop :=
  ∀ a b, S.value a b → Follows (read a) (read' b)

/-- Two ways to change the keys of maps after which keys are read alike. -/
def KeysAlike (S : Simulation zeros σ τ) (f g : Ty → Ty) : Prop :=
  ∀ k : Ty, k.isKey → ∀ a b, S.key a b → Follows ((f k).read a) ((g k).read b)

variable {S : Simulation zeros σ τ} {f g : Ty → Ty}

mutual

/-- A type is read alike along a simulation, whatever is done to the keys of its maps, as long as
these are read alike. -/
theorem Ty.read_follows (hkeys : KeysAlike S f g) : ∀ t : Ty, t.ordinary zeros →
    ReadersAlike S (t.mapKeys f).read (t.mapKeys g).read
  | .bool, _, _, _, hab => S.consult_value hab rfl Visit.bool_alike
  | .int w, h, _, _, hab => S.consult_value hab h (Visit.int_alike w)
  | .f32, _, _, _, hab => S.consult_value hab rfl Visit.f32_alike
  | .f64, _, _, _, hab => S.consult_value hab rfl Visit.f64_alike
  | .char, _, _, _, hab => S.consult_value hab rfl Visit.char_alike
  | .text, _, _, _, hab => S.consult_value hab rfl Visit.text_alike
  | .unit, _, _, _, hab => S.consult_value hab rfl Visit.unit_alike
  | .unitStruct name, _, _, _, hab => S.consult_value hab rfl (Visit.unitStruct_alike name)
  | .option t, h, _, _, hab =>
    S.consult_value hab rfl (Visit.option_alike (t.read_follows hkeys h))
  | .list t, h, _, _, hab =>
    S.consult_value hab rfl (Visit.list_alike (t.read_follows hkeys h))
  | .array n t, h, _, _, hab => by
    have hitems : List.Forall₂ (ReadersAlike S) (List.replicate n (t.mapKeys f).read)
        (List.replicate n (t.mapKeys g).read) :=
      List.forall₂_iff_get.2 ⟨by simp, fun i _ _ => by simpa using t.read_follows hkeys h⟩
    exact S.consult_value hab rfl ((Visit.items_alike (fun _ _ => rfl) _ _ hitems).map _)
  | .tuple ts, h, _, _, hab => by
    simp only [Ty.mapKeys, Ty.read, length_itemsMapKeys]
    exact S.consult_value hab rfl
      ((Visit.items_alike (fun _ _ => rfl) _ _ (items_follow hkeys ts h)).map _)
  | .tupleStruct name ts, h, _, _, hab => by
    simp only [Ty.mapKeys, Ty.read, length_itemsMapKeys]
    exact S.consult_value hab rfl
      ((Visit.items_alike (fun _ _ => rfl) _ _ (items_follow hkeys ts h)).map _)
  | .map k v, h, _, _, hab => by
    obtain ⟨hk, hv⟩ := Bool.and_eq_true_iff.1 h
    exact S.consult_value hab rfl (Visit.map_alike (hkeys k hk) (v.read_follows hkeys hv))
  | .newtypeStruct name t, h, _, _, hab =>
    S.consult_value hab rfl (Visit.newtypeStruct_alike name (t.read_follows hkeys h))
  | .struct info fields, h, _, _, hab => by
    simp only [Ty.mapKeys, Ty.read, map_field_fieldsMapKeys, any_flattened_fieldsMapKeys _ h]
    exact S.consult_value hab rfl ((Visit.struct_alike S (fun _ _ => rfl) (fun _ _ => rfl) _ _
      (fields_follow hkeys fields h)).map _)
  | .enum name .external variants, h, _, _, hab =>
    S.consult_value hab rfl
      (Visit.externalEnum_alike S name (variants_follow hkeys variants h))

theorem items_follow (hkeys : KeysAlike S f g) : ∀ ts : List Ty, itemsOrdinary zeros ts →
    List.Forall₂ (ReadersAlike S)
      (itemReaders (itemsMapKeys f ts)) (itemReaders (itemsMapKeys g ts))
  | [], _ => .nil
  | t :: rest, h => by
    obtain ⟨ht, hrest⟩ := Bool.and_eq_true_iff.1 h
    exact .cons (t.read_follows hkeys ht) (items_follow hkeys rest hrest)

theorem fields_follow (hkeys : KeysAlike S f g) : ∀ fields : List (Field × Ty),
    fieldsOrdinary zeros fields → List.Forall₂ (Visit.FieldsAlike S.value)
      (fieldReaders (fieldsMapKeys f fields)) (fieldReaders (fieldsMapKeys g fields))
  | [], _ => .nil
  | (field, t) :: rest, h => by
    simp only [fieldsOrdinary, Bool.and_eq_true, Bool.not_eq_true'] at h
    refine .cons ⟨rfl, h.1.1, ?_, t.read_follows hkeys h.1.2⟩ (fields_follow hkeys rest h.2)
    simp only [Ty.isOption_mapKeys]

theorem Ty.items_follow (hkeys : KeysAlike S f g) : ∀ t : Ty, t.ordinary zeros →
    List.Forall₂ (ReadersAlike S) (t.mapKeys f).items (t.mapKeys g).items
  | .tuple ts, h => FlatUnion.items_follow hkeys ts h
  | .bool, _ | .int _, _ | .f32, _ | .f64, _ | .char, _ | .text, _ | .unit, _ | .unitStruct _, _
  | .option _, _ | .list _, _ | .array _ _, _ | .map _ _, _ | .newtypeStruct _ _, _
  | .tupleStruct _ _, _ | .struct _ _, _ | .enum _ .external _, _ => .nil

theorem Ty.fields_follow (hkeys : KeysAlike S f g) : ∀ t : Ty, t.ordinary zeros →
    List.Forall₂ (Visit.FieldsAlike S.value) (t.mapKeys f).fields (t.mapKeys g).fields
  | .struct _ fields, h => FlatUnion.fields_follow hkeys fields h
  | .bool, _ | .int _, _ | .f32, _ | .f64, _ | .char, _ | .text, _ | .unit, _ | .unitStruct _, _
  | .option _, _ | .list _, _ | .array _ _, _ | .map _ _, _ | .newtypeStruct _ _, _
  | .tuple _, _ | .tupleStruct _ _, _ | .enum _ .external _, _ => .nil

theorem variants_follow (hkeys : KeysAlike S f g) : ∀ variants : List (String × Form × Ty),
    variantsOrdinary zeros variants → List.Forall₂ (Visit.VariantsAlike S.value)
      (variantReaders (variantsMapKeys f variants)) (variantReaders (variantsMapKeys g variants))
  | [], _ => .nil
  | (name, form, t) :: rest, h => by
    simp only [variantsOrdinary, Bool.and_eq_true, Bool.or_eq_true, decide_eq_true_eq] at h
    obtain ⟨ht, hrest⟩ := h
    have hform : ∀ {other : Form}, form = other → other ≠ .unit → t.ordinary zeros :=
      fun hf hne => ht.resolve_left fun hu => hne (hf ▸ hu)
    exact .cons ⟨rfl, rfl, fun hf => t.read_follows hkeys (hform hf nofun),
      fun hf => t.items_follow hkeys (hform hf nofun),
      fun hf => t.fields_follow hkeys (hform hf nofun)⟩ (variants_follow hkeys rest hrest)

end

end Reading

/-! ## Maps that hold nothing -/

mutual

/-- A type all of whose keys stay is what it was. -/
theorem Ty.mapKeys_eq {f : Ty → Ty} : ∀ {t : Ty}, (∀ k ∈ t.keys, f k = k) → t.mapKeys f = t
  | .option t, h => congrArg Ty.option (t.mapKeys_eq h)
  | .list t, h => congrArg Ty.list (t.mapKeys_eq h)
  | .array n t, h => congrArg (Ty.array n) (t.mapKeys_eq h)
  | .tuple _, h => congrArg Ty.tuple (itemsMapKeys_eq h)
  | .map k v, h => by
    rw [Ty.keys, List.forall_mem_cons] at h
    rw [Ty.mapKeys, h.1, v.mapKeys_eq h.2]
  | .newtypeStruct name t, h => congrArg (Ty.newtypeStruct name) (t.mapKeys_eq h)
  | .tupleStruct name _, h => congrArg (Ty.tupleStruct name) (itemsMapKeys_eq h)
  | .struct info _, h => congrArg (Ty.struct info) (fieldsMapKeys_eq h)
  | .enum name tagging _, h => congrArg (Ty.enum name tagging) (variantsMapKeys_eq h)
  | .bool, _ | .int _, _ | .f32, _ | .f64, _ | .char, _ | .text, _ | .borrowed, _ | .bytes, _
  | .unit, _ | .json, _ | .result _ _, _ | .unitStruct _, _ | .union _ _, _ => rfl

theorem itemsMapKeys_eq {f : Ty → Ty} : ∀ {ts : List Ty}, (∀ k ∈ itemsKeys ts, f k = k) →
    itemsMapKeys f ts = ts
  | [], _ => rfl
  | t :: rest, h => by
    rw [itemsKeys, List.forall_mem_append] at h
    rw [itemsMapKeys, t.mapKeys_eq h.1, itemsMapKeys_eq h.2]

theorem fieldsMapKeys_eq {f : Ty → Ty} : ∀ {fields : List (Field × Ty)},
    (∀ k ∈ fieldsKeys fields, f k = k) → fieldsMapKeys f fields = fields
  | [], _ => rfl
  | (_, t) :: rest, h => by
    rw [fieldsKeys, List.forall_mem_append] at h
    rw [fieldsMapKeys, t.mapKeys_eq h.1, fieldsMapKeys_eq h.2]

theorem variantsMapKeys_eq {f : Ty → Ty} : ∀ {variants : List (String × Form × Ty)},
    (∀ k ∈ variantsKeys variants, f k = k) → variantsMapKeys f variants = variants
  | [], _ => rfl
  | (_, _, t) :: rest, h => by
    rw [variantsKeys, List.forall_mem_append] at h
    rw [variantsMapKeys, t.mapKeys_eq h.1, variantsMapKeys_eq h.2]

end

theorem Ty.mapKeys_id (t : Ty) : t.mapKeys id = t := mapKeys_eq fun _ _ => rfl

/-- A type all of whose maps are under texts and characters holds what it held. -/
theorem Ty.underTexts_of_textual {t : Ty} (h : ∀ k ∈ t.keys, k.isTextKey) : t.underTexts = t :=
  mapKeys_eq fun k hk => if_pos (h k hk)

/-- A type without values is never read. -/
theorem Ty.read_never {σ : Type} [Source σ] (s : σ) (d : Datum) : never.read s ≠ .ok d := by
  intro h
  obtain ⟨c, hc⟩ := exists_call_of_consult h
  unfold Visit.externalEnum at hc
  split at hc
  · obtain ⟨i, -, h⟩ := bind_eq_ok.1 hc
    obtain ⟨r, hr, -⟩ := bind_eq_ok.1 h
    simp [Visit.pick_eq_ok, variantReaders] at hr
  · exact absurd hc result_refuse

/-- What is read under texts and characters only is read as the type itself. -/
theorem Ty.read_of_underTexts {σ : Type} [Source σ] {zeros : Bool} {t : Ty}
    (ht : t.ordinary zeros) (s : σ) : Follows (t.underTexts.read s) (t.read s) := by
  have hkeys : KeysAlike (Simulation.refl zeros σ) textKey id := by
    rintro k - a b rfl
    unfold textKey
    split
    · exact .refl _
    · exact fun d hd => absurd hd (read_never a d)
  have h := t.read_follows hkeys ht s s rfl
  rwa [t.mapKeys_id] at h

end FlatUnion
