import FlatUnion.Proofs.Acceptance
import FlatUnion.Proofs.Replaying

/-!
# Reading what was written

Types of which every value, once written, is read again as it was (`Ty.regular`), and payloads of
which this is so beside a tag that is none of their entries (`Ty.bears`). The names of fields and of
variants must differ, and a field that may be passed over must be an option.

The main statements are `Ty.plain_of_has` : a value of such a type can be written, and
`Ty.read_shown` : what is shown of it is read as this value, whether newtypes are marked or not, and
from both kinds of snapshots. `Ty.read_beside_tag` is the same for payloads.
-/

namespace FlatUnion

open Replaying (of)

/-! ## Regular types -/

/-- Whether the default of a field is known to be a value of its type. -/
def Field.defaultFits (f : Field) (t : Ty) : Bool :=
  match f.default, t with
  | none, _ => true
  | some .none, .option _ => true
  | some (.int w n), .int v => w = v && w.fits n
  | _, _ => false

/-- Whether a field of a type is read again from what is written of it. -/
def Field.restorable (f : Field) (t : Ty) : Bool :=
  !f.flattened && f.defaultFits t &&
    match f.writing with
    | .always => true
    | .never => false
    | .unlessNone => t.isOption

/-- The names under which fields are read. -/
def namesOf (fields : List (Field × Ty)) : List String :=
  (fields.map fun f => f.1.name :: f.1.aliases).flatten

mutual

/-- Whether all values of a type are read again from what is written of them. -/
def Ty.regular : Ty → Bool
  | .bool | .int _ | .f32 | .f64 | .char | .text | .bytes | .unit | .unitStruct _ => true
  | .option t | .list t | .array _ t | .newtypeStruct _ t => t.regular
  | .map k v => k.regular && v.regular
  | .result ok error => ok.regular && error.regular
  | .tuple ts | .tupleStruct _ ts => itemsRegular ts
  | .struct _ fields => fieldsRegular fields && decide (namesOf fields).Nodup
  | .enum _ .external variants => variantsRegular variants && decide (variants.map (·.1)).Nodup
  | .union _ variants => payloadsRegular variants && decide (variants.map (·.1)).Nodup
  | _ => false

def itemsRegular : List Ty → Bool
  | [] => true
  | t :: rest => t.regular && itemsRegular rest

def fieldsRegular : List (Field × Ty) → Bool
  | [] => true
  | (f, t) :: rest => t.regular && f.restorable t && fieldsRegular rest

def Ty.itemsRegular : Ty → Bool
  | .tuple ts => FlatUnion.itemsRegular ts
  | _ => false

def Ty.fieldsRegular : Ty → Bool
  | .struct _ fields => FlatUnion.fieldsRegular fields && decide (namesOf fields).Nodup
  | _ => false

def variantsRegular : List (String × Form × Ty) → Bool
  | [] => true
  | (_, form, t) :: rest =>
    (match form with
      | .unit => true
      | .newtype => t.regular
      | .tuple => t.itemsRegular
      | .struct => t.fieldsRegular) && variantsRegular rest

/-- Whether all values of a payload are read again from what is written of them beside a tag : a
struct, also under options and newtypes, that allows other fields and has none under the tag. -/
def Ty.bears : Ty → Bool
  | .option t | .newtypeStruct _ t => t.bears
  | .struct info fields =>
    fieldsRegular fields && decide (namesOf fields).Nodup && !info.strict &&
      !(namesOf fields).contains tagField
  | _ => false

def payloadsRegular : List (String × Ty) → Bool
  | [] => true
  | (_, t) :: rest => t.bears && payloadsRegular rest

end

/-! ## Fields -/

theorem Field.written_cases {f : Field} {t : Ty} (h : f.restorable t) (d : Datum) :
    f.written d = (f.name, some d) ∨
      f.written d = (f.name, none) ∧ d = .none ∧ t.isOption := by
  simp only [restorable, Bool.and_eq_true] at h
  unfold written
  split
  · simp_all
  · simp_all
  · exact .inl rfl

theorem Field.has_default {f : Field} {t : Ty} (h : f.defaultFits t) {d : Datum}
    (hd : f.default = some d) : t.Has false d := by
  unfold defaultFits at h
  split at h
  · simp_all
  · next t' hnone =>
    obtain rfl := Option.some.inj (hd.symm.trans hnone)
    exact .inl ⟨rfl, rfl⟩
  · next w n v hint =>
    obtain rfl := Option.some.inj (hd.symm.trans hint)
    simp only [Bool.and_eq_true, decide_eq_true_eq] at h
    exact ⟨n, h.1 ▸ h.2, by rw [h.1]⟩
  · simp at h

theorem Field.defaultFits_of_restorable {f : Field} {t : Ty} (h : f.restorable t) :
    f.defaultFits t := by
  simp_all [restorable]

/-- Where a field is restored, it has a value of its type also by default. -/
theorem Field.has_of_restorable {f : Field} {t : Ty} (h : f.restorable t) {d : Datum}
    (hd : t.Has false d ∨ f.default = some d) : t.Has false d :=
  hd.elim id (f.has_default (f.defaultFits_of_restorable h))

/-- An option that is missing is empty, also by default. -/
theorem Field.missing_option {σ : Type} {f : Field} {t : Ty} (h : f.defaultFits t)
    (ht : t.isOption) (read : σ → Except Fault Datum)
    (readFlattened : List (Snapshot × Snapshot) →
      Except Fault Datum × List (Snapshot × Snapshot)) :
    FieldReader.missing ⟨f, t.isOption, read, readFlattened⟩ = .ok .none := by
  unfold FieldReader.missing
  cases hd : f.default with
  | none => simp [ht]
  | some d =>
    cases t with
    | option t =>
      unfold defaultFits at h
      simp only [hd] at h
      cases d <;> simp_all
    | _ => simp [Ty.isOption] at ht

theorem fieldNames_fieldReaders {σ : Type} [Source σ] (fields : List (Field × Ty)) :
    fieldNames (fieldReaders fields : List (FieldReader σ)) = namesOf fields := by
  induction fields with
  | nil => rfl
  | cons f rest ih =>
    obtain ⟨f, t⟩ := f
    simp only [fieldNames, namesOf, fieldReaders, List.map_cons, List.flatten_cons] at ih ⊢
    rw [ih]
    rfl

/-! ## Writing -/

theorem listPlain_of_forall : ∀ {ds : List Datum}, (∀ d ∈ ds, d.plain) → listPlain ds
  | [], _ => rfl
  | d :: rest, h => by
    rw [listPlain, h d List.mem_cons_self,
      listPlain_of_forall fun e he => h e (List.mem_cons_of_mem _ he)]
    rfl

theorem itemsPlain_ofEntries : ∀ {es : List (Datum × Datum)},
    (∀ e ∈ es, e.1.plain ∧ e.2.plain) → (Datum.ofEntries es).plain
  | [], _ => rfl
  | e :: rest, h => by
    have hrest : itemsPlain (rest.map fun e => .entry e.1 e.2) :=
      itemsPlain_ofEntries fun e he => h e (List.mem_cons_of_mem _ he)
    obtain ⟨hk, hv⟩ := h e List.mem_cons_self
    rw [Datum.ofEntries, Datum.plain, List.map_cons, itemsPlain, hk, hv, hrest]
    rfl

theorem itemsPlain_fieldItems {fields : List (String × Option Datum)} (h : fieldsPlain fields) :
    itemsPlain (fieldItems fields) := by
  induction fields with
  | nil => rfl
  | cons field rest ih =>
    obtain ⟨name, _ | d⟩ := field
    · exact ih h
    · obtain ⟨hd, hrest⟩ := Bool.and_eq_true_iff.1 h
      rw [fieldItems, itemsPlain, hd, ih hrest]
      rfl

theorem unflattened_of_regular : ∀ {fields : List (Field × Ty)}, fieldsRegular fields →
    (fields.map (·.1)).any (·.flattened) = false
  | [], _ => rfl
  | (f, t) :: rest, h => by
    simp only [fieldsRegular, Field.restorable, Bool.and_eq_true] at h
    rw [List.map_cons, List.any_cons, unflattened_of_regular h.2]
    simpa using h.1.2.1.1

/-- A struct without flattened fields is written as one. -/
theorem structDatum_of_regular {fields : List (Field × Ty)} (h : fieldsRegular fields)
    (name : String) (ds : List Datum) : structDatum name (fields.map (·.1)) ds =
      .struct name (List.zipWith Field.written (fields.map (·.1)) ds) := by
  rw [structDatum, unflattened_of_regular h]
  rfl

mutual

/-- The values of a regular type can be written. -/
theorem Ty.plain_of_has : ∀ {t : Ty} {d : Datum}, t.regular → t.Has false d → d.plain
  | .bool, _, _, ⟨_, rfl⟩ | .f32, _, _, ⟨_, rfl⟩ | .f64, _, _, ⟨_, rfl⟩ | .char, _, _, ⟨_, rfl⟩
  | .text, _, _, ⟨_, rfl⟩ | .bytes, _, _, ⟨_, rfl⟩ | .int _, _, _, ⟨_, _, rfl⟩
  | .unit, _, _, rfl | .unitStruct _, _, _, rfl => rfl
  | .option t, d, h, hd => by
    obtain ⟨-, rfl⟩ | ⟨e, rfl, he⟩ := hd
    · rfl
    · exact t.plain_of_has (d := e) h he
  | .list t, d, h, ⟨es, hd, hes⟩ => by
    obtain rfl := hd
    exact listPlain_of_forall fun e he => t.plain_of_has h (hes e he)
  | .array n t, d, h, ⟨es, hd, _, hes⟩ => by
    obtain rfl := hd
    exact listPlain_of_forall fun e he => t.plain_of_has h (hes e he)
  | .map k v, d, h, ⟨es, hd, _, hes⟩ => by
    obtain ⟨hk, hv⟩ := Bool.and_eq_true_iff.1 h
    obtain rfl := hd
    exact itemsPlain_ofEntries fun e he =>
      ⟨k.plain_of_has hk (hes e he).1, v.plain_of_has hv (hes e he).2⟩
  | .result ok error, d, h, hd => by
    obtain ⟨hok, herror⟩ := Bool.and_eq_true_iff.1 h
    obtain ⟨e, rfl, he⟩ | ⟨e, rfl, he⟩ := hd
    · exact ok.plain_of_has (d := e) hok he
    · exact error.plain_of_has (d := e) herror he
  | .tuple ts, d, h, ⟨es, hd, hes⟩ => by
    obtain rfl := hd
    exact items_plain h hes
  | .tupleStruct _ ts, d, h, ⟨es, hd, hes⟩ => by
    obtain rfl := hd
    exact items_plain h hes
  | .newtypeStruct _ t, d, h, ⟨e, hd, he⟩ => by
    obtain rfl := hd
    exact t.plain_of_has (d := e) h he
  | .struct info fields, d, h, ⟨ds, hd, hds⟩ => by
    have hfields := (Bool.and_eq_true_iff.1 h).1
    rw [hd, structDatum_of_regular hfields]
    exact fields_plain hfields hds
  | .enum _ .external variants, d, h, ⟨i, variant, c, hd, hc⟩ => by
    have := variants_plain (Bool.and_eq_true_iff.1 h).1 hc
    rw [hd]
    cases c <;> exact this
  | .union _ variants, d, h, ⟨tag, e, hd, he⟩ => by
    rw [hd, Datum.union, Datum.plain, itemsPlain, payloads_plain (Bool.and_eq_true_iff.1 h).1 he]
    rfl

theorem items_plain : ∀ {ts : List Ty} {ds : List Datum}, itemsRegular ts → itemsHave ts ds →
    listPlain ds
  | [], _, _, rfl => rfl
  | t :: rest, _, h, ⟨e, es, hd, he, hes⟩ => by
    obtain ⟨ht, hrest⟩ := Bool.and_eq_true_iff.1 h
    rw [hd, listPlain, t.plain_of_has ht he, items_plain hrest hes]
    rfl

theorem fields_plain : ∀ {fields : List (Field × Ty)} {ds : List Datum}, fieldsRegular fields →
    fieldsHave fields ds → fieldsPlain (List.zipWith Field.written (fields.map (·.1)) ds)
  | [], _, _, rfl => rfl
  | (f, t) :: rest, _, h, ⟨e, es, hd, he, hes⟩ => by
    obtain ⟨h, hrest⟩ := Bool.and_eq_true_iff.1 h
    obtain ⟨ht, hf⟩ := Bool.and_eq_true_iff.1 h
    have he : t.Has false e := f.has_of_restorable hf he
    rw [hd, List.map_cons, List.zipWith_cons_cons]
    obtain hw | ⟨hw, -, -⟩ := f.written_cases hf e
    · rw [hw, fieldsPlain, t.plain_of_has ht he, fields_plain hrest hes]
      rfl
    · rw [hw, fieldsPlain, fields_plain hrest hes]

theorem Ty.items_plain : ∀ {t : Ty} {ds : List Datum}, t.itemsRegular → t.itemsHave ds →
    listPlain ds
  | .tuple _, _, h, hds => FlatUnion.items_plain h hds

theorem Ty.fields_plain : ∀ {t : Ty} {ds : List Datum}, t.fieldsRegular → t.fieldsHave ds →
    fieldsPlain (List.zipWith Field.written t.fieldInfos ds)
  | .struct _ _, _, h, hds =>
    FlatUnion.fields_plain (Bool.and_eq_true_iff.1 h).1 hds

theorem variants_plain : ∀ {variants : List (String × Form × Ty)} {i : Nat} {variant : String}
    {c : VariantContent}, variantsRegular variants → variantsHave variants i variant c →
      (externalDatum ⟨"", i, variant⟩ c).plain
  | (name, .unit, t) :: rest, 0, _, .unit, h, ⟨_, hc⟩ => rfl
  | (name, .newtype, t) :: rest, 0, _, .newtype d, h, ⟨_, hc⟩ =>
    t.plain_of_has (d := d) (Bool.and_eq_true_iff.1 h).1 hc
  | (name, .tuple, t) :: rest, 0, _, .tuple ds, h, ⟨_, hc⟩ =>
    t.items_plain (Bool.and_eq_true_iff.1 h).1 hc
  | (name, .struct, t) :: rest, 0, _, .struct fields, h, ⟨_, ds, hfields, hds⟩ => by
    rw [hfields]
    exact t.fields_plain (Bool.and_eq_true_iff.1 h).1 hds
  | _ :: rest, i + 1, _, c, h, hc => by
    have := variants_plain (Bool.and_eq_true_iff.1 h).2 hc
    cases c <;> exact this

theorem Ty.flatten_plain : ∀ {t : Ty} {d : Datum}, t.bears → t.Has true d → itemsPlain d.flatten
  | .option t, d, h, hd => by
    obtain ⟨hfalse, -⟩ | ⟨e, rfl, he⟩ := hd
    · nomatch hfalse
    · exact t.flatten_plain (d := e) h he
  | .newtypeStruct _ t, d, h, ⟨e, hd, he⟩ => by
    obtain rfl := hd
    exact t.flatten_plain (d := e) h he
  | .struct info fields, d, h, ⟨ds, hd, hds⟩ => by
    simp only [Ty.bears, Bool.and_eq_true] at h
    rw [hd, structDatum_of_regular h.1.1.1]
    exact itemsPlain_fieldItems (fields_plain h.1.1.1 hds)

theorem payloads_plain : ∀ {variants : List (String × Ty)} {tag : String} {d : Datum},
    payloadsRegular variants → payloadsHave variants tag d → itemsPlain d.flatten
  | (name, t) :: rest, tag, d, h, hd => by
    obtain ⟨ht, hrest⟩ := Bool.and_eq_true_iff.1 h
    obtain ⟨-, hd⟩ | hd := hd
    · exact t.flatten_plain ht hd
    · exact payloads_plain hrest hd

end

/-- A payload that bears a tag hands over the fields of a struct. -/
theorem Ty.flatten_of_bears : ∀ {t : Ty} {d : Datum}, t.bears → t.Has true d →
    ∃ fields, d.flatten = fieldItems fields
  | .option t, d, h, hd => by
    obtain ⟨hfalse, -⟩ | ⟨e, rfl, he⟩ := hd
    · nomatch hfalse
    · exact t.flatten_of_bears (d := e) h he
  | .newtypeStruct _ t, d, h, ⟨e, hd, he⟩ => by
    obtain rfl := hd
    exact t.flatten_of_bears (d := e) h he
  | .struct info fields, d, h, ⟨ds, hd, hds⟩ => by
    simp only [Ty.bears, Bool.and_eq_true] at h
    exact ⟨_, by rw [hd, structDatum_of_regular h.1.1.1]; rfl⟩

/-! ## Reading parts -/

section Parts

variable {σ : Type} [Replaying σ] {marks : Bool}

theorem length_shownList (ds : List Datum) : (shownList marks ds).length = ds.length := by
  rw [shownList_eq_map, List.length_map]

/-- Where newtypes are not marked, nothing is shown as one. -/
theorem shown_ne_newtype : ∀ (d : Datum) (c : Snapshot), d.shown false ≠ .newtype c
  | .newtypeStruct _ inner, c => by
    rw [Datum.shown]
    exact shown_ne_newtype inner c
  | .bool _, _ | .int _ _, _ | .f32 _, _ | .f64 _, _ | .char _, _ | .text _, _ | .bytes _, _
  | .display _, _ | .readability, _ | .none, _ | .some _, _ | .unit, _ | .unitStruct _, _
  | .unitVariant _, _ | .newtypeVariant _ _, _ | .seq _, _ | .tuple _, _ | .tupleStruct _ _, _
  | .tupleVariant _ _, _ | .map _, _ | .struct _ _, _ | .structVariant _ _, _ | .fail _, _ => nofun

/-- A newtype is opened, whether it is marked or not. -/
theorem answer_newtypeStruct (name : String) (d : Datum) :
    Snapshot.answer .newtypeStruct ((Datum.newtypeStruct name d).shown marks) =
      .ok { call := .newtype (d.shown marks) } := by
  cases marks with
  | true => rfl
  | false =>
    rw [Datum.shown]
    cases h : d.shown false with
    | newtype c => exact absurd h (shown_ne_newtype d c)
    | _ => rfl

/-- A sequence that is asked for as such is read by who reads all of it. -/
theorem consult_seq {α : Type} (r : Request) (cs : List Snapshot)
    (hf : Exacting.fits r (.seq cs)) (hr : r ≠ .unitStruct ∧ r ≠ .ignored)
    (ha : Snapshot.answer r (.seq cs) = .ok (Snapshot.seq cs).replay)
    {read : Call σ → Outcome α} {n : Nat} {x : α} (hn : n = cs.length)
    (hread : read (.seq (cs.map of) (some cs.length)) = ⟨{ whole := n }, .ok x⟩) :
    consult r (of (.seq cs) : σ) read = .ok x :=
  consult_of r _ hf (fun h => absurd h hr.1) hr.2 ha hread
    (Snapshot.closing_seq.2 (Nat.le_of_eq hn.symm))

/-- A map that is asked for as such is read by who reads all of it. -/
theorem consult_map {α : Type} (r : Request) (entries : List (Snapshot × Snapshot))
    (hf : Exacting.fits r (.map entries)) (hr : r ≠ .unitStruct ∧ r ≠ .ignored)
    (ha : Snapshot.answer r (.map entries) = .ok (Snapshot.map entries).replay)
    {read : Call σ → Outcome α} {n : Nat} {x : α} (hn : n = entries.length)
    (hread : read (.map (entries.map entryOf) (some entries.length)) = ⟨{ whole := n }, .ok x⟩) :
    consult r (of (.map entries) : σ) read = .ok x :=
  consult_of r _ hf (fun h => absurd h hr.1) hr.2 ha hread
    (Snapshot.closing_map.2 (Nat.le_of_eq hn.symm))

theorem items_seq {what lengths : String} {readers : List (σ → Except Fault Datum)}
    {ds : List Datum}
    (h : List.Forall₂ (fun read d => read (of (d.shown marks)) = .ok d) readers ds)
    (hint : Option Nat) :
    Visit.items what lengths readers (.seq ((shownList marks ds).map of) hint) =
      ⟨{ whole := ds.length }, .ok ds⟩ := by
  rw [Visit.items, inOrder_shown h, Nat.zero_add]

theorem shown_ofEntries (marks : Bool) (es : List (Datum × Datum)) :
    (Datum.ofEntries es).shown marks =
      .map (es.map fun e => (e.1.shown marks, e.2.shown marks)) := by
  rw [Datum.ofEntries, Datum.shown, Snapshot.map.injEq]
  induction es with
  | nil => rfl
  | cons e rest ih => rw [List.map_cons, shownItems, ih, List.map_cons]

/-- A map is read again if each key and each value is. -/
theorem map_shown {readKey readValue : σ → Except Fault Datum} {es : List (Datum × Datum)}
    (horder : Ascending es) (h : ∀ e ∈ es, readKey (of (e.1.shown marks)) = .ok e.1 ∧
      readValue (of (e.2.shown marks)) = .ok e.2) (hint : Option Nat) :
    Visit.map readKey readValue
        (.map ((es.map fun e => (e.1.shown marks, e.2.shown marks)).map entryOf) hint) =
      ⟨{ whole := es.length }, .ok (.ofEntries es)⟩ := by
  have hread : readEntries readKey (fun _ => readValue) none 0
      ((es.map fun e => (e.1.shown marks, e.2.shown marks)).map entryOf) =
        ⟨{ whole := es.length }, .ok es⟩ := by
    rw [readEntries_eq_ok, List.length_map, List.length_map, Nat.zero_add,
      List.forall₂_map_left_iff, List.forall₂_map_left_iff, List.forall₂_same]
    exact ⟨rfl, h⟩
  rw [Visit.map, hread, Outcome.map_eq_mk_ok]
  exact ⟨es, rfl, congrArg Datum.ofEntries (Visit.foldl_insertSorted_of_ascending horder)⟩

theorem flatten_singletons : ∀ names : List String, (names.map ([·])).flatten = names
  | [] => rfl
  | name :: rest => congrArg (name :: ·) (flatten_singletons rest)

/-- The name of a variant is told by its place. -/
theorem variant_known {names : List String} (hn : names.Nodup) {i : Nat} {name : String}
    (hi : names[i]? = some name) :
    consult .identifier (of (.text name) : σ) (Visit.variant names) = .ok i := by
  have hi : (names.map ([·]))[i]? = some [name] := by rw [List.getElem?_map, hi]; rfl
  have hfind : (names.map ([·])).findIdx? (fun ns => ns.contains name) = some i :=
    findIdx?_contains (by rwa [flatten_singletons]) hi List.mem_cons_self
  refine consult_of .identifier (.text name) rfl nofun nofun rfl (p := {}) ?_ rfl
  simp only [Snapshot.replay, Snapshot.call, Call.mapParts, Visit.variant, Visit.name?,
    Visit.Name.find?, hfind]
  rfl

/-- A success or a failure is read again. -/
theorem resultEnum_shown {readOk readError : σ → Except Fault Datum} {d : Datum} :
    (readOk (of (d.shown marks)) = .ok d →
      consult .enum (of ((Datum.newtypeVariant ⟨"Result", 0, "Ok"⟩ d).shown marks) : σ)
        (Visit.resultEnum readOk readError) = .ok (.newtypeVariant ⟨"Result", 0, "Ok"⟩ d)) ∧
    (readError (of (d.shown marks)) = .ok d →
      consult .enum (of ((Datum.newtypeVariant ⟨"Result", 1, "Err"⟩ d).shown marks) : σ)
        (Visit.resultEnum readOk readError) = .ok (.newtypeVariant ⟨"Result", 1, "Err"⟩ d)) := by
  have hok : consult .identifier (of (.text "Ok") : σ) Visit.outcome = .ok 0 :=
    consult_of .identifier (.text "Ok") rfl nofun nofun rfl (p := {}) rfl rfl
  have herror : consult .identifier (of (.text "Err") : σ) Visit.outcome = .ok 1 :=
    consult_of .identifier (.text "Err") rfl nofun nofun rfl (p := {}) rfl rfl
  constructor
  · intro h
    refine consult_of .enum (.map [(.text "Ok", d.shown marks)]) rfl nofun nofun rfl (p := {}) ?_
      rfl
    simp only [Call.mapParts, Option.map_some, Visit.resultEnum, hok, bind, Except.bind, if_true, h]
    rfl
  · intro h
    refine consult_of .enum (.map [(.text "Err", d.shown marks)]) rfl nofun nofun rfl (p := {}) ?_
      rfl
    simp only [Call.mapParts, Option.map_some, Visit.resultEnum, herror, bind, Except.bind,
      Nat.one_ne_zero, if_false, h]
    rfl

/-- A content that is read again. -/
def VariantReader.Restores (marks : Bool) (r : VariantReader σ) : VariantContent → Prop
  | .unit => r.form = .unit
  | .newtype d => r.form = .newtype ∧ r.read (of (d.shown marks)) = .ok d
  | .tuple ds => r.form = .tuple ∧
    List.Forall₂ (fun read d => read (of (d.shown marks)) = .ok d) r.items ds
  | .struct fields => r.form = .struct ∧ ∃ ds, fields = r.written ds ∧
    (fieldNames r.fields).Nodup ∧ List.Forall₂ (FieldReader.Restores marks) r.fields ds

/-- What is shown of the content of a variant in the external form, none if it is the bare name. -/
def VariantContent.shown (marks : Bool) : VariantContent → Option Snapshot
  | .unit => none
  | .newtype d => some (d.shown marks)
  | .tuple ds => some (.seq (shownList marks ds))
  | .struct fields => some (.map (shownFields marks fields))

theorem externalContent_shown {enum : String} {r : VariantReader σ} {c : VariantContent}
    (hc : r.Restores marks c) :
    Visit.externalContent enum r ((c.shown marks).map of) = .ok c := by
  cases c with
  | unit =>
    have hform : r.form = .unit := hc
    simp [VariantContent.shown, Visit.externalContent, hform]
  | newtype d =>
    obtain ⟨hform, hd⟩ := hc
    simp [VariantContent.shown, Visit.externalContent, hform, hd, bind, Except.bind, pure,
      Except.pure]
  | tuple ds =>
    obtain ⟨hform, hds⟩ := hc
    have hitems : ∀ what lengths, consult .tupleVariant (of (.seq (shownList marks ds)) : σ)
        (Visit.items what lengths r.items) = .ok ds := fun what lengths =>
      consult_seq .tupleVariant _ rfl (by simp) rfl (length_shownList ds).symm (items_seq hds _)
    simp [VariantContent.shown, Visit.externalContent, hform, hitems, bind, Except.bind, pure,
      Except.pure]
  | struct fields =>
    obtain ⟨hform, ds, rfl, hn, hds⟩ := hc
    have hstruct : ∀ what, consult .structVariant
        (of (.map (writtenEntries marks r.fields ds)) : σ) (Visit.struct what false r.fields) =
          .ok ds := fun what =>
      consult_map .structVariant _ rfl (by simp) rfl rfl (struct_shown_alone hn hds _)
    simp only [VariantContent.shown, Option.map_some, Visit.externalContent, hform]
    rw [VariantReader.written, hstruct]
    rfl

/-- A variant in the external form is read again, from its name or from a map of one entry. -/
theorem externalEnum_shown {enum : String} {readers : List (VariantReader σ)}
    (hn : (readers.map (·.name)).Nodup) {i : Nat} {r : VariantReader σ}
    (hr : readers[i]? = some r) {c : VariantContent} (hc : r.Restores marks c) :
    consult .enum (of ((externalDatum ⟨enum, i, r.name⟩ c).shown marks) : σ)
      (Visit.externalEnum enum readers) = .ok (externalDatum ⟨enum, i, r.name⟩ c) := by
  have hvariant : consult .identifier (of (.text r.name) : σ)
      (Visit.variant (readers.map (·.name))) = .ok i :=
    variant_known hn (by rw [List.getElem?_map, hr]; rfl)
  have hread : Visit.externalEnum enum readers
      (.enum (of (.text r.name)) ((c.shown marks).map of)) =
        ⟨{}, .ok (externalDatum ⟨enum, i, r.name⟩ c)⟩ := by
    simp only [Visit.externalEnum, hvariant, Visit.pick_eq_ok.2 hr, externalContent_shown hc,
      bind, Except.bind, Outcome.plain]
    cases c <;> rfl
  have hanswer : Snapshot.answer .enum ((externalDatum ⟨enum, i, r.name⟩ c).shown marks) =
      .ok { call := .enum (.text r.name) (c.shown marks) } := by
    cases c <;> rfl
  exact consult_of .enum _ rfl nofun nofun hanswer hread rfl

end Parts

/-! ## Reading types -/

/-- Whether a type reads the values it has from what is shown of them, from any kind of snapshot. -/
def Ty.Rereads (t : Ty) (marks : Bool) (d : Datum) : Prop :=
  ∀ {σ : Type} [Replaying σ], t.read (of (d.shown marks) : σ) = .ok d

/-- What is shown of a payload beside a tag. -/
def Datum.besideTag (marks : Bool) (tag : String) (payload : Datum) :
    List (Snapshot × Snapshot) :=
  (.text tagField, .text tag) :: shownItems marks payload.flatten

theorem Datum.shown_union (marks : Bool) (tag : String) (payload : Datum) :
    (Datum.union tag payload).shown marks = .map (payload.besideTag marks tag) :=
  rfl

/-- Whether a payload is read again from what is shown of it beside a tag, where no text stands as a
key twice. -/
def Ty.RereadsBeside (t : Ty) (marks : Bool) (d : Datum) : Prop :=
  ∀ tag : String, (Snapshot.keys (d.besideTag marks tag)).Nodup ∧
    t.read (Snapshot.map (d.besideTag marks tag)) = .ok d

theorem map_name_variantReaders {σ : Type} [Source σ] : ∀ variants : List (String × Form × Ty),
    (variantReaders variants : List (VariantReader σ)).map (·.name) = variants.map (·.1)
  | [] => rfl
  | (name, _, _) :: rest => congrArg (name :: ·) (map_name_variantReaders rest)

theorem map_tag_payloadReaders {σ : Type} [Source σ] : ∀ variants : List (String × Ty),
    (payloadReaders variants : List (PayloadReader σ)).map (·.tag) = variants.map (·.1)
  | [] => rfl
  | (tag, _) :: rest => congrArg (tag :: ·) (map_tag_payloadReaders rest)

theorem getElem?_payloadReaders {σ : Type} [Source σ] : ∀ {variants : List (String × Ty)} {i : Nat}
    {tag : String} {t : Ty}, variants[i]? = some (tag, t) →
      (payloadReaders variants : List (PayloadReader σ))[i]? = some ⟨tag, t.read⟩
  | (_, _) :: _, 0, _, _, h => by
    obtain ⟨rfl, rfl⟩ := Prod.mk.inj (Option.some.inj h)
    rfl
  | _ :: rest, i + 1, tag, t, h => by
    rw [payloadReaders, List.getElem?_cons_succ]
    exact getElem?_payloadReaders h

/-- A snapshot of a map is kept as it is, if no text stands as a key twice. -/
theorem read_shown_map {σ : Type} [Replaying σ] {entries : List (Snapshot × Snapshot)}
    (hn : (Snapshot.keys entries).Nodup) : Flat.read (of (.map entries) : σ) = .ok ⟨entries⟩ := by
  have hkeeps : List.Forall₂ Snapshot.Keeps ((entries.map (entryOf : _ → σ × σ)).map Flat.offered)
      entries := by
    rw [List.map_map, List.forall₂_map_left_iff, List.forall₂_same]
    intro e _
    simp only [Snapshot.Keeps, Function.comp, Flat.offered, entryOf, Replaying.offer_of,
      Snapshot.ofOffer_toOffer, and_self]
  have hvisit : (Flat.visit (.map (entries.map (entryOf : _ → σ × σ))
      (some entries.length))).result = .ok ⟨entries⟩ :=
    Flat.visit_result_eq_ok.2 ⟨_, _, rfl, hkeeps, hn⟩
  refine consult_map .map entries rfl (by simp) rfl (List.length_map (entryOf : _ → σ × σ)) ?_
  rw [Outcome.eq_mk_of_result hvisit, Flat.progress_visit hvisit]

theorem restores_of_rereads {σ : Type} [Replaying σ] {f : Field} {t : Ty} {marks : Bool}
    (hf : f.restorable t) {d : Datum} (hread : t.Rereads marks d) :
    FieldReader.Restores marks (⟨f, t.isOption, t.read, t.readFlattened⟩ : FieldReader σ) d := by
  have hdefault : f.defaultFits t := f.defaultFits_of_restorable hf
  refine ⟨by simp_all [Field.restorable], ?_⟩
  obtain hw | ⟨hw, rfl, ht⟩ := f.written_cases hf d
  · exact .inl ⟨hw, hread⟩
  · exact .inr ⟨hw, f.missing_option hdefault ht _ _⟩

/-- A struct is read again if its fields are, also behind other entries under texts that are no
names of fields, if it allows such. -/
theorem struct_rereads {σ : Type} [Replaying σ] {marks : Bool} {info : StructInfo}
    {fields : List (Field × Ty)} {ds : List Datum} (hfields : fieldsRegular fields)
    (hn : (namesOf fields).Nodup)
    (hds : List.Forall₂ (FieldReader.Restores marks)
      (fieldReaders fields : List (FieldReader σ)) ds)
    (others : List (String × Snapshot)) (hothers : ∀ e ∈ others, e.1 ∉ namesOf fields)
    (hstrict : info.strict = true → others = []) :
    (Ty.struct info fields).read (of (.map (others.map (fun e => (Snapshot.text e.1, e.2)) ++
        shownFields marks (List.zipWith Field.written (fields.map (·.1)) ds))) : σ) =
      .ok (structDatum info.name (fields.map (·.1)) ds) := by
  have hrequest : fields.any (·.1.flattened) = false := by
    simpa using unflattened_of_regular hfields
  rw [← fieldNames_fieldReaders (σ := σ)] at hn hothers
  simp only [Ty.read, hrequest]
  refine consult_map .struct _ rfl (by simp) rfl rfl ?_
  rw [← map_field_fieldReaders (σ := σ), Outcome.map_eq_mk_ok]
  exact ⟨ds, struct_shown hn hds others hothers hstrict _, rfl⟩

/-- The texts under which the fields of a struct are written are among their names. -/
theorem keys_shownFields_sublist (marks : Bool) : ∀ (fields : List (Field × Ty)) (ds : List Datum),
    (Snapshot.keys (shownFields marks
      (List.zipWith Field.written (fields.map (·.1)) ds))).Sublist (namesOf fields)
  | [], ds => by simp [shownFields, Snapshot.keys]
  | (f, t) :: rest, [] => by simp [shownFields, Snapshot.keys]
  | (f, t) :: rest, d :: ds => by
    have ih := keys_shownFields_sublist marks rest ds
    have hnames : (namesOf rest).Sublist (f.aliases ++ namesOf rest) :=
      List.sublist_append_right _ _
    have hcons : namesOf ((f, t) :: rest) = f.name :: (f.aliases ++ namesOf rest) := rfl
    rw [hcons, List.map_cons, List.zipWith_cons_cons]
    obtain ⟨o, ho⟩ : ∃ o, f.written d = (f.name, o) := by
      unfold Field.written
      split <;> exact ⟨_, rfl⟩
    rw [ho]
    cases o with
    | none => exact (ih.trans hnames).cons _
    | some e => exact (ih.trans hnames).cons_cons _

mutual

/-- The values of a regular type are read again from what is shown of them. -/
theorem Ty.read_shown (marks : Bool) : ∀ {t : Ty} {d : Datum}, t.regular → t.Has false d →
    t.Rereads marks d
  | .bool, _, _, ⟨b, hd⟩, _, _ => by
    obtain rfl := hd
    exact consult_of .bool (.bool b) rfl nofun nofun rfl (p := {}) rfl rfl
  | .int w, _, _, ⟨n, hn, hd⟩, _, _ => by
    obtain rfl := hd
    refine consult_of (.int w) (.int w n) rfl nofun nofun rfl (p := {}) ?_ rfl
    simp [Snapshot.replay, Snapshot.call, Call.mapParts, Visit.int, hn, Outcome.plain]
  | .f32, _, _, ⟨bits, hd⟩, _, _ => by
    obtain rfl := hd
    exact consult_of .f32 (.f32 bits) rfl nofun nofun rfl (p := {}) rfl rfl
  | .f64, _, _, ⟨bits, hd⟩, _, _ => by
    obtain rfl := hd
    exact consult_of .f64 (.f64 bits) rfl nofun nofun rfl (p := {}) rfl rfl
  | .char, _, _, ⟨c, hd⟩, _, _ => by
    obtain rfl := hd
    exact consult_of .char (.char c) rfl nofun nofun rfl (p := {}) rfl rfl
  | .text, _, _, ⟨s, hd⟩, _, _ => by
    obtain rfl := hd
    exact consult_of .string (.text s) rfl nofun nofun rfl (p := {}) rfl rfl
  | .bytes, _, _, ⟨bs, hd⟩, _, _ => by
    obtain rfl := hd
    exact consult_of .bytes (.bytes bs) rfl nofun nofun rfl (p := {}) rfl rfl
  | .unit, _, _, hd, _, _ => by
    obtain rfl := hd
    exact consult_of .unit .unit rfl nofun nofun rfl (p := {}) rfl rfl
  | .unitStruct name, _, _, hd, _, _ => by
    obtain rfl := hd
    exact consult_of .unitStruct .unit rfl (fun _ => rfl) nofun rfl (p := {}) rfl rfl
  | .option t, _, h, hd, _, _ => by
    obtain ⟨-, rfl⟩ | ⟨e, rfl, he⟩ := hd
    · exact consult_of .option .none rfl nofun nofun rfl (p := {}) rfl rfl
    · refine consult_of .option (.some _) rfl nofun nofun rfl (p := {}) ?_ rfl
      simp only [Call.mapParts, Visit.option, Visit.optional, t.read_shown marks h he]
      rfl
  | .list t, _, h, ⟨es, hd, hes⟩, _, _ => by
    obtain rfl := hd
    refine consult_seq .seq _ rfl (by simp) rfl (length_shownList es).symm ?_
    rw [Visit.list, Visit.elements,
      readItems_shown 0 fun e he => t.read_shown marks h (hes e he), Nat.zero_add]
    rfl
  | .array n t, _, h, ⟨es, hd, hn, hes⟩, σ, _ => by
    obtain rfl := hd
    have hall : List.Forall₂ (fun read d => read (of (d.shown marks)) = .ok d)
        (List.replicate n (t.read : σ → Except Fault Datum)) es := by
      rw [← hn, ← List.map_const', List.forall₂_map_left_iff, List.forall₂_same]
      exact fun e he => t.read_shown marks h (hes e he)
    simp only [Ty.read]
    refine consult_seq .tuple _ rfl (by simp) rfl (length_shownList es).symm ?_
    rw [items_seq hall]
    rfl
  | .map k v, _, h, ⟨es, hd, horder, hes⟩, _, _ => by
    obtain ⟨hk, hv⟩ := Bool.and_eq_true_iff.1 h
    obtain rfl := hd
    rw [shown_ofEntries]
    refine consult_map .map _ rfl (by simp) rfl (List.length_map _).symm (map_shown horder ?_ _)
    exact fun e he => ⟨k.read_shown marks hk (hes e he).1, v.read_shown marks hv (hes e he).2⟩
  | .result ok error, _, h, hd, _, _ => by
    obtain ⟨hok, herror⟩ := Bool.and_eq_true_iff.1 h
    obtain ⟨e, rfl, he⟩ | ⟨e, rfl, he⟩ := hd
    · exact resultEnum_shown.1 (ok.read_shown marks hok he)
    · exact resultEnum_shown.2 (error.read_shown marks herror he)
  | .tuple ts, _, h, ⟨es, hd, hes⟩, _, _ => by
    obtain rfl := hd
    simp only [Ty.read]
    refine consult_seq .tuple _ rfl (by simp) rfl (length_shownList es).symm ?_
    rw [items_seq (items_shown marks h hes)]
    rfl
  | .tupleStruct name ts, _, h, ⟨es, hd, hes⟩, _, _ => by
    obtain rfl := hd
    simp only [Ty.read]
    refine consult_seq .tupleStruct _ rfl (by simp) rfl (length_shownList es).symm ?_
    rw [items_seq (items_shown marks h hes)]
    rfl
  | .newtypeStruct name t, _, h, ⟨e, hd, he⟩, _, _ => by
    obtain rfl := hd
    refine consult_of .newtypeStruct _ rfl nofun nofun (answer_newtypeStruct name e) (p := {}) ?_
      rfl
    simp only [Call.mapParts, Visit.newtypeStruct, t.read_shown marks h he]
    rfl
  | .struct info fields, _, h, ⟨ds, hd, hds⟩, _, _ => by
    obtain ⟨hfields, hn⟩ := Bool.and_eq_true_iff.1 h
    rw [hd]
    nth_rewrite 1 [structDatum_of_regular hfields]
    exact struct_rereads hfields (of_decide_eq_true hn) (fields_shown marks hfields hds) [] nofun
      (fun _ => rfl)
  | .enum name .external variants, _, h, ⟨i, variant, c, hd, hc⟩, σ, _ => by
    obtain ⟨hvariants, hn⟩ := Bool.and_eq_true_iff.1 h
    obtain ⟨r, hr, rfl, hrestores⟩ :
        ∃ r, (variantReaders variants : List (VariantReader σ))[i]? = some r ∧ _ :=
      variants_shown marks hvariants hc
    rw [hd]
    refine externalEnum_shown ?_ hr hrestores
    rw [map_name_variantReaders]
    exact of_decide_eq_true hn
  | .union name variants, _, h, ⟨tag, e, hd, he⟩, σ, _ => by
    obtain ⟨hpayloads, hn⟩ := Bool.and_eq_true_iff.1 h
    obtain ⟨i, t, ht, htag⟩ := payloads_shown marks hpayloads he
    obtain ⟨hkeys, hread⟩ := htag tag
    have hn : ((payloadReaders variants : List (PayloadReader Snapshot)).map (·.tag)).Nodup := by
      rw [map_tag_payloadReaders]
      exact of_decide_eq_true hn
    have hflat : Flat.read (of (.map (e.besideTag marks tag)) : σ) = _ := read_shown_map hkeys
    have hunion := readUnion_tagged hn hflat hkeys List.mem_cons_self
      (getElem?_payloadReaders ht) rfl
    simp only [hd, Datum.shown_union, Ty.read, hunion, hread]
    rfl

theorem items_shown (marks : Bool) : ∀ {ts : List Ty} {ds : List Datum}, itemsRegular ts →
    itemsHave ts ds → ∀ {σ : Type} [Replaying σ],
      List.Forall₂ (fun read d => read (of (d.shown marks)) = .ok d)
        (itemReaders ts : List (σ → Except Fault Datum)) ds
  | [], _, _, rfl, _, _ => .nil
  | t :: rest, _, h, ⟨e, es, hd, he, hes⟩, _, _ => by
    obtain ⟨ht, hrest⟩ := Bool.and_eq_true_iff.1 h
    rw [hd]
    exact .cons (t.read_shown marks ht he) (items_shown marks hrest hes)

theorem fields_shown (marks : Bool) : ∀ {fields : List (Field × Ty)} {ds : List Datum},
    fieldsRegular fields → fieldsHave fields ds → ∀ {σ : Type} [Replaying σ],
      List.Forall₂ (FieldReader.Restores marks) (fieldReaders fields : List (FieldReader σ)) ds
  | [], _, _, rfl, _, _ => .nil
  | (f, t) :: rest, _, h, ⟨e, es, hd, he, hes⟩, _, _ => by
    obtain ⟨h, hrest⟩ := Bool.and_eq_true_iff.1 h
    obtain ⟨ht, hf⟩ := Bool.and_eq_true_iff.1 h
    have he : t.Has false e := f.has_of_restorable hf he
    rw [hd]
    exact .cons (restores_of_rereads hf (t.read_shown marks ht he)) (fields_shown marks hrest hes)

theorem Ty.items_shown (marks : Bool) : ∀ {t : Ty} {ds : List Datum}, t.itemsRegular →
    t.itemsHave ds → ∀ {σ : Type} [Replaying σ],
      List.Forall₂ (fun read d => read (of (d.shown marks)) = .ok d)
        (t.items : List (σ → Except Fault Datum)) ds
  | .tuple _, _, h, hds, _, _ => FlatUnion.items_shown marks h hds

theorem Ty.fields_shown (marks : Bool) : ∀ {t : Ty} {ds : List Datum}, t.fieldsRegular →
    t.fieldsHave ds → ∀ {σ : Type} [Replaying σ],
      (fieldNames (t.fields : List (FieldReader σ))).Nodup ∧
        List.Forall₂ (FieldReader.Restores marks) (t.fields : List (FieldReader σ)) ds
  | .struct _ fields, _, h, hds, _, _ => by
    obtain ⟨hfields, hn⟩ := Bool.and_eq_true_iff.1 h
    refine ⟨?_, FlatUnion.fields_shown marks hfields hds⟩
    rw [Ty.fields, fieldNames_fieldReaders]
    exact of_decide_eq_true hn

theorem variants_shown (marks : Bool) : ∀ {variants : List (String × Form × Ty)} {i : Nat}
    {variant : String} {c : VariantContent}, variantsRegular variants →
      variantsHave variants i variant c → ∀ {σ : Type} [Replaying σ],
        ∃ r, (variantReaders variants : List (VariantReader σ))[i]? = some r ∧ r.name = variant ∧
          r.Restores marks c
  | (_, .unit, t) :: rest, 0, _, .unit, h, ⟨hname, _⟩, _, _ => ⟨_, rfl, hname.symm, rfl⟩
  | (_, .newtype, t) :: rest, 0, _, .newtype d, h, ⟨hname, hc⟩, _, _ =>
    ⟨_, rfl, hname.symm, rfl, t.read_shown marks (Bool.and_eq_true_iff.1 h).1 hc⟩
  | (_, .tuple, t) :: rest, 0, _, .tuple ds, h, ⟨hname, hc⟩, _, _ =>
    ⟨_, rfl, hname.symm, rfl, t.items_shown marks (Bool.and_eq_true_iff.1 h).1 hc⟩
  | (_, .struct, t) :: rest, 0, _, .struct fields, h, ⟨hname, ds, hfields, hds⟩, _, _ => by
    refine ⟨_, rfl, hname.symm, rfl, ds, ?_, t.fields_shown marks (Bool.and_eq_true_iff.1 h).1 hds⟩
    rw [hfields, VariantReader.written, t.map_field_fields]
  | _ :: rest, i + 1, _, c, h, hc, _, _ =>
    variants_shown marks (Bool.and_eq_true_iff.1 h).2 hc

/-- The values of a payload that bears a tag are read again from what is shown of them beside a
tag. -/
theorem Ty.read_beside_tag (marks : Bool) : ∀ {t : Ty} {d : Datum}, t.bears → t.Has true d →
    t.RereadsBeside marks d
  | .option t, d, h, hd => by
    obtain ⟨hfalse, -⟩ | ⟨e, rfl, he⟩ := hd
    · nomatch hfalse
    intro tag
    obtain ⟨hkeys, hread⟩ := t.read_beside_tag marks h he tag
    refine ⟨hkeys, ?_⟩
    have hopen : (Ty.option t).read (Snapshot.map (e.besideTag marks tag)) =
        Answer.finish ({ call := .some (.map (e.besideTag marks tag)) } : Answer Snapshot)
          (Visit.option t.read (.some (Snapshot.map (e.besideTag marks tag)))) := rfl
    refine hopen.trans ?_
    rw [Visit.option, Visit.optional, hread]
    rfl
  | .newtypeStruct name t, d, h, ⟨e, hd, he⟩ => by
    obtain rfl := hd
    intro tag
    obtain ⟨hkeys, hread⟩ := t.read_beside_tag marks h he tag
    refine ⟨hkeys, ?_⟩
    have hopen : (Ty.newtypeStruct name t).read (Snapshot.map (e.besideTag marks tag)) =
        Answer.finish ({ call := .newtype (.map (e.besideTag marks tag)) } : Answer Snapshot)
          (Visit.newtypeStruct name t.read (.newtype (Snapshot.map (e.besideTag marks tag)))) := rfl
    refine hopen.trans ?_
    rw [Visit.newtypeStruct, hread]
    rfl
  | .struct info fields, d, h, ⟨ds, hd, hds⟩ => by
    intro tag
    simp only [Ty.bears, Bool.and_eq_true, decide_eq_true_eq, Bool.not_eq_true',
      List.contains_eq_mem, decide_eq_false_iff_not] at h
    obtain ⟨⟨⟨hfields, hn⟩, hstrict⟩, htag⟩ := h
    have hflatten : shownItems marks d.flatten =
        shownFields marks (List.zipWith Field.written (fields.map (·.1)) ds) := by
      rw [hd, structDatum_of_regular hfields, Datum.flatten, shownItems_fieldItems]
    have hsublist : (Snapshot.keys (shownItems marks d.flatten)).Sublist (namesOf fields) := by
      rw [hflatten]
      exact keys_shownFields_sublist marks fields ds
    refine ⟨List.nodup_cons.2 ⟨fun h => htag (hsublist.subset h), hn.sublist hsublist⟩, ?_⟩
    rw [Datum.besideTag, hflatten, hd]
    exact struct_rereads hfields hn (fields_shown marks hfields hds) [(tagField, .text tag)]
      (by simpa using htag) (by simp [hstrict])

theorem payloads_shown (marks : Bool) : ∀ {variants : List (String × Ty)} {tag : String}
    {d : Datum}, payloadsRegular variants → payloadsHave variants tag d →
      ∃ (i : Nat) (t : Ty), variants[i]? = some (tag, t) ∧ t.RereadsBeside marks d
  | (name, t) :: rest, tag, d, h, hd => by
    obtain ⟨ht, hrest⟩ := Bool.and_eq_true_iff.1 h
    obtain ⟨rfl, hd⟩ | hd := hd
    · exact ⟨0, t, rfl, t.read_beside_tag marks ht hd⟩
    · obtain ⟨i, t, hi, hread⟩ := payloads_shown marks hrest hd
      exact ⟨i + 1, t, hi, hread⟩

end

end FlatUnion
