import FlatUnion.Proofs.Buffering
import FlatUnion.Proofs.Json.Written
import FlatUnion.Proofs.Nesting
import FlatUnion.Proofs.Reordering
import FlatUnion.Proofs.RoundTrip

/-!
# Written unions field by field

A struct in a union is written as an object of the tag and the texts of its fields. Each of these
is one value, so reading the text is reading what is kept of each of them (`readUnion_unionText`),
and a struct that skips the tag is read field by field from what is kept (`Ty.read_cells`).

So a union is written and read one field at a time. Its text is that of its fields' values
(`FilledField.json_union`), and it is read as a struct of what the field's values are read as again,
each from its own text or as a missing one (`FilledField.read_union`).
-/

namespace FlatUnion

open Json (Fragment Keeps readWhole)
open Json.Fragment (MemberKept memberText objectText)

/-! ## Texts that are fragments -/

namespace Json

/-- A text that is one value is read if this value is. -/
theorem readWhole_fragment {α : Type} {read : Part → Except Fault α} {depth : Nat} {text : String}
    (hf : Fragment depth text) {x : α} :
    readWhole read text = .ok x ↔ read (.value (scan text).1) = .ok x := by
  rw [readWhole_eq_ok, and_iff_left]
  intro c hc
  obtain ⟨y, rest, htext, hblank, -⟩ := hf.starts
  have hstart : (Cursor.start text).skipBlanks = Cursor.start text :=
    Cursor.skipBlanks_eq htext hblank
  obtain ⟨hrest, -⟩ := hf.scans 0 (Nat.zero_le depth) none (Cursor.start text) []
    (List.append_nil _).symm nofun
  rw [scan, hstart] at hc
  obtain ⟨d, hd, rfl⟩ := Option.map_eq_some_iff.1 hc
  rw [Behind.rest?, hd] at hrest
  have hrest : d.1.rest = [] := Option.some.inj hrest
  rw [Cursor.skipBlanks, Cursor.rest_drop, hrest, List.drop_nil]

/-- A text has a flat representation if it is kept as a map without repeated texts. -/
theorem read_eq_ok_of_keeps {text : String} {flat : Flat} :
    Flat.read (Part.value (scan text).1) = .ok flat ↔
      Keeps text (.map flat.entries) ∧ (Snapshot.keys flat.entries).Nodup := by
  refine ⟨fun h => (object_of_read h).2, fun ⟨hoffer, hn⟩ => ?_⟩
  have hkept : Flat.read (Snapshot.map flat.entries) = .ok flat := by
    rw [Flat.read_snapshot]
    refine Flat.visit_result_eq_ok.2 ⟨_, _, rfl, ?_, hn⟩
    exact List.forall₂_map_left_iff.2 (List.forall₂_same.2 fun e _ =>
      ⟨Snapshot.ofOffer_toOffer e.1, Snapshot.ofOffer_toOffer e.2⟩)
  have hread := read_kept_part (scanValue_wellCut _ _ _) hoffer
  rw [hkept] at hread
  cases hpart : Flat.read (Part.value (scan text).1) with
  | error e => rw [scan] at hpart; simp [hpart, Except.mapError] at hread
  | ok flat' => rw [scan] at hpart; simpa [hpart, Except.mapError] using hread

end Json

/-! ## Unions of fragments -/

/-- A union as it is written : the tag, and the texts of the fields. -/
def unionText (tag : String) (ms : List (String × String)) : String :=
  objectText ((tagField, Json.quoted tag) :: ms)

theorem keys_memberKept {ms : List (String × String)} {es : List (Snapshot × Snapshot)}
    (h : List.Forall₂ MemberKept ms es) : Snapshot.keys es = ms.map (·.1) := by
  induction h with
  | nil => rfl
  | cons h _ ih =>
    rw [Snapshot.keys, List.filterMap_cons, h.1, List.map_cons]
    exact congrArg _ ih

/-- The text of a union is read as what is kept of its members is. -/
theorem readUnion_unionText {variants : List (PayloadReader Snapshot)}
    (hn : (variants.map (·.tag)).Nodup) {i : Nat} {v : PayloadReader Snapshot}
    (hv : variants[i]? = some v) {ms : List (String × String)}
    (hms : ∀ m ∈ ms, Fragment 1 m.2) (hkeys : (tagField :: ms.map (·.1)).Nodup) {x : Tagged} :
    readWhole (readUnion variants) (unionText v.tag ms) = .ok x ↔
      ∃ es d, List.Forall₂ MemberKept ms es ∧
        v.read (.map ((.text tagField, .text v.tag) :: es)) = .ok d ∧ x = ⟨v.tag, d⟩ := by
  have hms : ∀ m ∈ (tagField, Json.quoted v.tag) :: ms, Fragment 1 m.2 :=
    List.forall_mem_cons.2 ⟨(Fragment.quoted v.tag).1, hms⟩
  obtain ⟨hf, hkeeps⟩ := Fragment.object hms (by decide)
  rw [unionText, Json.readWhole_fragment hf]
  have htagged : ∀ {es : List (Snapshot × Snapshot)}, List.Forall₂ MemberKept ms es →
      readUnion variants (Json.Part.value (Json.scan (unionText v.tag ms)).1) =
        (v.read (.map ((.text tagField, .text v.tag) :: es))).map (⟨v.tag, ·⟩) := by
    intro es hes
    have hall : List.Forall₂ MemberKept ((tagField, Json.quoted v.tag) :: ms)
        ((.text tagField, .text v.tag) :: es) := .cons ⟨rfl, Fragment.keeps_quoted.2 rfl⟩ hes
    have hk : (Snapshot.keys ((.text tagField, .text v.tag) :: es)).Nodup := by
      rw [keys_memberKept hall]
      exact hkeys
    refine readUnion_tagged hn ?_ hk List.mem_cons_self hv rfl
    exact Json.read_eq_ok_of_keeps.2 ⟨(hkeeps _).2 ⟨_, rfl, hall⟩, hk⟩
  constructor
  · intro h
    obtain ⟨flat, hflat, -⟩ := bind_eq_ok.1 h
    obtain ⟨es, -, hall⟩ := (hkeeps _).1 (Json.read_eq_ok_of_keeps.1 hflat).1
    obtain ⟨-, es, -, hes, rfl⟩ := List.forall₂_cons_left_iff.1 hall
    rw [← unionText, htagged hes] at h
    obtain ⟨d, hd, rfl⟩ := map_eq_ok.1 h
    exact ⟨es, d, hes, hd, rfl⟩
  · rintro ⟨es, d, hes, hd, rfl⟩
    rw [← unionText, htagged hes, hd]
    rfl

/-! ## Structs field by field -/

/-- A field, and the snapshot under its name if there is one. -/
abbrev Cell := FieldReader Snapshot × Option Snapshot

/-- What a field is read as : from the snapshot, or as a missing one. -/
def Cell.Gives (x : Cell) (d : Datum) : Prop :=
  match x.2 with
  | some c => x.1.read c = .ok d
  | none => x.1.missing = .ok d

/-- The entries of a struct. -/
def cellEntries (cells : List Cell) : List (Snapshot × Snapshot) :=
  cells.filterMap fun x => x.2.map (.text x.1.field.name, ·)

/-- What stands in the place of a field once all entries have been read. -/
def Cell.Placed (x : Cell) (w : Option Datum) : Prop :=
  match x.2 with
  | some c => ∃ d, x.1.read c = .ok d ∧ w = some d
  | none => w = none

/-- Each entry is read into the place of its field. -/
theorem slots_cells {named : List (FieldReader Snapshot)}
    {readKey : Snapshot → Except Fault FieldKey}
    (hkey : ∀ (i : Nat) (r : FieldReader Snapshot), named[i]? = some r →
      readKey (.text r.field.name) = .ok (.known i)) (all : Slots) :
    ∀ (before : List (FieldReader Snapshot)) (cells : List Cell) (os : List (Option Datum))
      (done : Nat), named = before ++ cells.map (·.1) → os.length = before.length →
      ((Visit.slots named readKey false done ⟨os ++ cells.map fun _ => none, []⟩
          (cellEntries cells)).result = .ok all ↔
        ∃ ws, List.Forall₂ Cell.Placed cells ws ∧ all = ⟨os ++ ws, []⟩)
  | before, [], os, done, _, _ => by
    simp only [List.forall₂_nil_left_iff, exists_eq_left]
    exact ⟨fun h => (Except.ok.inj h).symm, fun h => congrArg Except.ok h.symm⟩
  | before, (r, none) :: cells, os, done, hnamed, hos => by
    have ih := slots_cells hkey all (before ++ [r]) cells (os ++ [none]) done
      (by simpa using hnamed) (by simp [hos])
    simp only [List.append_assoc, List.singleton_append] at ih
    refine ih.trans ⟨?_, ?_⟩
    · rintro ⟨ws, hws, rfl⟩
      exact ⟨_, .cons rfl hws, rfl⟩
    · rintro ⟨_, h, rfl⟩
      obtain ⟨w, ws, rfl, hws, rfl⟩ := List.forall₂_cons_left_iff.1 h
      exact ⟨ws, hws, rfl⟩
  | before, (r, some c) :: cells, os, done, hnamed, hos => by
    have hr : named[os.length]? = some r := by simp [hnamed, hos]
    have hfree : (os ++ ((r, some c) :: cells).map fun _ => none)[os.length]? =
        some (none : Option Datum) := by simp
    have hentries : cellEntries ((r, some c) :: cells) =
        (.text r.field.name, c) :: cellEntries cells := rfl
    rw [hentries]
    cases hc : r.read c with
    | error f =>
      rw [Visit.slots, hkey _ r hr]
      simp only [hr, hfree, hc, reduceCtorEq, false_iff, not_exists, not_and]
      rintro ws h -
      obtain ⟨w, ws, ⟨d, hd, -⟩, -, -⟩ := List.forall₂_cons_left_iff.1 h
      cases hc.symm.trans hd
    | ok d =>
      have ih := slots_cells hkey all (before ++ [r]) cells (os ++ [some d]) (done + 1)
        (by simpa using hnamed) (by simp [hos])
      simp only [List.append_assoc, List.singleton_append] at ih
      rw [slots_known (σ := Snapshot) (hkey _ r hr) hr hfree hc]
      have hset : (os ++ ((r, some c) :: cells).map fun _ => none).set os.length (some d) =
          os ++ some d :: cells.map fun _ => none := by simp
      rw [hset]
      refine ih.trans ⟨?_, ?_⟩
      · rintro ⟨ws, hws, rfl⟩
        exact ⟨_, .cons ⟨d, hc, rfl⟩ hws, rfl⟩
      · rintro ⟨_, h, rfl⟩
        obtain ⟨w, ws, ⟨d', hd', rfl⟩, hws, rfl⟩ := List.forall₂_cons_left_iff.1 h
        obtain rfl := Except.ok.inj (hc.symm.trans hd')
        exact ⟨ws, hws, rfl⟩

/-- Fields that stand in no entry are missing, and the others have been read. -/
theorem fill_placed : ∀ {cells : List Cell} {ds : List Datum},
    (∃ ws, List.Forall₂ Cell.Placed cells ws ∧ Visit.fill (cells.map (·.1)) ws = .ok ds) ↔
      List.Forall₂ Cell.Gives cells ds
  | [], ds => by
    simp [Visit.fill, eq_comm]
  | (r, none) :: cells, ds => by
    rw [List.forall₂_cons_left_iff]
    constructor
    · rintro ⟨_, h, hfill⟩
      obtain ⟨w, ws, rfl, hws, rfl⟩ := List.forall₂_cons_left_iff.1 h
      obtain ⟨d, ds', hd, hds, rfl⟩ := Visit.fill_cons_eq_ok.1 hfill
      exact ⟨d, ds', hd, fill_placed.1 ⟨ws, hws, hds⟩, rfl⟩
    · rintro ⟨d, ds', hd, hds, rfl⟩
      obtain ⟨ws, hws, hfill⟩ := fill_placed.2 hds
      exact ⟨none :: ws, .cons rfl hws, Visit.fill_cons_eq_ok.2 ⟨d, ds', hd, hfill, rfl⟩⟩
  | (r, some c) :: cells, ds => by
    rw [List.forall₂_cons_left_iff]
    constructor
    · rintro ⟨_, h, hfill⟩
      obtain ⟨w, ws, ⟨d, hd, rfl⟩, hws, rfl⟩ := List.forall₂_cons_left_iff.1 h
      obtain ⟨d', ds', hd', hds, rfl⟩ := Visit.fill_cons_eq_ok.1 hfill
      obtain rfl := Except.ok.inj hd'
      exact ⟨d, ds', hd, fill_placed.1 ⟨ws, hws, hds⟩, rfl⟩
    · rintro ⟨d, ds', hd, hds, rfl⟩
      obtain ⟨ws, hws, hfill⟩ := fill_placed.2 hds
      exact ⟨some d :: ws, .cons ⟨d, hd, rfl⟩ hws,
        Visit.fill_cons_eq_ok.2 ⟨d, ds', rfl, hfill, rfl⟩⟩

theorem Visit.complete_own {σ : Type} : ∀ {readers : List (FieldReader σ)} {ds : List Datum}
    (left : List (Snapshot × Snapshot)), (∀ r ∈ readers, r.field.flattened = false) →
      ds.length = readers.length → complete false readers ds left = .ok ds
  | [], [], [], _, _ | [], [], _ :: _, _, _ => rfl
  | r :: readers, _ :: ds, left, hf, hlength =>
    have hrest : ∀ r ∈ readers, r.field.flattened = false := fun r hr =>
      hf r (List.mem_cons_of_mem _ hr)
    (complete_own_eq_ok (hf r List.mem_cons_self)).2
      ⟨ds, complete_own left hrest (Nat.succ.inj hlength), rfl⟩

theorem Visit.struct_cells (what : String) {cells : List Cell}
    (hf : ∀ x ∈ cells, x.1.field.flattened = false)
    (hn : (tagField :: fieldNames (cells.map (·.1))).Nodup) (t : Snapshot) (hint : Option Nat)
    {ds : List Datum} :
    (struct what false (cells.map (·.1))
        (.map ((.text tagField, t) :: cellEntries cells) hint)).result = .ok ds ↔
      List.Forall₂ Cell.Gives cells ds := by
  obtain ⟨htag, hn⟩ := List.nodup_cons.1 hn
  have hf : ∀ r ∈ cells.map (·.1), r.field.flattened = false := List.forall_mem_map.2 hf
  have hcollecting : (cells.map (·.1)).any (·.field.flattened) = false := by
    rw [List.any_eq_false]
    intro r hr
    simp [hf r hr]
  set readers := cells.map (·.1) with hreaders
  set readKey : Snapshot → Except Fault FieldKey := fun k =>
    consult .identifier k (fieldKey readers false false) with hreadKey
  have htag : readKey (.text tagField) = .ok (.other .unit) := fieldKey_unknown hf htag
  have hskip : slots readers readKey false 0 ⟨readers.map fun _ => none, []⟩
      ((.text tagField, t) :: cellEntries cells) =
      slots readers readKey false 1 ⟨readers.map fun _ => none, []⟩ (cellEntries cells) :=
    slots_unknown htag
  have hslots : ∀ all, (slots readers readKey false 1 ⟨readers.map fun _ => none, []⟩
      (cellEntries cells)).result = .ok all ↔
        ∃ ws, List.Forall₂ Cell.Placed cells ws ∧ all = ⟨ws, []⟩ := by
    intro all
    rw [hreaders, List.map_map]
    exact slots_cells (fun i r hr => fieldKey_known hf hn hr) all [] cells [] 1 rfl rfl
  have hcomplete : ∀ {own}, List.Forall₂ Cell.Gives cells own →
      complete false readers own [] = .ok own := fun h =>
    complete_own [] hf (by rw [← h.length_eq, hreaders, List.length_map])
  simp only [struct, hcollecting, filter_unflattened hf, ← hreadKey, hskip]
  constructor
  · intro h
    obtain ⟨all, hall, h⟩ := bind_eq_ok.1 h
    obtain ⟨own, hown, h⟩ := bind_eq_ok.1 h
    obtain ⟨ws, hws, rfl⟩ := (hslots all).1 hall
    have hgives := fill_placed.1 ⟨ws, hws, hown⟩
    obtain rfl := Except.ok.inj ((hcomplete hgives).symm.trans h)
    exact hgives
  · intro hgives
    obtain ⟨ws, hws, hfill⟩ := fill_placed.2 hgives
    exact bind_eq_ok.2
      ⟨_, (hslots _).2 ⟨ws, hws, rfl⟩, bind_eq_ok.2 ⟨ds, hfill, hcomplete hgives⟩⟩

/-- A struct that skips what it does not know is read field by field from its entries behind the
tag. -/
theorem Ty.read_cells {info : StructInfo} {fields : List (Field × Ty)} {cells : List Cell}
    (hcells : (fieldReaders fields : List (FieldReader Snapshot)) = cells.map (·.1))
    (hstrict : info.strict = false) (hf : ∀ f ∈ fields, f.1.flattened = false)
    (hn : (tagField :: namesOf fields).Nodup) (t : Snapshot) {d : Datum} :
    (Ty.struct info fields).read (Snapshot.map ((.text tagField, t) :: cellEntries cells)) =
        .ok d ↔
      ∃ ds, List.Forall₂ Cell.Gives cells ds ∧
        d = structDatum info.name (fields.map (·.1)) ds := by
  have hcollecting : fields.any (·.1.flattened) = false := by
    rw [List.any_eq_false]
    intro f hmem
    simp [hf f hmem]
  have hf : ∀ x ∈ cells, x.1.field.flattened = false := by
    have hany := any_flattened_fieldReaders (σ := Snapshot) fields
    rw [hcollecting, hcells, List.any_map, List.any_eq_false] at hany
    simpa using hany
  rw [← fieldNames_fieldReaders (σ := Snapshot), hcells] at hn
  simp only [Ty.read, hcollecting, hcells, hstrict]
  rw [consult_eq_ok]
  constructor
  · rintro ⟨a, ha, hd, -⟩
    obtain rfl := Except.ok.inj ha
    obtain ⟨ds, hds, rfl⟩ := map_eq_ok.1 hd
    exact ⟨ds, (Visit.struct_cells _ hf hn t _).1 hds, rfl⟩
  · rintro ⟨ds, hds, rfl⟩
    have hstruct := Visit.struct_perm
      (Visit.orderless_of_unflattened (List.forall_mem_map.2 hf)) (.refl _)
      ((Visit.struct_cells ("struct " ++ info.name) hf hn t none).2 hds)
      (some (cellEntries cells).length.succ)
    refine ⟨_, rfl, ?_, ?_⟩
    · exact map_eq_ok.2 ⟨ds, congrArg (·.result) hstruct, rfl⟩
    · exact Snapshot.closing_map.2 (congrArg (·.progress.begun) hstruct).ge

/-! ## Fields with their values -/

/-- A field of a struct, its type and the value it holds. -/
structure FilledField where
  field : Field
  type : Ty
  value : Datum

namespace FilledField

def typed (f : FilledField) : Field × Ty := (f.field, f.type)

/-- The value as it is written, if it is. -/
def shown? (f : FilledField) : Option Datum := (f.field.written f.value).2

def reader (f : FilledField) : FieldReader Snapshot :=
  ⟨f.field, f.type.isOption, f.type.read, f.type.readFlattened⟩

/-- What a field is read as again : from what is kept of the text of its value, or as a missing
one. -/
def Rereads (f : FilledField) (e : Datum) : Prop :=
  match f.shown? with
  | some d => ∃ c, Keeps d.json.out c ∧ f.type.read c = .ok e
  | none => f.reader.missing = .ok e

/-- Whether a field stands under its own name, and its value can be written inside a union. -/
structure Writable (f : FilledField) : Prop where
  unflattened : f.field.flattened = false
  plain : f.value.plain
  written : f.value.json.fault = none
  nesting : f.value.nesting < Json.depthLimit

/-- The texts of the fields that are written, under their names. -/
def members (fs : List FilledField) : List (String × String) :=
  fs.filterMap fun f => f.shown?.map fun d => (f.field.name, d.json.out)

variable {f : FilledField} {fs : List FilledField}

theorem value_of_shown? {d : Datum} (h : f.shown? = some d) : d = f.value := by
  unfold shown? Field.written at h
  split at h
  · nomatch h
  · nomatch h
  · exact (Option.some.inj h).symm

theorem written_eq (f : FilledField) : f.field.written f.value = (f.field.name, f.shown?) := by
  unfold shown? Field.written
  split <;> rfl

theorem rereads_some {d e : Datum} (h : f.shown? = some d) :
    f.Rereads e ↔ ∃ c, Keeps d.json.out c ∧ f.type.read c = .ok e := by
  rw [Rereads, h]

theorem rereads_none {e : Datum} (h : f.shown? = none) :
    f.Rereads e ↔ f.reader.missing = .ok e := by
  rw [Rereads, h]

/-- A field is read as one value again at most. -/
theorem Rereads.unique {e e' : Datum} (h : f.Rereads e) (h' : f.Rereads e') : e = e' := by
  cases hshown : f.shown? with
  | none =>
    have hread := (rereads_none hshown).1 h
    exact Except.ok.inj (hread.symm.trans ((rereads_none hshown).1 h'))
  | some d =>
    obtain ⟨c, hc, hread⟩ := (rereads_some hshown).1 h
    obtain ⟨c', hc', hread'⟩ := (rereads_some hshown).1 h'
    obtain rfl := hc.unique hc'
    exact Except.ok.inj (hread.symm.trans hread')

theorem fragments_members (hfs : ∀ f ∈ fs, f.Writable) : ∀ m ∈ members fs, Fragment 1 m.2 := by
  intro m hm
  obtain ⟨f, hf, hm⟩ := List.mem_filterMap.1 hm
  obtain ⟨d, hd, rfl⟩ := Option.map_eq_some_iff.1 hm
  obtain rfl := value_of_shown? hd
  have hnesting := (hfs f hf).nesting
  exact f.value.fragment (hfs f hf).plain (Emission.eq_pure (hfs f hf).written) (by omega)

/-! ### From fields to cells -/

/-- The cell of a field : its value is what is kept of the text of the field's value. -/
def Fills (f : FilledField) (x : Cell) : Prop :=
  x.1 = f.reader ∧ match f.shown? with
    | some d => ∃ c, x.2 = some c ∧ Keeps d.json.out c
    | none => x.2 = none

theorem rereads_iff_fills {e : Datum} : f.Rereads e ↔ ∃ x, f.Fills x ∧ Cell.Gives x e := by
  unfold Fills
  cases hshown : f.shown? with
  | none =>
    rw [rereads_none hshown]
    constructor
    · exact fun h => ⟨(f.reader, none), ⟨rfl, rfl⟩, h⟩
    · rintro ⟨⟨_, _⟩, ⟨rfl, rfl⟩, h⟩
      exact h
  | some d =>
    rw [rereads_some hshown]
    constructor
    · rintro ⟨c, hc, h⟩
      exact ⟨(f.reader, some c), ⟨rfl, c, rfl, hc⟩, h⟩
    · rintro ⟨⟨_, _⟩, ⟨rfl, c, rfl, hc⟩, h⟩
      exact ⟨c, hc, h⟩

theorem map_reader_of_fills {cells : List Cell} (h : List.Forall₂ Fills fs cells) :
    cells.map (·.1) = fs.map reader := by
  induction h with
  | nil => rfl
  | cons h _ ih => rw [List.map_cons, List.map_cons, h.1, ih]

/-- What is kept of the members are the entries of cells that the fields fill. -/
theorem memberKept_iff_fills : ∀ {fs : List FilledField} {es : List (Snapshot × Snapshot)},
    List.Forall₂ MemberKept (members fs) es ↔
      ∃ cells, List.Forall₂ Fills fs cells ∧ cellEntries cells = es
  | [], es => by
    simp [members, cellEntries, eq_comm]
  | f :: fs, es => by
    have ih := @memberKept_iff_fills fs
    cases hshown : f.shown? with
    | none =>
      have hmembers : members (f :: fs) = members fs := by simp [members, hshown]
      rw [hmembers, ih]
      constructor
      · rintro ⟨cells, hcells, rfl⟩
        exact ⟨(f.reader, none) :: cells, .cons (by simp [Fills, hshown]) hcells, rfl⟩
      · rintro ⟨_, h, rfl⟩
        obtain ⟨⟨r, o⟩, cells, ⟨-, hx⟩, hcells, rfl⟩ := List.forall₂_cons_left_iff.1 h
        rw [hshown] at hx
        obtain rfl : o = none := hx
        exact ⟨cells, hcells, rfl⟩
    | some d =>
      have hmembers : members (f :: fs) = (f.field.name, d.json.out) :: members fs := by
        simp [members, hshown]
      rw [hmembers, List.forall₂_cons_left_iff]
      constructor
      · rintro ⟨⟨k, c⟩, es, ⟨hk, hc⟩, hes, rfl⟩
        obtain rfl : k = .text f.field.name := hk
        obtain ⟨cells, hcells, rfl⟩ := ih.1 hes
        exact ⟨(f.reader, some c) :: cells, .cons ⟨rfl, by simpa [hshown] using hc⟩ hcells, rfl⟩
      · rintro ⟨_, h, rfl⟩
        obtain ⟨⟨r, o⟩, cells, ⟨hr, hx⟩, hcells, rfl⟩ := List.forall₂_cons_left_iff.1 h
        rw [hshown] at hx
        obtain ⟨c, rfl, hc⟩ := hx
        obtain rfl : r = f.reader := hr
        exact ⟨(.text f.field.name, c), cellEntries cells, ⟨rfl, hc⟩, ih.2 ⟨cells, hcells, rfl⟩,
          rfl⟩

theorem rereads_iff_gives : ∀ {fs : List FilledField} {es : List Datum},
    List.Forall₂ Rereads fs es ↔
      ∃ cells, List.Forall₂ Fills fs cells ∧ List.Forall₂ Cell.Gives cells es
  | [], es => by simp
  | f :: fs, es => by
    rw [List.forall₂_cons_left_iff]
    constructor
    · rintro ⟨e, es, he, hes, rfl⟩
      obtain ⟨x, hx, hgives⟩ := rereads_iff_fills.1 he
      obtain ⟨cells, hcells, hrest⟩ := rereads_iff_gives.1 hes
      exact ⟨x :: cells, .cons hx hcells, .cons hgives hrest⟩
    · rintro ⟨_, h, hgives⟩
      obtain ⟨x, cells, hx, hcells, rfl⟩ := List.forall₂_cons_left_iff.1 h
      obtain ⟨e, es, he, hes, rfl⟩ := List.forall₂_cons_left_iff.1 hgives
      exact ⟨e, es, rereads_iff_fills.2 ⟨x, hx, he⟩, rereads_iff_gives.2 ⟨cells, hcells, hes⟩, rfl⟩

/-! ### A union of such fields -/

theorem fieldReaders_typed : ∀ fs : List FilledField,
    (fieldReaders (fs.map typed) : List (FieldReader Snapshot)) = fs.map reader
  | [] => rfl
  | f :: fs => congrArg (f.reader :: ·) (fieldReaders_typed fs)

theorem map_name_members_sublist : ∀ fs : List FilledField,
    ((members fs).map (·.1)).Sublist (namesOf (fs.map typed))
  | [] => .slnil
  | f :: fs => by
    have ih := map_name_members_sublist fs
    have hnames : namesOf ((f :: fs).map typed) =
        f.field.name :: (f.field.aliases ++ namesOf (fs.map typed)) := rfl
    have hrest := ih.trans (List.sublist_append_right f.field.aliases _)
    rw [hnames]
    cases hshown : f.shown? with
    | none => simpa [members, hshown] using hrest.cons _
    | some d => simpa [members, hshown] using hrest.cons_cons f.field.name

theorem presentFields_written (fs : List FilledField) :
    presentFields (List.zipWith Field.written (fs.map (·.field)) (fs.map (·.value))) =
      fs.filterMap fun f => f.shown?.map (f.field.name, ·) := by
  rw [List.zipWith_map, List.zipWith_self, presentFields, List.filterMap_map]
  exact List.filterMap_congr fun f _ => by rw [Function.comp_apply, written_eq]

/-- A union of such fields is written as its tag and their texts. -/
theorem json_union (hfs : ∀ f ∈ fs, f.Writable) (tag name : String) :
    (Tagged.mk tag (structDatum name (fs.map (·.field)) (fs.map (·.value)))).datum.json =
      .pure (unionText tag (members fs)) := by
  have hflat : (fs.map (·.field)).any (·.flattened) = false := by
    rw [List.any_eq_false]
    exact List.forall_mem_map.2 fun f hf => by simp [(hfs f hf).unflattened]
  have hp : (structDatum name (fs.map (·.field)) (fs.map (·.value))).named? =
      some (fs.filterMap fun f => f.shown?.map (f.field.name, ·)) := by
    rw [structDatum, hflat, ← presentFields_written]
    rfl
  obtain ⟨items, hitems, hnamed⟩ := Tagged.named?_datum tag hp
  have hes : ∀ e ∈ (tagField, .text tag) :: fs.filterMap fun f => f.shown?.map (f.field.name, ·),
      e.2.json.fault = none := by
    refine List.forall_mem_cons.2 ⟨rfl, fun e he => ?_⟩
    obtain ⟨f, hf, he⟩ := List.mem_filterMap.1 he
    obtain ⟨d, hd, rfl⟩ := Option.map_eq_some_iff.1 he
    obtain rfl := value_of_shown? hd
    exact (hfs f hf).written
  have hmembers : members fs = (fs.filterMap fun f => f.shown?.map (f.field.name, ·)).map
      fun e => (e.1, e.2.json.out) := by
    rw [List.map_filterMap, members]
    exact List.filterMap_congr fun f _ => by rw [Option.map_map]; rfl
  rw [hitems, Datum.json, jsonItems_named true hnamed, jsonItems_underTexts true hes,
    Json.commas_true]
  refine Emission.enclosed_eq_pure.2 ⟨_, rfl, ?_⟩
  rw [unionText, objectText, hmembers, List.map_cons, List.map_cons, List.map_map]
  rfl

/-- A union of such fields is read field by field. -/
theorem read_union (hfs : ∀ f ∈ fs, f.Writable) {variants : List (String × Ty)}
    (hn : (variants.map (·.1)).Nodup) {i : Nat} {tag : String} {info : StructInfo}
    (hv : variants[i]? = some (tag, .struct info (fs.map typed))) (hstrict : info.strict = false)
    (hnames : (tagField :: namesOf (fs.map typed)).Nodup) {x : Tagged} :
    readWhole (Tagged.read variants) (unionText tag (members fs)) = .ok x ↔
      ∃ es, List.Forall₂ Rereads fs es ∧
        x = ⟨tag, structDatum info.name (fs.map (·.field)) es⟩ := by
  have hkeys : (tagField :: (members fs).map (·.1)).Nodup :=
    hnames.sublist ((map_name_members_sublist fs).cons_cons tagField)
  have hf : ∀ f ∈ fs.map typed, f.1.flattened = false :=
    List.forall_mem_map.2 fun f hf => (hfs f hf).unflattened
  have hmap : (fs.map typed).map (·.1) = fs.map (·.field) := List.map_map
  have hread := readUnion_unionText (by rwa [map_tag_payloadReaders])
    (getElem?_payloadReaders hv) (fragments_members hfs) hkeys (x := x)
  refine hread.trans ?_
  constructor
  · rintro ⟨es, d, hes, hd, rfl⟩
    obtain ⟨cells, hcells, rfl⟩ := memberKept_iff_fills.1 hes
    obtain ⟨ds, hds, rfl⟩ := (Ty.read_cells ((fieldReaders_typed fs).trans
      (map_reader_of_fills hcells).symm) hstrict hf hnames _).1 hd
    exact ⟨ds, rereads_iff_gives.2 ⟨cells, hcells, hds⟩, by rw [hmap]⟩
  · rintro ⟨ds, hds, rfl⟩
    obtain ⟨cells, hcells, hgives⟩ := rereads_iff_gives.1 hds
    refine ⟨_, _, memberKept_iff_fills.2 ⟨cells, hcells, rfl⟩, (Ty.read_cells
      ((fieldReaders_typed fs).trans (map_reader_of_fills hcells).symm) hstrict hf hnames _).2
        ⟨ds, hgives, rfl⟩, by rw [hmap]⟩

end FilledField

end FlatUnion
