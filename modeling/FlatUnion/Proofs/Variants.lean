import FlatUnion.Proofs.Rereading

/-!
# Reading variants that were told

An enum whose variant is told by a field is read once its tag and its content are : in the internal
form from what is left of the entries (`Visit.internalEnum_told`), in the adjacent form from the
entry of the content (`consult_adjacent`). The fields of a variant are read again like those of a
struct, also behind entries that are none of them (`consult_fields_shown`).
-/

namespace FlatUnion

open Replaying (of)

variable {σ : Type} {enum tag content : String}

/-- An enum in the internal form is read from its tag and the content that is left. -/
theorem Visit.internalEnum_told [Source σ] {readers : List (VariantReader Exacting)} {s : σ}
    {i : Nat} {c : Snapshot} {r : VariantReader Exacting} {x : VariantContent}
    (htag : consult .any s (Visit.tagged enum tag fun v =>
      consult .identifier v (Visit.variant (readers.map (·.name)))) = .ok (i, c))
    (hr : readers[i]? = some r) {name : String} (hname : r.name = name)
    (hx : Visit.taggedContent enum r c = .ok x) :
    Visit.internalEnum enum tag readers s = .ok (Visit.taggedDatum enum tag name x) := by
  simp only [Visit.internalEnum, htag, Visit.pick_eq_ok.2 hr, hx, hname, bind, Except.bind, pure,
    Except.pure]

/-- An enum in the adjacent form passes over an entry before its tag and its content. -/
theorem consult_adjacent [Replaying σ] {readers : List (VariantReader σ)}
    {kept : List (VariantReader Exacting)} {other variant : String} {c v : Snapshot} {i : Nat}
    {r : VariantReader σ} {x : VariantContent}
    (hother : consult .identifier (of (.text other) : σ) (Visit.adjacentKey tag content) =
      .ok .other)
    (htag : consult .identifier (of (.text tag) : σ) (Visit.adjacentKey tag content) = .ok .tag)
    (hcontent : consult .identifier (of (.text content) : σ) (Visit.adjacentKey tag content) =
      .ok .content)
    (hvariant : consult .enum (of (.text variant) : σ)
      (Visit.adjacentTag enum (readers.map (·.name))) = .ok i)
    (hr : readers[i]? = some r) (hx : Visit.bareContent enum r (of v) = .ok x) :
    consult .struct
        (of (.map [(.text other, c), (.text tag, .text variant), (.text content, v)]) : σ)
        (Visit.adjacentEnum enum tag content readers kept) = .ok (i, x) := by
  refine consult_map .struct _ rfl (by simp) rfl rfl ?_
  simp only [Visit.adjacentEnum, List.map_cons, List.map_nil, entryOf_mk, Visit.adjacentEntries,
    hother, htag, hcontent, hvariant, Visit.pick_eq_ok.2 hr, hx, Replaying.skip_of, Except.map,
    bind, Except.bind, pure, Except.pure]
  rfl

theorem Visit.bareContent_newtype [Source σ] {r : VariantReader σ} {s : σ} {d : Datum}
    (hform : r.form = .newtype) (h : r.read s = .ok d) :
    Visit.bareContent enum r s = .ok (.newtype d) := by
  simp only [Visit.bareContent, hform, h, bind, Except.bind, pure, Except.pure]

theorem Visit.bareContent_struct [Source σ] {r : VariantReader σ} {s : σ} {ds : List Datum}
    {fields : List (String × Option Datum)} (hform : r.form = .struct)
    (h : ∀ what, consult .any s (Visit.struct what false r.fields) = .ok ds)
    (hfields : r.written ds = fields) :
    Visit.bareContent enum r s = .ok (.struct fields) := by
  simp only [Visit.bareContent, hform, h, hfields, bind, Except.bind, pure, Except.pure]

theorem Visit.taggedContent_struct {r : VariantReader Exacting} {c : Snapshot} {ds : List Datum}
    {fields : List (String × Option Datum)} (hform : r.form = .struct)
    (h : ∀ what, consult .any (of c : Exacting) (Visit.struct what false r.fields) = .ok ds)
    (hfields : r.written ds = fields) :
    Visit.taggedContent enum r c = .ok (.struct fields) := by
  rw [Visit.taggedContent, hform]
  exact Visit.bareContent_struct hform h hfields

/-- Fields are read again behind other entries, also where nothing in particular is asked for. -/
theorem consult_fields_shown [Replaying σ] (marks : Bool) {fields : List (Field × Ty)}
    {ds : List Datum} (hfields : fieldsRegular fields) (hn : (namesOf fields).Nodup)
    (hds : fieldsHave fields ds) (others : List (String × Snapshot))
    (hothers : ∀ e ∈ others, e.1 ∉ namesOf fields) (what : String) :
    consult .any (of (.map (others.map (fun e => (Snapshot.text e.1, e.2)) ++
        shownFields marks (List.zipWith Field.written (fields.map (·.1)) ds))) : σ)
      (Visit.struct what false (fieldReaders fields)) = .ok ds := by
  rw [← fieldNames_fieldReaders (σ := σ)] at hn hothers
  rw [← map_field_fieldReaders (σ := σ)]
  refine consult_map .any _ rfl (by simp) rfl rfl ?_
  exact struct_shown hn (fields_shown marks hfields hds) others hothers (by simp) _

end FlatUnion
