import FlatUnion.Proofs.KeptTag
import FlatUnion.Proofs.Variants

/-!
# Writing what was read of the catalog

Every union of the catalog is written and read again unless its payload has kept the tag
(`Catalog.reencodes_iff`). Most payloads are decided by their form (`Catalog.unsettled_payloads`).
For the others it is followed through what they read : a struct that takes the tag for a field it
never writes, one with flattened fields, and enums whose variants are told by other fields than the
union's or not at all.
-/

namespace FlatUnion.Catalog

open Replaying (of)

/-! ## Payloads that are decided by their form -/

/-- Whether it is decided by its form that a payload returns. -/
def settled (v : String × Ty) : Bool := v.2.bears || v.2.keeps

theorem returns_of_settled {v : String × Ty} (h : settled v) : v.2.Returns v.1 :=
  (Bool.or_eq_true_iff.1 h).elim (fun h => Ty.returns_of_bears h v.1) fun h =>
    Ty.KeepsTag.returns (Ty.keepsTag_of_keeps h) v.1

/-- All payloads of the catalog are decided by their form but five. -/
theorem unsettled_payloads : (unions.flatMap (·.2)).filter (fun v => !settled v) =
    [("number", tagged), ("Deep", deep), ("internal", internal), ("adjacent", adjacent),
     ("untagged", untagged)] :=
  rfl

theorem tags_nodup : ∀ u ∈ unions, (u.2.map (·.1)).Nodup := by
  decide

/-! ## Payloads that are not -/

theorem read_int {σ : Type} [Replaying σ] {w : Width} {n : Int} (hn : w.fits n) :
    (Ty.int w).read (of (.int w n) : σ) = .ok (.int w n) :=
  Ty.read_shown false (t := .int w) (d := .int w n) rfl ⟨n, hn, rfl⟩

theorem has_int {w : Width} {f : Field} {d : Datum} (hf : f.default = none)
    (h : (Ty.int w).Has false d ∨ f.default = some d) : ∃ n, w.fits n ∧ d = .int w n :=
  h.elim id fun h => nomatch hf.symm.trans h

/-- A struct that reads the tag into a field that it never writes. -/
theorem tagged_returns (tag : String) : tagged.Returns tag := by
  intro kept c d _ _ _ hread _
  obtain ⟨values, rfl, e, rest, rfl, _, v, last, rfl, hv, rfl⟩ := tagged.has_of_read_map hread
  obtain ⟨n, hn, rfl⟩ := has_int rfl hv
  refine ⟨[("value", .int .u32 n)], rfl, by simp [Datum.plain], by simp, fun marks => ?_⟩
  show tagged.read (Snapshot.map
    [(.text tagField, .text tag), (.text "value", .int .u32 n)]) = _
  rw [tagged, Ty.read]
  refine consult_map (σ := Snapshot) .struct _ rfl (by simp) rfl rfl ?_
  simp only [Visit.struct, List.map_cons, entryOf_mk]
  rw [slots_known (σ := Snapshot) (i := 0) (d := .text tag),
    slots_known (σ := Snapshot) (i := 1) (d := .int .u32 n)]
  -- all else computes, but that the integer is in range is known by hypothesis only
  any_goals rfl
  exact read_int hn

theorem has_message {name field : String} {f : Field} {d : Datum} (hf : f.default = none)
    (h : (Ty.struct { name } [({ name := field }, .text)]).Has false d ∨ f.default = some d) :
    ∃ s, d = .struct name [(field, some (.text s))] := by
  obtain ⟨_, rfl, _, _, rfl, ⟨s, rfl⟩ | h, rfl⟩ | h := h
  · exact ⟨s, rfl⟩
  · nomatch h
  · nomatch hf.symm.trans h

/-- A struct with flattened fields is read beside the tag from a field of its own, that of the first
flattened one, and that of the second if it is there. -/
theorem read_deep (tag s : String) {n : Int} (hn : Width.u32.fits n) {d : Datum}
    {left : List (Snapshot × Snapshot)}
    (hleft : left = [] ∧ d = .none ∨ ∃ u, left = [(.text "url", .text u)] ∧
      d = .some (.struct "MediaMessage" [("url", some (.text u))])) :
    deep.read (Snapshot.map ((.text tagField, .text tag) :: (.text "id", .int .u32 n) ::
        (.text "text", .text s) :: left)) =
      .ok (.map (.entry (.text "id") (.int .u32 n) :: .entry (.text "text") (.text s) ::
        d.inlined)) := by
  rw [deep, Ty.read]
  refine consult_map (σ := Snapshot) .map _ rfl (by simp) rfl rfl ?_
  simp only [Visit.struct, List.map_cons, entryOf_mk]
  rw [slots_collected (σ := Snapshot) (c := .text tag),
    slots_known (σ := Snapshot) (i := 0) (d := .int .u32 n)]
  any_goals rfl
  · obtain ⟨rfl, rfl⟩ | ⟨u, rfl, rfl⟩ := hleft <;> rfl
  · exact read_int hn

/-- A struct with flattened fields, none of which takes the tag. -/
theorem deep_returns (tag : String) : deep.Returns tag := by
  intro kept c d _ _ _ hread _
  obtain ⟨values, rfl, e, rest, rfl, he, v, last, rfl, hv, w, last, rfl, hw, rfl⟩ :=
    deep.has_of_read_map hread
  obtain ⟨n, hn, rfl⟩ := has_int rfl he
  obtain ⟨s, rfl⟩ := has_message rfl hv
  obtain (⟨-, rfl⟩ | ⟨x, rfl, hx⟩) | h := hw
  · exact ⟨[("id", .int .u32 n), ("text", .text s)], rfl, by simp [Datum.plain], by simp,
      fun marks => read_deep tag s hn (.inl ⟨rfl, rfl⟩)⟩
  · obtain ⟨u, rfl⟩ := has_message (f := { name := "rest" }) rfl (.inl hx)
    exact ⟨[("id", .int .u32 n), ("text", .text s), ("url", .text u)], rfl,
      by simp [Datum.plain], by simp, fun marks => read_deep tag s hn (.inr ⟨u, rfl, rfl⟩)⟩
  · nomatch h

/-- The one field of a struct variant is read again behind other entries. -/
theorem consult_x {σ : Type} [Replaying σ] {n : Int} (hn : Width.u8.fits n)
    (others : List (String × Snapshot)) (hothers : ∀ e ∈ others, e.1 ≠ "x") (what : String) :
    consult .any (of (.map (others.map (fun e => (Snapshot.text e.1, e.2)) ++
        [(Snapshot.text "x", Snapshot.int .u8 n)])) : σ)
      (Visit.struct what false (fieldReaders [({ name := "x" }, .int .u8)])) =
        .ok [.int .u8 n] := by
  have hfields : fieldsHave [({ name := "x" }, .int .u8)] [.int .u8 n] :=
    ⟨_, _, rfl, .inl ⟨n, hn, rfl⟩, rfl⟩
  exact consult_fields_shown false rfl (by decide) hfields others
    (by simpa [namesOf] using hothers) what

/-- An enum whose variant is told by a field of its own. -/
theorem internal_returns (tag : String) : internal.Returns tag := by
  intro kept c d _ _ _ hread _
  obtain ⟨i, variant, content, rfl, hvariant⟩ := internal.has_of_read_map hread
  match i, variant, content, hvariant with
  | 0, _, .struct _, ⟨rfl, values, rfl, hvalues⟩ =>
    obtain ⟨v, _, rfl, hv, rfl⟩ : fieldsHave [({ name := "x" }, .int .u8)] values := hvalues
    obtain ⟨n, hn, rfl⟩ := has_int rfl hv
    refine ⟨[("kind", .text "A"), ("x", .int .u8 n)], rfl, by simp [Datum.plain], by simp,
      fun marks => ?_⟩
    rw [internal, Ty.read]
    refine Visit.internalEnum_told (i := 0) (x := .struct [("x", some (.int .u8 n))]) rfl rfl rfl ?_
    exact Visit.taggedContent_struct rfl
      (consult_x hn [(tagField, .text tag)] (by simp [tagField])) rfl
  | 1, _, .newtype d, ⟨rfl, hd⟩ =>
    obtain ⟨s, rfl⟩ := has_message (f := { name := "text" }) rfl (.inl hd)
    exact ⟨[("kind", .text "B"), ("text", .text s)], rfl, by simp [Datum.plain], by simp,
      fun marks => rfl⟩
  | 2, _, .unit, ⟨rfl, _⟩ =>
    exact ⟨[("kind", .text "C")], rfl, by simp [Datum.plain], by simp, fun marks => rfl⟩

/-- An enum whose variant is told beside its content. -/
theorem adjacent_returns (tag : String) : adjacent.Returns tag := by
  intro kept c d _ _ _ hread _
  obtain ⟨i, variant, content, rfl, hvariant⟩ := adjacent.has_of_read_map hread
  match i, variant, content, hvariant with
  | 0, _, .newtype d, ⟨rfl, hd⟩ =>
    obtain ⟨n, hn, rfl⟩ := has_int (f := { name := "c" }) rfl (.inl hd)
    refine ⟨[("t", .unitVariant ⟨"Adjacent", 0, "A"⟩), ("c", .int .u8 n)], rfl,
      by simp [Datum.plain], by simp, fun marks => ?_⟩
    rw [adjacent, Ty.read]
    refine bind_eq_ok.2 ⟨(0, .newtype (.int .u8 n)), ?_, rfl⟩
    exact consult_adjacent (σ := Snapshot) rfl rfl rfl rfl rfl
      (Visit.bareContent_newtype (σ := Snapshot) rfl (read_int hn))
  | 1, _, .struct _, ⟨rfl, values, rfl, hvalues⟩ =>
    obtain ⟨v, _, rfl, hv, rfl⟩ : fieldsHave [({ name := "x" }, .int .u8)] values := hvalues
    obtain ⟨n, hn, rfl⟩ := has_int rfl hv
    refine ⟨[("t", .unitVariant ⟨"Adjacent", 1, "B"⟩),
      ("c", .struct "B" [("x", some (.int .u8 n))])], rfl, by simp [Datum.plain, fieldsPlain],
      by simp, fun marks => ?_⟩
    rw [adjacent, Ty.read]
    refine bind_eq_ok.2 ⟨(1, .struct [("x", some (.int .u8 n))]), ?_, rfl⟩
    exact consult_adjacent (σ := Snapshot) rfl rfl rfl rfl rfl
      (Visit.bareContent_struct (σ := Snapshot) rfl (consult_x hn [] nofun) rfl)
  | 2, _, .unit, ⟨rfl, _⟩ =>
    exact ⟨[("t", .unitVariant ⟨"Adjacent", 2, "C"⟩)], rfl, by simp [Datum.plain], by simp,
      fun marks => rfl⟩

/-- An enum whose variant is not told, but found. -/
theorem untagged_returns (tag : String) : untagged.Returns tag := by
  intro kept c d _ hc _ hread hfield
  obtain ⟨c', hc', h⟩ := bind_eq_ok.1 hread
  obtain rfl := Snapshot.eq_of_setAside hc'
  obtain ⟨r, hr, x, hx, rfl⟩ := Visit.untaggedEnum_eq_ok h
  simp only [variantReaders, List.mem_cons, List.not_mem_nil, or_false] at hr
  obtain rfl | rfl | rfl := hr
  · obtain ⟨e, he, hx⟩ := bind_eq_ok.1 hx
    obtain rfl := Except.ok.inj hx
    obtain ⟨s, rfl⟩ := has_message (f := { name := "text" }) rfl (.inl (textMessage.has_of_read he))
    exact ⟨[("text", .text s)], rfl, by simp [Datum.plain], by simp, fun marks => rfl⟩
  · obtain ⟨e, he, hx⟩ := bind_eq_ok.1 hx
    obtain rfl := Except.ok.inj hx
    obtain ⟨s, rfl⟩ := has_message (f := { name := "url" }) rfl (.inl (mediaMessage.has_of_read he))
    exact ⟨[("url", .text s)], rfl, by simp [Datum.plain], by simp, fun marks => rfl⟩
  -- the map that stands last takes whatever is left, the tag with it
  · obtain ⟨e, he, hx⟩ := bind_eq_ok.1 hx
    obtain rfl := Except.ok.inj hx
    exact absurd (Ty.map_text_keeps (σ := Exacting) hc he) hfield

/-- Every payload of the catalog is given back from what is written of it, unless it has kept the
tag. -/
theorem returns_of_mem {v : String × Ty} (hv : v ∈ unions.flatMap (·.2)) : v.2.Returns v.1 := by
  cases hs : settled v with
  | true => exact returns_of_settled hs
  | false =>
    have hv : v ∈ (unions.flatMap (·.2)).filter fun v => !settled v :=
      List.mem_filter.2 ⟨hv, by rw [hs]; rfl⟩
    rw [unsettled_payloads] at hv
    simp only [List.mem_cons, List.not_mem_nil, or_false] at hv
    obtain rfl | rfl | rfl | rfl | rfl := hv
    · exact tagged_returns _
    · exact deep_returns _
    · exact internal_returns _
    · exact adjacent_returns _
    · exact untagged_returns _

/-! ## The unions -/

/-- What is read as a union of the catalog is written as a map of different texts and read again
from it exactly if the payload has not kept the tag among its own entries. -/
theorem reencodes_iff {u : String × List (String × Ty)} (hu : u ∈ unions) {σ : Type} [Source σ]
    {s : σ} {x : Tagged} (hx : Tagged.read u.2 s = .ok x) :
    x.Reencodes u.2 ↔ tagField ∉ Item.keys x.payload.flatten :=
  Tagged.reencodes_iff_of_returns (tags_nodup u hu)
    (fun _ hv => returns_of_mem (List.mem_flatMap.2 ⟨u, hu, hv⟩)) hx

/-- A map whose entries stand in another order than they are written in. -/
def unordered : Offered :=
  ⟨.map [(.scalar (.text .passing "url"), .scalar (.text .owned "u")),
    (.scalar (.text .owned "id"), .scalar (.int .u8 7)),
    (.scalar (.text .owned "type"), .scalar (.text .lasting "Deep")),
    (.scalar (.text .owned "text"), .scalar (.text .passing "t"))] none, false⟩

theorem reencodes_iff_flattenedFields :
    ("Packet", [("Envelope", envelope), ("Deep", deep)]) ∈ unions ∧
      ∃ x, Tagged.read [("Envelope", envelope), ("Deep", deep)] unordered = .ok x ∧
        x.tag = "Deep" ∧ x.Reencodes [("Envelope", envelope), ("Deep", deep)] := by
  have hu : ("Packet", [("Envelope", envelope), ("Deep", deep)]) ∈ unions :=
    List.mem_of_getElem? (i := 11) rfl
  have hx : Tagged.read [("Envelope", envelope), ("Deep", deep)] unordered =
      .ok ⟨"Deep", .map [.entry (.text "id") (.int .u32 7), .entry (.text "text") (.text "t"),
        .entry (.text "url") (.text "u")]⟩ := rfl
  exact ⟨hu, _, hx, rfl, (reencodes_iff hu hx).2 (by decide)⟩

/-- A map that has kept the tag is written with two tags, and what was written is refused. -/
theorem attributes_not_reencoded :
    ∃ u ∈ unions, ∃ (x : Tagged) (items : List (Item Datum)),
      Tagged.read u.2 (⟨.map [(.scalar (.text .owned "type"), .scalar (.text .owned "attrs")),
        (.scalar (.text .owned "size"), .scalar (.int .u64 3))] none, true⟩ : Offered) = .ok x ∧
      x.datum.record = .ok (.map items) ∧ Item.keys items = ["type", "size", "type"] ∧
      Tagged.read u.2 (⟨((Datum.map items).shown false).toOffer, true⟩ : Offered) =
        .error (.custom "duplicate field `type`") ∧
      ¬ x.Reencodes u.2 := by
  have hu : ("Maps", _) ∈ unions := List.mem_of_getElem? (i := 10) rfl
  refine ⟨_, hu, _, _, rfl, rfl, rfl, rfl, ?_⟩
  rintro ⟨items, hrecord, hkeys, -⟩
  obtain rfl := Datum.map.inj (Except.ok.inj hrecord)
  exact absurd hkeys (by decide)

end FlatUnion.Catalog
