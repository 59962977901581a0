import FlatUnion.Catalog
import FlatUnion.Proofs.Rereading
import FlatUnion.Proofs.RoundTrip

/-!
# Writing what was read

What is read of a union can be written and read again, unless the payload has kept the entry of the
tag among its own. Then the tag is written twice, and what is written is no longer read.

`Ty.Returns` says of one payload that it is given back from what is written beside its tag whenever
it has not kept the tag, and `Tagged.reencodes_iff_of_returns` says of a whole union of such
payloads which of its values are written and read again.
-/

namespace FlatUnion

/-! ## Entries under texts -/

/-- The text of the key that a call begins. -/
def Item.keyText? : Item Datum → Option String
  | .entry k _ | .key k => k.asText?
  | .value _ | .fail _ => none

/-- The texts that stand as keys among the calls on an open map. -/
def Item.keys (items : List (Item Datum)) : List String := items.filterMap keyText?

/-- Whole entries under texts. -/
def entryItems (es : List (String × Datum)) : List (Item Datum) :=
  es.map fun e => .entry (.text e.1) e.2

theorem keys_entryItems (es : List (String × Datum)) :
    Item.keys (entryItems es) = es.map (·.1) := by
  induction es with
  | nil => rfl
  | cons e rest ih => exact congrArg (e.1 :: ·) ih

theorem fieldItems_eq_entryItems (fields : List (String × Option Datum)) :
    fieldItems fields = entryItems (presentFields fields) := by
  induction fields with
  | nil => rfl
  | cons field rest ih =>
    obtain ⟨name, _ | d⟩ := field
    · exact ih
    · rw [fieldItems, ih]
      rfl

theorem keys_shownItems (marks : Bool) (es : List (String × Datum)) :
    Snapshot.keys (shownItems marks (entryItems es)) = es.map (·.1) := by
  induction es with
  | nil => rfl
  | cons e rest ih => exact congrArg (e.1 :: ·) ih

theorem itemsPlain_entryItems {es : List (String × Datum)} :
    itemsPlain (entryItems es) ↔ ∀ e ∈ es, e.2.plain := by
  induction es with
  | nil => simp [entryItems, itemsPlain]
  | cons e rest ih =>
    have hcons : entryItems (e :: rest) = .entry (.text e.1) e.2 :: entryItems rest := rfl
    rw [hcons, itemsPlain]
    simp [Datum.plain, ih]

/-! ## What is written -/

theorem asText?_record {d r : Datum} (h : d.record = .ok r) : r.asText? = d.asText? := by
  cases d with
  | some | newtypeStruct | newtypeVariant | seq | tuple | tupleStruct | tupleVariant | map
  | struct | structVariant =>
    obtain ⟨_, -, h⟩ := bind_eq_ok.1 h
    obtain rfl := Except.ok.inj h
    rfl
  | fail fault => nomatch h
  | _ =>
    obtain rfl := Except.ok.inj h
    rfl

theorem keys_append (items more : List (Item Datum)) :
    Item.keys (items ++ more) = Item.keys items ++ Item.keys more :=
  List.filterMap_append

theorem keys_recordItem {i : Item Datum} {out : List (Item Datum)}
    (h : recordItem i = ⟨out, none⟩) : Item.keys out = Item.keys [i] := by
  cases i with
  | entry k v =>
    cases hk : k.record with
    | error f => simp [recordItem, hk, Emission.fail] at h
    | ok key =>
      cases hv : v.record with
      | error f => simp [recordItem, hk, hv] at h
      | ok value =>
        simp only [recordItem, hk, hv, Emission.pure, Emission.mk.injEq, and_true] at h
        simp [← h, Item.keys, List.filterMap_cons, Item.keyText?, asText?_record hk]
  | key k =>
    cases hk : k.record with
    | error f => simp [recordItem, hk, Emission.fail] at h
    | ok key =>
      simp only [recordItem, hk, Emission.pure, Emission.mk.injEq, and_true] at h
      simp [← h, Item.keys, List.filterMap_cons, Item.keyText?, asText?_record hk]
  | value v =>
    cases hv : v.record with
    | error f => simp [recordItem, hv, Emission.fail] at h
    | ok value =>
      simp only [recordItem, hv, Emission.pure, Emission.mk.injEq, and_true] at h
      simp [← h, Item.keys, List.filterMap_cons, Item.keyText?]
  | fail f => simp [recordItem, Emission.fail] at h

/-- The same texts stand as keys in what is recorded. -/
theorem keys_recordItems : ∀ {items out : List (Item Datum)}, recordItems items = ⟨out, none⟩ →
    Item.keys out = Item.keys items
  | [], out, h => by
    obtain rfl := congrArg Emission.out h
    rfl
  | i :: rest, out, h => by
    obtain ⟨first, hfirst⟩ : ∃ e, recordItem i = e := ⟨_, rfl⟩
    obtain ⟨others, hothers⟩ : ∃ e, recordItems rest = e := ⟨_, rfl⟩
    rw [recordItems, hfirst, hothers, Emission.append_def] at h
    obtain ⟨o, f⟩ := first
    cases f with
    | some f => simp at h
    | none =>
      obtain ⟨rfl, hf⟩ := Emission.mk.inj h
      rw [keys_append, keys_recordItem hfirst,
        keys_recordItems (hothers.trans (congrArg (Emission.mk _) hf)), ← keys_append]
      rfl

theorem keys_pairUp (items : List (Item Datum)) :
    Item.keys (Item.pairUp items) = Item.keys items := by
  fun_induction Item.pairUp items with
  | case1 => rfl
  | case2 k v rest ih =>
    simp only [Item.keys, List.filterMap_cons, Item.keyText?] at ih ⊢
    rw [ih]
  | case3 i rest _ ih =>
    simp only [Item.keys, List.filterMap_cons] at ih ⊢
    rw [ih]

/-- The same texts stand as keys in a map and in what is written of it. -/
theorem keys_record {items out : List (Item Datum)}
    (h : (Datum.map items).record = .ok (.map out)) : Item.keys out = Item.keys items := by
  obtain ⟨written, hwritten, h⟩ := bind_eq_ok.1 h
  obtain rfl := Datum.map.inj (Except.ok.inj h)
  rw [keys_pairUp]
  refine keys_recordItems ?_
  unfold Emission.toExcept at hwritten
  split at hwritten
  · simp at hwritten
  · next hfault =>
    obtain rfl := Except.ok.inj hwritten
    exact congrArg (Emission.mk _) hfault

/-- Plain entries can be written, under the same texts, and are shown as they were. -/
theorem record_entryItems (es : List (String × Datum)) (hp : ∀ e ∈ es, e.2.plain) :
    ∃ items, (Datum.map (entryItems es)).record = .ok (.map items) ∧
      Item.keys items = es.map (·.1) ∧
        ∀ marks, shownItems marks items = shownItems marks (entryItems es) := by
  obtain ⟨r, hr, hs⟩ := Datum.record_plain (d := .map (entryItems es)) (itemsPlain_entryItems.2 hp)
  obtain ⟨items, -, h⟩ := bind_eq_ok.1 hr
  obtain rfl := Except.ok.inj h
  refine ⟨_, hr, ?_, fun marks => Snapshot.map.inj (hs marks)⟩
  rw [keys_record hr, keys_entryItems]

/-! ## Payloads that return -/

/-- Whether a payload that was read beside a tag, and has not kept the tag, can be written and is
given back by what is shown of it beside this tag. -/
def Ty.Returns (t : Ty) (tag : String) : Prop :=
  ∀ (kept : List (Snapshot × Snapshot)) (c : Snapshot) (d : Datum), (Snapshot.keys kept).Nodup →
    (.text tagField, c) ∈ kept → c.tagText? = some tag → t.read (Snapshot.map kept) = .ok d →
      tagField ∉ Item.keys d.flatten →
        ∃ es : List (String × Datum), d.flatten = entryItems es ∧ (∀ e ∈ es, e.2.plain) ∧
          (es.map (·.1)).Nodup ∧ ∀ marks, t.read (Snapshot.map (d.besideTag marks tag)) = .ok d

/-- Whatever is kept as a map was offered as one. -/
theorem Snapshot.ofOffer_eq_map {o : Offer} {entries : List (Snapshot × Snapshot)}
    (h : ofOffer o = .ok (.map entries)) :
    ∃ offered hint, o = .map offered hint ∧ ofEntries offered = .ok entries := by
  cases o with
  | scalar s => cases s <;> simp [ofOffer, ofScalar] at h
  | map offered hint =>
    obtain ⟨cs, hcs, h⟩ := bind_eq_ok.1 h
    obtain rfl := Snapshot.map.inj (Except.ok.inj h)
    exact ⟨offered, hint, rfl, hcs⟩
  | some | newtype | seq =>
    obtain ⟨_, -, h⟩ := bind_eq_ok.1 h
    simp at h
  | _ => simp [ofOffer] at h

theorem getElem?_of_payloadReaders : ∀ {variants : List (String × Ty)} {i : Nat}
    {v : PayloadReader Snapshot}, (payloadReaders variants)[i]? = some v →
      ∃ t : Ty, variants[i]? = some (v.tag, t) ∧ v = ⟨v.tag, t.read⟩
  | (_, t) :: _, 0, v, h => by
    obtain rfl := Option.some.inj h
    exact ⟨t, rfl, rfl⟩
  | _ :: rest, i + 1, v, h => by
    rw [payloadReaders, List.getElem?_cons_succ] at h
    obtain ⟨t, ht, hv⟩ := getElem?_of_payloadReaders h
    exact ⟨t, ht, hv⟩

/-- A union that is read has kept its entries, the tag of a variant among them, and the payload was
read from these. -/
theorem Tagged.read_ok {σ : Type} [Source σ] {variants : List (String × Ty)} {s : σ} {x : Tagged}
    (h : Tagged.read variants s = .ok x) :
    ∃ (i : Nat) (t : Ty) (kept : List (Snapshot × Snapshot)) (c : Snapshot),
      variants[i]? = some (x.tag, t) ∧ Flat.read s = .ok ⟨kept⟩ ∧ (Snapshot.keys kept).Nodup ∧
        (.text tagField, c) ∈ kept ∧ c.tagText? = some x.tag ∧
          t.read (Snapshot.map kept) = .ok x.payload := by
  obtain ⟨⟨kept⟩, i, v, hflat, hv, htag, hi, hx⟩ := readUnion_ok h
  obtain ⟨t, ht, hread⟩ := getElem?_of_payloadReaders hv
  obtain ⟨-, -, -, -, -, -, hkeys, -⟩ := Flat.read_eq_ok.1 hflat
  rw [hread] at hx
  refine ⟨i, t, kept, ?_⟩
  unfold Flat.readTag at hi
  split at hi
  · simp at hi
  · next c hc =>
    obtain ⟨name, hname, hi⟩ := consult_tag_eq_ok hi
    rw [List.getElem?_map, hv, Option.map_some, Option.some.injEq, ← htag] at hi
    exact ⟨c, htag ▸ ht, hflat, hkeys, (Flat.find?_eq_some _ hkeys).1 hc, hi ▸ hname, hx⟩

/-! ## Unions whose payloads return -/

/-- Whether a value of a union can be written as a map of different texts, and is read again from
what was written. -/
def Tagged.Reencodes (variants : List (String × Ty)) (x : Tagged) : Prop :=
  ∃ items, x.datum.record = .ok (.map items) ∧ (Item.keys items).Nodup ∧
    ∀ (marks : Bool) (o : Offer) (readable : Bool),
      Snapshot.ofOffer o = .ok ((Datum.map items).shown marks) →
        Tagged.read variants (⟨o, readable⟩ : Offered) = .ok x

/-- A union is read from a map that shows its payload's entries beside its tag, if the payload is
read from them. -/
theorem Tagged.read_beside_tag {variants : List (String × Ty)} (hn : (variants.map (·.1)).Nodup)
    {i : Nat} {t : Ty} {x : Tagged} (ht : variants[i]? = some (x.tag, t)) {marks : Bool}
    (hkeys : (Snapshot.keys (x.payload.besideTag marks x.tag)).Nodup)
    (hread : t.read (Snapshot.map (x.payload.besideTag marks x.tag)) = .ok x.payload)
    {o : Offer} (ho : Snapshot.ofOffer o = .ok (.map (x.payload.besideTag marks x.tag)))
    (readable : Bool) : Tagged.read variants (⟨o, readable⟩ : Offered) = .ok x := by
  obtain ⟨offered, hint, rfl, hentries⟩ := Snapshot.ofOffer_eq_map ho
  have hnodup : (Offer.keys offered).Nodup := by
    rwa [← Snapshot.keys_eq (Snapshot.ofEntries_eq_ok.1 hentries)]
  have htells : (⟨.map offered hint, readable⟩ : Offered).Tells
      (x.payload.besideTag marks x.tag) x.tag :=
    ⟨⟨offered, hint, rfl, hentries, hnodup⟩, .text x.tag, List.mem_cons_self, rfl⟩
  have hn : ((payloadReaders variants : List (PayloadReader Snapshot)).map (·.tag)).Nodup := by
    rwa [map_tag_payloadReaders]
  rw [Tagged.read, readUnion_told hn (getElem?_payloadReaders ht) htells]
  exact congrArg (Except.map _) hread

theorem Tagged.reencodes_iff_of_returns {σ : Type} [Source σ] {variants : List (String × Ty)}
    (hn : (variants.map (·.1)).Nodup) (hv : ∀ v ∈ variants, v.2.Returns v.1) {s : σ} {x : Tagged}
    (hx : Tagged.read variants s = .ok x) :
    x.Reencodes variants ↔ tagField ∉ Item.keys x.payload.flatten := by
  obtain ⟨i, t, kept, c, ht, -, hkeys, hc, htag, hread⟩ := Tagged.read_ok hx
  constructor
  · rintro ⟨items, hrecord, hnodup, -⟩
    rw [keys_record hrecord] at hnodup
    exact (List.nodup_cons.1 hnodup).1
  · intro hfield
    have hreturns : t.Returns x.tag := hv _ (List.mem_of_getElem? ht)
    obtain ⟨es, hes, hplain, hnodup, hback⟩ := hreturns kept c x.payload hkeys hc htag hread hfield
    have hdatum : x.datum = .map (entryItems ((tagField, .text x.tag) :: es)) := by
      rw [Tagged.datum, Datum.union, hes]
      rfl
    have hfield : tagField ∉ es.map (·.1) := by rwa [hes, keys_entryItems] at hfield
    obtain ⟨items, hrecord, hitems, hshown⟩ :=
      record_entryItems ((tagField, .text x.tag) :: es) (by simpa [Datum.plain] using hplain)
    refine ⟨items, hdatum ▸ hrecord, ?_, fun marks o readable ho => ?_⟩
    · rw [hitems]
      exact List.nodup_cons.2 ⟨hfield, hnodup⟩
    · refine Tagged.read_beside_tag hn ht ?_ (hback marks) ?_ readable
      · show (tagField :: Snapshot.keys (shownItems marks x.payload.flatten)).Nodup
        rw [hes, keys_shownItems]
        exact List.nodup_cons.2 ⟨hfield, hnodup⟩
      · rw [ho, Datum.shown, hshown, ← Datum.shown_union, ← Tagged.datum, hdatum, Datum.shown]

end FlatUnion
