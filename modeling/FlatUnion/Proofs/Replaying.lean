import FlatUnion.Proofs.Keeping
import FlatUnion.Proofs.Presenting
import FlatUnion.Proofs.Values

/-!
# Reading what is replayed

Both kinds of snapshots answer a fitting request in the same way (`Replaying`), so what is known of
readers of the one holds of readers of the other (`consult_of`).

What a format shows of a written value is read again part by part. The elements of a sequence are
taken in order (`readItems_shown`, `inOrder_shown`), and the fields of a struct by their names :
each entry is put in the place of its field, and a field that was not written is one that may be
missing (`FieldReader.Restores`, `struct_shown`).
-/

namespace FlatUnion

/-- The same call with other parts. -/
def Call.mapParts {σ τ : Type} (f : σ → τ) : Call σ → Call τ
  | .scalar s => .scalar s
  | .none => .none
  | .some inner => .some (f inner)
  | .unit => .unit
  | .newtype inner => .newtype (f inner)
  | .seq items hint => .seq (items.map f) hint
  | .map entries hint => .map (entries.map fun e => (f e.1, f e.2)) hint
  | .enum variant content => .enum (f variant) (content.map f)
  | .refused found => .refused found

/-- A source that offers snapshots, and answers fitting requests as they do. -/
class Replaying (σ : Type) extends Source σ where
  of : Snapshot → σ
  /-- A fitting request is answered as by the snapshot itself. -/
  answer_of : ∀ {r : Request} {c : Snapshot} {a : Answer Snapshot}, Exacting.fits r c →
    (r = .unitStruct → c = .unit) → r ≠ .ignored → Snapshot.answer r c = .ok a →
      ∃ b : Answer σ, answer r (of c) = .ok b ∧ b.call = a.call.mapParts of ∧ b.close = a.close
  offer_of : ∀ c, offer (of c) = c.toOffer
  skip_of : ∀ c, skip (of c) = .ok ()

theorem Call.mapParts_id {σ : Type} (c : Call σ) : c.mapParts id = c := by
  cases c <;> simp [Call.mapParts]

instance : Replaying Snapshot where
  of := id
  answer_of _ _ _ ha := ⟨_, ha, (Call.mapParts_id _).symm, rfl⟩
  offer_of _ := rfl
  skip_of _ := rfl

theorem Exacting.ofCall_eq_mapParts (c : Call Snapshot) : ofCall c = c.mapParts Exacting.mk := by
  cases c <;> rfl

instance : Replaying Exacting where
  of := Exacting.mk
  answer_of {r c a} hf hu hi ha := by
    refine ⟨{ call := Exacting.ofCall a.call, close := a.close }, ?_,
      Exacting.ofCall_eq_mapParts _, rfl⟩
    show Exacting.answer r ⟨c⟩ = _
    unfold Exacting.answer
    split
    · next hc => obtain rfl := hu rfl; nomatch hc
    · next hc => obtain rfl := hu rfl; nomatch hc
    · exact absurd rfl hi
    · rw [if_pos hf, ha]
      rfl
  offer_of _ := rfl
  skip_of _ := rfl

variable {σ : Type} [Replaying σ]

open Replaying (of)

/-- What a reader makes of a fitting snapshot. -/
theorem consult_of {α : Type} (r : Request) (c : Snapshot) {a : Answer Snapshot}
    (hf : Exacting.fits r c) (hu : r = .unitStruct → c = .unit) (hi : r ≠ .ignored)
    (ha : Snapshot.answer r c = .ok a) {read : Call σ → Outcome α} {p : Progress} {x : α}
    (hread : read (a.call.mapParts of) = ⟨p, .ok x⟩) (hclose : a.close p = .ok ()) :
    consult r (of c : σ) read = .ok x := by
  obtain ⟨b, hb, hcall, hclose'⟩ : ∃ b : Answer σ, _ := Replaying.answer_of hf hu hi ha
  refine consult_eq_ok.2 ⟨b, hb, ?_, ?_⟩
  · rw [hcall, hread]
  · rw [hcall, hread, hclose', hclose]

/-- What was made of a fitting snapshot was made of what it shows. -/
theorem result_of_consult {α : Type} (r : Request) (c : Snapshot) {a : Answer Snapshot}
    (hf : Exacting.fits r c) (hu : r = .unitStruct → c = .unit) (hi : r ≠ .ignored)
    (ha : Snapshot.answer r c = .ok a) {read : Call σ → Outcome α} {x : α}
    (h : consult r (of c : σ) read = .ok x) : (read (a.call.mapParts of)).result = .ok x := by
  obtain ⟨b, hb, hcall, -⟩ : ∃ b : Answer σ, _ := Replaying.answer_of hf hu hi ha
  obtain ⟨b', hb', hx, -⟩ := consult_eq_ok.1 h
  obtain rfl := Except.ok.inj (hb.symm.trans hb')
  rwa [hcall] at hx

/-! ## Setting aside -/

mutual

/-- What can be set aside is kept as it was offered. -/
theorem Snapshot.ofOffer_of_settable : ∀ {o : Offer} {c : Snapshot},
    ofOffer o.settable = .ok c → ofOffer o = .ok c
  | .scalar (.int w n), c, h => by
    rw [Offer.settable] at h
    split_ifs at h with hw
    · nomatch h
    · exact h
  | .scalar (.bool _), _, h | .scalar (.f32 _), _, h | .scalar (.f64 _), _, h
  | .scalar (.char _), _, h | .scalar (.text _ _), _, h | .scalar (.bytes _ _), _, h
  | .none, _, h | .unit, _, h => h
  | .some inner, c, h => by
    obtain ⟨x, hx, h⟩ := bind_eq_ok.1 h
    exact bind_eq_ok.2 ⟨x, ofOffer_of_settable hx, h⟩
  | .newtype inner, c, h => by
    obtain ⟨x, hx, h⟩ := bind_eq_ok.1 h
    exact bind_eq_ok.2 ⟨x, ofOffer_of_settable hx, h⟩
  | .seq items hint, c, h => by
    obtain ⟨xs, hxs, h⟩ := bind_eq_ok.1 h
    exact bind_eq_ok.2 ⟨xs, ofItems_of_settable hxs, h⟩
  | .map entries hint, c, h => by
    obtain ⟨es, hes, h⟩ := bind_eq_ok.1 h
    exact bind_eq_ok.2 ⟨es, ofEntries_of_settable hes, h⟩
  | .enum _, _, h | .fail _, _, h => nomatch h

theorem Snapshot.ofItems_of_settable : ∀ {items : List Offer} {cs : List Snapshot},
    ofItems (Offer.settable.settableItems items) = .ok cs → ofItems items = .ok cs
  | [], _, h => h
  | x :: rest, cs, h => by
    obtain ⟨c, hc, h⟩ := bind_eq_ok.1 h
    obtain ⟨cs, hcs, h⟩ := bind_eq_ok.1 h
    exact bind_eq_ok.2 ⟨c, ofOffer_of_settable hc, bind_eq_ok.2 ⟨cs, ofItems_of_settable hcs, h⟩⟩

theorem Snapshot.ofEntries_of_settable : ∀ {entries : List (Offer × Offer)}
    {es : List (Snapshot × Snapshot)},
      ofEntries (Offer.settable.settableEntries entries) = .ok es → ofEntries entries = .ok es
  | [], _, h => h
  | (k, v) :: rest, es, h => by
    obtain ⟨key, hkey, h⟩ := bind_eq_ok.1 h
    obtain ⟨value, hvalue, h⟩ := bind_eq_ok.1 h
    obtain ⟨es, hes, h⟩ := bind_eq_ok.1 h
    exact bind_eq_ok.2 ⟨key, ofOffer_of_settable hkey, bind_eq_ok.2
      ⟨value, ofOffer_of_settable hvalue, bind_eq_ok.2 ⟨es, ofEntries_of_settable hes, h⟩⟩⟩

end

theorem Snapshot.eq_of_setAside {s c : Snapshot} (h : setAside s = .ok c) : c = s :=
  Except.ok.inj ((ofOffer_of_settable h).symm.trans (ofOffer_toOffer s))

/-! ## Parts -/

section Parts

variable {marks : Bool}

theorem shownList_eq_map (ds : List Datum) : shownList marks ds = ds.map (·.shown marks) := by
  induction ds with
  | nil => rfl
  | cons d rest ih => rw [shownList, ih, List.map_cons]

/-- An entry of a snapshot as one of a source. -/
def entryOf (e : Snapshot × Snapshot) : σ × σ := (of e.1, of e.2)

theorem entryOf_mk (k v : Snapshot) : (entryOf (k, v) : σ × σ) = (of k, of v) :=
  rfl

/-- All elements are read again if each is. -/
theorem readItems_shown {read : σ → Except Fault Datum} {ds : List Datum} (done : Nat)
    (h : ∀ d ∈ ds, read (of (d.shown marks)) = .ok d) :
    readItems read none done ((shownList marks ds).map of) =
      ⟨{ whole := done + ds.length }, .ok ds⟩ := by
  rw [readItems_eq_ok, shownList_eq_map, List.length_map, List.length_map,
    List.forall₂_map_left_iff, List.forall₂_map_left_iff, List.forall₂_same]
  exact ⟨rfl, h⟩

theorem inOrder_shown {lengths : String} {readers : List (σ → Except Fault Datum)}
    {ds : List Datum}
    (h : List.Forall₂ (fun read d => read (of (d.shown marks)) = .ok d) readers ds) (done : Nat) :
    Visit.inOrder lengths done readers ((shownList marks ds).map of) =
      ⟨{ whole := done + ds.length }, .ok ds⟩ := by
  induction h generalizing done with
  | nil => rfl
  | cons hd _ ih =>
    rw [shownList, List.map_cons, Visit.inOrder, hd]
    simp only [ih, Outcome.map, Except.map, List.length_cons, Outcome.mk.injEq, Progress.mk.injEq,
      and_true]
    omega

/-- A field whose value is read again : from what is written, or as a missing one. -/
def FieldReader.Restores (marks : Bool) (r : FieldReader σ) (d : Datum) : Prop :=
  r.field.flattened = false ∧
    (r.field.written d = (r.field.name, some d) ∧ r.read (of (d.shown marks)) = .ok d ∨
      r.field.written d = (r.field.name, none) ∧ r.missing = .ok d)

/-- The entries of a struct that is written. -/
abbrev writtenEntries (marks : Bool) (readers : List (FieldReader σ)) (ds : List Datum) :
    List (Snapshot × Snapshot) :=
  shownFields marks (List.zipWith Field.written (readers.map (·.field)) ds)

theorem slots_known {named : List (FieldReader σ)} {readKey : σ → Except Fault FieldKey}
    {collecting : Bool} {done i : Nat} {found : Slots} {k v : σ} {rest : List (σ × σ)}
    {r : FieldReader σ} {d : Datum} (hk : readKey k = .ok (.known i)) (hr : named[i]? = some r)
    (hv : found.values[i]? = some none) (hread : r.read v = .ok d) :
    Visit.slots named readKey collecting done found ((k, v) :: rest) =
      Visit.slots named readKey collecting (done + 1)
        { found with values := found.values.set i (some d) } rest := by
  rw [Visit.slots, hk]
  simp only [hr, hv, hread]

theorem slots_unknown {named : List (FieldReader σ)} {readKey : σ → Except Fault FieldKey}
    {done : Nat} {found : Slots} {k : σ} {key c : Snapshot} {rest : List (σ × σ)}
    (hk : readKey k = .ok (.other key)) :
    Visit.slots named readKey false done found ((k, of c) :: rest) =
      Visit.slots named readKey false (done + 1) found rest := by
  rw [Visit.slots, hk]
  simp only [Replaying.skip_of, Bool.false_eq_true, if_false]

theorem slots_collected {named : List (FieldReader σ)} {readKey : σ → Except Fault FieldKey}
    {collecting : Bool} {done : Nat} {found : Slots} {k v : σ} {key c : Snapshot}
    {rest : List (σ × σ)} (hcollecting : collecting = true) (hk : readKey k = .ok (.other key))
    (hv : setAside v = .ok c) :
    Visit.slots named readKey collecting done found ((k, v) :: rest) =
      Visit.slots named readKey collecting (done + 1)
        { found with rest := found.rest ++ [(key, c)] } rest := by
  rw [Visit.slots, hk]
  simp only [hv, hcollecting, if_true]

/-- Each entry is put in the place of its field, and the places without one are filled later. -/
theorem slots_shown {named : List (FieldReader σ)} {readKey : σ → Except Fault FieldKey}
    (hkey : ∀ (i : Nat) (r : FieldReader σ), named[i]? = some r →
      readKey (of (.text r.field.name)) = .ok (.known i)) (left : List (Snapshot × Snapshot)) :
    ∀ (before : List (FieldReader σ)) {after : List (FieldReader σ)} {ds : List Datum}
      (os : List (Option Datum)) (done : Nat), named = before ++ after → os.length = before.length →
      List.Forall₂ (FieldReader.Restores marks) after ds →
      ∃ ws, Visit.slots named readKey false done ⟨os ++ after.map fun _ => none, left⟩
          ((writtenEntries marks after ds).map entryOf) =
          ⟨{ whole := done + (writtenEntries marks after ds).length }, .ok ⟨os ++ ws, left⟩⟩ ∧
        Visit.fill after ws = .ok ds
  | _, [], ds, os, done, _, _, h => by
    obtain rfl := List.forall₂_nil_left_iff.1 h
    exact ⟨[], rfl, rfl⟩
  | before, r :: after, ds, os, done, hnamed, hos, h => by
    obtain ⟨d, ds, ⟨-, hd⟩, hrest, rfl⟩ := List.forall₂_cons_left_iff.1 h
    have hnamed' : named = (before ++ [r]) ++ after := by simpa using hnamed
    obtain ⟨hw, hread⟩ | ⟨hw, hmissing⟩ := hd
    · obtain ⟨ws, hslots, hfill⟩ := slots_shown hkey left (before ++ [r]) (os ++ [some d])
        (done + 1) hnamed' (by simp [hos]) hrest
      have hr : named[os.length]? = some r := by simp [hnamed, hos]
      have hentries : writtenEntries marks (r :: after) (d :: ds) =
          (.text r.field.name, d.shown marks) :: writtenEntries marks after ds := by
        simp only [writtenEntries, List.map_cons, List.zipWith_cons_cons, hw, shownFields]
      refine ⟨some d :: ws, ?_, Visit.fill_cons_eq_ok.2 ⟨d, ds, rfl, hfill, rfl⟩⟩
      rw [hentries, List.map_cons, List.map_cons, entryOf_mk,
        slots_known (hkey _ r hr) hr (by simp) hread]
      simpa [Nat.add_assoc, Nat.add_comm 1] using hslots
    · obtain ⟨ws, hslots, hfill⟩ := slots_shown hkey left (before ++ [r]) (os ++ [none]) done
        hnamed' (by simp [hos]) hrest
      have hentries : writtenEntries marks (r :: after) (d :: ds) =
          writtenEntries marks after ds := by
        simp only [writtenEntries, List.map_cons, List.zipWith_cons_cons, hw, shownFields]
      refine ⟨none :: ws, ?_, ?_⟩
      · rw [hentries]
        simpa using hslots
      · exact Visit.fill_cons_eq_ok.2 ⟨d, ds, hmissing, hfill, rfl⟩

/-- Where all names differ, a name is found at the place of the field it belongs to. -/
theorem findIdx?_contains {names : List (List String)} (hn : names.flatten.Nodup) {i : Nat}
    {ns : List String} (hi : names[i]? = some ns) {s : String} (hs : s ∈ ns) :
    names.findIdx? (fun ns => ns.contains s) = some i := by
  obtain ⟨hlt, rfl⟩ := List.getElem?_eq_some_iff.1 hi
  rw [List.findIdx?_eq_some_iff_getElem]
  refine ⟨hlt, by simpa using hs, fun j hj => ?_⟩
  have hdisjoint := (List.nodup_flatten.1 hn).2
  rw [List.pairwise_iff_getElem] at hdisjoint
  have := hdisjoint j i (by omega) hlt hj
  simpa using fun h => this h hs

/-- The names of all fields. -/
abbrev fieldNames (readers : List (FieldReader σ)) : List String :=
  (readers.map FieldReader.names).flatten

omit [Replaying σ] in
theorem filter_unflattened {readers : List (FieldReader σ)}
    (hf : ∀ r ∈ readers, r.field.flattened = false) :
    (readers.filter fun r => !r.field.flattened) = readers :=
  List.filter_eq_self.2 fun r hr => by simp [hf r hr]

/-- Entries under texts that are no names of fields are passed over. -/
theorem slots_others {named : List (FieldReader σ)} {readKey : σ → Except Fault FieldKey}
    {found : Slots} {entries : List (Snapshot × Snapshot)} :
    ∀ {others : List (String × Snapshot)} (done : Nat),
      (∀ e ∈ others, readKey (of (.text e.1)) = .ok (.other .unit)) →
      Visit.slots named readKey false done found
          ((others.map (fun e => (Snapshot.text e.1, e.2)) ++ entries).map entryOf) =
        Visit.slots named readKey false (done + others.length) found (entries.map entryOf)
  | [], done, _ => rfl
  | e :: others, done, h => by
    rw [List.map_cons, List.cons_append, List.map_cons, entryOf_mk,
      slots_unknown (h e List.mem_cons_self),
      slots_others (done + 1) fun e he => h e (List.mem_cons_of_mem _ he), List.length_cons,
      Nat.add_assoc, Nat.add_comm 1]

/-- The name of a field is a key of the struct, told by the place of the field. -/
theorem fieldKey_known {readers : List (FieldReader σ)} {strict : Bool}
    (hf : ∀ r ∈ readers, r.field.flattened = false) (hn : (fieldNames readers).Nodup) {i : Nat}
    {r : FieldReader σ} (hr : readers[i]? = some r) :
    consult .identifier (of (.text r.field.name) : σ) (Visit.fieldKey readers strict false) =
      .ok (.known i) := by
  refine consult_of .identifier (.text _) rfl nofun nofun rfl (p := {}) ?_ rfl
  have hnames : (readers.map FieldReader.names)[i]? = some r.names := by
    rw [List.getElem?_map, hr]
    rfl
  have hfind : (readers.map FieldReader.names).findIdx? (fun ns => ns.contains r.field.name) =
      some i :=
    findIdx?_contains hn hnames List.mem_cons_self
  simp only [Snapshot.replay, Snapshot.call, Call.mapParts, Visit.fieldKey, filter_unflattened hf,
    Visit.name?, Visit.Name.find?, hfind]
  rfl

/-- A text that is no name of a field is passed over where this is allowed. -/
theorem fieldKey_unknown {readers : List (FieldReader σ)}
    (hf : ∀ r ∈ readers, r.field.flattened = false) {name : String}
    (hname : name ∉ fieldNames readers) :
    consult .identifier (of (.text name) : σ) (Visit.fieldKey readers false false) =
      .ok (.other .unit) := by
  refine consult_of .identifier (.text _) rfl nofun nofun rfl (p := {}) ?_ rfl
  have hfind : (readers.map FieldReader.names).findIdx? (fun ns => ns.contains name) = none := by
    rw [List.findIdx?_eq_none_iff]
    intro ns hns
    simpa using fun h => hname (List.mem_flatten.2 ⟨ns, hns, h⟩)
  simp only [Snapshot.replay, Snapshot.call, Call.mapParts, Visit.fieldKey, filter_unflattened hf,
    Visit.name?, Visit.Name.find?, hfind]
  rfl

/-- Where no field is flattened, the values are those of the fields. -/
theorem complete_unflattened {readers : List (FieldReader σ)} {ds : List Datum}
    (h : List.Forall₂ (FieldReader.Restores marks) readers ds)
    (left : List (Snapshot × Snapshot)) : Visit.complete false readers ds left = .ok ds := by
  induction h with
  | nil => cases left <;> rfl
  | cons hd _ ih => exact (Visit.complete_own_eq_ok hd.1).2 ⟨_, ih, rfl⟩

/-- A struct is read again from its entries, also behind others under texts that are no names of
fields, if it allows such. -/
theorem struct_shown {what : String} {strict : Bool} {readers : List (FieldReader σ)}
    {ds : List Datum} (hn : (fieldNames readers).Nodup)
    (h : List.Forall₂ (FieldReader.Restores marks) readers ds)
    (others : List (String × Snapshot)) (hothers : ∀ e ∈ others, e.1 ∉ fieldNames readers)
    (hstrict : strict = true → others = []) (hint : Option Nat) :
    let entries := others.map (fun e => (Snapshot.text e.1, e.2)) ++ writtenEntries marks readers ds
    Visit.struct what strict readers (.map (entries.map entryOf) hint) =
      ⟨{ whole := entries.length }, .ok ds⟩ := by
  intro entries
  have hf : ∀ r ∈ readers, r.field.flattened = false := by
    intro r hr
    obtain ⟨d, -, hd⟩ := exists_right_of_mem h hr
    exact hd.1
  have hcollecting : readers.any (·.field.flattened) = false := by
    rw [List.any_eq_false]
    intro r hr
    simp [hf r hr]
  set readKey : σ → Except Fault FieldKey := fun k =>
    consult .identifier k (Visit.fieldKey readers strict false) with hreadKey
  have hknown : ∀ (i : Nat) (r : FieldReader σ), readers[i]? = some r →
      readKey (of (.text r.field.name)) = .ok (.known i) :=
    fun i r hr => fieldKey_known hf hn hr
  have hunknown : ∀ e ∈ others, readKey (of (.text e.1)) = .ok (.other .unit) := by
    intro e he
    cases strict with
    | false => exact fieldKey_unknown hf (hothers e he)
    | true => simp [hstrict rfl] at he
  obtain ⟨ws, hslots, hfill⟩ := slots_shown hknown [] [] [] (0 + others.length) rfl rfl h
  have hslots' : Visit.slots readers readKey false 0 ⟨readers.map fun _ => none, []⟩
      (entries.map entryOf) = ⟨{ whole := entries.length }, .ok ⟨ws, []⟩⟩ := by
    rw [slots_others 0 hunknown]
    simpa [entries] using hslots
  simp only [Visit.struct, hcollecting, filter_unflattened hf, ← hreadKey, hslots',
    Outcome.andThen]
  simp [hfill, complete_unflattened h, bind, Except.bind, Bool.and_false]

theorem struct_shown_alone {what : String} {strict : Bool} {readers : List (FieldReader σ)}
    {ds : List Datum} (hn : (fieldNames readers).Nodup)
    (h : List.Forall₂ (FieldReader.Restores marks) readers ds) (hint : Option Nat) :
    Visit.struct what strict readers (.map ((writtenEntries marks readers ds).map entryOf) hint) =
      ⟨{ whole := (writtenEntries marks readers ds).length }, .ok ds⟩ :=
  struct_shown hn h [] nofun (fun _ => rfl) hint

end Parts

end FlatUnion
