import Mathlib.Data.List.Perm.Basic
import FlatUnion.Proofs.Acceptance
import FlatUnion.Proofs.KeptTag

/-!
# Entries in another order

A flat union is kept as the entries of a map in their order, but neither the tag nor a struct
behind it depends on this order. The tag is found wherever it stands, as no text stands as a key
twice. A struct is read entry by entry, and two entries that follow one another may change places
(`Slots.Step.swap`) : they are read into different places of the struct, or one of them is set
aside or passed over. What is set aside then stands in another order too, and flattened fields are
read from it, so the same must hold of their types (`Ty.Unordered`).

`readUnion_reordered` is the statement : entries that can be kept can be kept in every order, their
tag is then the same or fails in the same way, and a struct behind it is the same or fails.
-/

namespace FlatUnion

/-! ## Keeping and looking up -/

namespace Flat

variable {flat flat' : Flat}

/-- Entries that can be kept can be kept in every order. -/
theorem read_perm {entries entries' : List (Offer × Offer)} (hperm : entries.Perm entries')
    {hint : Option Nat} {readable : Bool}
    (h : read (⟨.map entries hint, readable⟩ : Offered) = .ok flat) (hint' : Option Nat)
    (readable' : Bool) :
    ∃ flat', read (⟨.map entries' hint', readable'⟩ : Offered) = .ok flat' ∧
      flat.entries.Perm flat'.entries := by
  obtain ⟨_, _, hmap, hkept, hn⟩ := read_offered_eq_ok.1 h
  obtain ⟨rfl, -⟩ := Offer.map.inj hmap
  obtain ⟨kept', hkept', hperm'⟩ :=
    List.perm_comp_forall₂ hperm.symm (Snapshot.ofEntries_eq_ok.1 hkept)
  have hn' : (Offer.keys entries').Nodup := (hperm.filterMap _).nodup_iff.1 hn
  have hoffered := Snapshot.ofEntries_eq_ok.2 hkept'
  exact ⟨⟨kept'⟩, read_offered_eq_ok.2 ⟨entries', hint', rfl, hoffered, hn'⟩, hperm'.symm⟩

/-- No text stands as a key twice among entries that have been kept. -/
theorem nodup_of_read {σ : Type} [Source σ] {s : σ} (h : read s = .ok flat) :
    (Snapshot.keys flat.entries).Nodup := by
  obtain ⟨_, _, _, -, -, -, hn, -⟩ := read_eq_ok.1 h
  exact hn

/-- What stands under a text is found in every order. -/
theorem find?_perm (hn : (Snapshot.keys flat.entries).Nodup)
    (hperm : flat.entries.Perm flat'.entries) (name : String) :
    flat.find? name = flat'.find? name := by
  have hn' : (Snapshot.keys flat'.entries).Nodup := (hperm.filterMap _).nodup_iff.1 hn
  refine Option.ext fun c => ?_
  rw [find?_eq_some flat hn, find?_eq_some flat' hn', hperm.mem_iff]

theorem readTag_perm {α : Type} (hn : (Snapshot.keys flat.entries).Nodup)
    (hperm : flat.entries.Perm flat'.entries) (field : String)
    (read : Snapshot → Except Fault α) : flat.readTag field read = flat'.readTag field read := by
  rw [readTag, readTag, find?_perm hn hperm]

end Flat

/-! ## Structs entry by entry -/

/-- The same values in the same places, and the same entries beside them in whatever order. -/
structure Slots.Like (a b : Slots) : Prop where
  values : a.values = b.values
  rest : a.rest.Perm b.rest

theorem Slots.Like.refl (a : Slots) : a.Like a :=
  ⟨rfl, .refl _⟩

theorem Slots.Like.trans {a b c : Slots} (hab : a.Like b) (hbc : b.Like c) : a.Like c :=
  ⟨hab.values.trans hbc.values, hab.rest.trans hbc.rest⟩

namespace Visit

variable {σ : Type} [Source σ] {named : List (FieldReader σ)} {readKey : σ → Except Fault FieldKey}
  {collecting : Bool}

/-- What entries do to what has been read of a struct, one after another. -/
inductive Slots.Run (named : List (FieldReader σ)) (readKey : σ → Except Fault FieldKey)
    (collecting : Bool) : List (σ × σ) → Slots → Slots → Prop
  | nil (found : Slots) : Run named readKey collecting [] found found
  | cons {e : σ × σ} {rest : List (σ × σ)} {found next all : Slots}
      (hstep : Slots.Step named readKey collecting e found next)
      (hrun : Run named readKey collecting rest next all) :
      Run named readKey collecting (e :: rest) found all

theorem slots_step {e : σ × σ} {found next : Slots}
    (h : Slots.Step named readKey collecting e found next) (done : Nat) (rest : List (σ × σ)) :
    slots named readKey collecting done found (e :: rest) =
      slots named readKey collecting (done + 1) next rest := by
  cases h with
  | taken hk hr hfree hd =>
    rw [slots, hk]
    simp only [hr, hfree, hd]
  | collected hcollecting hk hv =>
    rw [slots, hk]
    simp only [hcollecting, if_true, hv]
  | skipped hcollecting hk hv =>
    rw [slots, hk]
    simp only [hcollecting, Bool.false_eq_true, if_false, hv]

/-- The entries of a struct are read to their end exactly if each of them makes a step. -/
theorem slots_eq_ok (hlt : ∀ k i, readKey k = .ok (.known i) → i < named.length) :
    ∀ {entries : List (σ × σ)} {done : Nat} {found all : Slots} {p : Progress},
      slots named readKey collecting done found entries = ⟨p, .ok all⟩ ↔
        p = { whole := done + entries.length } ∧
          Slots.Run named readKey collecting entries found all
  | [], done, found, all, p => by
    constructor
    · intro h
      obtain ⟨rfl, hall⟩ := Outcome.mk.inj h
      obtain rfl := Except.ok.inj hall
      exact ⟨rfl, .nil _⟩
    · rintro ⟨rfl, hrun⟩
      cases hrun
      rfl
  | (k, v) :: rest, done, found, all, p => by
    have hlength : done + 1 + rest.length = done + ((k, v) :: rest).length := by
      rw [List.length_cons, Nat.add_assoc, Nat.add_comm 1]
    constructor
    · intro h
      obtain ⟨next, hstep, -⟩ | ⟨i, hi, hnone, -⟩ := exists_step_of_slots (congrArg (·.result) h)
      · rw [slots_step hstep, slots_eq_ok hlt, hlength] at h
        exact ⟨h.1, .cons hstep h.2⟩
      · rw [List.getElem?_eq_none_iff] at hnone
        exact absurd (hlt k i hi) (Nat.not_lt.2 hnone)
    · rintro ⟨rfl, hrun⟩
      cases hrun with
      | cons hstep hrun => rw [slots_step hstep, slots_eq_ok hlt, hlength]; exact ⟨rfl, hrun⟩

/-! ## Entries that change places -/

/-- A step does the same to what differs in the order of the entries beside the fields only. -/
theorem Slots.Step.like {e : σ × σ} {a a' b : Slots}
    (h : Slots.Step named readKey collecting e a b) (ha : a.Like a') :
    ∃ b', Slots.Step named readKey collecting e a' b' ∧ b.Like b' := by
  obtain ⟨values, rest⟩ := a
  obtain ⟨_, rest'⟩ := a'
  obtain ⟨hvalues, hrest⟩ := ha
  obtain rfl : values = _ := hvalues
  cases h with
  | taken hk hr hfree hd => exact ⟨_, .taken hk hr hfree hd, rfl, hrest⟩
  | collected hcollecting hk hv =>
    exact ⟨_, .collected hcollecting hk hv, rfl, hrest.append_right _⟩
  | skipped hcollecting hk hv => exact ⟨_, .skipped hcollecting hk hv, rfl, hrest⟩

theorem Slots.Run.like {entries : List (σ × σ)} {a all : Slots}
    (h : Slots.Run named readKey collecting entries a all) :
    ∀ {a' : Slots}, a.Like a' →
      ∃ all', Slots.Run named readKey collecting entries a' all' ∧ all.Like all' := by
  induction h with
  | nil found => exact fun ha => ⟨_, .nil _, ha⟩
  | cons hstep _ ih =>
    intro a' ha
    obtain ⟨b', hstep', hb⟩ := hstep.like ha
    obtain ⟨all', hrun', hall⟩ := ih hb
    exact ⟨all', .cons hstep' hrun', hall⟩

/-- Two steps that follow one another may be made in the other order. -/
theorem Slots.Step.swap {d e : σ × σ} {a b c : Slots}
    (hd : Slots.Step named readKey collecting d a b)
    (he : Slots.Step named readKey collecting e b c) :
    ∃ b' c', Slots.Step named readKey collecting e a b' ∧
      Slots.Step named readKey collecting d b' c' ∧ c.Like c' := by
  cases hd with
  | @taken _ _ _ i _ x hk hr hfree hx =>
    cases he with
    | @taken _ _ _ j _ y hk' hr' hfree' hy =>
      -- the second place was free after the first one had been taken, so it is another one
      have hne : i ≠ j := by
        rintro rfl
        obtain ⟨hi, -⟩ := List.getElem?_eq_some_iff.1 hfree
        simp [hi] at hfree'
      have hfree' : a.values[j]? = some none := by
        simpa [List.getElem?_set_ne hne] using hfree'
      have hfree : (a.values.set j (some y))[i]? = some none := by
        rwa [List.getElem?_set_ne hne.symm]
      exact ⟨_, _, .taken hk' hr' hfree' hy, .taken hk hr hfree hx,
        List.set_comm _ _ hne, .refl _⟩
    | collected hcollecting hk' hv' =>
      exact ⟨_, _, .collected hcollecting hk' hv', .taken hk hr hfree hx, .refl _⟩
    | skipped hcollecting hk' hv' =>
      exact ⟨_, _, .skipped hcollecting hk' hv', .taken hk hr hfree hx, .refl _⟩
  | collected hcollecting hk hv =>
    cases he with
    | taken hk' hr' hfree' hy =>
      exact ⟨_, _, .taken hk' hr' hfree' hy, .collected hcollecting hk hv, .refl _⟩
    | collected _ hk' hv' =>
      refine ⟨_, _, .collected hcollecting hk' hv', .collected hcollecting hk hv, rfl, ?_⟩
      simpa using (List.Perm.swap _ _ []).append_left a.rest
    | skipped hnot => simp [hcollecting] at hnot
  | skipped hcollecting hk hv => exact ⟨_, _, he, .skipped hcollecting hk hv, .refl _⟩

/-- The entries of a struct may be read in every order. -/
theorem Slots.Run.perm {entries entries' : List (σ × σ)} (hperm : entries.Perm entries') :
    ∀ {a a' all : Slots}, a.Like a' → Slots.Run named readKey collecting entries a all →
      ∃ all', Slots.Run named readKey collecting entries' a' all' ∧ all.Like all' := by
  induction hperm with
  | nil => exact fun ha h => h.like ha
  | cons e _ ih =>
    rintro a a' all ha (_ | ⟨hstep, hrun⟩)
    obtain ⟨b', hstep', hb⟩ := hstep.like ha
    obtain ⟨all', hrun', hall⟩ := ih hb hrun
    exact ⟨all', .cons hstep' hrun', hall⟩
  | swap d e rest =>
    rintro a a' all ha (_ | ⟨he, _ | ⟨hd, hrun⟩⟩)
    obtain ⟨b, he, hb⟩ := he.like ha
    obtain ⟨c, hd, hc⟩ := hd.like hb
    obtain ⟨b', c', hd', he', hc'⟩ := he.swap hd
    obtain ⟨all', hrun', hall⟩ := hrun.like (hc.trans hc')
    exact ⟨all', .cons hd' (.cons he' hrun'), hall⟩
  | trans _ _ ih₁ ih₂ =>
    intro a a' all ha hrun
    obtain ⟨all₁, hrun₁, hall₁⟩ := ih₁ ha hrun
    obtain ⟨all₂, hrun₂, hall₂⟩ := ih₂ (.refl a') hrun₁
    exact ⟨all₂, hrun₂, hall₁.trans hall₂⟩

end Visit

/-! ## Entries that are left -/

namespace Leftover

variable {names spent : List String} {left left' : List (Snapshot × Snapshot)}

theorem isUnder_nil (e : Snapshot × Snapshot) : isUnder [] e = false := by
  cases h : e.1.keyText? <;> simp [isUnder, h]

theorem isUnder_append (names names' : List String) (e : Snapshot × Snapshot) :
    isUnder (names ++ names') e = (isUnder names e || isUnder names' e) := by
  cases h : e.1.keyText? <;> simp [isUnder, h]

/-- An entry has one key. -/
theorem isUnder_disjoint (h : ∀ n ∈ names, n ∉ spent) {e : Snapshot × Snapshot}
    (he : isUnder names e) : isUnder spent e = false := by
  unfold isUnder at he ⊢
  cases hs : e.1.keyText? with
  | none => rfl
  | some s =>
    rw [hs] at he
    simpa using h s (by simpa using he)

/-- Whatever is taken under some names, the others are left. -/
theorem filter_dropUnder (names : List String) : ∀ (n : Nat) (entries : List (Snapshot × Snapshot)),
    (dropUnder names n entries).filter (fun e => !isUnder names e) =
      entries.filter fun e => !isUnder names e
  | 0, entries => by rw [dropUnder]
  | n + 1, [] => rfl
  | n + 1, e :: rest => by
    rw [dropUnder]
    split_ifs with he
    · rw [filter_dropUnder names n rest, List.filter_cons_of_neg (by simp [he])]
    · rw [List.filter_cons_of_pos (by simp [he]), List.filter_cons_of_pos (by simp [he]),
        filter_dropUnder names (n + 1) rest]

/-- Nothing is left under some names once all of it has been taken. -/
theorem dropUnder_all (names : List String) : ∀ entries : List (Snapshot × Snapshot),
    dropUnder names (entries.filter (isUnder names)).length entries =
      entries.filter fun e => !isUnder names e
  | [] => by cases hn : ([] : List (Snapshot × Snapshot)).length <;> rfl
  | e :: rest => by
    by_cases he : isUnder names e
    · rw [List.filter_cons_of_pos he, List.length_cons, dropUnder, if_pos he, dropUnder_all,
        List.filter_cons_of_neg (by simp [he])]
    · rw [List.filter_cons_of_neg he, List.filter_cons_of_pos (by simp [he]), ← dropUnder_all]
      cases (rest.filter (isUnder names)).length with
      | zero => simp only [dropUnder]
      | succ n => rw [dropUnder, if_neg he]

/-- The same entries in whatever order, but for those under names that are spent : a field that
looked for them has failed, and took some of them with it. -/
def Beside (spent : List String) (left left' : List (Snapshot × Snapshot)) : Prop :=
  (left.filter fun e => !isUnder spent e).Perm (left'.filter fun e => !isUnder spent e)

theorem beside_nil : Beside [] left left' ↔ left.Perm left' := by
  simp [Beside, isUnder_nil]

theorem Beside.symm (h : Beside spent left left') : Beside spent left' left :=
  List.Perm.symm h

/-- More names may be spent, whatever is left under them. -/
theorem Beside.spend (h : Beside spent left left') (names : List String) :
    Beside (names ++ spent) left left' := by
  have hfilter : ∀ es : List (Snapshot × Snapshot),
      es.filter (fun e => !isUnder (names ++ spent) e) =
        (es.filter fun e => !isUnder spent e).filter fun e => !isUnder names e := by
    intro es
    simp [List.filter_filter, isUnder_append]
  rw [Beside, hfilter, hfilter]
  exact List.Perm.filter _ h

/-- Under names that are not spent there are the same entries. -/
theorem Beside.under (h : Beside spent left left') (hnames : ∀ n ∈ names, n ∉ spent) :
    (left.filter (isUnder names)).Perm (left'.filter (isUnder names)) := by
  have hfilter : ∀ es : List (Snapshot × Snapshot), es.filter (isUnder names) =
      (es.filter fun e => !isUnder spent e).filter (isUnder names) := by
    intro es
    rw [List.filter_filter]
    refine List.filter_congr fun e _ => ?_
    cases he : isUnder names e with
    | false => rfl
    | true => simp [isUnder_disjoint hnames he]
  rw [hfilter left, hfilter left']
  exact List.Perm.filter _ h

/-- What is taken under some names is then spent, however much it is. -/
theorem Beside.dropUnder (h : Beside spent left left') (names : List String) (n m : Nat) :
    Beside (names ++ spent) (dropUnder names n left) (dropUnder names m left') := by
  have hfilter : ∀ k (es : List (Snapshot × Snapshot)),
      (Leftover.dropUnder names k es).filter (fun e => !isUnder (names ++ spent) e) =
        es.filter fun e => !isUnder (names ++ spent) e := by
    intro k es
    simp only [isUnder_append, Bool.not_or, Bool.and_comm (!isUnder names _)]
    rw [← List.filter_filter, filter_dropUnder, List.filter_filter]
  rw [Beside, hfilter, hfilter]
  exact h.spend names

/-- Where all is taken under some names, they need not be spent. -/
theorem Beside.without (h : Beside spent left left') (names : List String) :
    Beside spent (left.filter fun e => !isUnder names e)
      (left'.filter fun e => !isUnder names e) := by
  rw [Beside, List.filter_comm, List.filter_comm (l := left')]
  exact List.Perm.filter _ h

end Leftover

/-! ## Structs from entries -/

namespace Visit

variable {σ : Type}

/-- Readers of fields that are completed alike whatever the order of what is left. -/
def Orderless (refusing : Bool) (readers : List (FieldReader σ)) : Prop :=
  ∀ ⦃own ds : List Datum⦄ ⦃left left' : List (Snapshot × Snapshot)⦄, left.Perm left' →
    complete refusing readers own left = .ok ds → complete refusing readers own left' = .ok ds

theorem refuseLeft_perm {refusing : Bool} {left left' : List (Snapshot × Snapshot)}
    (hperm : left.Perm left') (h : refuseLeft refusing left = .ok ()) :
    refuseLeft refusing left' = .ok () := by
  cases left with
  | nil => rwa [← hperm.nil_eq]
  | cons e rest =>
    obtain ⟨e', rest', rfl⟩ : ∃ e' rest', left' = e' :: rest' :=
      List.exists_cons_of_ne_nil fun hnil => by simp [hnil] at hperm
    simp only [refuseLeft] at h ⊢
    split_ifs at h ⊢
    rfl

@[simp] theorem refuseLeft_false (left : List (Snapshot × Snapshot)) :
    refuseLeft false left = .ok () := by
  cases left <;> simp [refuseLeft]

/-- Without flattened fields nothing is read of what is left. -/
theorem orderless_of_unflattened {refusing : Bool} : ∀ {readers : List (FieldReader σ)},
    (∀ r ∈ readers, r.field.flattened = false) → Orderless refusing readers
  | [], _, own, ds, left, left', hperm, h => by
    obtain ⟨_, hleft, rfl⟩ := map_eq_ok.1 h
    exact map_eq_ok.2 ⟨_, refuseLeft_perm hperm hleft, rfl⟩
  | r :: readers, hr, own, ds, left, left', hperm, h => by
    simp only [complete, hr r List.mem_cons_self, Bool.false_eq_true, if_false] at h ⊢
    obtain ⟨ds, hds, h⟩ := bind_eq_ok.1 h
    exact bind_eq_ok.2 ⟨ds, orderless_of_unflattened
      (fun r hmem => hr r (List.mem_cons_of_mem _ hmem)) hperm hds, h⟩

/-- A struct is read from the entries of a map in every order, and to their end. -/
theorem struct_perm [Source σ] {what : String} {strict : Bool} {readers : List (FieldReader σ)}
    (hr : Orderless (strict && readers.any (·.field.flattened)) readers)
    {entries entries' : List (σ × σ)} (hperm : entries.Perm entries') {hint : Option Nat}
    {ds : List Datum} (h : (struct what strict readers (.map entries hint)).result = .ok ds)
    (hint' : Option Nat) :
    struct what strict readers (.map entries' hint') =
      ⟨{ whole := entries'.length }, .ok ds⟩ := by
  simp only [struct] at h ⊢
  obtain ⟨all, hall, h⟩ := bind_eq_ok.1 h
  obtain ⟨own, hown, hds⟩ := bind_eq_ok.1 h
  have hlt : ∀ k i, consult .identifier k
      (fieldKey readers strict (readers.any (·.field.flattened))) = .ok (.known i) →
        i < (readers.filter fun r => !r.field.flattened).length := by
    intro k i hk
    obtain ⟨c, hc⟩ := exists_call_of_consult hk
    obtain ⟨n, -, hn⟩ := fieldKey_eq_known hc
    simpa using Name.lt_of_find?_eq_some hn
  have hrun := ((slots_eq_ok hlt).1 (Outcome.eq_mk_of_result hall)).2
  obtain ⟨all', hrun', hlike⟩ := hrun.perm hperm (.refl _)
  rw [(slots_eq_ok hlt).2 ⟨rfl, hrun'⟩, Nat.zero_add, Outcome.andThen]
  have hds' : (fill _ all'.values >>= fun own =>
      complete (strict && readers.any (·.field.flattened)) readers own all'.rest) = .ok ds :=
    bind_eq_ok.2 ⟨own, hlike.values ▸ hown, hr hlike.rest hds⟩
  exact congrArg (Outcome.mk _) hds'

end Visit

/-! ## Types -/

/-- The names under which a flattened field looks for entries. -/
def Ty.recordNames : Ty → List String
  | .option t => t.recordNames
  | .struct _ fields => namesOf fields
  | _ => []

/-- A struct without flattened fields, or nothing where it cannot be read. -/
inductive Ty.Record : Ty → Prop
  | struct (info : StructInfo) {fields : List (Field × Ty)}
    (hflat : fields.any (·.1.flattened) = false) : Record (.struct info fields)
  | option {t : Ty} (ht : t.Record) : Record (.option t)

/-- A struct that is read by the names of its fields. Its flattened fields, if it has any, are
records and look for different names : what one of them has begun to read in vain is not there for
the next, and a map would take all that is left, in the order in which it stands. How much has been
read in vain depends on the order, so a struct that refuses what is left in the end has no field
that may be read in vain. -/
inductive Ty.Unordered : Ty → Prop
  | struct (info : StructInfo) {fields : List (Field × Ty)}
    (hflat : ∀ f ∈ fields, f.1.flattened → f.2.Record)
    (hn : ((fields.filter (·.1.flattened)).flatMap (·.2.recordNames)).Nodup)
    (hstrict : info.strict → ∀ f ∈ fields, f.1.flattened → f.2.isOption = false) :
    Unordered (.struct info fields)
  | newtypeStruct (name : String) {t : Ty} (ht : t.Unordered) : Unordered (.newtypeStruct name t)

theorem orderless_unflattened {fields : List (Field × Ty)}
    (h : fields.any (·.1.flattened) = false) (σ : Type) [Source σ] (refusing : Bool) :
    Visit.Orderless refusing (fieldReaders fields : List (FieldReader σ)) := by
  rw [← any_flattened_fieldReaders (σ := σ), List.any_eq_false] at h
  exact Visit.orderless_of_unflattened (by simpa using h)

namespace Ty

open Leftover (Beside isUnder)

variable {t : Ty} {spent : List String} {left left' : List (Snapshot × Snapshot)}

/-- A struct without flattened fields takes the entries under its names, all of them if it can be
read. -/
theorem readFlattened_struct {info : StructInfo} {fields : List (Field × Ty)}
    (hflat : fields.any (·.1.flattened) = false) (left : List (Snapshot × Snapshot)) :
    (Ty.struct info fields).readFlattened left =
      Leftover.taken (namesOf fields)
        (fun c => (Visit.struct ("struct " ++ info.name) info.strict
          (fieldReaders fields : List (FieldReader Exacting)) c).map
            (structDatum info.name (fields.map (·.1)))) left := by
  rw [readFlattened]
  simp only [hflat, Bool.false_eq_true, if_false, ← fieldNames_fieldReaders (σ := Exacting),
    fieldNames]

/-- A record is read from what is left in every order. -/
theorem Record.readFlattened_beside (ht : t.Record) (hnames : ∀ n ∈ t.recordNames, n ∉ spent)
    (h : Beside spent left left') {d : Datum} (hd : (t.readFlattened left).1 = .ok d) :
    (t.readFlattened left').1 = .ok d := by
  induction ht generalizing left left' d with
  | @struct info fields hflat =>
    rw [readFlattened_struct hflat] at hd ⊢
    obtain ⟨values, hvalues, rfl⟩ := map_eq_ok.1 hd
    have hread := Visit.struct_perm (orderless_unflattened hflat Exacting _)
      ((h.under hnames).map fun e => (⟨e.1⟩, ⟨e.2⟩)) hvalues none
    exact map_eq_ok.2 ⟨values, congrArg (·.result) hread, rfl⟩
  | @option t _ ih =>
    simp only [readFlattened] at hd ⊢
    rw [← hd]
    cases hread : (t.readFlattened left).1 with
    | ok e => rw [ih hnames h hread]
    | error f =>
      cases hread' : (t.readFlattened left').1 with
      | error g => rfl
      | ok e =>
        -- what is read in the other order would be read in this one too
        have hback := ih hnames h.symm hread'
        simp [hread] at hback

/-- What a record leaves is the same where its names do not matter any more. -/
theorem Record.left_beside (ht : t.Record) (h : Beside spent left left') :
    Beside (t.recordNames ++ spent) (t.readFlattened left).2 (t.readFlattened left').2 := by
  induction ht with
  | @struct info fields hflat =>
    rw [readFlattened_struct hflat, readFlattened_struct hflat]
    exact h.dropUnder _ _ _
  | option _ ih => exact ih

/-- A struct that is read leaves nothing under its names. -/
theorem Record.left_of_read (ht : t.Record) (hoption : t.isOption = false) {d : Datum}
    (hd : (t.readFlattened left).1 = .ok d) :
    (t.readFlattened left).2 = left.filter fun e => !isUnder t.recordNames e := by
  cases ht with
  | @struct info fields hflat =>
    rw [readFlattened_struct hflat] at hd ⊢
    obtain ⟨values, hvalues, -⟩ := map_eq_ok.1 hd
    have hread := Visit.struct_perm (orderless_unflattened hflat Exacting _) (.refl _) hvalues none
    simp only [Leftover.taken, Exacting.ofCall, hread, Outcome.map, Progress.begun_whole,
      List.length_map]
    exact Leftover.dropUnder_all _ left
  | option => simp [isOption] at hoption

/-- Flattened fields that are records and look for different names are read from what is left in
every order. Only where nothing may be left in the end it matters how much was read in vain. -/
theorem complete_beside {σ : Type} [Source σ] {refusing : Bool} : ∀ {fields : List (Field × Ty)}
    {own ds : List Datum} {spent : List String} {left left' : List (Snapshot × Snapshot)},
    (∀ f ∈ fields, f.1.flattened → f.2.Record) →
    ((fields.filter (·.1.flattened)).flatMap (·.2.recordNames) ++ spent).Nodup →
    (refusing → spent = [] ∧ ∀ f ∈ fields, f.1.flattened → f.2.isOption = false) →
    Beside spent left left' →
    Visit.complete refusing (fieldReaders fields : List (FieldReader σ)) own left = .ok ds →
      Visit.complete refusing (fieldReaders fields : List (FieldReader σ)) own left' = .ok ds
  | [], _, _, spent, _, _, _, _, hstrict, h, hds => by
    obtain ⟨_, hleft, rfl⟩ := map_eq_ok.1 hds
    refine map_eq_ok.2 ⟨(), ?_, rfl⟩
    cases refusing with
    | true =>
      obtain rfl := (hstrict rfl).1
      exact Visit.refuseLeft_perm (Leftover.beside_nil.1 h) hleft
    | false => exact Visit.refuseLeft_false _
  | (f, t) :: fields, own, ds, spent, left, left', hflat, hn, hstrict, h, hds => by
    have hflat' : ∀ g ∈ fields, g.1.flattened → g.2.Record := fun g hg =>
      hflat g (List.mem_cons_of_mem _ hg)
    have hoptions : refusing → ∀ g ∈ fields, g.1.flattened → g.2.isOption = false :=
      fun hr g hg => (hstrict hr).2 g (List.mem_cons_of_mem _ hg)
    rw [fieldReaders] at hds ⊢
    cases hf : f.flattened with
    | false =>
      rw [List.filter_cons_of_neg (by simp [hf])] at hn
      obtain ⟨rest, hrest, rfl⟩ := (Visit.complete_own_eq_ok hf).1 hds
      exact (Visit.complete_own_eq_ok hf).2 ⟨rest, complete_beside hflat' hn
        (fun hr => ⟨(hstrict hr).1, hoptions hr⟩) h hrest, rfl⟩
    | true =>
      rw [List.filter_cons_of_pos (by simp [hf]), List.flatMap_cons, List.append_assoc] at hn
      obtain ⟨hnames, hn', hdisjoint⟩ := List.nodup_append.1 hn
      obtain ⟨d, rest, hd, hrest, rfl⟩ := (Visit.complete_flattened_eq_ok hf).1 hds
      have ht : t.Record := hflat _ List.mem_cons_self hf
      have hspent : ∀ n ∈ t.recordNames, n ∉ spent := fun n hn hs =>
        hdisjoint n hn n (List.mem_append_right _ hs) rfl
      have hd' := ht.readFlattened_beside hspent h hd
      refine (Visit.complete_flattened_eq_ok hf).2 ⟨d, rest, hd', ?_, rfl⟩
      cases hoption : t.isOption with
      | true =>
        refine complete_beside hflat' ?_ (fun hr => ?_) (ht.left_beside h) hrest
        · exact (List.perm_append_comm_assoc ..).nodup_iff.1 hn
        · simpa [hoption] using (hstrict hr).2 _ List.mem_cons_self hf
      | false =>
        rw [ht.left_of_read hoption hd] at hrest
        rw [ht.left_of_read hoption hd']
        exact complete_beside hflat' hn' (fun hr => ⟨(hstrict hr).1, hoptions hr⟩)
          (h.without _) hrest

/-- The fields of a struct that may be read in every order are completed so. -/
theorem orderless_fieldReaders {σ : Type} [Source σ] {info : StructInfo}
    {fields : List (Field × Ty)} (hflat : ∀ f ∈ fields, f.1.flattened → f.2.Record)
    (hn : ((fields.filter (·.1.flattened)).flatMap (·.2.recordNames)).Nodup)
    (hstrict : info.strict → ∀ f ∈ fields, f.1.flattened → f.2.isOption = false) :
    Visit.Orderless
      (info.strict && (fieldReaders fields : List (FieldReader σ)).any (·.field.flattened))
      (fieldReaders fields : List (FieldReader σ)) := by
  intro own ds left left' hperm h
  refine complete_beside hflat (by simpa using hn) (fun hrefusing => ⟨rfl, ?_⟩)
    (Leftover.beside_nil.2 hperm) h
  exact hstrict (Bool.and_eq_true_iff.1 hrefusing).1

/-- A struct is read from the entries of a snapshot in every order. -/
theorem Unordered.read_perm {t : Ty} (ht : t.Unordered) :
    ∀ {entries entries' : List (Snapshot × Snapshot)} {d : Datum}, entries.Perm entries' →
      t.read (Snapshot.map entries) = .ok d → t.read (Snapshot.map entries') = .ok d := by
  induction ht with
  | @struct info fields hflat hn hstrict =>
    intro entries entries' d hperm h
    -- both requests are answered with the entries
    have hanswer : ∀ es : List (Snapshot × Snapshot),
        Source.answer (if fields.any (·.1.flattened) then .map else .struct) (Snapshot.map es) =
          .ok (Snapshot.map es).replay := by
      intro es
      split_ifs <;> rfl
    simp only [read] at h ⊢
    obtain ⟨a, ha, hread, -⟩ := consult_eq_ok.1 h
    obtain rfl := Except.ok.inj ((hanswer entries).symm.trans ha)
    obtain ⟨values, hvalues, rfl⟩ := map_eq_ok.1 hread
    have hread' := Visit.struct_perm (orderless_fieldReaders hflat hn hstrict) hperm hvalues
      (some entries'.length)
    refine consult_eq_ok.2 ⟨_, hanswer entries', ?_⟩
    simp only [Snapshot.replay, Snapshot.call, hread']
    exact ⟨rfl, Snapshot.closing_map.2 (Nat.le_refl _)⟩
  | @newtypeStruct name t _ ih =>
    intro entries entries' d hperm h
    obtain ⟨a, ha, hread, -⟩ := consult_eq_ok.1 h
    obtain rfl := Except.ok.inj ha
    obtain ⟨e, he, rfl⟩ := map_eq_ok.1 hread
    refine consult_eq_ok.2 ⟨_, rfl, ?_, rfl⟩
    exact map_eq_ok.2 ⟨e, ih hperm he, rfl⟩

end Ty

/-! ## Unions -/

section Unions

variable {σ τ : Type} [Source σ] [Source τ] {variants : List (String × Ty)} {s : σ} {t : τ}
  {flat flat' : Flat}

theorem exists_of_mem_payloadReaders {v : PayloadReader σ} :
    ∀ {variants : List (String × Ty)}, v ∈ (payloadReaders variants : List (PayloadReader σ)) →
      ∃ x ∈ variants, v = ⟨x.1, x.2.read⟩
  | (tag, t) :: rest, h => by
    obtain rfl | h := List.mem_cons.1 h
    · exact ⟨_, List.mem_cons_self, rfl⟩
    · obtain ⟨x, hx, hv⟩ := exists_of_mem_payloadReaders h
      exact ⟨x, List.mem_cons_of_mem _ hx, hv⟩

/-- A union of structs that is read from entries is read from them in another order. -/
theorem Tagged.read_perm (hvariants : ∀ v ∈ variants, v.2.Unordered) (hs : Flat.read s = .ok flat)
    (ht : Flat.read t = .ok flat') (hperm : flat.entries.Perm flat'.entries) {x : Tagged}
    (h : Tagged.read variants s = .ok x) : Tagged.read variants t = .ok x := by
  rw [Tagged.read, readUnion_kept hs] at h
  rw [Tagged.read, readUnion_kept ht]
  obtain ⟨i, hi, h⟩ := bind_eq_ok.1 h
  obtain ⟨v, hv, h⟩ := bind_eq_ok.1 h
  obtain ⟨d, hd, h⟩ := bind_eq_ok.1 h
  obtain ⟨_, hmem, rfl⟩ :=
    exists_of_mem_payloadReaders (List.mem_of_getElem? (Visit.pick_eq_ok.1 hv))
  have hd' := (hvariants _ hmem).read_perm hperm hd
  rw [Flat.readTag_perm (Flat.nodup_of_read hs) hperm] at hi
  exact bind_eq_ok.2 ⟨i, hi, bind_eq_ok.2 ⟨_, hv, bind_eq_ok.2 ⟨d, hd', h⟩⟩⟩

end Unions

/-- The order of the entries does not matter. What is kept of a map is kept of it in every other
order. Of two sources, of whatever kinds, that are kept as the same entries in whatever order, every
tag is read alike, be it a value or a complaint, and a union whose payloads are structs is read from
both of them, as the same value, or from none. -/
theorem readUnion_reordered :
    (∀ (entries entries' : List (Offer × Offer)) (hint hint' : Option Nat)
      (readable readable' : Bool) (flat : Flat), entries.Perm entries' →
      Flat.read (⟨.map entries hint, readable⟩ : Offered) = .ok flat →
        ∃ flat', Flat.read (⟨.map entries' hint', readable'⟩ : Offered) = .ok flat' ∧
          flat.entries.Perm flat'.entries) ∧
    ∀ {σ τ : Type} [Source σ] [Source τ] (s : σ) (t : τ) (flat flat' : Flat),
      Flat.read s = .ok flat → Flat.read t = .ok flat' → flat.entries.Perm flat'.entries →
        (∀ (α : Type) (field : String) (read : Snapshot → Except Fault α),
          flat.readTag field read = flat'.readTag field read) ∧
        ∀ variants : List (String × Ty), (∀ v ∈ variants, v.2.Unordered) → ∀ x,
          (Tagged.read variants s = .ok x ↔ Tagged.read variants t = .ok x) := by
  refine ⟨fun _ _ _ hint' _ readable' _ hperm h => Flat.read_perm hperm h hint' readable',
    fun s t flat flat' hs ht hperm => ⟨fun α field read => ?_, fun variants hvariants x => ?_⟩⟩
  · exact Flat.readTag_perm (Flat.nodup_of_read hs) hperm field read
  · exact ⟨Tagged.read_perm hvariants hs ht hperm, Tagged.read_perm hvariants ht hs hperm.symm⟩

/-- The entries of a struct with flattened fields, an entry under a number, and the tag. -/
def deepEntries : List (Offer × Offer) :=
  [(.scalar (.text .passing "url"), .scalar (.text .lasting "u")),
    (.scalar (.int .u8 0), .none),
    (.scalar (.text .passing "id"), .scalar (.int .u64 7)),
    (.scalar (.text .owned "type"), .scalar (.text .owned "Deep")),
    (.scalar (.text .passing "text"), .scalar (.text .passing "t"))]

theorem deep_unordered : Catalog.deep.Unordered := by
  refine .struct _ (fun f hf hflat => ?_) (by decide) nofun
  simp only [List.mem_cons, List.not_mem_nil, or_false] at hf
  obtain rfl | rfl | rfl := hf
  · exact absurd hflat (by decide)
  · exact .struct _ rfl
  · exact .option (.struct _ rfl)

theorem readUnion_reordered_deep :
    Tagged.read [("Deep", Catalog.deep)] (⟨.map deepEntries.reverse none, false⟩ : Offered) =
      .ok ⟨"Deep", .map [.entry (.text "id") (.int .u32 7), .entry (.text "text") (.text "t"),
        .entry (.text "url") (.text "u")]⟩ := by
  have hs : Flat.read (⟨.map deepEntries (some 9), true⟩ : Offered) = .ok ⟨_⟩ := rfl
  obtain ⟨flat', ht, hperm⟩ := readUnion_reordered.1 deepEntries deepEntries.reverse (some 9) none
    true false _ (List.reverse_perm _).symm hs
  refine ((readUnion_reordered.2 _ _ _ flat' hs ht hperm).2 [("Deep", Catalog.deep)] ?_ _).1 rfl
  simpa using deep_unordered

end FlatUnion
