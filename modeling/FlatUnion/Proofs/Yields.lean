import FlatUnion.Proofs.Order
import FlatUnion.Proofs.Parts
import FlatUnion.Type.Variant

/-!
# What readers give

What is known of the result of a reader, whatever it was given to read. A reader of a scalar gives a
scalar of its kind. A reader of something with parts gives what the readers of the parts gave : that
of a tuple or a map says which (`Visit.items_ok`, `Visit.map_ok`), that of a struct puts the value
of each field in its place (`FieldReader.Yields`, `Visit.struct_ok`), and that of an enum gives the
content of one of the variants (`VariantReader.Told`), in each of the four forms.
-/

namespace FlatUnion

/-! ## Scalars and sequences -/

section Single

variable {σ α : Type}

/-- A result tells only of answers that the reader accepts. -/
theorem exists_call_of_consult [Source σ] {r : Request} {s : σ} {read : Call σ → Outcome α} {x : α}
    (h : consult r s read = .ok x) : ∃ c, (read c).result = .ok x := by
  obtain ⟨a, -, hx, -⟩ := consult_eq_ok.1 h
  exact ⟨a.call, hx⟩

namespace Visit

variable {c : Call σ} {d : Datum}

theorem bool_ok (h : (bool c).result = .ok d) : ∃ b, d = .bool b := by
  unfold bool at h
  split at h
  · exact ⟨_, (Except.ok.inj h).symm⟩
  · simp [refuse] at h

theorem int_ok {w : Width} (h : (int w c).result = .ok d) : ∃ n, w.fits n ∧ d = .int w n := by
  unfold int at h
  split at h
  · split at h
    · simp [refuse] at h
    · split at h
      · exact ⟨_, ‹_›, (Except.ok.inj h).symm⟩
      · simp at h
  · simp [refuse] at h

theorem f32_ok (h : (f32 c).result = .ok d) : ∃ bits, d = .f32 bits := by
  unfold f32 at h
  split at h
  · split at h
    · exact ⟨_, (Except.ok.inj h).symm⟩
    · simp [refuse] at h
  · simp [refuse] at h

theorem f64_ok (h : (f64 c).result = .ok d) : ∃ bits, d = .f64 bits := by
  unfold f64 at h
  split at h
  · split at h
    · exact ⟨_, (Except.ok.inj h).symm⟩
    · simp [refuse] at h
  · simp [refuse] at h

theorem char_ok (h : (char c).result = .ok d) : ∃ x, d = .char x := by
  unfold char at h
  split at h
  · exact ⟨_, (Except.ok.inj h).symm⟩
  · split at h
    · exact ⟨_, (Except.ok.inj h).symm⟩
    · simp at h
  · simp [refuse] at h

theorem text_ok (h : (text c).result = .ok d) : ∃ s, d = .text s := by
  unfold text at h
  split at h
  · exact ⟨_, (Except.ok.inj h).symm⟩
  · exact ⟨_, (Except.ok.inj h).symm⟩
  · split at h
    · exact ⟨_, (Except.ok.inj h).symm⟩
    · simp at h
  · simp [refuse] at h

theorem borrowed_ok (h : (borrowed c).result = .ok d) : ∃ s, d = .text s := by
  unfold borrowed at h
  split at h
  · exact ⟨_, (Except.ok.inj h).symm⟩
  · split at h
    · exact ⟨_, (Except.ok.inj h).symm⟩
    · simp at h
  · simp [refuse] at h

theorem bytes_ok (h : (bytes c).result = .ok d) : ∃ bs, d = .bytes bs := by
  unfold bytes at h
  split at h
  · exact ⟨_, (Except.ok.inj h).symm⟩
  · simp [refuse] at h

theorem unit_ok (h : (unit c).result = .ok d) : d = .unit := by
  unfold unit at h
  split at h
  · exact (Except.ok.inj h).symm
  · simp [refuse] at h

theorem unitStruct_ok {name : String} (h : (unitStruct name c).result = .ok d) :
    d = .unitStruct name := by
  unfold unitStruct at h
  split at h
  · exact (Except.ok.inj h).symm
  · simp [refuse] at h

/-- An option is empty, or its value was read. -/
theorem option_ok {read : σ → Except Fault Datum} (h : (option read c).result = .ok d) :
    d = .none ∧ (∀ s, c ≠ .some s) ∨ ∃ s e, c = .some s ∧ read s = .ok e ∧ d = .some e := by
  rw [option, Outcome.result_map, map_eq_ok] at h
  obtain ⟨o, ho, rfl⟩ := h
  unfold optional at ho
  split at ho
  · obtain rfl := Except.ok.inj ho
    exact .inl ⟨rfl, by simp⟩
  · obtain rfl := Except.ok.inj ho
    exact .inl ⟨rfl, by simp⟩
  · obtain ⟨e, he, rfl⟩ := map_eq_ok.1 ho
    exact .inr ⟨_, e, rfl, he, rfl⟩
  · simp [refuse] at ho

/-- The elements of a list have all been read. -/
theorem list_ok {read : σ → Except Fault Datum} (h : (list read c).result = .ok d) :
    ∃ es, d = .seq es ∧ ∀ e ∈ es, ∃ s, read s = .ok e := by
  rw [list, Outcome.result_map, map_eq_ok] at h
  obtain ⟨es, hes, rfl⟩ := h
  refine ⟨es, rfl, ?_⟩
  unfold elements at hes
  split at hes
  · intro e he
    obtain ⟨s, -, hs⟩ :=
      exists_left_of_mem (readItems_eq_ok.1 (Outcome.eq_mk_of_result hes)).2 he
    exact ⟨s, hs⟩
  · simp [refuse] at hes

/-- A newtype holds what was read, under its mark or alone in a sequence. -/
theorem newtypeStruct_ok {name : String} {read : σ → Except Fault Datum}
    (h : (newtypeStruct name read c).result = .ok d) :
    ∃ s e, read s = .ok e ∧ d = .newtypeStruct name e ∧ ∀ t, c = .newtype t → s = t := by
  unfold newtypeStruct at h
  split at h
  · obtain ⟨e, he, rfl⟩ := map_eq_ok.1 h
    exact ⟨_, e, he, rfl, by simp⟩
  · next items hint =>
    rw [Outcome.result_map, map_eq_ok] at h
    obtain ⟨ds, hds, rfl⟩ := h
    cases items with
    | nil => simp [inOrder] at hds
    | cons s rest =>
      rw [inOrder] at hds
      cases hs : read s with
      | error f => simp [hs] at hds
      | ok e =>
        simp only [hs, Outcome.result_map, map_eq_ok] at hds
        obtain ⟨_, -, rfl⟩ := hds
        exact ⟨s, e, hs, rfl, by simp⟩
  · simp [refuse] at h

/-- The elements in order have each been read by the reader of their place. -/
theorem inOrder_ok {lengths : String} : ∀ {done : Nat} {readers : List (σ → Except Fault Datum)}
    {items : List σ} {ds : List Datum}, (inOrder lengths done readers items).result = .ok ds →
      List.Forall₂ (fun read d => ∃ s, read s = .ok d) readers ds
  | done, [], items, ds, h => by
    obtain rfl := Except.ok.inj h
    exact .nil
  | done, _ :: _, [], ds, h => by simp [inOrder] at h
  | done, read :: readers, s :: rest, ds, h => by
    rw [inOrder] at h
    cases hs : read s with
    | error f => simp [hs] at h
    | ok d =>
      simp only [hs, Outcome.result_map, map_eq_ok] at h
      obtain ⟨ds, hds, rfl⟩ := h
      exact .cons ⟨s, hs⟩ (inOrder_ok hds)

theorem items_ok {what lengths : String} {readers : List (σ → Except Fault Datum)}
    {ds : List Datum} (h : (items what lengths readers c).result = .ok ds) :
    List.Forall₂ (fun read d => ∃ s, read s = .ok d) readers ds := by
  unfold items at h
  split at h
  · exact inOrder_ok h
  · simp [refuse] at h

/-- The entries of a sorted list are the new one, or were there before, if only under a key that is
in its place. -/
theorem mem_insertSorted {k v : Datum} : ∀ {es : List (Datum × Datum)} {e : Datum × Datum},
    e ∈ insertSorted k v es →
      (e.1 = k ∨ ∃ e' ∈ es, e'.1 = e.1) ∧ (e.2 = v ∨ ∃ e' ∈ es, e'.2 = e.2)
  | [], e, h => by
    obtain rfl := List.mem_singleton.1 h
    exact ⟨.inl rfl, .inl rfl⟩
  | (k', v') :: rest, e, h => by
    rw [insertSorted] at h
    split_ifs at h with hlt hgt
    · obtain rfl | h := List.mem_cons.1 h
      · exact ⟨.inl rfl, .inl rfl⟩
      · exact ⟨.inr ⟨e, h, rfl⟩, .inr ⟨e, h, rfl⟩⟩
    · obtain rfl | h := List.mem_cons.1 h
      · exact ⟨.inr ⟨_, List.mem_cons_self, rfl⟩, .inr ⟨_, List.mem_cons_self, rfl⟩⟩
      · obtain ⟨hk, hv⟩ := mem_insertSorted h
        exact ⟨hk.imp_right List.exists_mem_cons_of_exists,
          hv.imp_right List.exists_mem_cons_of_exists⟩
    · obtain rfl | h := List.mem_cons.1 h
      · exact ⟨.inr ⟨_, List.mem_cons_self, rfl⟩, .inl rfl⟩
      · exact ⟨.inr ⟨e, List.mem_cons_of_mem _ h, rfl⟩, .inr ⟨e, List.mem_cons_of_mem _ h, rfl⟩⟩

/-- What holds of all keys, and of all values, still does when they are sorted. -/
theorem foldl_insertSorted {P Q : Datum → Prop} : ∀ {pairs sorted : List (Datum × Datum)},
    (∀ e ∈ pairs, P e.1 ∧ Q e.2) → (∀ e ∈ sorted, P e.1 ∧ Q e.2) →
      ∀ e ∈ pairs.foldl (fun sorted e => insertSorted e.1 e.2 sorted) sorted, P e.1 ∧ Q e.2
  | [], _, _, hs => hs
  | p :: pairs, sorted, hp, hs => by
    rw [List.foldl_cons]
    refine foldl_insertSorted (fun e he => hp e (List.mem_cons_of_mem _ he)) fun e he => ?_
    have hp := hp p List.mem_cons_self
    obtain ⟨hk, hv⟩ := mem_insertSorted he
    refine ⟨?_, ?_⟩
    · obtain h | ⟨e', he', h⟩ := hk
      · exact h ▸ hp.1
      · exact h ▸ (hs e' he').1
    · obtain h | ⟨e', he', h⟩ := hv
      · exact h ▸ hp.2
      · exact h ▸ (hs e' he').2

theorem map_ok {readKey readValue : σ → Except Fault Datum}
    (h : (map readKey readValue c).result = .ok d) :
    ∃ es, d = .ofEntries es ∧ Ascending es ∧
      ∀ e ∈ es, (∃ s, readKey s = .ok e.1) ∧ ∃ s, readValue s = .ok e.2 := by
  unfold map at h
  split at h
  · obtain ⟨pairs, hpairs, rfl⟩ := map_eq_ok.1 h
    have hpairs := (readEntries_eq_ok.1 (Outcome.eq_mk_of_result hpairs)).2
    refine ⟨_, rfl, foldl_insertSorted_ascending pairs .nil,
      foldl_insertSorted (P := fun k => ∃ s, readKey s = .ok k)
        (Q := fun v => ∃ s, readValue s = .ok v) (fun e he => ?_) (by simp)⟩
    obtain ⟨s, -, hk, hv⟩ := exists_left_of_mem hpairs he
    exact ⟨⟨_, hk⟩, _, hv⟩
  · simp [refuse] at h

end Visit

end Single

/-! ## Structs -/

section Structs

variable {σ : Type}

/-- Whether a value is one that a field gets : read by its reader, taken from what no other field
took, or that of a field that is missing. -/
def FieldReader.Yields (r : FieldReader σ) (d : Datum) : Prop :=
  (∃ s, r.read s = .ok d) ∨ r.missing = .ok d ∨
    ∃ entries, (r.readFlattened entries).1 = .ok d

namespace Visit

/-- Values in the places of fields : where there is one, the field's reader has read it. -/
def Placed (named : List (FieldReader σ)) (values : List (Option Datum)) : Prop :=
  List.Forall₂ (fun r o => ∀ d, o = some d → ∃ s, r.read s = .ok d) named values

theorem Placed.set {named : List (FieldReader σ)} {values : List (Option Datum)}
    (h : Placed named values) {i : Nat} {r : FieldReader σ} (hr : named[i]? = some r) {s : σ}
    {d : Datum} (hd : r.read s = .ok d) : Placed named (values.set i (some d)) := by
  induction h generalizing i with
  | nil => exact .nil
  | cons hv hvs ih =>
    cases i with
    | zero =>
      obtain rfl := Option.some.inj hr
      exact .cons (fun d' hd' => ⟨s, Option.some.inj hd' ▸ hd⟩) hvs
    | succ i => exact .cons hv (ih hr)

/-- What one entry of a map does to what has been read of a struct : its field is read into a place
that is free, or it belongs to no field and is set aside or skipped. -/
inductive Slots.Step [Source σ] (named : List (FieldReader σ))
    (readKey : σ → Except Fault FieldKey) (collecting : Bool) : σ × σ → Slots → Slots → Prop
  | taken {k v : σ} {found : Slots} {i : Nat} {r : FieldReader σ} {d : Datum}
      (hk : readKey k = .ok (.known i)) (hr : named[i]? = some r)
      (hfree : found.values[i]? = some none) (hd : r.read v = .ok d) :
      Step named readKey collecting (k, v) found
        { found with values := found.values.set i (some d) }
  | collected {k v : σ} {found : Slots} {key c : Snapshot} (hcollecting : collecting = true)
      (hk : readKey k = .ok (.other key)) (hv : setAside v = .ok c) :
      Step named readKey collecting (k, v) found { found with rest := found.rest ++ [(key, c)] }
  | skipped {k v : σ} {found : Slots} {key : Snapshot} (hcollecting : collecting = false)
      (hk : readKey k = .ok (.other key)) (hv : Source.skip v = .ok ()) :
      Step named readKey collecting (k, v) found found

/-- Where the entries are read to their end, the first of them has made a step, unless its key tells
a field that is not there. -/
theorem exists_step_of_slots [Source σ] {named : List (FieldReader σ)}
    {readKey : σ → Except Fault FieldKey} {collecting : Bool} {k v : σ} {rest : List (σ × σ)}
    {done : Nat} {found all : Slots}
    (h : (slots named readKey collecting done found ((k, v) :: rest)).result = .ok all) :
    (∃ next, Slots.Step named readKey collecting (k, v) found next ∧
      (slots named readKey collecting (done + 1) next rest).result = .ok all) ∨
      ∃ i, readKey k = .ok (.known i) ∧ named[i]? = none ∧ all = found := by
  rw [slots] at h
  split at h
  case h_1 => simp at h
  case h_2 i hk =>
    split at h
    case h_1 r hr hfree =>
      split at h
      case h_1 => simp at h
      case h_2 d hd => exact .inl ⟨_, .taken hk hr hfree hd, h⟩
    case h_2 => simp at h
    case h_3 hnone => exact .inr ⟨i, hk, hnone, (Except.ok.inj h).symm⟩
  case h_3 key hk =>
    split_ifs at h with hcollecting
    · split at h
      case h_1 => simp at h
      case h_2 c hv => exact .inl ⟨_, .collected hcollecting hk hv, h⟩
    · split at h
      case h_1 => simp at h
      case h_2 hv => exact .inl ⟨_, .skipped (Bool.not_eq_true _ ▸ hcollecting) hk hv, h⟩

theorem Placed.step [Source σ] {named : List (FieldReader σ)}
    {readKey : σ → Except Fault FieldKey} {collecting : Bool} {e : σ × σ} {found next : Slots}
    (hp : Placed named found.values) (hstep : Slots.Step named readKey collecting e found next) :
    Placed named next.values := by
  cases hstep with
  | taken hk hr hfree hd => exact hp.set hr hd
  | collected => exact hp
  | skipped => exact hp

/-- Values are put into places by the readers of these places only. -/
theorem slots_ok [Source σ] {named : List (FieldReader σ)} {readKey : σ → Except Fault FieldKey}
    {collecting : Bool} : ∀ {entries : List (σ × σ)} {done : Nat} {found found' : Slots},
      Placed named found.values →
      (slots named readKey collecting done found entries).result = .ok found' →
        Placed named found'.values
  | [], done, found, found', hp, h => by
    obtain rfl := Except.ok.inj h
    exact hp
  | (k, v) :: rest, done, found, found', hp, h => by
    obtain ⟨next, hstep, h⟩ | ⟨-, -, -, rfl⟩ := exists_step_of_slots h
    · exact slots_ok (hp.step hstep) h
    · exact hp

/-- The value of the first field is what stands in its place, and the others are filled behind
it. -/
theorem fill_cons_eq_ok {r : FieldReader σ} {named : List (FieldReader σ)} {o : Option Datum}
    {values : List (Option Datum)} {all : List Datum} :
    fill (r :: named) (o :: values) = .ok all ↔
      ∃ d ds, o.elim r.missing .ok = .ok d ∧ fill named values = .ok ds ∧ all = d :: ds := by
  simp only [fill, bind_eq_ok, pure_eq_ok]
  constructor
  · rintro ⟨d, hd, ds, hds, rfl⟩
    exact ⟨d, ds, hd, hds, rfl⟩
  · rintro ⟨d, ds, hd, hds, rfl⟩
    exact ⟨d, hd, ds, hds, rfl⟩

theorem fill_ok : ∀ {named : List (FieldReader σ)} {values : List (Option Datum)}
    {ds : List Datum}, Placed named values → fill named values = .ok ds →
      List.Forall₂ FieldReader.Yields named ds
  | [], values, ds, hp, h => by
    obtain rfl := Except.ok.inj h
    exact .nil
  | r :: named, values, ds, hp, h => by
    obtain ⟨o, values, ho, hrest, rfl⟩ := List.forall₂_cons_left_iff.1 hp
    obtain ⟨d, ds, hd, hds, rfl⟩ := fill_cons_eq_ok.1 h
    refine .cons ?_ (fill_ok hrest hds)
    cases o with
    | none => exact .inr (.inl hd)
    | some d' =>
      obtain rfl := Except.ok.inj hd
      exact .inl (ho _ rfl)

section Completing

variable {refusing : Bool} {r : FieldReader σ} {readers : List (FieldReader σ)}
  {own ds : List Datum} {left : List (Snapshot × Snapshot)}

/-- A flattened field is read from what is left, and the others from what it leaves. -/
theorem complete_flattened_eq_ok (hf : r.field.flattened = true) :
    complete refusing (r :: readers) own left = .ok ds ↔
      ∃ d rest, (r.readFlattened left).1 = .ok d ∧
        complete refusing readers own (r.readFlattened left).2 = .ok rest ∧ ds = d :: rest := by
  simp only [complete, if_pos hf, bind_eq_ok, pure_eq_ok]
  constructor
  · rintro ⟨d, hd, rest, hrest, rfl⟩
    exact ⟨d, rest, hd, hrest, rfl⟩
  · rintro ⟨d, rest, hd, hrest, rfl⟩
    exact ⟨d, hd, rest, hrest, rfl⟩

/-- A field that is not flattened has its value already. -/
theorem complete_own_eq_ok (hf : r.field.flattened = false) :
    complete refusing (r :: readers) own left = .ok ds ↔
      ∃ rest, complete refusing readers own.tail left = .ok rest ∧
        ds = own.headD .unit :: rest := by
  simp only [complete, hf, Bool.false_eq_true, if_false, bind_eq_ok, pure_eq_ok]
  constructor
  · rintro ⟨rest, hrest, rfl⟩
    exact ⟨rest, hrest, rfl⟩
  · rintro ⟨rest, hrest, rfl⟩
    exact ⟨rest, hrest, rfl⟩

end Completing

theorem complete_ok {refusing : Bool} : ∀ {readers : List (FieldReader σ)} {own : List Datum}
    {left : List (Snapshot × Snapshot)} {ds : List Datum},
      List.Forall₂ FieldReader.Yields (readers.filter fun r => !r.field.flattened) own →
      complete refusing readers own left = .ok ds → List.Forall₂ FieldReader.Yields readers ds
  | [], own, left, ds, ho, h => by
    obtain ⟨-, -, rfl⟩ := map_eq_ok.1 h
    exact .nil
  | r :: readers, own, left, ds, ho, h => by
    cases hf : r.field.flattened with
    | true =>
      rw [List.filter_cons_of_neg (by simp [hf])] at ho
      obtain ⟨d, ds, hd, hds, rfl⟩ := (complete_flattened_eq_ok hf).1 h
      exact .cons (.inr (.inr ⟨_, hd⟩)) (complete_ok ho hds)
    | false =>
      rw [List.filter_cons_of_pos (by simp [hf])] at ho
      obtain ⟨d, own, hd, hrest, rfl⟩ := List.forall₂_cons_left_iff.1 ho
      obtain ⟨ds, hds, rfl⟩ := (complete_own_eq_ok hf).1 h
      exact .cons hd (complete_ok hrest hds)

theorem fieldsInOrder_ok {lengths : String} : ∀ {readers : List (FieldReader σ)} {i done : Nat}
    {items : List σ} {ds : List Datum},
      (fieldsInOrder lengths i done readers items).result = .ok ds →
      List.Forall₂ FieldReader.Yields readers ds
  | [], i, done, items, ds, h => by
    obtain rfl := Except.ok.inj h
    exact .nil
  | r :: readers, i, done, [], ds, h => by
    rw [fieldsInOrder] at h
    split at h
    · next d hd =>
      obtain ⟨ds, hds, rfl⟩ := map_eq_ok.1 h
      exact .cons (.inr (.inl (by rw [FieldReader.missing, hd]))) (fieldsInOrder_ok hds)
    · simp at h
  | r :: readers, i, done, s :: rest, ds, h => by
    rw [fieldsInOrder] at h
    split at h
    · simp at h
    · next d hd =>
      obtain ⟨ds, hds, rfl⟩ := map_eq_ok.1 h
      exact .cons (.inl ⟨s, hd⟩) (fieldsInOrder_ok hds)

/-- The values of a struct have each been given by the reader of their field. -/
theorem struct_ok [Source σ] {what : String} {strict : Bool} {readers : List (FieldReader σ)}
    {c : Call σ} {ds : List Datum} (h : (struct what strict readers c).result = .ok ds) :
    List.Forall₂ FieldReader.Yields readers ds := by
  unfold struct at h
  split at h
  · obtain ⟨found, hfound, h⟩ := bind_eq_ok.1 h
    obtain ⟨own, hown, h⟩ := bind_eq_ok.1 h
    refine complete_ok (fill_ok (slots_ok ?_ hfound) hown) h
    rw [Placed, List.forall₂_map_right_iff, List.forall₂_same]
    simp
  · split_ifs at h
    · simp [refuse] at h
    · exact fieldsInOrder_ok h
  · simp [refuse] at h

end Visit

end Structs

/-! ## Enums -/

section Enums

variable {σ : Type}

/-- An enum in the external form as it is written. -/
def externalDatum (variant : VariantName) : VariantContent → Datum
  | .unit => .unitVariant variant
  | .newtype d => .newtypeVariant variant d
  | .tuple ds => .tupleVariant variant ds
  | .struct fields => .structVariant variant fields

/-- Whether a content is one that a variant gets. A missing one may be an empty option. -/
def VariantReader.Yields (r : VariantReader σ) : VariantContent → Prop
  | .unit => r.form = .unit
  | .newtype d => r.form = .newtype ∧ ((∃ s, r.read s = .ok d) ∨ r.optional ∧ d = .none)
  | .tuple ds => r.form = .tuple ∧ List.Forall₂ (fun read d => ∃ s, read s = .ok d) r.items ds
  | .struct fields => r.form = .struct ∧
    ∃ values, fields = r.written values ∧ List.Forall₂ FieldReader.Yields r.fields values

/-- Whether the variant at a place has this name and gets this content. -/
def VariantReader.Told (readers : List (VariantReader σ)) (i : Nat) (variant : String)
    (content : VariantContent) : Prop :=
  ∃ r, readers[i]? = some r ∧ variant = r.name ∧ r.Yields content

namespace Visit

theorem pick_eq_ok {α : Type} {xs : List α} {i : Nat} {x : α} :
    pick xs i = .ok x ↔ xs[i]? = some x := by
  unfold pick
  cases xs[i]? <;> simp

variable {enum : String} {content : VariantContent}

section Contents

variable {r : VariantReader σ} {s : σ}

theorem yields_newtype (hf : r.form = .newtype)
    (h : (do return .newtype (← r.read s)) = Except.ok content) : r.Yields content := by
  obtain ⟨d, hd, h⟩ := bind_eq_ok.1 h
  obtain rfl := Except.ok.inj h
  exact ⟨hf, .inl ⟨s, hd⟩⟩

variable [Source σ] {request : Request}

theorem yields_tuple {what lengths : String} (hf : r.form = .tuple)
    (h : (do return .tuple (← consult request s (items what lengths r.items))) =
      Except.ok content) : r.Yields content := by
  obtain ⟨ds, hds, h⟩ := bind_eq_ok.1 h
  obtain rfl := Except.ok.inj h
  obtain ⟨c, hc⟩ := exists_call_of_consult hds
  exact ⟨hf, items_ok hc⟩

theorem yields_struct {what : String} (hf : r.form = .struct)
    (h : (do return .struct (r.written (← consult request s (struct what false r.fields)))) =
      Except.ok content) : r.Yields content := by
  obtain ⟨values, hvalues, h⟩ := bind_eq_ok.1 h
  obtain rfl := Except.ok.inj h
  obtain ⟨c, hc⟩ := exists_call_of_consult hvalues
  exact ⟨hf, values, rfl, struct_ok hc⟩

end Contents

theorem externalContent_ok [Source σ] {r : VariantReader σ} {s : Option σ}
    (h : externalContent enum r s = .ok content) : r.Yields content := by
  unfold externalContent at h
  split at h
  · split at h
    · next hf =>
      obtain rfl := Except.ok.inj h
      exact hf
    all_goals simp at h
  · split at h
    · next hf =>
      obtain ⟨_, -, h⟩ := bind_eq_ok.1 h
      obtain rfl := Except.ok.inj h
      exact hf
    · next hf => exact yields_newtype hf h
    · next hf => exact yields_tuple hf h
    · next hf => exact yields_struct hf h

theorem bareUnit_ok {name : String} {c : Call σ} (h : (bareUnit enum name c).result = .ok content) :
    content = .unit := by
  unfold bareUnit at h
  split at h
  · exact (Except.ok.inj h).symm
  · exact (Except.ok.inj h).symm
  · simp [refuse] at h

theorem taggedUnit_ok {name : String} {c : Call Exacting}
    (h : (taggedUnit enum name c).result = .ok content) : content = .unit := by
  unfold taggedUnit at h
  split at h
  · exact (Except.ok.inj h).symm
  · exact (Except.ok.inj h).symm
  · simp [refuse] at h

theorem bareContent_ok [Source σ] {r : VariantReader σ} {s : σ}
    (h : bareContent enum r s = .ok content) : r.Yields content := by
  unfold bareContent at h
  split at h
  · next hf =>
    obtain ⟨c, hc⟩ := exists_call_of_consult h
    obtain rfl := bareUnit_ok hc
    exact hf
  · next hf => exact yields_newtype hf h
  · next hf => exact yields_tuple hf h
  · next hf => exact yields_struct hf h

theorem taggedContent_ok {r : VariantReader Exacting} {c : Snapshot}
    (h : taggedContent enum r c = .ok content) : r.Yields content := by
  unfold taggedContent at h
  split at h
  · next hf =>
    obtain ⟨c, hc⟩ := exists_call_of_consult h
    obtain rfl := taggedUnit_ok hc
    exact hf
  · exact bareContent_ok h

theorem withoutContent_ok {key : String} {r : VariantReader σ}
    (h : withoutContent key r = .ok content) : r.Yields content := by
  unfold withoutContent at h
  split at h
  · next hf =>
    obtain rfl := Except.ok.inj h
    exact hf
  · next hf =>
    split_ifs at h with ho
    obtain rfl := Except.ok.inj h
    exact ⟨hf, .inr ⟨ho, rfl⟩⟩
  · simp at h

theorem externalEnum_ok [Source σ] {readers : List (VariantReader σ)} {c : Call σ} {d : Datum}
    (h : (externalEnum enum readers c).result = .ok d) :
    ∃ i variant content, VariantReader.Told readers i variant content ∧
      d = externalDatum ⟨enum, i, variant⟩ content := by
  unfold externalEnum at h
  split at h
  · obtain ⟨i, -, h⟩ := bind_eq_ok.1 h
    obtain ⟨r, hr, h⟩ := bind_eq_ok.1 h
    obtain ⟨content, hc, h⟩ := bind_eq_ok.1 h
    refine ⟨i, r.name, content, ⟨r, pick_eq_ok.1 hr, rfl, externalContent_ok hc⟩, ?_⟩
    cases content <;> exact (Except.ok.inj h).symm
  · simp [refuse] at h

theorem resultEnum_ok [Source σ] {readOk readError : σ → Except Fault Datum} {c : Call σ}
    {d : Datum} (h : (resultEnum readOk readError c).result = .ok d) :
    (∃ s e, readOk s = .ok e ∧ d = .newtypeVariant ⟨"Result", 0, "Ok"⟩ e) ∨
      ∃ s e, readError s = .ok e ∧ d = .newtypeVariant ⟨"Result", 1, "Err"⟩ e := by
  unfold resultEnum at h
  split at h
  · obtain ⟨i, -, h⟩ := bind_eq_ok.1 h
    split at h
    · simp at h
    · split at h
      · obtain ⟨e, he, h⟩ := bind_eq_ok.1 h
        exact .inl ⟨_, e, he, (Except.ok.inj h).symm⟩
      · obtain ⟨e, he, h⟩ := bind_eq_ok.1 h
        exact .inr ⟨_, e, he, (Except.ok.inj h).symm⟩
  · simp [refuse] at h

theorem internalEnum_ok [Source σ] {tag : String} {readers : List (VariantReader Exacting)} {s : σ}
    {d : Datum} (h : internalEnum enum tag readers s = .ok d) :
    ∃ i variant content, VariantReader.Told readers i variant content ∧
      d = taggedDatum enum tag variant content := by
  obtain ⟨⟨i, c⟩, -, h⟩ := bind_eq_ok.1 h
  obtain ⟨r, hr, h⟩ := bind_eq_ok.1 h
  obtain ⟨content, hc, h⟩ := bind_eq_ok.1 h
  exact ⟨i, r.name, content, ⟨r, pick_eq_ok.1 hr, rfl, taggedContent_ok hc⟩,
    (Except.ok.inj h).symm⟩

/-- An enum whose variant is not told is the first that its content can be read as. -/
theorem untaggedEnum_eq_ok {c : Snapshot} {d : Datum} : ∀ {readers : List (VariantReader Exacting)},
    untaggedEnum enum readers c = .ok d →
      ∃ r ∈ readers, ∃ content, bareContent enum r ⟨c⟩ = .ok content ∧ d = bareDatum r.name content
  | r :: rest, h => by
    rw [untaggedEnum] at h
    split at h
    · next content hc => exact ⟨r, List.mem_cons_self, content, hc, (Except.ok.inj h).symm⟩
    · obtain ⟨r, hr, content, hc, hd⟩ := untaggedEnum_eq_ok h
      exact ⟨r, List.mem_cons_of_mem _ hr, content, hc, hd⟩

theorem untaggedEnum_ok {readers : List (VariantReader Exacting)} {c : Snapshot} {d : Datum}
    (h : untaggedEnum enum readers c = .ok d) :
    ∃ i variant content, VariantReader.Told readers i variant content ∧
      d = bareDatum variant content := by
  obtain ⟨r, hr, content, hc, hd⟩ := untaggedEnum_eq_ok h
  obtain ⟨i, hi⟩ := List.getElem?_of_mem hr
  exact ⟨i, r.name, content, ⟨r, hi, rfl, bareContent_ok hc⟩, hd⟩

/-- What one entry of a map can add to what has been found : nothing, the tag or the content, which
is read at once if the tag is there, and is kept until it is there otherwise. -/
inductive Adjacent.Step [Source σ] (enum : String) (readers : List (VariantReader σ))
    (kept : List (VariantReader Exacting)) : Adjacent → Adjacent → Prop
  | other (found : Adjacent) : Step enum readers kept found found
  | tag (i : Nat) : Step enum readers kept .nothing (.tag i)
  | content (c : Snapshot) : Step enum readers kept .nothing (.content c)
  | atOnce {i : Nat} {r : VariantReader σ} {v : σ} {content : VariantContent}
      (hr : readers[i]? = some r) (hv : bareContent enum r v = .ok content) :
      Step enum readers kept (.tag i) (.both i content)
  | belated {i : Nat} {r : VariantReader Exacting} {c : Snapshot} {content : VariantContent}
      (hr : kept[i]? = some r) (hc : bareContent enum r ⟨c⟩ = .ok content) :
      Step enum readers kept (.content c) (.both i content)

/-- Where a map is read to its end, its first entry has made a step, and the others are read from
there. -/
theorem exists_step_of_adjacentEntries [Source σ] {tag key : String}
    {readers : List (VariantReader σ)} {kept : List (VariantReader Exacting)} {k v : σ}
    {rest : List (σ × σ)} {done : Nat} {found : Adjacent} {x : Nat × VariantContent}
    (h : (adjacentEntries enum tag key readers kept done found ((k, v) :: rest)).result = .ok x) :
    ∃ next, Adjacent.Step enum readers kept found next ∧
      (adjacentEntries enum tag key readers kept (done + 1) next rest).result = .ok x := by
  unfold adjacentEntries at h
  dsimp only at h
  split at h
  case h_1 => simp at h
  case h_2 =>
    split at h
    case h_1 => simp at h
    case h_2 next hnext =>
      obtain ⟨_, -, rfl⟩ := map_eq_ok.1 hnext
      exact ⟨_, .other found, h⟩
  case h_3 =>
    cases found with
    | tag i | both i c => simp at h
    | nothing =>
      dsimp only at h
      split at h
      case h_1 => simp at h
      case h_2 next hnext =>
        obtain ⟨i, -, rfl⟩ := map_eq_ok.1 hnext
        exact ⟨_, .tag i, h⟩
    | content c =>
      dsimp only at h
      split at h
      case h_1 => simp at h
      case h_2 next hnext =>
        obtain ⟨i, -, hnext⟩ := bind_eq_ok.1 hnext
        obtain ⟨r, hr, hnext⟩ := bind_eq_ok.1 hnext
        obtain ⟨content, hc, hnext⟩ := bind_eq_ok.1 hnext
        obtain rfl := Except.ok.inj hnext
        exact ⟨_, .belated (pick_eq_ok.1 hr) hc, h⟩
  case h_4 =>
    cases found with
    | content c | both i c => simp at h
    | nothing =>
      dsimp only at h
      split at h
      case h_1 => simp at h
      case h_2 next hnext =>
        obtain ⟨c, -, rfl⟩ := map_eq_ok.1 hnext
        exact ⟨_, .content c, h⟩
    | tag i =>
      dsimp only at h
      split at h
      case h_1 => simp at h
      case h_2 next hnext =>
        obtain ⟨r, hr, hnext⟩ := bind_eq_ok.1 hnext
        obtain ⟨content, hv, hnext⟩ := bind_eq_ok.1 hnext
        obtain rfl := Except.ok.inj hnext
        exact ⟨_, .atOnce (pick_eq_ok.1 hr) hv, h⟩

/-- What has been found of an enum in the adjacent form : the content is that of the variant, read
as it came or after it was kept. -/
def Adjacent.Sound (readers : List (VariantReader σ)) (kept : List (VariantReader Exacting)) :
    Adjacent → Prop
  | .both i content => (∃ variant, VariantReader.Told readers i variant content) ∨
    ∃ variant, VariantReader.Told kept i variant content
  | _ => True

theorem Adjacent.Sound.step [Source σ] {readers : List (VariantReader σ)}
    {kept : List (VariantReader Exacting)} {found next : Adjacent}
    (hf : found.Sound readers kept) (hstep : Step enum readers kept found next) :
    next.Sound readers kept := by
  cases hstep with
  | other => exact hf
  | tag i => trivial
  | content c => trivial
  | atOnce hr hv => exact .inl ⟨_, _, hr, rfl, bareContent_ok hv⟩
  | belated hr hc => exact .inr ⟨_, _, hr, rfl, bareContent_ok hc⟩

theorem adjacentEntries_ok [Source σ] {tag key : String} {readers : List (VariantReader σ)}
    {kept : List (VariantReader Exacting)} : ∀ {entries : List (σ × σ)} {done : Nat}
    {found : Adjacent} {i : Nat} {content : VariantContent}, found.Sound readers kept →
      (adjacentEntries enum tag key readers kept done found entries).result = .ok (i, content) →
        (Adjacent.both i content).Sound readers kept
  | [], done, found, i, content, hf, h => by
    unfold adjacentEntries at h
    cases found with
    | nothing | content c => simp at h
    | tag j =>
      obtain ⟨r, hr, h⟩ := bind_eq_ok.1 h
      obtain ⟨c, hc, h⟩ := bind_eq_ok.1 h
      obtain ⟨rfl, rfl⟩ := Prod.mk.inj (Except.ok.inj h)
      exact .inl ⟨r.name, r, pick_eq_ok.1 hr, rfl, withoutContent_ok hc⟩
    | both j c =>
      obtain ⟨rfl, rfl⟩ := Prod.mk.inj (Except.ok.inj h)
      exact hf
  | (k, v) :: rest, done, found, i, content, hf, h => by
    obtain ⟨next, hstep, h⟩ := exists_step_of_adjacentEntries h
    exact adjacentEntries_ok (hf.step hstep) h

theorem adjacentEnum_ok [Source σ] {tag key : String} {readers : List (VariantReader σ)}
    {kept : List (VariantReader Exacting)} {c : Call σ} {i : Nat} {content : VariantContent}
    (h : (adjacentEnum enum tag key readers kept c).result = .ok (i, content)) :
    (Adjacent.both i content).Sound readers kept := by
  unfold adjacentEnum at h
  split at h
  · exact adjacentEntries_ok (by trivial) h
  · split at h
    · simp at h
    · split at h
      · simp at h
      · simp at h
      · obtain ⟨r, hr, h⟩ := bind_eq_ok.1 h
        obtain ⟨d, hd, h⟩ := bind_eq_ok.1 h
        obtain ⟨rfl, rfl⟩ := Prod.mk.inj (Except.ok.inj h)
        exact .inl ⟨r.name, r, pick_eq_ok.1 hr, rfl, bareContent_ok hd⟩
  · simp [refuse] at h

end Visit

end Enums

end FlatUnion
