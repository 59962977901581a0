import FlatUnion.Proofs.Presenting
import FlatUnion.Proofs.Rejecting
import FlatUnion.Proofs.RoundTrip

/-!
# Steps one after another

A payload that is flattened makes its entries on the map it is flattened into, whether it hands
them over whole or as keys and values, and under whatever options and newtypes it lies
(`Step.entries?_items`). What an open map holds depends on the entries alone (`recordItems_entries`,
`jsonItems_entries`).

The main statement is `flatten_concatenates` : a run of steps that all succeed writes the entries of
the steps one behind the other, as a map of these entries is written.
-/

namespace FlatUnion

/-! ## Entries -/

/-- The entries that calls make on an open map. A key alone must have its value right behind it. -/
def Item.entries? : List (Item Datum) → Option (List (Datum × Datum))
  | [] => some []
  | .entry k v :: rest | .key k :: .value v :: rest => do return (k, v) :: (← entries? rest)
  | _ => none

/-- Entries that are handed over whole. -/
def wholeItems (es : List (Datum × Datum)) : List (Item Datum) := es.map fun e => .entry e.1 e.2

/-- The entries of a struct or of a map of entries, under any options and newtypes. Fields that are
passed over are none. -/
def Datum.entries? : Datum → Option (List (Datum × Datum))
  | .some inner | .newtypeStruct _ inner => inner.entries?
  | .struct _ fields => Option.some ((presentFields fields).map fun f => (.text f.1, f.2))
  | .map items => Item.entries? items
  | _ => Option.none

namespace Item

theorem entries?_entry {k v : Datum} {rest : List (Item Datum)} {es : List (Datum × Datum)} :
    entries? (.entry k v :: rest) = some es ↔
      ∃ es', entries? rest = some es' ∧ (k, v) :: es' = es := by
  simp [entries?, Option.bind_eq_some_iff]

theorem entries?_key_value {k v : Datum} {rest : List (Item Datum)} {es : List (Datum × Datum)} :
    entries? (.key k :: .value v :: rest) = some es ↔
      ∃ es', entries? rest = some es' ∧ (k, v) :: es' = es := by
  simp [entries?, Option.bind_eq_some_iff]

theorem entries?_append : ∀ {items more : List (Item Datum)} {es fs : List (Datum × Datum)},
    entries? items = some es → entries? more = some fs → entries? (items ++ more) = some (es ++ fs)
  | [], more, es, fs, h, hm => by
    obtain rfl := Option.some.inj h
    exact hm
  | .entry k v :: rest, more, es, fs, h, hm => by
    obtain ⟨es, hes, rfl⟩ := entries?_entry.1 h
    exact entries?_entry.2 ⟨_, entries?_append hes hm, rfl⟩
  | .key k :: .value v :: rest, more, es, fs, h, hm => by
    obtain ⟨es, hes, rfl⟩ := entries?_key_value.1 h
    exact entries?_key_value.2 ⟨_, entries?_append hes hm, rfl⟩

theorem entries?_wholeItems (es : List (Datum × Datum)) : entries? (wholeItems es) = some es := by
  induction es with
  | nil => rfl
  | cons e rest ih => exact entries?_entry.2 ⟨rest, ih, rfl⟩

theorem entries?_fieldItems (fields : List (String × Option Datum)) :
    entries? (fieldItems fields) = some ((presentFields fields).map fun f => (.text f.1, f.2)) := by
  induction fields with
  | nil => rfl
  | cons field rest ih =>
    obtain ⟨name, _ | d⟩ := field
    · exact ih
    · exact entries?_entry.2 ⟨_, ih, rfl⟩

end Item

/-- A payload makes its entries on the map that it is flattened into. -/
theorem Datum.entries?_flatten : ∀ {d : Datum} {es : List (Datum × Datum)},
    d.entries? = Option.some es → Item.entries? d.flatten = Option.some es
  | .some inner, _, h | .newtypeStruct _ inner, _, h => inner.entries?_flatten h
  | .struct _ fields, _, h => (Item.entries?_fieldItems fields).trans h
  | .map _, _, h => h

/-! ## What is recorded -/

/-- An entry is recorded as another : its key as the key, and its value as the value. -/
def RecordedAs (e r : Datum × Datum) : Prop := e.1.record = .ok r.1 ∧ e.2.record = .ok r.2

/-- What is recorded depends on the entries only, not on the calls that make them. -/
theorem recordItems_entries : ∀ {items : List (Item Datum)} {es : List (Datum × Datum)},
    Item.entries? items = some es → recordItems items = recordItems (wholeItems es)
  | [], es, h => by
    obtain rfl := Option.some.inj h
    rfl
  | .entry k v :: rest, es, h => by
    obtain ⟨es, hes, rfl⟩ := Item.entries?_entry.1 h
    have hwhole : wholeItems ((k, v) :: es) = .entry k v :: wholeItems es := rfl
    rw [hwhole, recordItems, recordItems, recordItems_entries hes]
  | .key k :: .value v :: rest, es, h => by
    obtain ⟨es, hes, rfl⟩ := Item.entries?_key_value.1 h
    have hwhole : wholeItems ((k, v) :: es) = .entry k v :: wholeItems es := rfl
    rw [hwhole, recordItems, recordItems, recordItems, recordItems_entries hes, recordItem,
      recordItem, recordItem]
    cases k.record with
    | error f => rfl
    | ok key => cases v.record <;> rfl

/-- Whole entries are recorded one by one. -/
theorem recordItems_whole {es rs : List (Datum × Datum)} (h : List.Forall₂ RecordedAs es rs) :
    recordItems (wholeItems es) = ⟨keysAndValues rs, none⟩ := by
  induction h with
  | nil => simp [wholeItems, recordItems, keysAndValues, Emission.pure]
  | @cons e r es rs he hes ih =>
    have hwhole : wholeItems (e :: es) = .entry e.1 e.2 :: wholeItems es := rfl
    rw [hwhole, recordItems, recordItem, he.1, he.2, ih]
    rfl

/-- Where nothing fails, each of some entries is recorded. -/
theorem exists_recordedAs {es : List (Datum × Datum)}
    (h : (recordItems (wholeItems es)).fault = none) : ∃ rs, List.Forall₂ RecordedAs es rs := by
  induction es with
  | nil => exact ⟨[], .nil⟩
  | cons e es ih =>
    have hwhole : wholeItems (e :: es) = .entry e.1 e.2 :: wholeItems es := rfl
    rw [hwhole, recordItems, recordItem] at h
    cases hk : e.1.record with
    | error f => simp [hk, Emission.append_def, Emission.fail] at h
    | ok key =>
      cases hv : e.2.record with
      | error f => simp [hk, hv, Emission.append_def] at h
      | ok value =>
        obtain ⟨rs, hrs⟩ := ih (by simpa [hk, hv, Emission.append_def, Emission.pure] using h)
        exact ⟨(key, value) :: rs, .cons ⟨hk, hv⟩ hrs⟩

/-- The fields that are written of a struct are recorded one by one. -/
theorem recordFields_entries : ∀ {fields : List (String × Option Datum)}
    {rs : List (Datum × Datum)},
    List.Forall₂ RecordedAs ((presentFields fields).map fun f => (.text f.1, f.2)) rs →
      ∃ written, recordFields fields = .ok written ∧
        (presentFields written).map (fun f => (Datum.text f.1, f.2)) = rs
  | [], _, .nil => ⟨[], rfl, rfl⟩
  | (_, none) :: rest, rs, h => @recordFields_entries rest rs h
  | (name, some d) :: rest, (key, value) :: rs, .cons ⟨hk, hv⟩ h => by
    obtain ⟨written, hwritten, rfl⟩ := recordFields_entries h
    obtain rfl := Except.ok.inj hk
    refine ⟨(name, some value) :: written, ?_, rfl⟩
    have hd : d.record = .ok value := hv
    rw [recordFields, hd, hwritten]
    rfl

/-- A value that is recorded on its own has its entries, each of them recorded. -/
theorem Datum.record_entries : ∀ {d : Datum} {es rs : List (Datum × Datum)},
    d.entries? = Option.some es → List.Forall₂ RecordedAs es rs →
      ∃ r, d.record = .ok r ∧ r.entries? = Option.some rs
  | .some inner, _, _, h, hrs => by
    obtain ⟨r, hr, hentries⟩ := inner.record_entries h hrs
    exact ⟨.some r, by rw [record, hr]; rfl, hentries⟩
  | .newtypeStruct name inner, _, _, h, hrs => by
    obtain ⟨r, hr, hentries⟩ := inner.record_entries h hrs
    exact ⟨.newtypeStruct name r, by rw [record, hr]; rfl, hentries⟩
  | .struct name fields, _, _, h, hrs => by
    obtain rfl := Option.some.inj h
    obtain ⟨written, hwritten, hentries⟩ := recordFields_entries hrs
    exact ⟨.struct name written, by rw [record, hwritten]; rfl, congrArg Option.some hentries⟩
  | .map items, _, rs, h, hrs => by
    refine ⟨.map (wholeItems rs), ?_, Item.entries?_wholeItems rs⟩
    rw [record, recordItems_entries h, recordItems_whole hrs]
    exact congrArg (Except.ok ∘ Datum.map) (pairUp_keysAndValues rs)

/-! ## What is written as JSON -/

/-- What is written as JSON depends on the entries only, not on the calls that make them. -/
theorem jsonItems_entries : ∀ {items : List (Item Datum)} {es : List (Datum × Datum)}
    (first : Bool), Item.entries? items = some es →
      jsonItems first items = jsonItems first (wholeItems es)
  | [], es, first, h => by
    obtain rfl := Option.some.inj h
    rfl
  | .entry k v :: rest, es, first, h => by
    obtain ⟨es, hes, rfl⟩ := Item.entries?_entry.1 h
    have hwhole : wholeItems ((k, v) :: es) = .entry k v :: wholeItems es := rfl
    rw [hwhole, jsonItems, jsonItems, jsonItems_entries _ hes]
  | .key k :: .value v :: rest, es, first, h => by
    obtain ⟨es, hes, rfl⟩ := Item.entries?_key_value.1 h
    have hwhole : wholeItems ((k, v) :: es) = .entry k v :: wholeItems es := rfl
    simp only [hwhole, jsonItems, jsonItem, Item.hasKey, Bool.not_true, Bool.and_false,
      Bool.false_and, jsonItems_entries _ hes, Emission.append_assoc]

/-! ## Calls -/

/-- Calls on a record note what is recorded of them, up to the first fault. -/
theorem OpenRecord.calls_eq (s : OpenRecord) (items : List (Item Datum)) :
    Sink.calls s items = (⟨s.calls ++ (recordItems items).out⟩, (recordItems items).fault) := by
  induction items generalizing s with
  | nil => simp [Sink.calls, recordItems, Emission.pure]
  | cons i rest ih =>
    have hcall : Sink.call s i = (⟨s.calls ++ (recordItem i).out⟩, (recordItem i).fault) := rfl
    rw [Sink.calls, hcall, recordItems, Emission.append_def]
    cases hi : (recordItem i).fault with
    | some f => simp [hi]
    | none => simp [ih]

/-- Calls on an open object write what the text of an object has for them, up to the first
fault. -/
theorem OpenObject.calls_eq (s : OpenObject) (items : List (Item Datum)) :
    (Sink.calls s items).1.text = s.text ++ (jsonItems (!s.keyed) items).out ∧
      (Sink.calls s items).2 = (jsonItems (!s.keyed) items).fault := by
  induction items generalizing s with
  | nil => simp [Sink.calls, jsonItems, Emission.pure]
  | cons i rest ih =>
    have hcall : Sink.call s i = (⟨s.text ++ (jsonItem (!s.keyed) i).out, s.keyed || i.hasKey⟩,
        (jsonItem (!s.keyed) i).fault) := rfl
    rw [Sink.calls, hcall, jsonItems, Emission.append_def]
    cases hi : (jsonItem (!s.keyed) i).fault with
    | some f => simp [hi]
    | none =>
      simpa [Bool.not_or, String.append_assoc] using
        ih ⟨s.text ++ (jsonItem (!s.keyed) i).out, s.keyed || i.hasKey⟩

/-- Calls behind others are made if none of those fails. -/
theorem Sink.calls_append {S : Type} [Sink S] {s t : S} {items : List (Item Datum)}
    (h : Sink.calls s items = (t, none)) (more : List (Item Datum)) :
    Sink.calls s (items ++ more) = Sink.calls t more := by
  induction items generalizing s with
  | nil =>
    obtain ⟨rfl, -⟩ := Prod.mk.inj h
    rfl
  | cons i rest ih =>
    rw [Sink.calls] at h
    rw [List.cons_append, Sink.calls]
    split at h
    · simp at h
    · exact ih h

/-! ## Runs -/

namespace Step

/-- A step as a value of its own : an entry is a map of this entry alone. -/
def datum : Step → Datum
  | .entry key value => .ofEntries [(key, value)]
  | .flatten payload => payload

/-- A step makes the entries that it has as a value of its own. -/
theorem entries?_items {step : Step} {es : List (Datum × Datum)}
    (h : step.datum.entries? = some es) : Item.entries? step.items = some es := by
  cases step with
  | entry key value => exact h
  | flatten payload => exact payload.entries?_flatten h

/-- The steps of a run make their entries one behind the other. -/
theorem entries?_flatMap {steps : List Step} {entries : List (List (Datum × Datum))}
    (h : List.Forall₂ (fun step es => step.datum.entries? = some es) steps entries) :
    Item.entries? (steps.flatMap items) = some entries.flatten := by
  induction h with
  | nil => rfl
  | cons hstep _ ih => exact Item.entries?_append (entries?_items hstep) ih

section Success

variable {S : Type} [Sink S]

/-- No step of a run fails. -/
def Succeeds (s : S) (steps : List Step) : Prop := ∀ r ∈ runAll s steps, r.2 = none

instance (s : S) (steps : List Step) : Decidable (Succeeds s steps) :=
  inferInstanceAs (Decidable (∀ r ∈ runAll s steps, r.2 = none))

theorem succeeds_cons {s : S} {step : Step} {rest : List Step} :
    Succeeds s (step :: rest) ↔ (step.run s).2 = none ∧ Succeeds (step.run s).1 rest := by
  simp [Succeeds, runAll]

theorem runAll_take (s : S) (steps : List Step) (n : Nat) :
    runAll s (steps.take n) = (runAll s steps).take n := by
  induction steps generalizing s n with
  | nil => simp [runAll]
  | cons step rest ih =>
    cases n with
    | zero => rfl
    | succ n => simp [runAll, ih]

/-- The first steps of a run that succeeds do so too. -/
theorem Succeeds.take {s : S} {steps : List Step} (h : Succeeds s steps) (n : Nat) :
    Succeeds s (steps.take n) := by
  intro r hr
  rw [runAll_take] at hr
  exact h r (List.mem_of_mem_take hr)

/-- Steps that succeed make their calls one behind the other. -/
theorem Succeeds.calls_eq {s : S} {steps : List Step} (h : Succeeds s steps) :
    Sink.calls s (steps.flatMap items) = (final s steps, none) := by
  induction steps generalizing s with
  | nil => rfl
  | cons step rest ih =>
    obtain ⟨hstep, hrest⟩ := succeeds_cons.1 h
    have hcalls : Sink.calls s step.items = ((step.run s).1, none) := hstep ▸ rfl
    rw [List.flatMap_cons, Sink.calls_append hcalls, ih hrest, final_cons]

end Success

/-- What a step leaves in the map when it is recorded as a value of its own. -/
def RecordedAlone (step : Step) (rs : List (Datum × Datum)) : Prop :=
  ∃ r, step.datum.record = .ok r ∧ r.entries? = some rs

/-- Each step of a run that succeeds has its entries recorded. -/
theorem exists_recordedAs {s : OpenRecord} {steps : List Step} (h : Succeeds s steps)
    {entries : List (List (Datum × Datum))}
    (hentries : List.Forall₂ (fun step es => step.datum.entries? = some es) steps entries) :
    ∃ recorded, List.Forall₂ (List.Forall₂ RecordedAs) entries recorded := by
  induction hentries generalizing s with
  | nil => exact ⟨[], .nil⟩
  | @cons step es steps entries hstep _ ih =>
    obtain ⟨hrun, hrest⟩ := succeeds_cons.1 h
    rw [run, OpenRecord.calls_eq, recordItems_entries (entries?_items hstep)] at hrun
    obtain ⟨rs, hrs⟩ := FlatUnion.exists_recordedAs hrun
    obtain ⟨recorded, hrecorded⟩ := ih hrest
    exact ⟨rs :: recorded, .cons hrs hrecorded⟩

/-- A recorded map holds the entries of its steps, each recorded, one behind the other. -/
theorem items_final {steps : List Step} (h : Succeeds ({} : OpenRecord) steps)
    {entries recorded : List (List (Datum × Datum))}
    (hentries : List.Forall₂ (fun step es => step.datum.entries? = some es) steps entries)
    (hrecorded : List.Forall₂ (List.Forall₂ RecordedAs) entries recorded) :
    (final ({} : OpenRecord) steps).items = wholeItems recorded.flatten := by
  have hcalls := h.calls_eq
  rw [OpenRecord.calls_eq, recordItems_entries (entries?_flatMap hentries),
    recordItems_whole (List.rel_flatten hrecorded)] at hcalls
  rw [← (Prod.mk.inj hcalls).1]
  exact pairUp_keysAndValues recorded.flatten

/-- The text of an open object is that of the entries of its steps, one behind the other. -/
theorem json_final {steps : List Step} (h : Succeeds ({} : OpenObject) steps)
    {entries : List (List (Datum × Datum))}
    (hentries : List.Forall₂ (fun step es => step.datum.entries? = some es) steps entries) :
    (Datum.ofEntries entries.flatten).json = .pure (final ({} : OpenObject) steps).finish := by
  obtain ⟨htext, hfault⟩ := OpenObject.calls_eq {} (steps.flatMap items)
  rw [h.calls_eq, jsonItems_entries _ (entries?_flatMap hentries)] at htext hfault
  have hjson : (Datum.ofEntries entries.flatten).json =
      .pure "\x7b" ++ jsonItems true (wholeItems entries.flatten) ++ .pure "\x7d" := by
    rw [Datum.ofEntries, Datum.json]
    rfl
  have hitems : jsonItems true (wholeItems entries.flatten) =
      ⟨(jsonItems true (wholeItems entries.flatten)).out, none⟩ :=
    congrArg (Emission.mk _) hfault.symm
  rw [hjson, hitems, OpenObject.finish, htext]
  rfl

/-- Steps whose entries can be recorded leave them, recorded, when each is recorded alone. -/
theorem recordedAlone {steps : List Step} {entries recorded : List (List (Datum × Datum))}
    (hentries : List.Forall₂ (fun step es => step.datum.entries? = some es) steps entries)
    (hrecorded : List.Forall₂ (List.Forall₂ RecordedAs) entries recorded) :
    List.Forall₂ RecordedAlone steps recorded := by
  induction hentries generalizing recorded with
  | nil =>
    cases hrecorded
    exact .nil
  | @cons step es _ _ hstep _ ih =>
    cases hrecorded with
    | cons hes hrest => exact .cons (step.datum.record_entries hstep hes) (ih hrest)

end Step

/-- Let all steps of a run flatten a struct or a map, under any options and newtypes, or make an
entry. If none fails, a recorded map holds after each step what the steps up to there leave when
each is recorded on its own, one behind the other, and the text of an open object is after each
step that of the one map of all their entries, but for the closing brace. -/
theorem flatten_concatenates (steps : List Step) (entries : List (List (Datum × Datum)))
    (hentries : List.Forall₂ (fun step es => step.datum.entries? = some es) steps entries) :
    (Step.Succeeds ({} : OpenRecord) steps →
      ∃ own, List.Forall₂ Step.RecordedAlone steps own ∧
        ∀ n, (Step.final ({} : OpenRecord) (steps.take n)).items =
          wholeItems (own.take n).flatten) ∧
    (Step.Succeeds ({} : OpenObject) steps →
      ∀ n, (Datum.ofEntries (entries.take n).flatten).json =
        .pure (Step.final ({} : OpenObject) (steps.take n)).finish) := by
  have hfirst : ∀ n, List.Forall₂ (fun step es => step.datum.entries? = some es) (steps.take n)
      (entries.take n) := fun n => List.forall₂_take n hentries
  refine ⟨fun h => ?_, fun h n => Step.json_final (h.take n) (hfirst n)⟩
  obtain ⟨recorded, hrecorded⟩ := Step.exists_recordedAs h hentries
  exact ⟨recorded, Step.recordedAlone hentries hrecorded, fun n =>
    Step.items_final (h.take n) (hfirst n) (List.forall₂_take n hrecorded)⟩

/-- An entry, a map under an option and a newtype that hands over its entries whole and as key and
value, and a struct that passes over a field. -/
def wrappedSteps : List Step :=
  [.entry (.text "type") (.text "a"),
   .flatten (.some (.newtypeStruct "N" (.map [.key (.text "k"), .value (.bool true),
      .entry (.text "l") .unit]))),
   .flatten (.struct "S" [("x", none), ("y", some (.text "b"))])]

theorem flatten_concatenates_wrapped :
    let entries := [[(Datum.text "type", Datum.text "a")],
      [(.text "k", .bool true), (.text "l", .unit)], [(.text "y", .text "b")]]
    (∃ own, List.Forall₂ Step.RecordedAlone wrappedSteps own ∧
      ∀ n, (Step.final ({} : OpenRecord) (wrappedSteps.take n)).items =
        wholeItems (own.take n).flatten) ∧
    ∀ n, (Datum.ofEntries (entries.take n).flatten).json =
      .pure (Step.final ({} : OpenObject) (wrappedSteps.take n)).finish := by
  have h := flatten_concatenates wrappedSteps
    [[(.text "type", .text "a")], [(.text "k", .bool true), (.text "l", .unit)],
      [(.text "y", .text "b")]]
    (.cons rfl (.cons rfl (.cons rfl .nil)))
  exact ⟨h.1 (by decide), h.2 (by decide)⟩

example : (Step.final ({} : OpenObject) wrappedSteps).finish =
    "\x7b\"type\":\"a\",\"k\":true,\"l\":null,\"y\":\"b\"\x7d" := by
  decide

end FlatUnion
