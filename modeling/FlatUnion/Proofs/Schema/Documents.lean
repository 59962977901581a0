import FlatUnion.Catalog
import FlatUnion.Json.Source
import FlatUnion.Proofs.Rereading
import FlatUnion.Proofs.Schema.Meaning

/-!
# Documents that schemas allow

A format shows a JSON value in one of many ways (`Json.Value.ShownAs`), and in all of them the same
is kept. A struct of one text is read from the properties of an object exactly if the property of
its name is a text (`exists_read_message`), which is what its schema says.

The main statement is `Catalog.message_described` : the values that are read as a message are
exactly those that the schema of messages allows, with its references resolved, and what is written
of a message is among them.
-/

namespace FlatUnion

open Json (Value)

/-! ## Ways to show a JSON value -/

mutual

/-- What is offered shows a JSON value : texts lent for any time, sizes announced or not. -/
def Json.Value.ShownAs : Value → Offer → Prop
  | .null, o => o = .unit
  | .bool b, o => o = .scalar (.bool b)
  | .number n, o => o = .scalar n.scalar
  | .string s, o => ∃ lending, o = .scalar (.text lending s)
  | .array items, o => ∃ os hint, o = .seq os hint ∧ elementsShownAs items os
  | .object properties, o => ∃ os hint, o = .map os hint ∧ propertiesShownAs properties os

def elementsShownAs : List Value → List Offer → Prop
  | [], os => os = []
  | x :: rest, os => ∃ o more, os = o :: more ∧ x.ShownAs o ∧ elementsShownAs rest more

def propertiesShownAs : List (String × Value) → List (Offer × Offer) → Prop
  | [], os => os = []
  | (name, x) :: rest, os =>
    ∃ lending o more, os = (.scalar (.text lending name), o) :: more ∧ x.ShownAs o ∧
      propertiesShownAs rest more

end

mutual

/-- What is kept of a JSON value. -/
def Json.Value.snapshot : Value → Snapshot
  | .null => .unit
  | .bool b => .bool b
  | .number n => Snapshot.ofScalar n.scalar
  | .string s => .text s
  | .array items => .seq (keptElements items)
  | .object properties => .map (keptProperties properties)

def keptElements : List Value → List Snapshot
  | [] => []
  | x :: rest => x.snapshot :: keptElements rest

def keptProperties : List (String × Value) → List (Snapshot × Snapshot)
  | [] => []
  | (name, x) :: rest => (.text name, x.snapshot) :: keptProperties rest

end

mutual

/-- However a JSON value is shown, the same is kept. -/
theorem Json.Value.ofOffer_shown : ∀ {x : Value} {o : Offer}, x.ShownAs o →
    Snapshot.ofOffer o = .ok x.snapshot
  | .null, _, rfl | .bool _, _, rfl | .number _, _, rfl | .string _, _, ⟨_, rfl⟩ => rfl
  | .array items, _, ⟨os, hint, ho, hos⟩ => by
    rw [ho, Snapshot.ofOffer, ofItems_elements_shown hos]
    rfl
  | .object properties, _, ⟨os, hint, ho, hos⟩ => by
    rw [ho, Snapshot.ofOffer, ofEntries_properties_shown hos]
    rfl

theorem ofItems_elements_shown : ∀ {items : List Value} {os : List Offer},
    elementsShownAs items os → Snapshot.ofItems os = .ok (keptElements items)
  | [], _, rfl => rfl
  | x :: rest, _, ⟨o, more, hos, ho, hmore⟩ => by
    rw [hos, Snapshot.ofItems, x.ofOffer_shown ho, ofItems_elements_shown hmore]
    rfl

theorem ofEntries_properties_shown : ∀ {properties : List (String × Value)}
    {os : List (Offer × Offer)}, propertiesShownAs properties os →
      Snapshot.ofEntries os = .ok (keptProperties properties)
  | [], _, rfl => rfl
  | (name, x) :: rest, _, ⟨lending, o, more, hos, ho, hmore⟩ => by
    rw [hos, Snapshot.ofEntries, x.ofOffer_shown ho, ofEntries_properties_shown hmore]
    rfl

end

theorem keptProperties_eq_map (properties : List (String × Value)) :
    keptProperties properties = properties.map fun p => (.text p.1, p.2.snapshot) := by
  induction properties with
  | nil => rfl
  | cons p rest ih => rw [keptProperties, ih, List.map_cons]

theorem keys_keptProperties (properties : List (String × Value)) :
    Snapshot.keys (keptProperties properties) = properties.map (·.1) := by
  induction properties with
  | nil => rfl
  | cons p rest ih =>
    rw [keptProperties, List.map_cons, ← ih]
    rfl

/-- The tag that a JSON value is, which must be a text. -/
theorem Json.Value.tagText?_snapshot {x : Value} {tag : String} :
    x.snapshot.tagText? = some tag ↔ x = .string tag := by
  cases x with
  | number n => cases n <;> simp [snapshot, Snapshot.ofScalar, Number.scalar, Snapshot.tagText?]
  | _ => simp [snapshot, Snapshot.tagText?]

/-- Where no name stands twice, a property is found by its name. -/
theorem Json.Value.property?_eq_some {properties : List (String × Value)}
    (hn : (properties.map (·.1)).Nodup) {name : String} {y : Value} :
    (Value.object properties).property? name = some y ↔ (name, y) ∈ properties := by
  show properties.lookup name = some y ↔ _
  induction properties with
  | nil => simp
  | cons p rest ih =>
    obtain ⟨n, z⟩ := p
    obtain ⟨hnot, hn⟩ := List.nodup_cons.1 hn
    rw [List.lookup_cons, List.mem_cons, Prod.mk.injEq]
    by_cases hname : name = n
    · subst hname
      have hnot : (name, y) ∉ rest := fun h => hnot (List.mem_map.2 ⟨_, h, rfl⟩)
      simp [hnot, eq_comm]
    · simp [hname, beq_eq_false_iff_ne.2 hname, ih hn]

/-- What is kept of a JSON value has entries if the value is an object. -/
theorem Json.Value.snapshot_eq_map {x : Value} {kept : List (Snapshot × Snapshot)} :
    x.snapshot = .map kept ↔
      x = .object x.properties ∧ kept = keptProperties x.properties := by
  cases x with
  | number n => cases n <;> simp [snapshot, Snapshot.ofScalar, Number.scalar]
  | object properties => simp [snapshot, Value.properties, eq_comm]
  | _ => simp [snapshot]

/-- A JSON value tells a variant exactly if it is an object whose property under the tag field is
the tag. -/
theorem Offered.tells_shown {x : Value} (hn : x.names.Nodup) {o : Offer} (ho : x.ShownAs o)
    {readable : Bool} {kept : List (Snapshot × Snapshot)} {tag : String} :
    (⟨o, readable⟩ : Offered).Tells kept tag ↔
      kept = keptProperties x.properties ∧ x.property? tagField = some (.string tag) := by
  have hkept : (⟨o, readable⟩ : Offered).Shows kept ↔ x.snapshot = .map kept := by
    constructor
    · rintro ⟨entries, hint, rfl, hentries, -⟩
      refine Except.ok.inj ((Json.Value.ofOffer_shown ho).symm.trans ?_)
      exact bind_eq_ok.2 ⟨kept, hentries, rfl⟩
    · intro h
      obtain ⟨hx, rfl⟩ := Json.Value.snapshot_eq_map.1 h
      rw [hx] at ho
      obtain ⟨os, hint, rfl, hos⟩ := ho
      have hentries := ofEntries_properties_shown hos
      refine ⟨os, hint, rfl, hentries, ?_⟩
      rw [← Snapshot.keys_eq (Snapshot.ofEntries_eq_ok.1 hentries), keys_keptProperties]
      exact hn
  rw [Tells, hkept, Json.Value.snapshot_eq_map]
  constructor
  · rintro ⟨⟨hx, rfl⟩, c, hc, htag⟩
    rw [keptProperties_eq_map] at hc
    obtain ⟨p, hp, heq⟩ := List.mem_map.1 hc
    obtain ⟨hname, rfl⟩ := Prod.mk.inj heq
    refine ⟨rfl, ?_⟩
    rw [hx, Json.Value.property?_eq_some hn, ← Snapshot.text.inj hname,
      ← Json.Value.tagText?_snapshot.1 htag]
    exact hp
  · rintro ⟨rfl, htag⟩
    have hx := Json.Value.eq_object_of_property? htag
    rw [hx, Json.Value.property?_eq_some hn] at htag
    refine ⟨⟨hx, rfl⟩, .text tag, ?_, rfl⟩
    rw [keptProperties_eq_map]
    exact List.mem_map.2 ⟨_, htag, rfl⟩

/-! ## Structs of one text -/

section Message

open Visit (slots)

variable {name : String} {properties : List (String × Value)}

/-- The reader of a field that is a text. -/
abbrev textReader (name : String) : FieldReader Snapshot :=
  ⟨{ name }, false, Ty.text.read, Ty.text.readFlattened⟩

/-- How a struct of one text tells its keys. -/
abbrev messageKey (name : String) (k : Snapshot) : Except Fault FieldKey :=
  consult .identifier k (Visit.fieldKey [textReader name] false false)

/-- A text is read from a JSON value that is one. -/
theorem Ty.read_text_snapshot {x : Value} {d : Datum} :
    Ty.text.read x.snapshot = .ok d ↔ ∃ s, x = .string s ∧ d = .text s := by
  cases x with
  | number n =>
    refine iff_of_false ?_ (by simp)
    cases n <;> exact nofun
  | string s =>
    simp only [Value.string.injEq, exists_eq_left']
    exact ⟨fun h => (Except.ok.inj h).symm, fun h => h ▸ rfl⟩
  | _ => exact iff_of_false nofun (by simp)

theorem keptProperties_append (before after : List (String × Value)) (y : Value) :
    keptProperties (before ++ (name, y) :: after) =
      keptProperties before ++ (.text name, y.snapshot) :: keptProperties after := by
  simp [keptProperties_eq_map]

theorem length_keptProperties : (keptProperties properties).length = properties.length := by
  rw [keptProperties_eq_map, List.length_map]

/-- The name of the field tells the field. -/
theorem messageKey_name : messageKey name (.text name) = .ok (.known 0) := by
  have hfirst : ([textReader name] : List (FieldReader Snapshot))[0]? = some (textReader name) :=
    rfl
  exact fieldKey_known (by simp) (by simp [fieldNames, FieldReader.names]) hfirst

/-- Properties under other names than that of the field are passed over. -/
theorem slots_pass (h : name ∉ properties.map (·.1)) (entries : List (Snapshot × Snapshot))
    (found : Slots) (done : Nat) :
    slots [textReader name] (messageKey name) false done found
        (keptProperties properties ++ entries) =
      slots [textReader name] (messageKey name) false (done + properties.length) found
        entries := by
  have hmap : ∀ es : List (Snapshot × Snapshot), es.map entryOf = es := fun es => List.map_id es
  let others : List (String × Snapshot) := properties.map fun p => (p.1, p.2.snapshot)
  have hkeys : ∀ e ∈ others, messageKey name (Replaying.of (.text e.1)) =
      .ok (.other .unit) := by
    rw [List.forall_mem_map]
    intro p hp
    have hne : p.1 ≠ name := fun hp' => h (List.mem_map.2 ⟨p, hp, hp'⟩)
    exact fieldKey_unknown (by simp) (by simpa [fieldNames, FieldReader.names] using hne)
  have hothers : slots [textReader name] (messageKey name) false done found
      ((others.map (fun e => (Snapshot.text e.1, e.2)) ++ entries).map entryOf) = _ :=
    slots_others done hkeys
  rw [hmap, hmap, List.map_map, List.length_map] at hothers
  rw [keptProperties_eq_map]
  exact hothers

/-- Where no name stands twice, the other properties stand before and behind that of the field. -/
theorem split_properties (hn : (properties.map (·.1)).Nodup) {y : Value}
    (hy : (name, y) ∈ properties) : ∃ before after, properties = before ++ (name, y) :: after ∧
      name ∉ before.map (·.1) ∧ name ∉ after.map (·.1) := by
  obtain ⟨before, after, rfl⟩ := List.append_of_mem hy
  rw [List.map_append, List.map_cons, List.nodup_middle, List.nodup_cons, List.mem_append,
    not_or] at hn
  exact ⟨before, after, rfl, hn.1⟩

/-- The slot of the field is filled from the property of its name, if this is a text. -/
theorem slots_message (hn : (properties.map (·.1)).Nodup) {s : String}
    (hs : (name, .string s) ∈ properties) :
    slots [textReader name] (messageKey name) false 0 ⟨[none], []⟩ (keptProperties properties) =
      ⟨{ whole := properties.length }, .ok ⟨[some (.text s)], []⟩⟩ := by
  obtain ⟨before, after, rfl, hbefore, hafter⟩ := split_properties hn hs
  have hend := slots_pass hafter [] ⟨[some (.text s)], []⟩ (before.length + 1)
  rw [List.append_nil] at hend
  rw [keptProperties_append, slots_pass hbefore, Nat.zero_add,
    slots_known messageKey_name (r := textReader name) rfl rfl
      (Ty.read_text_snapshot.2 ⟨s, rfl, rfl⟩)]
  refine hend.trans ?_
  simp only [slots, List.length_append, List.length_cons, Outcome.mk.injEq, Progress.mk.injEq,
    and_true]
  omega

/-- If the slot of the field is filled, the property of its name is a text. -/
theorem exists_string_of_slots (hn : (properties.map (·.1)).Nodup) {all : Slots}
    {values : List Datum}
    (hall : (slots [textReader name] (messageKey name) false 0 ⟨[none], []⟩
      (keptProperties properties)).result = .ok all)
    (hfill : Visit.fill [textReader name] all.values = .ok values) :
    ∃ s, (name, .string s) ∈ properties := by
  by_cases hname : name ∈ properties.map (·.1)
  case neg =>
    have hrun := slots_pass hname [] ⟨[none], []⟩ 0
    rw [List.append_nil] at hrun
    rw [hrun] at hall
    obtain rfl := Except.ok.inj hall
    nomatch hfill
  obtain ⟨⟨_, y⟩, hy, rfl⟩ := List.mem_map.1 hname
  obtain ⟨before, after, rfl, hbefore, -⟩ := split_properties hn hy
  rw [keptProperties_append, slots_pass hbefore, slots, messageKey_name] at hall
  cases hread : Ty.text.read y.snapshot with
  | error f => simp [hread] at hall
  | ok d =>
    obtain ⟨s, rfl, -⟩ := Ty.read_text_snapshot.1 hread
    exact ⟨s, hy⟩

/-- A struct of one text is read from the properties of an object if the property of its name is a
text. -/
theorem exists_read_message {title : String} (hn : (properties.map (·.1)).Nodup) :
    (∃ d, (Ty.struct { name := title } [({ name }, .text)]).read
        (Snapshot.map (keptProperties properties)) = .ok d) ↔
      ∃ s, (name, .string s) ∈ properties := by
  constructor
  · rintro ⟨d, h⟩
    rw [Ty.read] at h
    obtain ⟨a, ha, hread, -⟩ := consult_eq_ok.1 h
    obtain rfl := Except.ok.inj ha
    obtain ⟨values, hvalues, -⟩ := map_eq_ok.1 hread
    obtain ⟨all, hall, hvalues⟩ := bind_eq_ok.1 hvalues
    obtain ⟨own, hown, -⟩ := bind_eq_ok.1 hvalues
    exact exists_string_of_slots hn hall hown
  · rintro ⟨s, hs⟩
    have hmap : (keptProperties properties).map (entryOf (σ := Snapshot)) =
      keptProperties properties := List.map_id _
    have hread : (Visit.struct ("struct " ++ title) false [textReader name]
        (.map (keptProperties properties) (some (keptProperties properties).length))) =
          ⟨{ whole := properties.length }, .ok [.text s]⟩ := by
      show Outcome.andThen (slots [textReader name] (messageKey name) false 0 ⟨[none], []⟩
        (keptProperties properties)) _ = _
      rw [slots_message hn hs]
      rfl
    rw [Ty.read]
    refine ⟨.struct title [(name, some (.text s))],
      consult_map (σ := Snapshot) .struct _ rfl (by simp) rfl length_keptProperties.symm ?_⟩
    rw [hmap]
    exact congrArg (Outcome.map (structDatum title [{ name }])) hread

end Message

/-! ## Ways to write a JSON value -/

/-- A number as it is written. -/
def Json.Number.datum : Json.Number → Datum
  | .unsigned n => .int .u64 n
  | .signed n => .int .i64 n
  | .float bits => .f64 bits

mutual

/-- A JSON value as it is written. -/
def Json.Value.datum : Value → Datum
  | .null => .unit
  | .bool b => .bool b
  | .number n => n.datum
  | .string s => .text s
  | .array items => .seq (elementsData items)
  | .object properties => .map (propertiesData properties)

def elementsData : List Value → List Datum
  | [] => []
  | x :: rest => x.datum :: elementsData rest

def propertiesData : List (String × Value) → List (Item Datum)
  | [] => []
  | (name, x) :: rest => .entry (.text name) x.datum :: propertiesData rest

end

/-! ## Messages -/

/-- Whether references are read as the definitions of a document. -/
def SchemaDocument.Resolves (doc : SchemaDocument) (ρ : Schema.Reading) : Prop :=
  ∀ name x, ρ.reference name x ↔ ∃ s, doc.definitions.lookup name = some s ∧ s.Allows ρ x

theorem SchemaDocument.Resolves.reference_iff {doc : SchemaDocument} {ρ : Schema.Reading}
    (h : doc.Resolves ρ) {name : String} {s : Schema} (hs : doc.definitions.lookup name = some s)
    {x : Value} : ρ.reference name x ↔ s.Allows ρ x := by
  rw [h, hs]
  exact ⟨fun ⟨_, heq, hx⟩ => Option.some.inj heq ▸ hx, fun hx => ⟨s, rfl, hx⟩⟩

theorem Schema.text_allows {ρ : Schema.Reading} {x : Value} :
    (Schema.rules [.kind .string]).Allows ρ x ↔ ∃ s, x = .string s := by
  rw [allows_rules, List.forall_mem_singleton]
  cases x <;> simp [Rule.Allows, Kind.Allows]

/-- An object with a text under a name. -/
theorem Schema.textObject_allows {ρ : Schema.Reading} {name : String} {x : Value} :
    (object [(name, .rules [.kind .string])]).Allows ρ x ↔
      ∃ s, x.property? name = some (.string s) := by
  simp only [object_allows, text_allows]
  exact ⟨fun ⟨_, hy, s, hs⟩ => ⟨s, hs ▸ hy⟩, fun ⟨s, hs⟩ => ⟨_, hs, s, rfl⟩⟩

namespace Catalog

variable {ρ : Schema.Reading} {x : Value}

/-- The schema of messages, with the definitions it refers to. -/
abbrev messageDocument : SchemaDocument := (Ty.union "Message" message).document

/-- Whether a JSON value has the tag of a message and its text. -/
def IsMessage (x : Value) : Prop :=
  (x.property? tagField = some (.string "text") ∧ ∃ s, x.property? "text" = some (.string s)) ∨
    (x.property? tagField = some (.string "media") ∧ ∃ s, x.property? "url" = some (.string s))

theorem messageDocument_definitions : messageDocument.definitions =
    [("TextMessage", .object [("text", .rules [.kind .string])]),
      ("MediaMessage", .object [("url", .rules [.kind .string])])] :=
  rfl

/-- The definitions refer to nothing, so references can be read as they say. -/
theorem exists_resolves : ∃ ρ, messageDocument.Resolves ρ := by
  let ρ₀ : Schema.Reading := ⟨fun _ _ => False, fun _ _ _ _ => True⟩
  refine ⟨{ ρ₀ with
    reference := fun name x => ∃ s, messageDocument.definitions.lookup name = some s ∧
      s.Allows ρ₀ x }, fun name x => exists_congr fun s => and_congr_right fun hs => ?_⟩
  obtain ⟨before, after, hsplit, -⟩ := List.lookup_eq_some_iff.1 hs
  have hmem : (name, s) ∈ messageDocument.definitions := by simp [hsplit]
  rw [messageDocument_definitions] at hmem
  simp only [List.mem_cons, Prod.mk.injEq, List.not_mem_nil, or_false] at hmem
  obtain ⟨-, rfl⟩ | ⟨-, rfl⟩ := hmem
  · exact Schema.textObject_allows.trans Schema.textObject_allows.symm
  · exact Schema.textObject_allows.trans Schema.textObject_allows.symm

theorem messageDocument_allows (hρ : messageDocument.Resolves ρ) :
    messageDocument.schema.Allows ρ x ↔ IsMessage x := by
  have hschema : messageDocument.schema = .flat tagField ["text", "media"]
      ([("text", .rules [.reference "TextMessage"]),
        ("media", .rules [.reference "MediaMessage"])].map
          fun v => Schema.variant tagField v.1 v.2) := rfl
  have htext : ρ.reference "TextMessage" x ↔ ∃ s, x.property? "text" = some (.string s) :=
    (hρ.reference_iff rfl).trans Schema.textObject_allows
  have hmedia : ρ.reference "MediaMessage" x ↔ ∃ s, x.property? "url" = some (.string s) :=
    (hρ.reference_iff rfl).trans Schema.textObject_allows
  rw [hschema, Schema.flat_allows]
  simp only [List.forall_mem_cons, List.not_mem_nil, false_implies, implies_true, and_true,
    Schema.allows_rules, Rule.Allows, htext, hmedia, IsMessage]
  constructor
  · rintro ⟨⟨t, ht, htag⟩, htext, hmedia⟩
    simp only [List.mem_cons, List.not_mem_nil, or_false] at ht
    obtain rfl | rfl := ht
    · exact .inl ⟨htag, htext htag⟩
    · exact .inr ⟨htag, hmedia htag⟩
  · rintro (⟨htag, h⟩ | ⟨htag, h⟩)
    · exact ⟨⟨_, by simp, htag⟩, fun _ => h, fun hne => by simp [htag] at hne⟩
    · exact ⟨⟨_, by simp, htag⟩, fun hne => by simp [htag] at hne, fun _ => h⟩

/-- A JSON value is read as a message exactly if it is one, whatever way it is shown. -/
theorem exists_read_iff (hn : x.names.Nodup) {o : Offer} (ho : x.ShownAs o) {readable : Bool} :
    (∃ y, Tagged.read message (⟨o, readable⟩ : Offered) = .ok y) ↔ IsMessage x := by
  have hread : (∃ y, Tagged.read message (⟨o, readable⟩ : Offered) = .ok y) ↔
      ∃ v ∈ payloadReaders message, x.property? tagField = some (.string v.tag) ∧
        ∃ d, v.read (Snapshot.map (keptProperties x.properties)) = .ok d := by
    constructor
    · rintro ⟨y, hy⟩
      obtain ⟨i, v, kept, hv, -, hs, hd⟩ := (readUnion_eq_ok (by decide)).1 hy
      obtain ⟨rfl, htag⟩ := (Offered.tells_shown hn ho).1 hs
      exact ⟨v, List.mem_of_getElem? hv, htag, _, hd⟩
    · rintro ⟨v, hv, htag, d, hd⟩
      obtain ⟨i, hi⟩ := List.mem_iff_getElem?.1 hv
      exact ⟨⟨v.tag, d⟩, (readUnion_eq_ok (by decide)).2
        ⟨i, v, _, hi, rfl, (Offered.tells_shown hn ho).2 ⟨rfl, htag⟩, hd⟩⟩
  have htext : (∃ d, textMessage.read (Snapshot.map (keptProperties x.properties)) = .ok d) ↔
      ∃ s, ("text", .string s) ∈ x.properties := exists_read_message hn
  have hmedia : (∃ d, mediaMessage.read (Snapshot.map (keptProperties x.properties)) = .ok d) ↔
      ∃ s, ("url", .string s) ∈ x.properties := exists_read_message hn
  have hvariants : payloadReaders (σ := Snapshot) message =
      [⟨"text", textMessage.read⟩, ⟨"media", mediaMessage.read⟩] := rfl
  rw [hread, hvariants, IsMessage]
  simp only [List.mem_cons, List.not_mem_nil, or_false, exists_eq_or_imp, exists_eq_left, htext,
    hmedia]
  refine or_congr (and_congr_right fun htag => ?_) (and_congr_right fun htag => ?_) <;>
    · rw [Json.Value.eq_object_of_property? htag]
      exact exists_congr fun s => (Json.Value.property?_eq_some hn).symm

/-- A struct of one text holds a text. -/
theorem exists_text_of_has {title name : String} {d : Datum}
    (h : (Ty.struct { name := title } [({ name }, .text)]).Has true d) :
    ∃ s, d = .struct title [(name, some (.text s))] := by
  rw [Ty.Has] at h
  obtain ⟨values, rfl, hvalues⟩ := h
  obtain ⟨_, _, rfl, htext | hdefault, rfl⟩ := hvalues
  · obtain ⟨s, rfl⟩ := htext
    exact ⟨s, rfl⟩
  · nomatch hdefault

/-- A message is written as an object with its tag and its text. -/
theorem exists_written {y : Tagged} (hy : payloadsHave message y.tag y.payload) :
    ∃ z : Value, y.datum = z.datum ∧ z.names.Nodup ∧ IsMessage z := by
  obtain ⟨tag, payload⟩ := y
  obtain ⟨rfl, hpayload⟩ | ⟨rfl, hpayload⟩ | hnone := hy
  · obtain ⟨s, rfl⟩ := exists_text_of_has (d := payload) hpayload
    have hn : [tagField, "text"].Nodup := by decide
    exact ⟨.object [(tagField, .string "text"), ("text", .string s)], rfl, hn,
      .inl ⟨rfl, s, rfl⟩⟩
  · obtain ⟨s, rfl⟩ := exists_text_of_has (d := payload) hpayload
    have hn : [tagField, "url"].Nodup := by decide
    exact ⟨.object [(tagField, .string "media"), ("url", .string s)], rfl, hn,
      .inr ⟨rfl, s, rfl⟩⟩
  · exact hnone.elim

/-- References can be read as the definitions of the schema of messages say, and however they are
read so : a JSON value whose names are different is read as a message exactly if the schema allows
it, whatever way it is shown, and a message is written as a JSON value that the schema allows. -/
theorem message_described :
    (∃ ρ, messageDocument.Resolves ρ) ∧ ∀ ρ, messageDocument.Resolves ρ →
      (∀ (x : Value) (o : Offer) (readable : Bool), x.names.Nodup → x.ShownAs o →
        ((∃ y, Tagged.read message (⟨o, readable⟩ : Offered) = .ok y) ↔
          messageDocument.schema.Allows ρ x)) ∧
      ∀ y : Tagged, payloadsHave message y.tag y.payload →
        ∃ z : Value, y.datum = z.datum ∧ z.names.Nodup ∧ messageDocument.schema.Allows ρ z := by
  refine ⟨exists_resolves, fun ρ hρ => ⟨fun x o readable hn ho => ?_, fun y hy => ?_⟩⟩
  · rw [exists_read_iff hn ho, messageDocument_allows hρ]
  · obtain ⟨z, hz, hn, hmessage⟩ := exists_written hy
    exact ⟨z, hz, hn, (messageDocument_allows hρ).2 hmessage⟩

/-- A text message among properties that mean nothing, its tag last. -/
def decorated : Value :=
  .object [("text", .string "hi"), ("url", .array [.null, .object []]),
    (tagField, .string "text")]

/-- The message, shown by a format that announces wrong sizes. -/
def decoratedOffer : Offer :=
  .map [(.scalar (.text .owned "text"), .scalar (.text .passing "hi")),
    (.scalar (.text .lasting "url"), .seq [.unit, .map [] (some 7)] none),
    (.scalar (.text .passing "type"), .scalar (.text .lasting "text"))] (some 9)

theorem message_described_decorated :
    decorated.names.Nodup ∧ decorated.ShownAs decoratedOffer ∧
      ∃ ρ, messageDocument.Resolves ρ ∧ messageDocument.schema.Allows ρ decorated := by
  have hn : decorated.names.Nodup := by decide
  have ho : decorated.ShownAs decoratedOffer := by
    simp [decorated, decoratedOffer, Json.Value.ShownAs, propertiesShownAs, elementsShownAs,
      tagField]
  obtain ⟨⟨ρ, hρ⟩, h⟩ := message_described
  exact ⟨hn, ho, ρ, hρ, ((h ρ hρ).1 decorated decoratedOffer false hn ho).1 ⟨_, rfl⟩⟩

end Catalog

end FlatUnion
