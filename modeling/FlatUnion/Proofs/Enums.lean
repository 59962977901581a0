import FlatUnion.Proofs.Fieldless
import FlatUnion.Read.Probe

/-!
# Enums that were kept

A snapshot is read as an enum by a reader of the variant and, for each variant, a reader of its
content, which asks for the content in one of four ways (`ContentReader`). The enum is a bare name
or a map of one entry, and the content must be fitting for the way in which it is asked for
(`ContentReader.Fits`).

`readEnum_exact` says that nothing else is read, whatever the readers are, and what they are given.
So a variant in the external form is read from it under its own access. Another access takes it in
three cases only (`Form.Admits`), besides that of a newtype variant that holds a sequence or a map,
which is written like the variants of these forms. The readers of enums in the external form and the
probes are readers of this kind.
-/

namespace FlatUnion

/-! ## Readers of enums -/

/-- How the content of a variant is read, by the way in which it is asked for. A unit variant has no
content, and its reader knows what to return. -/
inductive ContentReader (σ α : Type)
  | unit (x : α)
  | newtype (read : σ → Except Fault α)
  | tuple (visit : Call σ → Outcome α)
  | struct (visit : Call σ → Outcome α)

namespace ContentReader

variable {σ α : Type}

/-- The access under which the content is asked for. -/
def form : ContentReader σ α → Form
  | .unit _ => .unit
  | .newtype _ => .newtype
  | .tuple _ => .tuple
  | .struct _ => .struct

/-- Reads the content of a variant, or none if there is a bare name. -/
def read [Source σ] : ContentReader σ α → Option σ → Except Fault α
  | .unit x, none => .ok x
  | .newtype _, none => .error (.invalidType .unitVariant "newtype variant")
  | .tuple _, none => .error (.invalidType .unitVariant "tuple variant")
  | .struct _, none => .error (.invalidType .unitVariant "struct variant")
  | .unit x, some s => (consult .unit s Visit.unit).map fun _ => x
  | .newtype read, some s => read s
  | .tuple visit, some s => consult .tupleVariant s visit
  | .struct visit, some s => consult .structVariant s visit

end ContentReader

/-- An enum : its variant, and the content as the reader of this variant has it. -/
def readEnum {σ κ α : Type} [Source σ] (what : String) (name : σ → Except Fault κ)
    (reader : κ → ContentReader σ α) : Call σ → Outcome (κ × α)
  | .enum v content => .plain do
    let k ← name v
    let x ← (reader k).read content
    return (k, x)
  | c => refuse what c

/-! ## What fits an access -/

namespace ContentReader

variable {α : Type}

/-- Whether a value is a content that a reader accepts, and what it makes of it. A sequence or a map
is read to its end : of the last entry of a map the key is enough. -/
inductive Fits : ContentReader Snapshot α → Snapshot → α → Prop
  | unit (x : α) : Fits (.unit x) .unit x
  | newtype {read : Snapshot → Except Fault α} {c : Snapshot} {x : α} (h : read c = .ok x) :
    Fits (.newtype read) c x
  | tuple {visit : Call Snapshot → Outcome α} {items : List Snapshot} {p : Progress} {x : α}
    (h : visit (.seq items (some items.length)) = ⟨p, .ok x⟩) (hend : items.length ≤ p.whole) :
    Fits (.tuple visit) (.seq items) x
  | structOfSeq {visit : Call Snapshot → Outcome α} {items : List Snapshot} {p : Progress} {x : α}
    (h : visit (.seq items (some items.length)) = ⟨p, .ok x⟩) (hend : items.length ≤ p.whole) :
    Fits (.struct visit) (.seq items) x
  | structOfMap {visit : Call Snapshot → Outcome α} {entries : List (Snapshot × Snapshot)}
    {p : Progress} {x : α} (h : visit (.map entries (some entries.length)) = ⟨p, .ok x⟩)
    (hend : entries.length ≤ p.begun) : Fits (.struct visit) (.map entries) x

/-- A unit is read from a unit only. -/
theorem consult_unit_eq_ok {c : Snapshot} {d : Datum} :
    consult .unit c Visit.unit = .ok d ↔ c = .unit ∧ .unit = d := by
  rw [consult_eq_ok]
  constructor
  · rintro ⟨a, ha, h, -⟩
    obtain rfl := Except.ok.inj ha
    cases c with
    | unit => exact ⟨rfl, Except.ok.inj h⟩
    | _ => cases h
  · rintro ⟨rfl, rfl⟩
    exact ⟨_, rfl, rfl, rfl⟩

/-- A snapshot that answers with what it is, is read by who accepts that and gets to its end. -/
theorem consult_replay_eq_ok {request : Request} {c : Snapshot}
    (hanswer : Source.answer request c = .ok c.replay) {visit : Call Snapshot → Outcome α} {x : α} :
    consult request c visit = .ok x ↔
      ∃ p, visit c.call = ⟨p, .ok x⟩ ∧ c.closing p = .ok () := by
  rw [consult_eq_ok]
  constructor
  · rintro ⟨a, ha, h, hclose⟩
    obtain rfl := Except.ok.inj (hanswer.symm.trans ha)
    exact ⟨_, Outcome.eq_mk_of_result h, hclose⟩
  · rintro ⟨p, h, hclose⟩
    refine ⟨_, hanswer, congrArg (·.result) h, ?_⟩
    exact (congrArg c.closing (congrArg (·.progress) h)).trans hclose

theorem consult_refused {request : Request} {c : Snapshot} {f : Fault}
    (hanswer : Source.answer request c = .error f) {visit : Call Snapshot → Outcome α} {x : α} :
    consult request c visit ≠ .ok x := by
  intro h
  obtain ⟨a, ha, -⟩ := consult_eq_ok.1 h
  simp [hanswer] at ha

/-- A content is read if it fits. -/
theorem read_some_eq_ok {reader : ContentReader Snapshot α} {c : Snapshot} {x : α} :
    reader.read (some c) = .ok x ↔ reader.Fits c x := by
  cases reader with
  | unit y =>
    simp only [read, map_eq_ok, consult_unit_eq_ok]
    constructor
    · rintro ⟨_, ⟨rfl, rfl⟩, rfl⟩
      exact .unit y
    · rintro ⟨⟩
      exact ⟨_, ⟨rfl, rfl⟩, rfl⟩
  | newtype r =>
    refine ⟨.newtype, ?_⟩
    rintro ⟨⟩
    assumption
  | tuple visit =>
    cases c with
    | seq items =>
      rw [read, consult_replay_eq_ok rfl]
      simp only [Snapshot.closing_seq]
      constructor
      · rintro ⟨_, h, hend⟩
        exact .tuple h hend
      · rintro ⟨⟩
        exact ⟨_, ‹_›, ‹_›⟩
    | _ => exact iff_of_false (consult_refused rfl) (by rintro ⟨⟩)
  | struct visit =>
    cases c with
    | seq items =>
      rw [read, consult_replay_eq_ok rfl]
      simp only [Snapshot.closing_seq]
      constructor
      · rintro ⟨_, h, hend⟩
        exact .structOfSeq h hend
      · rintro ⟨⟩
        exact ⟨_, ‹_›, ‹_›⟩
    | map entries =>
      rw [read, consult_replay_eq_ok rfl]
      simp only [Snapshot.closing_map]
      constructor
      · rintro ⟨_, h, hend⟩
        exact .structOfMap h hend
      · rintro ⟨⟩
        exact ⟨_, ‹_›, ‹_›⟩
    | _ => exact iff_of_false (consult_refused rfl) (by rintro ⟨⟩)

/-- A bare name has no content, and is a unit variant. -/
theorem read_none_eq_ok {σ : Type} [Source σ] {reader : ContentReader σ α} {x : α} :
    reader.read none = .ok x ↔ reader = .unit x := by
  cases reader <;> simp [read]

end ContentReader

/-- An enum is kept as a bare name, or as a map of one entry, its variant and the content of it. -/
theorem Snapshot.variant_eq_ok {c v : Snapshot} {content : Option Snapshot} :
    c.variant = .ok (v, content) ↔ (∃ s, c = .text s ∧ v = c ∧ content = Option.none) ∨
      ∃ value, c = .map [(v, value)] ∧ content = Option.some value := by
  unfold variant
  split
  · simp [eq_comm]
  · simp [eq_comm]
  · next hne => simp_all
  · simp_all

section Reading

variable {κ α : Type} {what : String} {name : Snapshot → Except Fault κ}
  {reader : κ → ContentReader Snapshot α} {k : κ} {x : α}

/-- A snapshot that is asked for an enum shows its variant and the content, and nothing else. -/
theorem consult_enum {β : Type} (c : Snapshot) (visit : Call Snapshot → Outcome β) :
    consult .enum c visit = c.variant >>= fun p => (visit (.enum p.1 p.2)).result := by
  have hconsult : consult .enum c visit = (c.variant >>= fun p =>
      .ok ({ call := .enum p.1 p.2 } : Answer Snapshot)) >>= fun a => a.finish (visit a.call) := rfl
  rw [hconsult, bind_assoc]
  congr 1
  funext p
  show Answer.finish _ (visit (.enum p.1 p.2)) = _
  obtain ⟨q, r⟩ := visit (.enum p.1 p.2)
  cases r <;> rfl

/-- An enum is read if its variant is, and then the content of this variant. -/
theorem readEnum_eq_ok {c : Snapshot} :
    consult .enum c (readEnum what name reader) = .ok (k, x) ↔ ∃ v content,
      c.variant = .ok (v, content) ∧ name v = .ok k ∧ (reader k).read content = .ok x := by
  rw [consult_enum]
  constructor
  · intro h
    obtain ⟨⟨v, content⟩, hv, h⟩ := bind_eq_ok.1 h
    obtain ⟨_, hk, h⟩ := bind_eq_ok.1 h
    obtain ⟨_, hx, h⟩ := bind_eq_ok.1 h
    obtain ⟨rfl, rfl⟩ := Prod.mk.inj (Except.ok.inj h)
    exact ⟨v, content, hv, hk, hx⟩
  · rintro ⟨v, content, hv, hk, hx⟩
    exact bind_eq_ok.2 ⟨_, hv, bind_eq_ok.2 ⟨k, hk, bind_eq_ok.2 ⟨x, hx, rfl⟩⟩⟩

theorem readEnum_eq_ok_iff {c : Snapshot} :
    consult .enum c (readEnum what name reader) = .ok (k, x) ↔
      (∃ s, c = .text s ∧ name c = .ok k ∧ reader k = .unit x) ∨
        ∃ v value, c = .map [(v, value)] ∧ name v = .ok k ∧ (reader k).Fits value x := by
  rw [readEnum_eq_ok]
  constructor
  · rintro ⟨v, content, hv, hk, hx⟩
    obtain ⟨s, rfl, rfl, rfl⟩ | ⟨value, rfl, rfl⟩ := Snapshot.variant_eq_ok.1 hv
    · exact .inl ⟨s, rfl, hk, ContentReader.read_none_eq_ok.1 hx⟩
    · exact .inr ⟨v, value, rfl, hk, ContentReader.read_some_eq_ok.1 hx⟩
  · rintro (⟨s, rfl, hk, hx⟩ | ⟨v, value, rfl, hk, hx⟩)
    · exact ⟨_, _, rfl, hk, ContentReader.read_none_eq_ok.2 hx⟩
    · exact ⟨_, _, rfl, hk, ContentReader.read_some_eq_ok.2 hx⟩

end Reading

/-! ## The external form -/

/-- The accesses that take a content that was written for another one. -/
inductive Form.Admits : Form → Snapshot → Prop
  | newtype (c : Snapshot) : Admits .newtype c
  | structOfSeq (items : List Snapshot) : Admits .struct (.seq items)
  | unit : Admits .unit .unit

/-- The access for which a content is written, as far as it shows : a sequence is the content of a
tuple, a map that of a struct, and everything else that of a newtype. -/
def Snapshot.contentForm : Snapshot → Form
  | .seq _ => .tuple
  | .map _ => .struct
  | _ => .newtype

theorem ContentReader.Fits.form_eq {α : Type} {reader : ContentReader Snapshot α} {c : Snapshot}
    {x : α} (h : reader.Fits c x) : reader.form = c.contentForm ∨ reader.form.Admits c := by
  cases h with
  | unit => exact .inr .unit
  | newtype => exact .inr (.newtype _)
  | tuple => exact .inl rfl
  | structOfSeq => exact .inr (.structOfSeq _)
  | structOfMap => exact .inl rfl

/-- The access of the variant with this content. -/
def VariantContent.form : VariantContent → Form
  | .unit => .unit
  | .newtype _ => .newtype
  | .tuple _ => .tuple
  | .struct _ => .struct

/-- What is shown of a variant in the external form is its name, with its content if it has one. -/
theorem variant_shown (variant : VariantName) (content : VariantContent) (marks : Bool) :
    ((externalDatum variant content).shown marks).variant =
      .ok (.text variant.name, content.shown marks) := by
  cases content <;> rfl

/-- Whether an access takes what is shown of a content : it is the one of the variant, or one that
takes other contents too. A newtype that holds a sequence or a map shows as a tuple or a struct. -/
def VariantContent.Takes (content : VariantContent) (marks : Bool) (form : Form) : Prop :=
  form = content.form ∨ ∃ c, content.shown marks = some c ∧
    (form.Admits c ∨ (∃ d, content = .newtype d) ∧ form = c.contentForm)

theorem VariantContent.takes_of_read {α : Type} {content : VariantContent} {marks : Bool}
    {reader : ContentReader Snapshot α} {x : α}
    (h : reader.read (content.shown marks) = .ok x) : content.Takes marks reader.form := by
  cases content with
  | unit =>
    obtain rfl := ContentReader.read_none_eq_ok.1 h
    exact .inl rfl
  | newtype d =>
    obtain hform | hform := (ContentReader.read_some_eq_ok.1 h).form_eq
    · exact .inr ⟨_, rfl, .inr ⟨⟨d, rfl⟩, hform⟩⟩
    · exact .inr ⟨_, rfl, .inl hform⟩
  | tuple ds =>
    obtain hform | hform := (ContentReader.read_some_eq_ok.1 h).form_eq
    · exact .inl hform
    · exact .inr ⟨_, rfl, .inl hform⟩
  | struct fields =>
    obtain hform | hform := (ContentReader.read_some_eq_ok.1 h).form_eq
    · exact .inl hform
    · exact .inr ⟨_, rfl, .inl hform⟩

/-! ## Readers that are used -/

section Used

variable {σ κ α β : Type}

theorem Answer.finish_map {a : Answer σ} {o : Outcome α} {f : α → β} :
    a.finish (o.map f) = (a.finish o).map f := by
  obtain ⟨p, r⟩ := o
  cases r with
  | error e => rfl
  | ok x => cases h : a.close p <;> simp [Answer.finish, Outcome.map, Except.map, h]

/-- What a reader makes of its result does not matter to the source. -/
theorem consult_map_result [Source σ] {request : Request} {s : σ} {visit : Call σ → Outcome α}
    {f : α → β} :
    (consult request s fun c => (visit c).map f) = (consult request s visit).map f := by
  cases h : (Source.answer request s : Except Fault (Answer σ)) with
  | error e => simp [consult, h, bind, Except.bind, Except.map]
  | ok a => simp [consult, h, bind, Except.bind, Answer.finish_map]

/-- The content of a variant of an enum in the external form. -/
def VariantReader.content [Source σ] (enum : String) (r : VariantReader σ) :
    ContentReader σ VariantContent :=
  match r.form with
  | .unit => .unit .unit
  | .newtype => .newtype fun s => (r.read s).map .newtype
  | .tuple =>
    let what := "tuple variant " ++ enum ++ "::" ++ r.name
    .tuple fun c =>
      (Visit.items what (what ++ " with " ++ countElements r.items.length) r.items c).map .tuple
  | .struct => .struct fun c =>
      (Visit.struct ("struct variant " ++ enum ++ "::" ++ r.name) false r.fields c).map
        fun values => .struct (r.written values)

theorem externalContent_eq [Source σ] (enum : String) (r : VariantReader σ) (content : Option σ) :
    Visit.externalContent enum r content = (r.content enum).read content := by
  obtain ⟨name, form, read, items, fields, optional⟩ := r
  cases content with
  | none => cases form <;> rfl
  | some s =>
    cases form with
    | unit | newtype => exact bind_pure_comp _ _
    | tuple | struct => exact (bind_pure_comp _ _).trans consult_map_result.symm

/-- The variant that is told, at its place. -/
def Visit.toldVariant [Source σ] (readers : List (VariantReader σ)) (v : σ) :
    Except Fault (Nat × VariantReader σ) := do
  let i ← consult .identifier v (variant (readers.map (·.name)))
  let r ← pick readers i
  return (i, r)

theorem externalEnum_eq [Source σ] (enum : String) (readers : List (VariantReader σ))
    (c : Call σ) : Visit.externalEnum enum readers c =
      (readEnum ("enum " ++ enum) (Visit.toldVariant readers) (fun k => k.2.content enum) c).map
        fun p => externalDatum ⟨enum, p.1.1, p.1.2.name⟩ p.2 := by
  cases c with
  | enum v content =>
    rw [Visit.externalEnum, readEnum, Visit.toldVariant, Outcome.map, Outcome.plain]
    cases consult .identifier v (Visit.variant (readers.map (·.name))) with
    | error f => rfl
    | ok i =>
      simp only [bind, Except.bind]
      cases Visit.pick readers i with
      | error f => rfl
      | ok r =>
        simp only [externalContent_eq, pure, Except.pure]
        cases (r.content enum).read content with
        | error f => rfl
        | ok content => cases content <;> rfl
  | _ => rfl

/-- The content of a variant as a probe looks at it. -/
def Prober.contentReader (child : Prober σ) : Access → ContentReader σ (Option Event)
  | .unit => .unit none
  | .newtype => .newtype fun s => (child.read s).map some
  | .tuple => .tuple fun c => (child.look c).map some
  | .struct => .struct fun c => (child.look c).map some

theorem Prober.content_eq [Source σ] (child : Prober σ) (access : Access) (content : Option σ) :
    child.content access content = (child.contentReader access).read content := by
  cases content with
  | none => cases access <;> rfl
  | some s =>
    cases access with
    | unit | newtype => exact bind_pure_comp _ _
    | tuple | struct => exact (bind_pure_comp _ _).trans consult_map_result.symm

end Used

/-! ## Exactly what is read -/

theorem Ty.read_external_eq (enum : String) (variants : List (String × Form × Ty)) (c : Snapshot) :
    (Ty.enum enum .external variants).read c =
      (consult .enum c (readEnum ("enum " ++ enum) (Visit.toldVariant (variantReaders variants))
        fun k => k.2.content enum)).map
          fun p => externalDatum ⟨enum, p.1.1, p.1.2.name⟩ p.2 := by
  rw [← consult_map_result]
  simp only [Ty.read]
  exact congrArg (consult .enum c) (funext (externalEnum_eq enum _))

theorem Shape.read_enum_eq (key child : Shape) (named : List (String × Shape)) (take : Option Nat)
    (access : Access) (c : Snapshot) :
    (Shape.probe .enum key child named take access).read c =
      (consult .enum c (readEnum "a probe" key.prober.read
        fun _ => child.prober.contentReader access)).map fun p => .enum p.1 access p.2 := by
  have hread : (Shape.probe .enum key child named take access).read c = consult .enum c
      (Prober.lookWith key.prober child.prober (namedProbers named) take access) := rfl
  rw [hread, consult_enum, consult_enum]
  cases c.variant with
  | error f => rfl
  | ok p =>
    simp only [bind, Except.bind, Prober.lookWith, readEnum, Outcome.result_plain,
      Prober.content_eq]
    cases key.prober.read p.1 with
    | error f => rfl
    | ok variant => cases (child.prober.contentReader access).read p.2 <;> rfl

/-- Whatever reads the variant and the content, a snapshot is read as an enum exactly if it is a
text, which is the variant, and the content is asked for as that of a unit variant, or a map of one
entry, whose key is the variant and whose value fits the access. The result is the variant and what
was made of the content. So what is shown of a variant in the external form is read as that variant
if its name and its content are, and under its own access, save those that take other contents too
(`VariantContent.Takes`) : the three of `Form.Admits`, and one case beyond them, as a newtype
variant that holds a sequence or a map is also a tuple or a struct variant. Enums in the external
form and probes are read in this way. -/
theorem readEnum_exact :
    (∀ {κ α : Type} (what : String) (name : Snapshot → Except Fault κ)
      (reader : κ → ContentReader Snapshot α),
      (∀ c k x, consult .enum c (readEnum what name reader) = .ok (k, x) ↔
        (∃ s, c = .text s ∧ name c = .ok k ∧ reader k = .unit x) ∨
          ∃ v value, c = .map [(v, value)] ∧ name v = .ok k ∧ (reader k).Fits value x) ∧
      ∀ (variant : VariantName) (content : VariantContent) (marks : Bool) k x,
        (consult .enum ((externalDatum variant content).shown marks) (readEnum what name reader) =
            .ok (k, x) ↔
          name (.text variant.name) = .ok k ∧
            (content.shown marks).elim (reader k = .unit x) ((reader k).Fits · x)) ∧
        (consult .enum ((externalDatum variant content).shown marks) (readEnum what name reader) =
            .ok (k, x) →
          content.Takes marks (reader k).form)) ∧
    (∀ enum variants (c : Snapshot), (Ty.enum enum .external variants).read c =
      (consult .enum c (readEnum ("enum " ++ enum) (Visit.toldVariant (variantReaders variants))
        fun k => k.2.content enum)).map
          fun p => externalDatum ⟨enum, p.1.1, p.1.2.name⟩ p.2) ∧
    ∀ key child named take access (c : Snapshot),
      (Shape.probe .enum key child named take access).read c =
        (consult .enum c (readEnum "a probe" key.prober.read
          fun _ => child.prober.contentReader access)).map fun p => .enum p.1 access p.2 := by
  refine ⟨fun what name reader => ⟨fun c k x => readEnum_eq_ok_iff,
    fun variant content marks k x => ?_⟩, Ty.read_external_eq, Shape.read_enum_eq⟩
  have hshown : consult .enum ((externalDatum variant content).shown marks)
      (readEnum what name reader) = .ok (k, x) ↔
        name (.text variant.name) = .ok k ∧ (reader k).read (content.shown marks) = .ok x := by
    rw [readEnum_eq_ok, variant_shown]
    constructor
    · rintro ⟨v, shown, hv, hread⟩
      obtain ⟨rfl, rfl⟩ := Prod.mk.inj (Except.ok.inj hv)
      exact hread
    · exact fun hread => ⟨_, _, rfl, hread⟩
  refine ⟨hshown.trans (and_congr_right fun _ => ?_),
    fun h => VariantContent.takes_of_read (hshown.1 h).2⟩
  cases content.shown marks with
  | none => exact ContentReader.read_none_eq_ok
  | some c => exact ContentReader.read_some_eq_ok

/-- Variants of two forms. -/
def figures : List (String × Form × Ty) :=
  [("Pair", .tuple, .tuple [.int .u8, .int .u8]),
    ("Point", .struct, .struct { name := "Point" } [({ name := "x" }, .int .u8)])]

/-- A sequence under the name of a struct variant is read as a struct. -/
theorem readEnum_exact_point :
    (Ty.enum "Figure" .external figures).read
          (Snapshot.map [(.text "Point", .seq [.int .u8 7])]) =
        .ok (.structVariant ⟨"Figure", 1, "Point"⟩ [("x", some (.int .u8 7))]) ∧
      VariantContent.Takes (.tuple [.int .u8 7]) false .struct :=
  ⟨rfl, ((readEnum_exact.1 "enum Figure" (Visit.toldVariant (variantReaders figures))
    fun k => k.2.content "Figure").2 ⟨"Figure", 1, "Point"⟩ (.tuple [.int .u8 7]) false (1, _)
      _).2 rfl⟩

end FlatUnion
