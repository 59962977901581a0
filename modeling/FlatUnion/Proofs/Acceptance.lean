import FlatUnion.Catalog
import FlatUnion.Proofs.Keeping

/-!
# What is accepted

A union is read in stages : the entries are kept, the tag is looked up among them, its text is
matched with the tags of the variants, and the variant it tells reads the payload from all of the
entries. `Offered.Shows` and `Offered.Tells` say what the first stages must find, without the
reader, and `Refused` has one case for each stage that can fail.

The main statement is `readUnion_accepts` : a union is read exactly as the variant that is told,
with the payload that this variant reads, and refused exactly as `Refused` says. What the other
variants would have read makes no difference.
-/

namespace FlatUnion

/-! ## What must be found -/

/-- The text of a tag : a text, or a character as a text of one letter. -/
def Snapshot.tagText? : Snapshot → Option String
  | .text s => Option.some s
  | .char c => Option.some (String.singleton c)
  | _ => Option.none

namespace Offered

/-- A map is offered, its entries can be kept as these, and no text stands as a key twice. -/
def Shows (s : Offered) (kept : List (Snapshot × Snapshot)) : Prop :=
  ∃ entries hint, s.value = .map entries hint ∧ Snapshot.ofEntries entries = .ok kept ∧
    (Offer.keys entries).Nodup

/-- The entries can be kept as these, and the one under the tag field holds this text. -/
def Tells (s : Offered) (kept : List (Snapshot × Snapshot)) (name : String) : Prop :=
  s.Shows kept ∧ ∃ c, (.text tagField, c) ∈ kept ∧ c.tagText? = some name

theorem read_eq_ok_iff {s : Offered} {kept : List (Snapshot × Snapshot)} :
    Flat.read s = .ok ⟨kept⟩ ↔ s.Shows kept :=
  Flat.read_offered_eq_ok

theorem Shows.nodup {s : Offered} {kept : List (Snapshot × Snapshot)} (h : s.Shows kept) :
    (Snapshot.keys kept).Nodup := by
  obtain ⟨entries, hint, -, hk, hn⟩ := h
  rw [Snapshot.keys_eq (Snapshot.ofEntries_eq_ok.1 hk)]
  exact hn

/-- The entries that are kept are those of the source, so there is one list of them. -/
theorem Shows.unique {s : Offered} {kept kept' : List (Snapshot × Snapshot)} (h : s.Shows kept)
    (h' : s.Shows kept') : kept = kept' := by
  exact congrArg Flat.entries
    (Except.ok.inj ((read_eq_ok_iff.2 h).symm.trans (read_eq_ok_iff.2 h')))

end Offered

/-! ## The stages -/

/-- A tag is one of the names, and nothing but a text or a character is a tag. -/
theorem consult_tag (names : List String) (c : Snapshot) :
    consult .str c (Visit.tag names) =
      match c.tagText? with
      | none => .error (.invalidType c.call.unexpected (describeAccepted "one of" names))
      | some name =>
        match names.findIdx? (· = name) with
        | some i => .ok i
        | none => .error (.unknownVariant name names) := by
  have hconsult : consult .str c (Visit.tag names) = c.replay.finish (Visit.tag names c.call) := rfl
  rw [hconsult]
  cases c with
  | text s =>
    cases h : names.findIdx? (· = s) <;>
      simp only [Snapshot.call, Visit.tag, Scalar.asText?, Snapshot.tagText?, h] <;> rfl
  | char x =>
    cases h : names.findIdx? (· = String.singleton x) <;>
      simp only [Snapshot.call, Visit.tag, Scalar.asText?, Snapshot.tagText?, h] <;> rfl
  | _ => rfl

/-- A tag that is read is the name at the place it tells. -/
theorem consult_tag_eq_ok {names : List String} {c : Snapshot} {i : Nat}
    (h : consult .str c (Visit.tag names) = .ok i) : ∃ name, c.tagText? = some name ∧
      names[i]? = some name := by
  rw [consult_tag] at h
  split at h
  · simp at h
  · next name hname =>
    split at h
    · next j hj =>
      obtain rfl := Except.ok.inj h
      obtain ⟨hlt, heq, -⟩ := List.findIdx?_eq_some_iff_getElem.1 hj
      exact ⟨name, hname, List.getElem?_eq_some_iff.2 ⟨hlt, by simpa using heq⟩⟩
    · simp at h

/-- Among different tags a variant is found at its own place. -/
theorem findIdx?_tag {variants : List (PayloadReader Snapshot)}
    (hn : (variants.map (·.tag)).Nodup) {i : Nat} {v : PayloadReader Snapshot}
    (hv : variants[i]? = some v) : (variants.map (·.tag)).findIdx? (· = v.tag) = some i := by
  obtain ⟨hi, rfl⟩ := List.getElem?_eq_some_iff.1 hv
  rw [List.findIdx?_eq_some_iff_getElem]
  refine ⟨by simpa using hi, by simp, fun j hj => ?_⟩
  have hne := (List.nodup_iff_pairwise_ne.1 hn)
  rw [List.pairwise_iff_getElem] at hne
  have := hne j i (by simp; omega) (by simpa using hi) hj
  simpa using this

section Stages

variable {σ : Type} [Source σ] {variants : List (PayloadReader Snapshot)}
  {kept : List (Snapshot × Snapshot)} {c : Snapshot} {name : String}

theorem readUnion_keeping {s : σ} {f : Fault} (hf : Flat.read s = .error f) :
    readUnion variants s = .error f := by
  rw [readUnion, hf]
  rfl

/-- Once the entries are kept, what remains is the tag and the payload. -/
theorem readUnion_kept {s : σ} (hs : Flat.read s = .ok ⟨kept⟩) :
    readUnion variants s = do
      let i ← (⟨kept⟩ : Flat).readTag tagField fun value =>
        consult .str value (Visit.tag (variants.map (·.tag)))
      let v ← Visit.pick variants i
      return ⟨v.tag, ← v.read (.map kept)⟩ := by
  rw [readUnion, hs]
  rfl

/-- The entry under the tag field is the one that is looked up. -/
theorem readTag_kept (hk : (Snapshot.keys kept).Nodup) (hc : (.text tagField, c) ∈ kept)
    (read : Snapshot → Except Fault Nat) :
    (⟨kept⟩ : Flat).readTag tagField read = read c := by
  rw [Flat.readTag, (Flat.find?_eq_some ⟨kept⟩ hk).2 hc]

/-- The variant that is told reads the payload from all of the entries. -/
theorem readUnion_tagged {s : σ} (hn : (variants.map (·.tag)).Nodup)
    (hs : Flat.read s = .ok ⟨kept⟩) (hk : (Snapshot.keys kept).Nodup)
    (hc : (.text tagField, c) ∈ kept) {i : Nat} {v : PayloadReader Snapshot}
    (hv : variants[i]? = some v) (ht : c.tagText? = some v.tag) :
    readUnion variants s = (v.read (.map kept)).map (⟨v.tag, ·⟩) := by
  rw [readUnion_kept hs, readTag_kept hk hc, consult_tag, ht]
  simp only [findIdx?_tag hn hv]
  have hpick : Visit.pick variants i = .ok v := by rw [Visit.pick, hv]
  cases hx : v.read (.map kept) <;>
    simp [bind, Except.bind, pure, Except.pure, Except.map, hpick, hx]

variable {s : Offered}

theorem readUnion_missing (hs : s.Shows kept) (hc : ∀ c, (.text tagField, c) ∉ kept) :
    readUnion variants s = .error (.missingField tagField) := by
  rw [readUnion_kept (Offered.read_eq_ok_iff.2 hs), Flat.readTag, Flat.find?_eq_none.2 hc]
  rfl

theorem readUnion_kind (hs : s.Shows kept) (hc : (.text tagField, c) ∈ kept)
    (ht : c.tagText? = none) :
    readUnion variants s = .error (.invalidType c.call.unexpected
      (describeAccepted "one of" (variants.map (·.tag)))) := by
  rw [readUnion_kept (Offered.read_eq_ok_iff.2 hs), readTag_kept hs.nodup hc, consult_tag, ht]
  rfl

theorem readUnion_unknown (hs : s.Tells kept name) (hname : name ∉ variants.map (·.tag)) :
    readUnion variants s = .error (.unknownVariant name (variants.map (·.tag))) := by
  obtain ⟨hs, c, hc, ht⟩ := hs
  have hfind : (variants.map (·.tag)).findIdx? (· = name) = none := by
    rw [List.findIdx?_eq_none_iff]
    rintro t ht
    simpa using fun h : t = name => hname (h ▸ ht)
  rw [readUnion_kept (Offered.read_eq_ok_iff.2 hs), readTag_kept hs.nodup hc, consult_tag, ht]
  simp only [hfind]
  rfl

theorem readUnion_told (hn : (variants.map (·.tag)).Nodup) {i : Nat} {v : PayloadReader Snapshot}
    (hv : variants[i]? = some v) (hs : s.Tells kept v.tag) :
    readUnion variants s = (v.read (.map kept)).map (⟨v.tag, ·⟩) := by
  obtain ⟨hs, c, hc, ht⟩ := hs
  exact readUnion_tagged hn (Offered.read_eq_ok_iff.2 hs) hs.nodup hc hv ht

end Stages

/-! ## Accepting and refusing -/

/-- Why a union is refused : the first of its stages that fails. -/
inductive Refused (variants : List (PayloadReader Snapshot)) (s : Offered) : Fault → Prop
  /-- The entries cannot be kept. -/
  | keeping {f : Fault} (hs : ∀ kept, ¬ s.Shows kept) (hf : Flat.read s = .error f) :
    Refused variants s f
  /-- None of the entries is the tag. -/
  | missing {kept : List (Snapshot × Snapshot)} (hs : s.Shows kept)
    (hc : ∀ c, (.text tagField, c) ∉ kept) : Refused variants s (.missingField tagField)
  /-- The tag is no text. -/
  | kind {kept : List (Snapshot × Snapshot)} {c : Snapshot} (hs : s.Shows kept)
    (hc : (.text tagField, c) ∈ kept) (ht : c.tagText? = none) :
    Refused variants s (.invalidType c.call.unexpected
      (describeAccepted "one of" (variants.map (·.tag))))
  /-- The tag is a text, but not one of the tags. -/
  | unknown {kept : List (Snapshot × Snapshot)} {name : String} (hs : s.Tells kept name)
    (hname : name ∉ variants.map (·.tag)) :
    Refused variants s (.unknownVariant name (variants.map (·.tag)))
  /-- The payload that is told cannot be read. -/
  | payload {kept : List (Snapshot × Snapshot)} {v : PayloadReader Snapshot} {f : Fault}
    (hs : s.Tells kept v.tag) (hv : v ∈ variants) (hf : v.read (.map kept) = .error f) :
    Refused variants s f

section Acceptance

variable {variants : List (PayloadReader Snapshot)} {s : Offered}

theorem Refused.readUnion_eq (hn : (variants.map (·.tag)).Nodup) {f : Fault}
    (h : Refused variants s f) : readUnion variants s = .error f := by
  cases h with
  | keeping _ hf => exact readUnion_keeping hf
  | missing hs hc => exact readUnion_missing hs hc
  | kind hs hc ht => exact readUnion_kind hs hc ht
  | unknown hs hname => exact readUnion_unknown hs hname
  | payload hs hv hf =>
    obtain ⟨i, hi⟩ := List.mem_iff_getElem?.1 hv
    rw [readUnion_told hn hi hs, hf]
    rfl

/-- A source is refused at one of the stages, or a variant is told and reads the payload. -/
theorem refused_or_told (variants : List (PayloadReader Snapshot)) (s : Offered) :
    (∃ f, Refused variants s f) ∨ ∃ (i : Nat) (v : PayloadReader Snapshot) (kept : _) (x : Datum),
      variants[i]? = some v ∧ s.Tells kept v.tag ∧ v.read (.map kept) = .ok x := by
  cases hr : Flat.read s with
  | error f =>
    refine .inl ⟨f, .keeping (fun kept hs => ?_) hr⟩
    simp [Offered.read_eq_ok_iff.2 hs] at hr
  | ok flat =>
    have hs : s.Shows flat.entries := Offered.read_eq_ok_iff.1 hr
    by_cases hc : ∃ c, (.text tagField, c) ∈ flat.entries
    case neg => exact .inl ⟨_, .missing hs (not_exists.1 hc)⟩
    obtain ⟨c, hc⟩ := hc
    cases ht : c.tagText? with
    | none => exact .inl ⟨_, .kind hs hc ht⟩
    | some name =>
      by_cases hname : name ∈ variants.map (·.tag)
      case neg => exact .inl ⟨_, .unknown ⟨hs, c, hc, ht⟩ hname⟩
      obtain ⟨v, hv, rfl⟩ := List.mem_map.1 hname
      obtain ⟨i, hi⟩ := List.mem_iff_getElem?.1 hv
      cases hx : v.read (.map flat.entries) with
      | error f => exact .inl ⟨f, .payload ⟨hs, c, hc, ht⟩ hv hx⟩
      | ok x => exact .inr ⟨i, v, flat.entries, x, hi, ⟨hs, c, hc, ht⟩, hx⟩

/-- The same tag is at the same place of another union with the same tags. -/
theorem getElem?_of_tags {others : List (PayloadReader Snapshot)}
    (ht : others.map (·.tag) = variants.map (·.tag)) {i : Nat} {v : PayloadReader Snapshot}
    (hv : variants[i]? = some v) :
    ∃ w : PayloadReader Snapshot, others[i]? = some w ∧ w.tag = v.tag := by
  have h : (others.map (·.tag))[i]? = some v.tag := by rw [ht, List.getElem?_map, hv]; rfl
  rwa [List.getElem?_map, Option.map_eq_some_iff] at h

/-- Unions that agree in the tags and in the payload that is told are read alike. -/
theorem readUnion_congr (hn : (variants.map (·.tag)).Nodup)
    {others : List (PayloadReader Snapshot)} (ht : others.map (·.tag) = variants.map (·.tag))
    (hr : ∀ (i : Nat) (v w : PayloadReader Snapshot) (kept : List (Snapshot × Snapshot)),
      variants[i]? = some v → others[i]? = some w → s.Tells kept v.tag →
        w.read (.map kept) = v.read (.map kept)) :
    readUnion others s = readUnion variants s := by
  have hn' : (others.map (·.tag)).Nodup := ht ▸ hn
  obtain ⟨f, hf⟩ | ⟨i, v, kept, x, hv, hs, hx⟩ := refused_or_told variants s
  · rw [hf.readUnion_eq hn]
    refine Refused.readUnion_eq hn' ?_
    cases hf with
    | keeping hs hf => exact .keeping hs hf
    | missing hs hc => exact .missing hs hc
    | kind hs hc hk => exact ht ▸ .kind hs hc hk
    | unknown hs hname => exact ht ▸ .unknown hs (ht ▸ hname)
    | payload hs hv hf =>
      obtain ⟨i, hi⟩ := List.mem_iff_getElem?.1 hv
      obtain ⟨w, hw, htag⟩ := getElem?_of_tags ht hi
      exact .payload (htag ▸ hs) (List.mem_of_getElem? hw) (hr i _ w _ hi hw hs ▸ hf)
  · obtain ⟨w, hw, htag⟩ := getElem?_of_tags ht hv
    rw [readUnion_told hn hv hs, readUnion_told hn' hw (htag ▸ hs), hr i v w kept hv hw hs, htag]

/-- A value that is read is one of the variants, and this variant was told. -/
theorem readUnion_eq_ok (hn : (variants.map (·.tag)).Nodup) {y : Tagged} :
    readUnion variants s = .ok y ↔ ∃ (i : Nat) (v : PayloadReader Snapshot) (kept : _),
      variants[i]? = some v ∧ v.tag = y.tag ∧ s.Tells kept v.tag ∧
        v.read (.map kept) = .ok y.payload := by
  constructor
  · intro hy
    obtain ⟨f, hf⟩ | ⟨i, v, kept, x, hv, hs, hx⟩ := refused_or_told variants s
    · simp [hf.readUnion_eq hn] at hy
    · rw [readUnion_told hn hv hs, hx] at hy
      obtain rfl := Except.ok.inj hy
      exact ⟨i, v, kept, hv, rfl, hs, hx⟩
  · rintro ⟨i, v, kept, hv, htag, hs, hx⟩
    rw [readUnion_told hn hv hs, hx, htag]
    rfl

theorem readUnion_eq_error (hn : (variants.map (·.tag)).Nodup) {f : Fault} :
    readUnion variants s = .error f ↔ Refused variants s f := by
  refine ⟨fun hf => ?_, Refused.readUnion_eq hn⟩
  obtain ⟨f', hf'⟩ | ⟨i, v, kept, x, hv, hs, hx⟩ := refused_or_told variants s
  · obtain rfl := Except.error.inj ((hf'.readUnion_eq hn).symm.trans hf)
    exact hf'
  · simp [readUnion_told hn hv hs, hx, Except.map] at hf

/-- With different tags, a union is read as a variant exactly if the source is a map whose entries
can be kept, no text stands as a key twice, the entry under the tag field holds the tag of this
variant, and the variant reads the payload from all of the entries. It is refused exactly for the
first stage that fails. Of the payloads only the one that is told matters. -/
theorem readUnion_accepts (variants : List (PayloadReader Snapshot)) (s : Offered)
    (hn : (variants.map (·.tag)).Nodup) :
    (∀ (i : Nat) (v : PayloadReader Snapshot) (x : Datum), variants[i]? = some v →
      (readUnion variants s = .ok ⟨v.tag, x⟩ ↔
        ∃ kept, s.Tells kept v.tag ∧ v.read (.map kept) = .ok x)) ∧
    (∀ y, readUnion variants s = .ok y → y.tag ∈ variants.map (·.tag)) ∧
    (∀ f, readUnion variants s = .error f ↔ Refused variants s f) ∧
    ∀ others : List (PayloadReader Snapshot), others.map (·.tag) = variants.map (·.tag) →
      (∀ (i : Nat) (v w : PayloadReader Snapshot) (kept : List (Snapshot × Snapshot)),
        variants[i]? = some v → others[i]? = some w → s.Tells kept v.tag →
          w.read (.map kept) = v.read (.map kept)) →
      readUnion others s = readUnion variants s := by
  refine ⟨fun i v x hv => ⟨fun h => ?_, fun ⟨kept, hs, hx⟩ => ?_⟩, fun y hy => ?_,
    fun f => readUnion_eq_error hn, fun others ht hr => readUnion_congr hn ht hr⟩
  · obtain ⟨_, w, kept, hw, htag, hs, hx⟩ := (readUnion_eq_ok hn).1 h
    have htag : w.tag = v.tag := htag
    obtain rfl := Option.some.inj ((findIdx?_tag hn hw).symm.trans (htag ▸ findIdx?_tag hn hv))
    obtain rfl := Option.some.inj (hw.symm.trans hv)
    exact ⟨kept, hs, hx⟩
  · exact (readUnion_eq_ok hn).2 ⟨i, v, kept, hv, rfl, hs, hx⟩
  · obtain ⟨_, w, _, hw, htag, -⟩ := (readUnion_eq_ok hn).1 hy
    exact htag ▸ List.mem_map_of_mem (List.mem_of_getElem? hw)

end Acceptance

/-- Variants with tags of one letter. -/
def letters : List (PayloadReader Snapshot) :=
  payloadReaders [("a", Catalog.textMessage), ("é", Catalog.mediaMessage)]

/-- A map that tells the variant "é" by a character, behind an entry under a number. -/
def toldByChar : Offered :=
  ⟨.map [(.scalar (.text .passing "url"), .scalar (.text .lasting "u")),
    (.scalar (.int .u8 7), .none), (.scalar (.text .owned "type"), .scalar (.char 'é'))] (some 9),
    false⟩

theorem readUnion_accepts_toldByChar :
    (letters.map (·.tag)).Nodup ∧
      ∃ kept, toldByChar.Tells kept "é" ∧ Catalog.mediaMessage.read (Snapshot.map kept) =
        .ok (.struct "MediaMessage" [("url", some (.text "u"))]) :=
  ⟨by decide, ((readUnion_accepts letters toldByChar (by decide)).1 1
    ⟨"é", Catalog.mediaMessage.read⟩ _ rfl).1 rfl⟩

end FlatUnion
