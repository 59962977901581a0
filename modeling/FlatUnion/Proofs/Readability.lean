import FlatUnion.Json.Writer
import FlatUnion.Proofs.Keeping
import FlatUnion.Read.Probe
import FlatUnion.Write.Record

/-!
# Who is told that a format is for people

A value may have two forms, one for people and one for programs, and then asks the writer or the
source it meets which one is meant. A format gives one answer everywhere : to each part of a source
that is read directly (`Shape.read_offered_answers`), and to each part of a value that is written
directly (`Datum.told`, `Datum.record_told`, `Datum.json_told`).

A flat union does not pass this answer on. Whatever the format says, the reader of the tag, that of
the payload and those of all its parts are told that it is for people
(`Shape.read_snapshot_answers`), and so is the payload itself when it is written. Only its keys and
its fields meet the writers of the format (`Datum.flatten_told`). So the answer is passed on in both
directions, and all that is written is asked for in the form in which it was written, exactly if the
format is one for people (`readability_passed_iff`).
-/

namespace FlatUnion

/-! ## What probes are told -/

mutual

/-- Whether every answer about the readability that a probe got is this one. -/
def Event.allAnswer (b : Bool) : Event → Bool
  | .readable x => x == b
  | .some inner | .newtype inner => inner.allAnswer b
  | .seq items _ => itemsAnswer b items
  | .map entries _ => entriesAnswer b entries
  | .enum variant _ content => variant.allAnswer b && contentAnswers b content
  | .scalar _ | .none | .unit | .datum _ => true

def itemsAnswer (b : Bool) : List Event → Bool
  | [] => true
  | e :: rest => e.allAnswer b && itemsAnswer b rest

def entriesAnswer (b : Bool) : List (Event × Event) → Bool
  | [] => true
  | (k, v) :: rest => k.allAnswer b && v.allAnswer b && entriesAnswer b rest

def contentAnswers (b : Bool) : Option Event → Bool
  | none => true
  | some e => e.allAnswer b

end

theorem itemsAnswer_iff {b : Bool} {es : List Event} :
    itemsAnswer b es ↔ ∀ e ∈ es, e.allAnswer b := by
  induction es with
  | nil => simp [itemsAnswer]
  | cons e rest ih => simp [itemsAnswer, ih]

theorem entriesAnswer_iff {b : Bool} {es : List (Event × Event)} :
    entriesAnswer b es ↔ ∀ e ∈ es, e.1.allAnswer b ∧ e.2.allAnswer b := by
  induction es with
  | nil => simp [entriesAnswer]
  | cons e rest ih => simp [entriesAnswer, ih]

mutual

/-- Who takes everything at once asks nothing about it. -/
theorem Event.allAnswer_ofOffer (b : Bool) : ∀ {o : Offer} {e : Event},
    Event.ofOffer o = .ok e → e.allAnswer b
  | .scalar _, _, h | .none, _, h | .unit, _, h | .enum _, _, h => by
    obtain rfl := Except.ok.inj h
    rfl
  | .some inner, _, h | .newtype inner, _, h => by
    obtain ⟨e, he, h⟩ := bind_eq_ok.1 h
    obtain rfl := pure_eq_ok.1 h
    rw [Event.allAnswer]
    exact Event.allAnswer_ofOffer b he
  | .seq items hint, _, h => by
    obtain ⟨es, hes, h⟩ := bind_eq_ok.1 h
    obtain rfl := pure_eq_ok.1 h
    exact itemsAnswer_ofOffer b hes
  | .map entries hint, _, h => by
    obtain ⟨es, hes, h⟩ := bind_eq_ok.1 h
    obtain rfl := pure_eq_ok.1 h
    exact entriesAnswer_ofOffer b hes

theorem itemsAnswer_ofOffer (b : Bool) : ∀ {os : List Offer} {es : List Event},
    eventsOfItems os = .ok es → itemsAnswer b es
  | [], _, h => by
    obtain rfl := Except.ok.inj h
    rfl
  | o :: rest, _, h => by
    obtain ⟨e, he, h⟩ := bind_eq_ok.1 h
    obtain ⟨es, hes, h⟩ := bind_eq_ok.1 h
    obtain rfl := pure_eq_ok.1 h
    exact Bool.and_eq_true_iff.2 ⟨Event.allAnswer_ofOffer b he, itemsAnswer_ofOffer b hes⟩

theorem entriesAnswer_ofOffer (b : Bool) :
    ∀ {os : List (Offer × Offer)} {es : List (Event × Event)},
    eventsOfEntries os = .ok es → entriesAnswer b es
  | [], _, h => by
    obtain rfl := Except.ok.inj h
    rfl
  | (k, v) :: rest, _, h => by
    obtain ⟨ek, hk, h⟩ := bind_eq_ok.1 h
    obtain ⟨ev, hv, h⟩ := bind_eq_ok.1 h
    obtain ⟨es, hes, h⟩ := bind_eq_ok.1 h
    obtain rfl := pure_eq_ok.1 h
    exact Bool.and_eq_true_iff.2
      ⟨Bool.and_eq_true_iff.2 ⟨Event.allAnswer_ofOffer b hk, Event.allAnswer_ofOffer b hv⟩,
        entriesAnswer_ofOffer b hes⟩

end

/-! ## Parts of a source -/

/-- The sources that a reader of a call is given. -/
def Call.parts {σ : Type} : Call σ → List σ
  | .some inner | .newtype inner => [inner]
  | .seq items _ => items
  | .map entries _ => entries.flatMap fun e => [e.1, e.2]
  | .enum variant content => variant :: content.toList
  | .scalar _ | .none | .unit | .refused _ => []

/-- A property that sources have with all their parts, and with it one answer about the
readability. -/
structure Uniform {σ : Type} [Source σ] (P : σ → Prop) (b : Bool) : Prop where
  readable : ∀ {s}, P s → Source.readable s = b
  parts : ∀ {r s a}, P s → Source.answer r s = .ok a → ∀ x ∈ a.call.parts, P x

/-- A snapshot calls itself one for people, and so do its parts. -/
theorem uniform_snapshot : Uniform (fun _ : Snapshot => True) true :=
  ⟨fun _ => rfl, fun _ _ _ _ => trivial⟩

/-- What is offered on its own says of all its parts what it says of itself. -/
theorem uniform_offered (b : Bool) : Uniform (fun s : Offered => s.readable = b) b where
  readable h := h
  parts := by
    rintro r ⟨o, x⟩ a rfl h
    obtain ⟨call, hcall, h⟩ := bind_eq_ok.1 h
    obtain rfl := pure_eq_ok.1 h
    cases o <;> simp only [Offer.call, Except.ok.injEq, reduceCtorEq] at hcall <;>
      subst hcall <;> simp +contextual [Call.parts]
    rintro a k v - (rfl | rfl) <;> rfl

section Parts

variable {σ α κ : Type}

/-- What was read of a sequence was read of its elements. -/
theorem mem_of_readItems {read : σ → Except Fault α} {x : α} : ∀ {items : List σ} {n : Option Nat}
    {done : Nat} {xs : List α}, (readItems read n done items).result = .ok xs → x ∈ xs →
      ∃ s ∈ items, read s = .ok x
  | [], n, done, xs, h, hx => by
    have h : (.ok [] : Except Fault (List α)) = .ok xs := by
      rcases n with _ | _ | n <;> exact h
    obtain rfl := Except.ok.inj h
    nomatch hx
  | s :: rest, some 0, done, xs, h, hx => by
    obtain rfl := Except.ok.inj h
    nomatch hx
  | s :: rest, none, done, xs, h, hx | s :: rest, some (n + 1), done, xs, h, hx => by
    simp only [readItems] at h
    cases hs : read s with
    | error f => simp [hs] at h
    | ok y =>
      rw [hs] at h
      obtain ⟨ys, hys, rfl⟩ := map_eq_ok.1 h
      obtain rfl | hx := List.mem_cons.1 hx
      · exact ⟨s, List.mem_cons_self, hs⟩
      · obtain ⟨s, hmem, hs⟩ := mem_of_readItems hys hx
        exact ⟨s, List.mem_cons_of_mem _ hmem, hs⟩

/-- What was read of a map was read of its entries. -/
theorem mem_of_readEntries {readKey : σ → Except Fault κ} {readValue : κ → σ → Except Fault α}
    {x : κ × α} : ∀ {entries : List (σ × σ)} {n : Option Nat} {done : Nat} {xs : List (κ × α)},
      (readEntries readKey readValue n done entries).result = .ok xs → x ∈ xs →
        ∃ e ∈ entries, readKey e.1 = .ok x.1 ∧ readValue x.1 e.2 = .ok x.2
  | [], n, done, xs, h, hx => by
    have h : (.ok [] : Except Fault (List (κ × α))) = .ok xs := by
      rcases n with _ | _ | n <;> exact h
    obtain rfl := Except.ok.inj h
    nomatch hx
  | e :: rest, some 0, done, xs, h, hx => by
    obtain rfl := Except.ok.inj h
    nomatch hx
  | (k, v) :: rest, none, done, xs, h, hx | (k, v) :: rest, some (n + 1), done, xs, h, hx => by
    simp only [readEntries] at h
    cases hk : readKey k with
    | error f => simp [hk] at h
    | ok key =>
      cases hv : readValue key v with
      | error f => simp [hk, hv] at h
      | ok value =>
        rw [hk] at h
        simp only [hv] at h
        obtain ⟨ys, hys, rfl⟩ := map_eq_ok.1 h
        obtain rfl | hx := List.mem_cons.1 hx
        · exact ⟨(k, v), List.mem_cons_self, hk, hv⟩
        · obtain ⟨e, hmem, he⟩ := mem_of_readEntries hys hx
          exact ⟨e, List.mem_cons_of_mem _ hmem, he⟩

end Parts

/-! ## Probing uniform sources -/

section Probing

variable {σ : Type} [Source σ] {P : σ → Prop} {b : Bool}

/-- A probe is answered the same everywhere, whether it asks itself or takes an answer that was
asked for otherwise. -/
structure Prober.Answered (P : σ → Prop) (b : Bool) (p : Prober σ) : Prop where
  read : ∀ {s e}, P s → p.read s = .ok e → e.allAnswer b
  look : ∀ {c e}, (∀ x ∈ c.parts, P x) → (p.look c).result = .ok e → e.allAnswer b

namespace Prober

theorem answered_whole : Answered P b (whole : Prober σ) where
  read _ h := Event.allAnswer_ofOffer b h
  look {c e} _ h := by
    have hoffer : ∀ {s : σ} {x : Event}, Event.ofOffer (Source.offer s) = .ok x → x.allAnswer b :=
      fun h => Event.allAnswer_ofOffer b h
    cases c with
    | scalar | none | unit =>
      obtain rfl := Except.ok.inj h
      rfl
    | some s | newtype s =>
      obtain ⟨x, hx, rfl⟩ := map_eq_ok.1 h
      rw [Event.allAnswer]
      exact hoffer hx
    | enum variant content =>
      obtain ⟨x, hx, rfl⟩ := map_eq_ok.1 h
      exact Bool.and_eq_true_iff.2 ⟨hoffer hx, rfl⟩
    | seq items hint =>
      obtain ⟨xs, hxs, rfl⟩ := map_eq_ok.1 h
      refine itemsAnswer_iff.2 fun x hx => ?_
      obtain ⟨s, -, hs⟩ := mem_of_readItems hxs hx
      exact hoffer hs
    | map entries hint =>
      obtain ⟨xs, hxs, rfl⟩ := map_eq_ok.1 h
      refine entriesAnswer_iff.2 fun x hx => ?_
      obtain ⟨s, -, hk, hv⟩ := mem_of_readEntries hxs hx
      exact ⟨hoffer hk, hoffer hv⟩
    | refused found => nomatch h

variable {key child : Prober σ} {named : List (String × Prober σ)}

omit [Source σ] in
/-- The probe of a value is one of those that a map was given. -/
theorem answered_lookup (hchild : child.Answered P b) (hnamed : ∀ p ∈ named, p.2.Answered P b)
    (label : Option String) :
    ((label.bind fun name => named.lookup name).getD child).Answered P b := by
  cases h : label.bind fun name => named.lookup name with
  | none => exact hchild
  | some p =>
    obtain ⟨name, -, hp⟩ := Option.bind_eq_some_iff.1 h
    obtain ⟨before, behind, rfl, -⟩ := List.lookup_eq_some_iff.1 hp
    exact hnamed (name, p) (by simp)

/-- The content of a variant is answered like what it is a part of. -/
theorem answered_content (hU : Uniform P b) (hchild : child.Answered P b) {access : Access}
    {content : Option σ} {x : Option Event} (hc : ∀ s ∈ content.toList, P s)
    (h : child.content access content = .ok x) : contentAnswers b x := by
  cases content with
  | none =>
    cases access <;> simp only [Prober.content, Except.ok.injEq, reduceCtorEq] at h
    subst h
    rfl
  | some s =>
    have hs : P s := hc s (by simp)
    have hlook : ∀ {r : Request} {e : Event}, consult r s child.look = .ok e → e.allAnswer b := by
      intro r e h
      obtain ⟨a, ha, hres, -⟩ := consult_eq_ok.1 h
      exact hchild.look (hU.parts hs ha) hres
    cases access <;> obtain ⟨e, he, h⟩ := bind_eq_ok.1 h <;> obtain rfl := pure_eq_ok.1 h
    · rfl
    · exact hchild.read hs he
    · exact hlook he
    · exact hlook he

/-- An answer is taken by probes of its parts, each of which is answered the same. -/
theorem answered_lookWith (hU : Uniform P b) (hkey : key.Answered P b) (hchild : child.Answered P b)
    (hnamed : ∀ p ∈ named, p.2.Answered P b) (take : Option Nat) (access : Access) {c : Call σ}
    {e : Event} (hc : ∀ x ∈ c.parts, P x)
    (h : (lookWith key child named take access c).result = .ok e) : e.allAnswer b := by
  cases c with
  | scalar | none | unit =>
    obtain rfl := Except.ok.inj h
    rfl
  | some s | newtype s =>
    obtain ⟨x, hx, rfl⟩ := map_eq_ok.1 h
    rw [Event.allAnswer]
    exact hchild.read (hc s (by simp [Call.parts])) hx
  | seq items hint =>
    obtain ⟨xs, hxs, rfl⟩ := map_eq_ok.1 h
    refine itemsAnswer_iff.2 fun x hx => ?_
    obtain ⟨s, hs, hread⟩ := mem_of_readItems hxs hx
    exact hchild.read (hc s hs) hread
  | map entries hint =>
    obtain ⟨xs, hxs, rfl⟩ := map_eq_ok.1 h
    refine entriesAnswer_iff.2 fun x hx => ?_
    obtain ⟨s, hs, hk, hv⟩ := mem_of_readEntries hxs hx
    have hparts : P s.1 ∧ P s.2 :=
      ⟨hc _ (List.mem_flatMap.2 ⟨s, hs, by simp⟩), hc _ (List.mem_flatMap.2 ⟨s, hs, by simp⟩)⟩
    exact ⟨hkey.read hparts.1 hk, (answered_lookup hchild hnamed x.1.label).read hparts.2 hv⟩
  | enum variant content =>
    obtain ⟨v, hv, h⟩ := bind_eq_ok.1 h
    obtain ⟨x, hx, h⟩ := bind_eq_ok.1 h
    obtain rfl := pure_eq_ok.1 h
    exact Bool.and_eq_true_iff.2
      ⟨hkey.read (hc variant (by simp [Call.parts])) hv,
        answered_content hU hchild (fun s hs => hc s (List.mem_cons_of_mem _ hs)) hx⟩
  | refused found => nomatch h

end Prober

mutual

theorem Shape.answered (hU : Uniform P b) : ∀ shape : Shape, (shape.prober (σ := σ)).Answered P b
  | .whole => Prober.answered_whole
  | .readable => by
    refine ⟨fun {s e} hs h => ?_, Prober.answered_whole.look⟩
    obtain ⟨-, -, h⟩ := bind_eq_ok.1 h
    obtain rfl := pure_eq_ok.1 h
    simp [Event.allAnswer, hU.readable hs]
  | .typed t => by
    refine ⟨fun {s e} _ h => ?_, Prober.answered_whole.look⟩
    obtain ⟨d, -, rfl⟩ := map_eq_ok.1 h
    rfl
  | .probe request key child named take access => by
    have hlook := @Prober.answered_lookWith σ _ P b _ _ _ hU (Shape.answered hU key)
      (Shape.answered hU child) (answered_named hU named) take access
    refine ⟨fun {s e} hs h => ?_, fun hc h => hlook hc h⟩
    obtain ⟨a, ha, hres, -⟩ := consult_eq_ok.1 h
    exact hlook (hU.parts hs ha) hres

theorem answered_named (hU : Uniform P b) : ∀ shapes : List (String × Shape),
    ∀ p ∈ (namedProbers shapes : List (String × Prober σ)), p.2.Answered P b
  | [], p, hp => nomatch hp
  | (name, shape) :: rest, p, hp => by
    obtain rfl | hp := List.mem_cons.1 hp
    · exact Shape.answered hU shape
    · exact answered_named hU rest p hp

end

end Probing

/-- What is offered on its own answers every probe as it is asked to. -/
theorem Shape.read_offered_answers (shape : Shape) {o : Offer} {b : Bool} {e : Event}
    (h : shape.read (⟨o, b⟩ : Offered) = .ok e) : e.allAnswer b :=
  (shape.answered (uniform_offered b)).read rfl h

/-- What was kept answers every probe that it is for people. -/
theorem Shape.read_snapshot_answers (shape : Shape) {c : Snapshot} {e : Event}
    (h : shape.read c = .ok e) : e.allAnswer true :=
  (shape.answered uniform_snapshot).read trivial h

/-! ## What writers are asked -/

mutual

/-- A datum whose parts have all been told whether the format is for people, and report it. -/
def Datum.told (b : Bool) : Datum → Datum
  | .readability => .readabilityReport b
  | .some inner => .some (inner.told b)
  | .newtypeStruct name inner => .newtypeStruct name (inner.told b)
  | .newtypeVariant v inner => .newtypeVariant v (inner.told b)
  | .seq items => .seq (toldList b items)
  | .tuple items => .tuple (toldList b items)
  | .tupleStruct name items => .tupleStruct name (toldList b items)
  | .tupleVariant v items => .tupleVariant v (toldList b items)
  | .map items => .map (toldItems b items)
  | .struct name fields => .struct name (toldFields b fields)
  | .structVariant v fields => .structVariant v (toldFields b fields)
  | d => d

def toldList (b : Bool) : List Datum → List Datum
  | [] => []
  | d :: rest => d.told b :: toldList b rest

def toldFields (b : Bool) : List (String × Option Datum) → List (String × Option Datum)
  | [] => []
  | (name, none) :: rest => (name, none) :: toldFields b rest
  | (name, some d) :: rest => (name, some (d.told b)) :: toldFields b rest

/-- A call on a map whose key and value have been told. -/
def Item.told (b : Bool) : Item Datum → Item Datum
  | .entry k v => .entry (k.told b) (v.told b)
  | .key k => .key (k.told b)
  | .value v => .value (v.told b)
  | .fail fault => .fail fault

def toldItems (b : Bool) : List (Item Datum) → List (Item Datum)
  | [] => []
  | i :: rest => i.told b :: toldItems b rest

end

@[simp] theorem Item.hasKey_told (b : Bool) (i : Item Datum) : (i.told b).hasKey = i.hasKey := by
  cases i <;> rfl

mutual

/-- The recording writer tells every part of a datum that it is not for people. -/
theorem Datum.record_told : ∀ d : Datum, (d.told false).record = d.record
  | .bool _ | .int _ _ | .f32 _ | .f64 _ | .char _ | .text _ | .bytes _ | .display _
  | .readability | .none | .unit | .unitStruct _ | .unitVariant _ | .fail _ => rfl
  | .some inner | .newtypeStruct _ inner | .newtypeVariant _ inner => by
    simp only [Datum.told, Datum.record, inner.record_told]
  | .seq items | .tuple items | .tupleStruct _ items | .tupleVariant _ items => by
    simp only [Datum.told, Datum.record, recordList_told items]
  | .map items => by simp only [Datum.told, Datum.record, recordItems_told items]
  | .struct _ fields | .structVariant _ fields => by
    simp only [Datum.told, Datum.record, recordFields_told fields]

theorem recordList_told : ∀ items : List Datum, recordList (toldList false items) = recordList items
  | [] => rfl
  | d :: rest => by simp only [toldList, recordList, d.record_told, recordList_told rest]

theorem recordFields_told : ∀ fields : List (String × Option Datum),
    recordFields (toldFields false fields) = recordFields fields
  | [] => rfl
  | (_, none) :: rest => recordFields_told rest
  | (_, some d) :: rest => by
    simp only [toldFields, recordFields, d.record_told, recordFields_told rest]

theorem recordItem_told : ∀ i : Item Datum, recordItem (i.told false) = recordItem i
  | .entry k v => by simp only [Item.told, recordItem, k.record_told, v.record_told]
  | .key k => by simp only [Item.told, recordItem, k.record_told]
  | .value v => by simp only [Item.told, recordItem, v.record_told]
  | .fail _ => rfl

theorem recordItems_told : ∀ items : List (Item Datum),
    recordItems (toldItems false items) = recordItems items
  | [] => rfl
  | i :: rest => by simp only [toldItems, recordItems, recordItem_told i, recordItems_told rest]

end

/-- As a key nothing is asked that could be written. -/
theorem Datum.jsonKey_told (b : Bool) : ∀ d : Datum, (d.told b).jsonKey = d.jsonKey
  | .bool _ | .int _ _ | .f32 _ | .f64 _ | .char _ | .text _ | .bytes _ | .display _
  | .readability | .none | .unit | .unitStruct _ | .unitVariant _ | .fail _
  | .newtypeVariant _ _ | .seq _ | .tuple _ | .tupleStruct _ _ | .tupleVariant _ _ | .map _
  | .struct _ _ | .structVariant _ _ => rfl
  | .some inner | .newtypeStruct _ inner => inner.jsonKey_told b

mutual

/-- The writer of JSON tells every part of a datum that it is for people. -/
theorem Datum.json_told : ∀ d : Datum, (d.told true).json = d.json
  | .bool _ | .int _ _ | .f32 _ | .f64 _ | .char _ | .text _ | .bytes _ | .display _
  | .none | .unit | .unitStruct _ | .unitVariant _ | .fail _ => rfl
  | .readability => rfl
  | .some inner | .newtypeStruct _ inner | .newtypeVariant _ inner => by
    simp only [Datum.told, Datum.json, inner.json_told]
  | .seq items | .tuple items | .tupleStruct _ items | .tupleVariant _ items => by
    simp only [Datum.told, Datum.json, jsonList_told true items]
  | .map items => by simp only [Datum.told, Datum.json, jsonItems_told true items]
  | .struct _ fields | .structVariant _ fields => by
    simp only [Datum.told, Datum.json, jsonFields_told true fields]

theorem jsonList_told (first : Bool) : ∀ items : List Datum,
    jsonList first (toldList true items) = jsonList first items
  | [] => rfl
  | d :: rest => by simp only [toldList, jsonList, d.json_told, jsonList_told false rest]

theorem jsonFields_told (first : Bool) : ∀ fields : List (String × Option Datum),
    jsonFields first (toldFields true fields) = jsonFields first fields
  | [] => rfl
  | (_, none) :: rest => jsonFields_told first rest
  | (_, some d) :: rest => by
    simp only [toldFields, jsonFields, d.json_told, jsonFields_told false rest]

theorem jsonItem_told (first : Bool) : ∀ i : Item Datum,
    jsonItem first (i.told true) = jsonItem first i
  | .entry k v => by
    simp only [Item.told, jsonItem, Datum.jsonKeyed, k.jsonKey_told, v.json_told]
  | .key k => by simp only [Item.told, jsonItem, Datum.jsonKeyed, k.jsonKey_told]
  | .value v => by simp only [Item.told, jsonItem, v.json_told]
  | .fail _ => rfl

theorem jsonItems_told (first : Bool) : ∀ items : List (Item Datum),
    jsonItems first (toldItems true items) = jsonItems first items
  | [] => rfl
  | i :: rest => by
    simp only [toldItems, jsonItems, jsonItem_told first i, Item.hasKey_told, jsonItems_told _ rest]

end

/-! ## Flattening -/

mutual

/-- Whether a part of a datum asks. -/
def Datum.asks : Datum → Bool
  | .readability => true
  | .some inner | .newtypeStruct _ inner | .newtypeVariant _ inner => inner.asks
  | .seq items | .tuple items | .tupleStruct _ items | .tupleVariant _ items => listAsks items
  | .map items => itemsAsk items
  | .struct _ fields | .structVariant _ fields => fieldsAsk fields
  | _ => false

def listAsks : List Datum → Bool
  | [] => false
  | d :: rest => d.asks || listAsks rest

def fieldsAsk : List (String × Option Datum) → Bool
  | [] => false
  | (_, none) :: rest => fieldsAsk rest
  | (_, some d) :: rest => d.asks || fieldsAsk rest

/-- Whether a key or a value of a call asks. -/
def Item.asks : Item Datum → Bool
  | .entry k v => k.asks || v.asks
  | .key k => k.asks
  | .value v => v.asks
  | .fail _ => false

def itemsAsk : List (Item Datum) → Bool
  | [] => false
  | i :: rest => i.asks || itemsAsk rest

end

mutual

/-- What asks shows the answer it gets. -/
theorem Datum.told_eq_iff : ∀ d : Datum, d.told false = d.told true ↔ d.asks = false
  | .bool _ | .int _ _ | .f32 _ | .f64 _ | .char _ | .text _ | .bytes _ | .display _
  | .none | .unit | .unitStruct _ | .unitVariant _ | .fail _ => by simp [Datum.told, Datum.asks]
  | .readability => by simp [Datum.told, Datum.asks, Datum.readabilityReport]
  | .some inner | .newtypeStruct _ inner | .newtypeVariant _ inner => by
    simp [Datum.told, Datum.asks, inner.told_eq_iff]
  | .seq items | .tuple items | .tupleStruct _ items | .tupleVariant _ items => by
    simp [Datum.told, Datum.asks, toldList_eq_iff items]
  | .map items => by simp [Datum.told, Datum.asks, toldItems_eq_iff items]
  | .struct _ fields | .structVariant _ fields => by
    simp [Datum.told, Datum.asks, toldFields_eq_iff fields]

theorem toldList_eq_iff : ∀ items : List Datum,
    toldList false items = toldList true items ↔ listAsks items = false
  | [] => by simp [toldList, listAsks]
  | d :: rest => by simp [toldList, listAsks, d.told_eq_iff, toldList_eq_iff rest]

theorem toldFields_eq_iff : ∀ fields : List (String × Option Datum),
    toldFields false fields = toldFields true fields ↔ fieldsAsk fields = false
  | [] => by simp [toldFields, fieldsAsk]
  | (_, none) :: rest => by simp [toldFields, fieldsAsk, toldFields_eq_iff rest]
  | (_, some d) :: rest => by
    simp [toldFields, fieldsAsk, d.told_eq_iff, toldFields_eq_iff rest]

theorem Item.told_eq_iff : ∀ i : Item Datum, i.told false = i.told true ↔ i.asks = false
  | .entry k v => by simp [Item.told, Item.asks, k.told_eq_iff, v.told_eq_iff]
  | .key k => by simp [Item.told, Item.asks, k.told_eq_iff]
  | .value v => by simp [Item.told, Item.asks, v.told_eq_iff]
  | .fail _ => by simp [Item.told, Item.asks]

theorem toldItems_eq_iff : ∀ items : List (Item Datum),
    toldItems false items = toldItems true items ↔ itemsAsk items = false
  | [] => by simp [toldItems, itemsAsk]
  | i :: rest => by simp [toldItems, itemsAsk, i.told_eq_iff, toldItems_eq_iff rest]

end

/-- Whether a payload asks itself, not only in its parts. -/
def Datum.asksItself : Datum → Bool
  | .readability => true
  | .some inner | .newtypeStruct _ inner => inner.asksItself
  | _ => false

theorem fieldItems_told (b : Bool) : ∀ fields : List (String × Option Datum),
    fieldItems (toldFields b fields) = toldItems b (fieldItems fields)
  | [] => rfl
  | (_, none) :: rest => fieldItems_told b rest
  | (_, some d) :: rest => by
    rw [toldFields, fieldItems, fieldItems_told b rest, fieldItems, toldItems]
    rfl

/-- The calls that a payload makes on a map, each told by the format, are those of a payload that
has been told : by the format, but if the payload asks itself, that it is for people. -/
theorem Datum.flatten_told (b : Bool) : ∀ d : Datum,
    toldItems b d.flatten = (d.told (d.asksItself || b)).flatten
  | .some inner | .newtypeStruct _ inner => inner.flatten_told b
  | .struct _ fields => (fieldItems_told b fields).symm
  | .map _ | .bool _ | .int _ _ | .f32 _ | .f64 _ | .char _ | .text _ | .bytes _ | .display _
  | .readability | .none | .unit | .unitStruct _ | .unitVariant _ | .fail _
  | .newtypeVariant _ _ | .seq _ | .tuple _ | .tupleStruct _ _ | .tupleVariant _ _
  | .structVariant _ _ => rfl

/-! ## Both directions -/

/-- Whoever reads the tag or the payload of a source of some format, or a part of them, is given one
answer. -/
def ReadersTold (format answer : Bool) : Prop :=
  ∀ (o : Offer) (flat : Flat), Flat.read (⟨o, format⟩ : Offered) = .ok flat →
    ∀ (shape : Shape) (e : Event),
      (flat.readPayload shape.read = .ok e ∨ ∃ field, flat.readTag field shape.read = .ok e) →
        e.allAnswer answer

/-- Readers are told that the format is for people. -/
theorem readersTold_true (format : Bool) : ReadersTold format true := by
  rintro o flat - shape e (h | ⟨field, h⟩)
  · exact shape.read_snapshot_answers h
  · rw [Flat.readTag] at h
    split at h
    · nomatch h
    · exact shape.read_snapshot_answers h

/-- A map that holds nothing but a tag. -/
def tagOnly : Offer :=
  .map [(.scalar (.text .passing tagField), .scalar (.text .passing "a"))] none

theorem readersTold_iff (format : Bool) : ReadersTold format format ↔ format = true := by
  constructor
  · intro h
    have htold := h tagOnly ⟨[(.text tagField, .text "a")]⟩ rfl .readable (.readable true)
      (.inl rfl)
    simpa [Event.allAnswer, eq_comm] using htold
  · rintro rfl
    exact readersTold_true true

/-- The recording writer says of itself that it is not for people, the one of JSON that it is, and
both say so to all parts of a datum. A union passes neither on : of whatever format a union is read,
the readers of its tag, of its payload and of their parts are told that it is for people, and so is
a payload that asks when it is written. Only the parts of the payload meet what the format says.

So both directions pass the answer on exactly if the format is for people, and otherwise what is
written is asked for in another form exactly if a part of the payload asks. -/
theorem readability_passed_iff (format : Bool) :
    (∀ d : Datum, (d.told false).record = d.record ∧ (d.told true).json = d.json) ∧
    (∀ (shape : Shape) (o : Offer) (e : Event),
      shape.read (⟨o, format⟩ : Offered) = .ok e → e.allAnswer format) ∧
    ReadersTold format true ∧ (ReadersTold format format ↔ format = true) ∧
    (∀ d : Datum, toldItems format d.flatten = (d.told (d.asksItself || format)).flatten) ∧
    ((∀ d : Datum, toldItems format d.flatten = (d.told format).flatten) ↔ format = true) ∧
    ∀ d : Datum, toldItems format d.flatten = toldItems true d.flatten ↔
      format = true ∨ itemsAsk d.flatten = false := by
  refine ⟨fun d => ⟨d.record_told, d.json_told⟩, fun shape _ _ h => shape.read_offered_answers h,
    readersTold_true format, readersTold_iff format, Datum.flatten_told format, ⟨fun h => ?_, ?_⟩,
    fun d => ?_⟩
  · have hself := h .readability
    simpa [Datum.flatten, Datum.told, toldItems, Item.told, Datum.readabilityReport, fieldItems,
      eq_comm] using hself
  · rintro rfl d
    rw [Datum.flatten_told, Bool.or_true]
  · cases format
    · simp [toldItems_eq_iff]
    · simp

/-- A payload with a field that asks. -/
def stamped : Datum := .struct "Stamped" [("at", some .readability)]

/-- The union of the payload as it is written in a format that is not for people. -/
def stampedEntries : List (Offer × Offer) :=
  [(.scalar (.text .owned tagField), .scalar (.text .owned "a")),
   (.scalar (.text .owned "at"), .map [(.scalar (.text .owned "hr"), .scalar (.bool false))] none)]

/-- A field is written in the form for programs, and asked for in the one for people. -/
theorem stamped_asked_otherwise :
    (Datum.union "a" stamped).record =
        .ok (.ofEntries [(.text tagField, .text "a"), (.text "at", .readabilityReport false)]) ∧
      ∃ flat, Flat.read (⟨.map stampedEntries none, false⟩ : Offered) = .ok flat ∧
        flat.readPayload (Shape.probe .any .whole .readable [] none .unit).read =
          .ok (.map [(.scalar (.text .owned tagField), .readable true),
            (.scalar (.text .owned "at"), .readable true)] (some 2)) :=
  ⟨rfl, _, rfl, rfl⟩

/-- A direct reader of the same map is told that it is for programs. -/
theorem readability_passed_iff_stamped :
    (Event.map [(.scalar (.text .owned tagField), .readable false),
      (.scalar (.text .owned "at"), .readable false)] none).allAnswer false ∧
    ¬ ReadersTold false false ∧
    toldItems false stamped.flatten ≠ toldItems true stamped.flatten :=
  have h := (readability_passed_iff false).2
  ⟨h.1 (.probe .any .whole .readable [] none .unit) (.map stampedEntries none) _ rfl,
    fun hread => absurd (h.2.2.1.1 hread) (by decide),
    fun heq => absurd ((h.2.2.2.2.2 stamped).1 heq) (by decide)⟩

end FlatUnion
