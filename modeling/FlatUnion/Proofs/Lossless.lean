import FlatUnion.Proofs.Keeping
import FlatUnion.Read.Probe

/-!
# Keeping loses nothing

A map without enums, failures and repeated texts among its keys is kept, and a reader of what was
kept sees what a reader of the map itself sees : the same values in the same order and nesting.
Only texts and bytes are the reader's own now, and sizes are announced as they are (`Event.kept`).

The reader asks for nothing in particular and takes everything, at every level
(`Shape.levels`). Down to any level it sees what the source offers as a whole
(`Shape.read_levels_offered`, `Shape.read_levels_snapshot`), so the comparison is one of whole
offers, by recursion on the offer that is kept (`Snapshot.event_toOffer`).
-/

namespace FlatUnion

/-! ## What changes -/

/-- A scalar whose text or bytes are the reader's own. -/
def Scalar.owned : Scalar → Scalar
  | .text _ s => .text .owned s
  | .bytes _ bs => .bytes .owned bs
  | s => s

mutual

/-- What is seen of a value that was kept, by what was seen of it before : texts and bytes as the
reader's own, and sizes as they are. -/
def Event.kept : Event → Event
  | .scalar s => .scalar s.owned
  | .some inner => .some inner.kept
  | .newtype inner => .newtype inner.kept
  | .seq items _ => .seq (keptItems items) (Option.some items.length)
  | .map entries _ => .map (keptEntries entries) (Option.some entries.length)
  | e => e

def keptItems : List Event → List Event
  | [] => []
  | e :: rest => e.kept :: keptItems rest

def keptEntries : List (Event × Event) → List (Event × Event)
  | [] => []
  | (k, v) :: rest => (k.kept, v.kept) :: keptEntries rest

end

/-! ## Whole offers -/

/-- An entry is seen as another : its key as the key, and its value as the value. -/
def Event.Sees (o : Offer × Offer) (e : Event × Event) : Prop :=
  Event.ofOffer o.1 = .ok e.1 ∧ Event.ofOffer o.2 = .ok e.2

theorem eventsOfItems_eq_ok : ∀ {items : List Offer} {es : List Event},
    eventsOfItems items = .ok es ↔ List.Forall₂ (fun o e => Event.ofOffer o = .ok e) items es
  | [], es => by simp [eventsOfItems, eq_comm]
  | x :: rest, es => by
    simp only [eventsOfItems, bind_eq_ok, pure_eq_ok, eventsOfItems_eq_ok,
      List.forall₂_cons_left_iff]
    constructor
    · rintro ⟨e, he, es, hes, rfl⟩
      exact ⟨e, es, he, hes, rfl⟩
    · rintro ⟨e, es, he, hes, rfl⟩
      exact ⟨e, he, es, hes, rfl⟩

theorem eventsOfEntries_eq_ok : ∀ {entries : List (Offer × Offer)} {es : List (Event × Event)},
    eventsOfEntries entries = .ok es ↔ List.Forall₂ Event.Sees entries es
  | [], es => by simp [eventsOfEntries, eq_comm]
  | (k, v) :: rest, es => by
    simp only [eventsOfEntries, bind_eq_ok, pure_eq_ok, eventsOfEntries_eq_ok,
      List.forall₂_cons_left_iff]
    constructor
    · rintro ⟨key, hk, value, hv, es, hes, rfl⟩
      exact ⟨(key, value), es, ⟨hk, hv⟩, hes, rfl⟩
    · rintro ⟨⟨key, value⟩, es, ⟨hk, hv⟩, hes, rfl⟩
      exact ⟨key, hk, value, hv, es, hes, rfl⟩

namespace Snapshot

theorem itemsToOffer_eq_map (items : List Snapshot) :
    itemsToOffer items = items.map toOffer := by
  induction items with
  | nil => rfl
  | cons x rest ih => rw [itemsToOffer, ih, List.map_cons]

theorem entriesToOffer_eq_map (entries : List (Snapshot × Snapshot)) :
    entriesToOffer entries = entries.map fun e => (e.1.toOffer, e.2.toOffer) := by
  induction entries with
  | nil => rfl
  | cons e rest ih => rw [entriesToOffer, ih, List.map_cons]

mutual

/-- What can be kept can be seen, and is seen again when it is offered from what was kept. -/
theorem event_toOffer : ∀ {o : Offer} {c : Snapshot}, ofOffer o = .ok c →
    ∃ e, Event.ofOffer o = .ok e ∧ Event.ofOffer c.toOffer = .ok e.kept
  | .scalar s, c, h => by
    obtain rfl := Except.ok.inj h
    refine ⟨.scalar s, rfl, ?_⟩
    cases s <;> rfl
  | .none, c, h | .unit, c, h => by
    obtain rfl := Except.ok.inj h
    exact ⟨_, rfl, rfl⟩
  | .some inner, c, h | .newtype inner, c, h => by
    obtain ⟨x, hx, h⟩ := bind_eq_ok.1 h
    obtain rfl := pure_eq_ok.1 h
    obtain ⟨e, he, hk⟩ := event_toOffer hx
    exact ⟨_, bind_eq_ok.2 ⟨e, he, rfl⟩, bind_eq_ok.2 ⟨e.kept, hk, rfl⟩⟩
  | .seq items hint, c, h => by
    obtain ⟨cs, hcs, h⟩ := bind_eq_ok.1 h
    obtain rfl := pure_eq_ok.1 h
    obtain ⟨es, hes, hk, hl⟩ := events_itemsToOffer hcs
    refine ⟨_, bind_eq_ok.2 ⟨es, hes, rfl⟩, bind_eq_ok.2 ⟨keptItems es, hk, ?_⟩⟩
    rw [hl, Event.kept, pure_eq_ok]
  | .map entries hint, c, h => by
    obtain ⟨cs, hcs, h⟩ := bind_eq_ok.1 h
    obtain rfl := pure_eq_ok.1 h
    obtain ⟨es, hes, hk, hl⟩ := events_entriesToOffer hcs
    refine ⟨_, bind_eq_ok.2 ⟨es, hes, rfl⟩, bind_eq_ok.2 ⟨keptEntries es, hk, ?_⟩⟩
    rw [hl, Event.kept, pure_eq_ok]

theorem events_itemsToOffer : ∀ {os : List Offer} {cs : List Snapshot}, ofItems os = .ok cs →
    ∃ es, eventsOfItems os = .ok es ∧ eventsOfItems (itemsToOffer cs) = .ok (keptItems es) ∧
      cs.length = es.length
  | [], cs, h => by
    obtain rfl := Except.ok.inj h
    exact ⟨[], rfl, rfl, rfl⟩
  | x :: rest, cs, h => by
    obtain ⟨c, hc, h⟩ := bind_eq_ok.1 h
    obtain ⟨cs, hcs, h⟩ := bind_eq_ok.1 h
    obtain rfl := pure_eq_ok.1 h
    obtain ⟨e, he, hk⟩ := event_toOffer hc
    obtain ⟨es, hes, hks, hl⟩ := events_itemsToOffer hcs
    exact ⟨e :: es, bind_eq_ok.2 ⟨e, he, bind_eq_ok.2 ⟨es, hes, rfl⟩⟩,
      bind_eq_ok.2 ⟨_, hk, bind_eq_ok.2 ⟨_, hks, rfl⟩⟩, by simp [hl]⟩

theorem events_entriesToOffer : ∀ {os : List (Offer × Offer)} {cs : List (Snapshot × Snapshot)},
    ofEntries os = .ok cs →
      ∃ es, eventsOfEntries os = .ok es ∧
        eventsOfEntries (entriesToOffer cs) = .ok (keptEntries es) ∧ cs.length = es.length
  | [], cs, h => by
    obtain rfl := Except.ok.inj h
    exact ⟨[], rfl, rfl, rfl⟩
  | (k, v) :: rest, cs, h => by
    obtain ⟨key, hkey, h⟩ := bind_eq_ok.1 h
    obtain ⟨value, hvalue, h⟩ := bind_eq_ok.1 h
    obtain ⟨cs, hcs, h⟩ := bind_eq_ok.1 h
    obtain rfl := pure_eq_ok.1 h
    obtain ⟨ek, hek, hkk⟩ := event_toOffer hkey
    obtain ⟨ev, hev, hkv⟩ := event_toOffer hvalue
    obtain ⟨es, hes, hks, hl⟩ := events_entriesToOffer hcs
    exact ⟨(ek, ev) :: es,
      bind_eq_ok.2 ⟨ek, hek, bind_eq_ok.2 ⟨ev, hev, bind_eq_ok.2 ⟨es, hes, rfl⟩⟩⟩,
      bind_eq_ok.2 ⟨_, hkk, bind_eq_ok.2 ⟨_, hkv, bind_eq_ok.2 ⟨_, hks, rfl⟩⟩⟩, by simp [hl]⟩

end

end Snapshot

/-! ## Level by level -/

namespace Shape

/-- Asks for nothing in particular and takes everything, level by level, and what lies deeper than
the levels as a whole. -/
def levels : Nat → Shape
  | 0 => .whole
  | n + 1 => .probe .any (levels n) (levels n) [] none .unit

variable {σ : Type} [Source σ]

theorem read_levels_succ (n : Nat) (s : σ) :
    (levels (n + 1)).read s =
      consult .any s (Prober.lookWith (levels n).prober (levels n).prober [] none .unit) :=
  rfl

/-- All elements are seen if each is, and the reader is then behind the last one. -/
theorem look_seq {n : Nat} {items : List σ} (hint : Option Nat) {es : List Event}
    (h : List.Forall₂ (fun s e => (levels n).read s = .ok e) items es) :
    Prober.lookWith (levels n).prober (levels n).prober [] none .unit (.seq items hint) =
      ⟨{ whole := items.length }, .ok (.seq es hint)⟩ := by
  rw [Prober.lookWith, Outcome.map_eq_mk_ok]
  exact ⟨es, readItems_eq_ok.2 ⟨by rw [Nat.zero_add], h⟩, rfl⟩

theorem look_map {n : Nat} {entries : List (σ × σ)} (hint : Option Nat) {es : List (Event × Event)}
    (h : List.Forall₂ (fun s e => (levels n).read s.1 = .ok e.1 ∧ (levels n).read s.2 = .ok e.2)
      entries es) :
    Prober.lookWith (levels n).prober (levels n).prober [] none .unit (.map entries hint) =
      ⟨{ whole := entries.length }, .ok (.map es hint)⟩ := by
  rw [Prober.lookWith, Outcome.map_eq_mk_ok]
  refine ⟨es, readEntries_eq_ok.2 ⟨by rw [Nat.zero_add], h.imp fun s e hs => ⟨hs.1, ?_⟩⟩, rfl⟩
  cases e.1.label <;> exact hs.2

/-- Level by level a source on its own shows what it offers. -/
theorem read_levels_offered : ∀ (n : Nat) {o : Offer} {b : Bool} {e : Event},
    Event.ofOffer o = .ok e → (levels n).read (⟨o, b⟩ : Offered) = .ok e
  | 0, o, b, e, h => h
  | n + 1, o, b, e, h => by
    rw [read_levels_succ]
    cases o with
    | scalar s | none | unit =>
      obtain rfl := Except.ok.inj h
      rfl
    | some inner | newtype inner =>
      obtain ⟨x, hx, h⟩ := bind_eq_ok.1 h
      obtain rfl := pure_eq_ok.1 h
      have hx := read_levels_offered n (b := b) hx
      exact consult_eq_ok.2 ⟨_, rfl, map_eq_ok.2 ⟨x, hx, rfl⟩, rfl⟩
    | seq items hint =>
      obtain ⟨es, hes, h⟩ := bind_eq_ok.1 h
      obtain rfl := pure_eq_ok.1 h
      have hes : List.Forall₂ (fun s e => (levels n).read s = .ok e)
          (items.map fun o => (⟨o, b⟩ : Offered)) es := by
        rw [List.forall₂_map_left_iff]
        exact (eventsOfItems_eq_ok.1 hes).imp fun o e he => read_levels_offered n he
      exact consult_eq_ok.2 ⟨_, rfl, by rw [look_seq hint hes], rfl⟩
    | map entries hint =>
      obtain ⟨es, hes, h⟩ := bind_eq_ok.1 h
      obtain rfl := pure_eq_ok.1 h
      have hes : List.Forall₂
          (fun s e => (levels n).read s.1 = .ok e.1 ∧ (levels n).read s.2 = .ok e.2)
          (entries.map fun o => ((⟨o.1, b⟩, ⟨o.2, b⟩) : Offered × Offered)) es := by
        rw [List.forall₂_map_left_iff]
        exact (eventsOfEntries_eq_ok.1 hes).imp fun o e he =>
          ⟨read_levels_offered n he.1, read_levels_offered n he.2⟩
      exact consult_eq_ok.2 ⟨_, rfl, by rw [look_map hint hes], rfl⟩
    | enum name =>
      obtain rfl := Except.ok.inj h
      have hv := read_levels_offered n (o := .scalar (.text .passing name)) (b := b) rfl
      exact consult_eq_ok.2 ⟨_, rfl, bind_eq_ok.2 ⟨_, hv, rfl⟩, rfl⟩
    | fail fault => simp [Event.ofOffer] at h

/-- Level by level a snapshot shows what it offers, and nothing of it is left. -/
theorem read_levels_snapshot : ∀ (n : Nat) {c : Snapshot} {e : Event},
    Event.ofOffer c.toOffer = .ok e → (levels n).read c = .ok e
  | 0, c, e, h => h
  | n + 1, c, e, h => by
    rw [read_levels_succ]
    cases c with
    | some inner | newtype inner =>
      obtain ⟨x, hx, h⟩ := bind_eq_ok.1 h
      obtain rfl := pure_eq_ok.1 h
      exact consult_eq_ok.2
        ⟨_, rfl, map_eq_ok.2 ⟨x, read_levels_snapshot n hx, rfl⟩, rfl⟩
    | seq items =>
      obtain ⟨es, hes, h⟩ := bind_eq_ok.1 h
      obtain rfl := pure_eq_ok.1 h
      rw [Snapshot.itemsToOffer_eq_map, eventsOfItems_eq_ok, List.forall₂_map_left_iff] at hes
      have hes := look_seq (some items.length) (hes.imp fun c e he =>
        read_levels_snapshot n he)
      refine consult_eq_ok.2 ⟨_, rfl, by rw [Snapshot.replay, Snapshot.call, hes], ?_⟩
      simp [Snapshot.replay, Snapshot.call, hes]
    | map entries =>
      obtain ⟨es, hes, h⟩ := bind_eq_ok.1 h
      obtain rfl := pure_eq_ok.1 h
      rw [Snapshot.entriesToOffer_eq_map, eventsOfEntries_eq_ok, List.forall₂_map_left_iff] at hes
      have hes := look_map (some entries.length) (hes.imp fun c e he =>
        ⟨read_levels_snapshot n he.1, read_levels_snapshot n he.2⟩)
      refine consult_eq_ok.2 ⟨_, rfl, by rw [Snapshot.replay, Snapshot.call, hes], ?_⟩
      simp [Snapshot.replay, Snapshot.call, hes]
    | _ =>
      obtain rfl := Except.ok.inj h
      rfl

end Shape

/-! ## Keeping a map -/

/-- A map without enums and failures, whose texts that stand as keys are all different, is kept, and
whoever reads everything that was kept, level by level, sees what he would have seen of the map
itself : only texts and bytes are his own, and sizes are announced as they are. -/
theorem readPayload_levels (n : Nat) (entries : List (Offer × Offer)) (hint : Option Nat)
    (readable : Bool) (hk : (Offer.map entries hint).keepable) (hn : (Offer.keys entries).Nodup) :
    ∃ flat e, Flat.read (⟨.map entries hint, readable⟩ : Offered) = .ok flat ∧
      (Shape.levels n).read (⟨.map entries hint, readable⟩ : Offered) = .ok e ∧
        flat.readPayload (Shape.levels n).read = .ok e.kept := by
  obtain ⟨kept, hkept⟩ := (Snapshot.entriesKeepable_iff entries).1 hk
  have hmap : Snapshot.ofOffer (.map entries hint) = .ok (.map kept) :=
    bind_eq_ok.2 ⟨kept, hkept, rfl⟩
  obtain ⟨e, he, hek⟩ := Snapshot.event_toOffer hmap
  exact ⟨⟨kept⟩, e, Flat.read_offered_eq_ok.2 ⟨entries, hint, rfl, hkept, hn⟩,
    Shape.read_levels_offered n he, Shape.read_levels_snapshot n hek⟩

/-- A tag between entries under one number, a size that is not true, and a key twice below. -/
def mixedEntries : List (Offer × Offer) :=
  [(.scalar (.int .u32 3), .seq [.scalar (.f64 0x7ff8000000000001), .some .none] (some 9)),
   (.scalar (.text .lasting "type"), .scalar (.text .passing "a")),
   (.scalar (.int .u32 3),
    .newtype (.map [(.unit, .scalar (.char 'x')), (.unit, .scalar (.bytes .passing [0]))] none))]

theorem readPayload_levels_mixedEntries :
    (Offer.map mixedEntries none).keepable ∧ (Offer.keys mixedEntries).Nodup ∧
      ∃ flat e, Flat.read (⟨.map mixedEntries none, false⟩ : Offered) = .ok flat ∧
        (Shape.levels 3).read (⟨.map mixedEntries none, false⟩ : Offered) = .ok e ∧
          flat.readPayload (Shape.levels 3).read = .ok e.kept :=
  ⟨rfl, by decide, readPayload_levels 3 mixedEntries none false rfl (by decide)⟩

end FlatUnion
