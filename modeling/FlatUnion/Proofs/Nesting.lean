import Mathlib
import FlatUnion.Catalog
import FlatUnion.Proofs.Json.Kept

/-!
# Unions inside unions

The payload of a union is read from what was kept of a source, and so is a union that is this
payload or lies in it. Nothing depends on how often a value has been kept before it is read.

Keeping a snapshot gives it back, whether it is kept at once or level by level
(`Snapshot.keep_snapshot`). A source and what was kept of it open alike where a map is asked for
(`Flat.Opens`), the keys and values of the one kept as those of the other. So both give the same
entries or the same fault (`Flat.visit_eq_of_opens`, `Flat.read_kept`), and all that follows is
done on these. A text, too, opens like what was kept of it, but its faults are placed
(`Json.read_kept_part`).
-/

namespace FlatUnion

/-! ## Keeping level by level -/

namespace Snapshot

/-- Keeps an answer, given how its parts are kept. -/
def ofCall {σ : Type} (keep : σ → Except Fault Snapshot) : Call σ → Outcome Snapshot
  | .scalar s => .plain (.ok (ofScalar s))
  | .none => .plain (.ok .none)
  | .some inner => .plain ((keep inner).map .some)
  | .unit => .plain (.ok .unit)
  | .newtype inner => .plain ((keep inner).map .newtype)
  | .seq items _ => (readItems keep Option.none 0 items).map .seq
  | .map entries _ => (readEntries keep (fun _ => keep) Option.none 0 entries).map .map
  | c => refuse "any value" c

/-- Keeps what a source answers when it is asked for nothing in particular, level by level, and
what lies deeper than the levels as a whole. -/
def keep {σ : Type} [Source σ] : (levels : Nat) → σ → Except Fault Snapshot
  | 0, s => ofOffer (Source.offer s)
  | n + 1, s => consult .any s (ofCall (keep n))

/-- A snapshot is kept as it is. -/
theorem keep_snapshot : ∀ (n : Nat) (c : Snapshot), keep n c = .ok c
  | 0, c => ofOffer_toOffer c
  | n + 1, c => by
    refine consult_eq_ok.2 ⟨c.replay, rfl, ?_⟩
    cases c with
    | bool | int | f32 | f64 | char | text | bytes | none | unit => exact ⟨rfl, rfl⟩
    | some inner | newtype inner =>
      exact ⟨map_eq_ok.2 ⟨inner, keep_snapshot n inner, rfl⟩, rfl⟩
    | seq items =>
      have hitems : readItems (keep n) Option.none 0 items =
          ⟨{ whole := items.length }, .ok items⟩ :=
        readItems_eq_ok.2 ⟨by rw [Nat.zero_add],
          List.forall₂_same.2 fun c _ => keep_snapshot n c⟩
      simp only [replay, call, ofCall, hitems]
      exact ⟨rfl, closing_seq.2 (Nat.le_refl _)⟩
    | map entries =>
      have hentries : readEntries (keep n) (fun _ => keep n) Option.none 0 entries =
          ⟨{ whole := entries.length }, .ok entries⟩ :=
        readEntries_eq_ok.2 ⟨by rw [Nat.zero_add],
          List.forall₂_same.2 fun e _ => ⟨keep_snapshot n e.1, keep_snapshot n e.2⟩⟩
      simp only [replay, call, ofCall, hentries]
      exact ⟨rfl, closing_map.2 (Nat.le_refl _)⟩

end Snapshot

/-! ## Reading what was kept -/

namespace Flat

open Snapshot (Keeps)

variable {σ : Type} [Source σ]

/-- A call opens like what was kept of it, for a reader that wants a map : it is a map of entries
that are kept as these, or neither is a map and both are called the same. -/
inductive Opens : Call σ → Snapshot → Prop
  | map {entries : List (σ × σ)} {hint : Option Nat} {kept : List (Snapshot × Snapshot)}
    (h : List.Forall₂ Keeps (entries.map offered) kept) : Opens (.map entries hint) (.map kept)
  | other {call : Call σ} {c : Snapshot} (hcall : ∀ entries hint, call ≠ .map entries hint)
    (hc : ∀ kept, c ≠ .map kept) (h : call.unexpected = c.call.unexpected) : Opens call c

/-- Entries that are kept as the same are collected alike. -/
theorem collect_eq_of_keeps : ∀ {entries : List (σ × σ)} {more : List (Snapshot × Snapshot)}
    (done : Nat) (kept : List (Snapshot × Snapshot)),
    List.Forall₂ Keeps (entries.map offered) more →
      collect done kept entries = collect done kept more
  | [], more, done, kept, h => by
    obtain rfl : more = [] := by simpa using h
    rfl
  | (k, v) :: rest, more, done, kept, h => by
    rw [List.map_cons, List.forall₂_cons_left_iff] at h
    obtain ⟨⟨key, value⟩, more, ⟨hk, hv⟩, h, rfl⟩ := h
    have hk' : Snapshot.ofOffer (Source.offer key) = .ok key := Snapshot.ofOffer_toOffer key
    have hv' : Snapshot.ofOffer (Source.offer value) = .ok value := Snapshot.ofOffer_toOffer value
    have hk : Snapshot.ofOffer (Source.offer k) = .ok key := hk
    have hv : Snapshot.ofOffer (Source.offer v) = .ok value := hv
    rw [collect, collect, hk, hv, hk', hv']
    dsimp only
    cases key.asText?.filter (hasKey kept) with
    | some name => rfl
    | none => exact collect_eq_of_keeps (done + 1) (kept ++ [(key, value)]) h

/-- What opens alike gives the same entries or the same fault, after the same number of entries. -/
theorem visit_eq_of_opens {call : Call σ} {c : Snapshot} (h : Opens call c) :
    visit call = visit c.call := by
  cases h with
  | map h => exact collect_eq_of_keeps 0 [] h
  | other hcall hc h =>
    have hvisit : visit call = refuse "a map with a tag field" call := by
      cases call <;> first | rfl | exact absurd rfl (hcall _ _)
    rw [hvisit, refuse, h]
    cases c <;> first | rfl | exact absurd rfl (hc _)

/-- A map that has been collected is behind its last entry. -/
theorem closing_visit {c : Snapshot} {flat : Flat} (h : (visit c.call).result = .ok flat) :
    c.closing (visit c.call).progress = .ok () := by
  obtain ⟨entries, hint, hcall, -⟩ := visit_result_eq_ok.1 h
  cases c <;> simp only [Snapshot.call, reduceCtorEq, Call.map.injEq] at hcall
  case map entries =>
    rw [Snapshot.call, progress_visit h]
    exact Snapshot.closing_map.2 (Nat.le_refl _)

/-- From a snapshot the flat representation is what it opens to. -/
theorem read_snapshot (c : Snapshot) : read c = (visit c.call).result := by
  have hread : read c = c.replay.finish (visit c.call) := by cases c <;> rfl
  rw [hread, Answer.finish]
  cases h : (visit c.call).result with
  | error f => rfl
  | ok flat => exact congrArg (Except.map fun _ => flat) (closing_visit h)

/-- An offer that can be kept opens like what was kept of it. -/
theorem opens_offered {o : Offer} {c : Snapshot} (readable : Bool)
    (h : Snapshot.ofOffer o = .ok c) :
    ∃ call, o.call readable = .ok call ∧ Opens call c := by
  cases o with
  | scalar s =>
    obtain rfl := Except.ok.inj h
    refine ⟨_, rfl, .other (by simp) ?_ ?_⟩ <;> cases s <;> simp [Snapshot.ofScalar] <;> rfl
  | none | unit =>
    obtain rfl := Except.ok.inj h
    exact ⟨_, rfl, .other (by simp) (by simp) rfl⟩
  | some inner | newtype inner | seq items hint =>
    obtain ⟨_, -, h⟩ := bind_eq_ok.1 h
    obtain rfl := pure_eq_ok.1 h
    exact ⟨_, rfl, .other (by simp) (by simp) rfl⟩
  | map entries hint =>
    obtain ⟨kept, hk, h⟩ := bind_eq_ok.1 h
    obtain rfl := pure_eq_ok.1 h
    refine ⟨_, rfl, .map ?_⟩
    rw [List.map_map]
    exact (List.map_id entries).symm ▸ Snapshot.ofEntries_eq_ok.1 hk
  | enum name | fail fault => simp [Snapshot.ofOffer] at h

/-- A source that opens like a snapshot has the flat representation of that snapshot, or what is
wrong is the same, if a map is let go of behind its last entry. -/
theorem read_of_opens {s : σ} {a : Answer σ} {c : Snapshot} (ha : Source.answer .map s = .ok a)
    (hopens : Opens a.call c) (hlocate : ∀ p f, (a.locate p f).cause = f.cause)
    (hclose : ∀ entries hint, a.call = .map entries hint →
      a.close { whole := entries.length } = .ok ()) :
    (read s).mapError Fault.cause = (read c).mapError Fault.cause := by
  have hread : read s = a.finish (visit a.call) := by
    rw [read, consult, ha]
    rfl
  rw [hread, read_snapshot, ← visit_eq_of_opens hopens, Answer.finish]
  cases hresult : (visit a.call).result with
  | error f => exact congrArg Except.error (hlocate _ f)
  | ok flat =>
    obtain ⟨entries, hint, hcall, -⟩ := visit_result_eq_ok.1 hresult
    rw [hcall] at hresult ⊢
    rw [progress_visit hresult, hclose entries hint hcall]
    rfl

/-- The flat representation of an offer is that of what was kept of it. -/
theorem read_kept {o : Offer} {c : Snapshot} (readable : Bool) (h : Snapshot.ofOffer o = .ok c) :
    read (⟨o, readable⟩ : Offered) = read c := by
  obtain ⟨call, hcall, hopens⟩ := opens_offered readable h
  have hread : read (⟨o, readable⟩ : Offered) =
      (o.call readable >>= fun call => ({ call } : Answer Offered).finish (visit call)) := by
    cases o <;> rfl
  rw [hread, hcall, read_snapshot, ← visit_eq_of_opens hopens]
  simp only [bind, Except.bind, Answer.finish]
  cases (visit call).result <;> rfl

end Flat

namespace Json

/-! ## Texts -/

/-- A word, a text or a number is refused under the name of what is kept of it, which is no map. -/
theorem Literal.opens_refused (x : Literal) :
    Flat.Opens (.refused (x.call : Call Part).unexpected : Call Part) x.kept := by
  refine .other nofun ?_ ?_
  · cases x with
    | number n => cases n <;> nofun
    | _ => nofun
  · cases x with
    | number n => cases n <;> rfl
    | _ => rfl

/-- The flat representation of a part of a text is that of what was kept of it, or what is wrong is
the same. -/
theorem read_kept_part {node : Node} {c : Snapshot} (hcut : node.WellCut)
    (h : Snapshot.ofOffer node.offer = .ok c) :
    (Flat.read (Part.value node)).mapError Fault.cause = (Flat.read c).mapError Fault.cause := by
  cases node with
  | leaf start inside =>
    have hoffer : Snapshot.ofOffer (leafOffer start) = .ok c := h
    unfold leafOffer at hoffer
    split at hoffer
    · next l hl =>
      rw [Literal.ofOffer_offer] at hoffer
      obtain rfl := Except.ok.inj hoffer
      have hsuits : l.value.suits .map = false := by cases l.value <;> rfl
      have hanswer := (leafAnswer_plain rfl inside start).trans (literalAnswer_eq hl .map)
      rw [hsuits] at hanswer
      exact Flat.read_of_opens hanswer l.value.opens_refused (fun _ f => f.cause_placedAt _)
        (by rintro _ _ ⟨⟩)
    · cases hoffer
  | list start depth items ending =>
    obtain ⟨hhead, -⟩ := hcut
    rw [Node.offer] at h
    split at h
    · cases h
    obtain ⟨cs, -, h⟩ := bind_eq_ok.1 h
    obtain rfl := pure_eq_ok.1 h
    have hanswer : literalAnswer .map start = .ok (located start.place (.refused .seq)) := by
      rw [literalAnswer, hhead]
      rfl
    exact Flat.read_of_opens ((leafAnswer_plain rfl none start).trans hanswer)
      (.other (by rintro _ _ ⟨⟩) (by simp) rfl) (fun _ f => f.cause_placedAt _) (by rintro _ _ ⟨⟩)
  | object start depth members ending =>
    rw [Node.offer] at h
    split at h
    · cases h
    next hdepth =>
    obtain ⟨es, hes, h⟩ := bind_eq_ok.1 h
    obtain rfl := pure_eq_ok.1 h
    obtain ⟨p, rfl⟩ := closed_of_offerMembers hes
    refine Flat.read_of_opens (within_eq (Nat.lt_of_not_le hdepth) start _) (.map ?_)
      (fun _ f => f.cause_placedAt _) fun entries hint hcall => ?_
    · rw [map_offered_members]
      exact Snapshot.ofEntries_eq_ok.1 hes
    · obtain ⟨rfl, -⟩ := Call.map.inj hcall
      exact close_objectAnswer.2 (by simp)
  | missing start fault => cases h

end Json

section Nesting

variable {o : Offer} {c : Snapshot}

/-- A union that is read from what was kept of an offer gives what it gives from the offer itself :
the same variant and payload, or the same fault. -/
theorem readUnion_kept_offer (variants : List (PayloadReader Snapshot)) (readable : Bool)
    (h : Snapshot.ofOffer o = .ok c) :
    readUnion variants (⟨o, readable⟩ : Offered) = readUnion variants c := by
  rw [readUnion, readUnion, Flat.read_kept readable h]

/-- What follows on results that differ in the places of their faults differs in these only. -/
theorem mapError_bind {α β : Type} {x y : Except Fault α}
    (h : x.mapError Fault.cause = y.mapError Fault.cause) (f : α → Except Fault β) :
    (x >>= f).mapError Fault.cause = (y >>= f).mapError Fault.cause := by
  cases x with
  | error e =>
    cases y with
    | error e' => exact congrArg Except.error (Except.error.inj h)
    | ok b => nomatch h
  | ok a =>
    cases y with
    | error e' => nomatch h
    | ok b => rw [Except.ok.inj h]

/-- A union that is read from what was kept of a text gives what it gives from the text itself, but
faults of the text are no longer placed. -/
theorem readUnion_kept_text {text : String} (variants : List (PayloadReader Snapshot))
    (h : Snapshot.ofOffer (Json.scan text).1.offer = .ok c) :
    (Json.readFront (readUnion variants) text).mapError Fault.cause =
      (readUnion variants c).mapError Fault.cause :=
  mapError_bind (Json.read_kept_part (Json.scanValue_wellCut _ _ _) h) _

/-- A snapshot that is kept again, down to any level, is the same snapshot. So a union that is read
from an offer, or from a text, and one that is read from what was kept of it are the same value or
the same fault, whatever its payloads are : unions, too, to any depth. Only the places of faults,
which are those in the text, are not kept. -/
theorem keeping_again :
    (∀ (levels : Nat) (c : Snapshot), Snapshot.keep levels c = .ok c) ∧
    (∀ (o : Offer) (c : Snapshot), Snapshot.ofOffer o = .ok c → ∀ readable : Bool,
      (∀ variants : List (PayloadReader Snapshot),
        readUnion variants (⟨o, readable⟩ : Offered) = readUnion variants c) ∧
      ∀ variants : List (String × Ty),
        Tagged.read variants (⟨o, readable⟩ : Offered) = Tagged.read variants c) ∧
    ∀ (text : String) (c : Snapshot), Snapshot.ofOffer (Json.scan text).1.offer = .ok c →
      (∀ variants : List (PayloadReader Snapshot),
        (Json.readFront (readUnion variants) text).mapError Fault.cause =
          (readUnion variants c).mapError Fault.cause) ∧
      ∀ variants : List (String × Ty),
        (Json.readFront (Tagged.read variants) text).mapError Fault.cause =
          (Tagged.read variants c).mapError Fault.cause :=
  ⟨Snapshot.keep_snapshot, fun _ _ h readable =>
    ⟨fun variants => readUnion_kept_offer variants readable h,
      fun variants => readUnion_kept_offer (payloadReaders variants) readable h⟩,
    fun _ _ h =>
      ⟨fun variants => readUnion_kept_text variants h,
        fun variants => readUnion_kept_text (payloadReaders variants) h⟩⟩

end Nesting

/-- A union in which another one lies, read from one map. -/
def nested : List (String × Ty) := [("text", .union "Message" Catalog.message)]

/-- A map that tells the variants of both. -/
def nestedOffer : Offer :=
  .map [(.scalar (.text .lasting "text"), .scalar (.text .lasting "hi")),
    (.scalar (.text .lasting "type"), .scalar (.text .lasting "text"))] none

/-- The same map as a text. -/
def nestedText : String := "\x7b\"text\":\"hi\",\"type\":\"text\"\x7d"

theorem start_nestedText : Json.Cursor.start nestedText =
    ⟨['\x7b', '"', 't', 'e', 'x', 't', '"', ':', '"', 'h', 'i', '"', ',', '"', 't', 'y', 'p', 'e',
      '"', ':', '"', 't', 'e', 'x', 't', '"', '\x7d'], ⟨1, 0⟩⟩ := rfl

theorem offer_nestedText : (Json.scan nestedText).1.offer = nestedOffer := by
  unfold Json.scan
  rw [start_nestedText]
  cbv

theorem keeping_again_nested :
    ∃ c, Snapshot.ofOffer nestedOffer = .ok c ∧ Snapshot.keep 2 c = .ok c ∧
      Tagged.read nested (⟨nestedOffer, false⟩ : Offered) = Tagged.read nested c ∧
      (Json.readFront (Tagged.read nested) nestedText).mapError Fault.cause =
        (Tagged.read nested c).mapError Fault.cause ∧
      Tagged.read nested c = .ok ⟨"text", .map [.entry (.text "type") (.text "text"),
        .entry (.text "text") (.text "hi")]⟩ :=
  ⟨_, rfl, keeping_again.1 2 _, (keeping_again.2.1 _ _ rfl false).2 nested,
    (keeping_again.2.2 nestedText _ (by rw [offer_nestedText]; rfl)).2 nested, rfl⟩

end FlatUnion
