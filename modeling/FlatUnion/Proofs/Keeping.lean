import Mathlib.Data.List.Nodup
import FlatUnion.Proofs.Parts
import FlatUnion.Union.Flat

/-!
# What can be kept

An offer can be kept exactly if it holds no enum and no failure, at any depth
(`Snapshot.keepable_iff`), and a key that is kept is a text exactly if it was offered as one
(`Snapshot.asText?_eq`).

The flat representation is read exactly from maps whose keys and values can be kept and no two of
whose texts that stand as keys are equal. It holds the entries in their order
(`Flat.read_eq_ok`, `Flat.read_offered_eq_ok`), and at most one of them under a text
(`Flat.find?_eq_some`).
-/

namespace FlatUnion

namespace Offer

mutual

/-- Whether an offer can be kept : it holds no enum and no failure. -/
def keepable : Offer → Bool
  | .scalar _ | .none | .unit => true
  | .some inner | .newtype inner => inner.keepable
  | .seq items _ => itemsKeepable items
  | .map entries _ => entriesKeepable entries
  | .enum _ | .fail _ => false

def itemsKeepable : List Offer → Bool
  | [] => true
  | x :: rest => x.keepable && itemsKeepable rest

def entriesKeepable : List (Offer × Offer) → Bool
  | [] => true
  | (k, v) :: rest => k.keepable && v.keepable && entriesKeepable rest

end

/-- The text of a key that is offered as one. A character is none. -/
def asText? : Offer → Option String
  | .scalar (.text _ s) => Option.some s
  | _ => Option.none

/-- The texts that stand as keys. -/
def keys (entries : List (Offer × Offer)) : List String :=
  entries.filterMap fun e => e.1.asText?

end Offer

namespace Snapshot

/-- The texts that stand as keys. -/
def keys (entries : List (Snapshot × Snapshot)) : List String :=
  entries.filterMap fun e => e.1.asText?

/-- An entry is kept as another : its key as the key, and its value as the value. -/
def Keeps (e : Offer × Offer) (c : Snapshot × Snapshot) : Prop :=
  ofOffer e.1 = .ok c.1 ∧ ofOffer e.2 = .ok c.2

theorem ofEntries_eq_ok : ∀ {entries : List (Offer × Offer)} {cs : List (Snapshot × Snapshot)},
    ofEntries entries = .ok cs ↔ List.Forall₂ Keeps entries cs
  | [], cs => by simp [ofEntries, eq_comm]
  | (k, v) :: rest, cs => by
    simp only [ofEntries, bind_eq_ok, pure_eq_ok, ofEntries_eq_ok, List.forall₂_cons_left_iff]
    constructor
    · rintro ⟨key, hk, value, hv, cs, hcs, rfl⟩
      exact ⟨(key, value), cs, ⟨hk, hv⟩, hcs, rfl⟩
    · rintro ⟨⟨key, value⟩, cs, ⟨hk, hv⟩, hcs, rfl⟩
      exact ⟨key, hk, value, hv, cs, hcs, rfl⟩

mutual

/-- Offers without enums and failures can be kept, and no others. -/
theorem keepable_iff : ∀ o : Offer, o.keepable ↔ ∃ c, ofOffer o = .ok c
  | .scalar _ | .none | .unit => by simp [Offer.keepable, ofOffer]
  | .some inner | .newtype inner => by
    simp [Offer.keepable, ofOffer, fmap_eq_ok, keepable_iff inner]
  | .seq items _ => by
    simp [Offer.keepable, ofOffer, fmap_eq_ok, itemsKeepable_iff items]
  | .map entries _ => by
    simp [Offer.keepable, ofOffer, fmap_eq_ok, entriesKeepable_iff entries]
  | .enum _ | .fail _ => by simp [Offer.keepable, ofOffer]

theorem itemsKeepable_iff : ∀ items : List Offer,
    Offer.itemsKeepable items ↔ ∃ cs, ofItems items = .ok cs
  | [] => by simp [Offer.itemsKeepable, ofItems]
  | x :: rest => by
    simp [Offer.itemsKeepable, ofItems, bind_eq_ok, fmap_eq_ok, keepable_iff x,
      itemsKeepable_iff rest]

theorem entriesKeepable_iff : ∀ entries : List (Offer × Offer),
    Offer.entriesKeepable entries ↔ ∃ cs, ofEntries entries = .ok cs
  | [] => by simp [Offer.entriesKeepable, ofEntries]
  | (k, v) :: rest => by
    simp [Offer.entriesKeepable, ofEntries, bind_eq_ok, fmap_eq_ok, keepable_iff k, keepable_iff v,
      entriesKeepable_iff rest, and_assoc]

end

theorem mem_entriesKeepable {entries : List (Offer × Offer)} :
    Offer.entriesKeepable entries ↔ ∀ e ∈ entries, e.1.keepable ∧ e.2.keepable := by
  induction entries with
  | nil => simp [Offer.entriesKeepable]
  | cons e rest ih => simp [Offer.entriesKeepable, ih]

mutual

/-- What is offered of a snapshot is kept as it was. -/
theorem ofOffer_toOffer : ∀ c : Snapshot, ofOffer c.toOffer = .ok c
  | .bool _ | .int _ _ | .f32 _ | .f64 _ | .char _ | .text _ | .bytes _ | .none | .unit => rfl
  | .some inner => by rw [toOffer, ofOffer, ofOffer_toOffer inner]; rfl
  | .newtype inner => by rw [toOffer, ofOffer, ofOffer_toOffer inner]; rfl
  | .seq items => by rw [toOffer, ofOffer, ofItems_itemsToOffer items]; rfl
  | .map entries => by rw [toOffer, ofOffer, ofEntries_entriesToOffer entries]; rfl

theorem ofItems_itemsToOffer : ∀ items : List Snapshot, ofItems (itemsToOffer items) = .ok items
  | [] => rfl
  | x :: rest => by
    rw [itemsToOffer, ofItems, ofOffer_toOffer x, ofItems_itemsToOffer rest]
    rfl

theorem ofEntries_entriesToOffer : ∀ entries : List (Snapshot × Snapshot),
    ofEntries (entriesToOffer entries) = .ok entries
  | [] => rfl
  | (k, v) :: rest => by
    rw [entriesToOffer, ofEntries, ofOffer_toOffer k, ofOffer_toOffer v,
      ofEntries_entriesToOffer rest]
    rfl

end

/-- What is kept is a text exactly if a text was offered. -/
theorem asText?_eq {o : Offer} {c : Snapshot} (h : ofOffer o = .ok c) : c.asText? = o.asText? := by
  cases o with
  | scalar s =>
    obtain rfl := Except.ok.inj h
    cases s <;> rfl
  | none | unit =>
    obtain rfl := Except.ok.inj h
    rfl
  | some inner | newtype inner | seq items hint | map entries hint =>
    simp only [ofOffer, bind_eq_ok, pure_eq_ok] at h
    obtain ⟨_, -, rfl⟩ := h
    rfl
  | enum name | fail fault => simp [ofOffer] at h

theorem keys_eq {entries : List (Offer × Offer)} {cs : List (Snapshot × Snapshot)}
    (h : List.Forall₂ Keeps entries cs) : keys cs = Offer.keys entries := by
  induction h with
  | nil => rfl
  | cons h _ ih =>
    simp only [keys, Offer.keys, List.filterMap_cons] at ih ⊢
    rw [asText?_eq h.1, ih]

@[simp] theorem keys_append (cs ds : List (Snapshot × Snapshot)) :
    keys (cs ++ ds) = keys cs ++ keys ds := by
  simp [keys]

theorem asText?_eq_some {c : Snapshot} {s : String} : c.asText? = Option.some s ↔ c = .text s := by
  cases c <;> simp [asText?]

theorem mem_keys {cs : List (Snapshot × Snapshot)} {s : String} :
    s ∈ keys cs ↔ ∃ c, (.text s, c) ∈ cs := by
  simp only [keys, List.mem_filterMap, asText?_eq_some, Prod.exists]
  constructor
  · rintro ⟨_, c, h, rfl⟩
    exact ⟨c, h⟩
  · rintro ⟨c, h⟩
    exact ⟨_, c, h, rfl⟩

/-- Elements are left exactly if the reader did not get behind the last one. -/
theorem leftover_eq_ok {length : Nat} {what : String} {n : Nat} :
    leftover length what n = .ok () ↔ length ≤ n := by
  unfold leftover
  split
  · next hp => exact iff_of_false nofun (Nat.not_le.2 hp)
  · next hp => exact iff_of_true rfl (Nat.le_of_not_lt hp)

@[simp] theorem closing_seq {items : List Snapshot} {p : Progress} :
    closing (.seq items) p = .ok () ↔ items.length ≤ p.whole :=
  leftover_eq_ok

@[simp] theorem closing_map {entries : List (Snapshot × Snapshot)} {p : Progress} :
    closing (.map entries) p = .ok () ↔ entries.length ≤ p.begun :=
  leftover_eq_ok

end Snapshot

namespace Flat

open Snapshot (Keeps)

variable {σ : Type} [Source σ]

/-- An entry of a source as it is offered. -/
def offered (e : σ × σ) : Offer × Offer :=
  (Source.offer e.1, Source.offer e.2)

theorem hasKey_iff {kept : List (Snapshot × Snapshot)} {name : String} :
    hasKey kept name ↔ name ∈ Snapshot.keys kept := by
  simp [hasKey, Snapshot.keys]

/-- No key is repeated by one more entry exactly if its key is no text that stands there already. -/
theorem nodup_keys_snoc {kept : List (Snapshot × Snapshot)} (hn : (Snapshot.keys kept).Nodup)
    (key value : Snapshot) : (Snapshot.keys (kept ++ [(key, value)])).Nodup ↔
      key.asText?.filter (hasKey kept) = none := by
  have hkey : Snapshot.keys [(key, value)] = key.asText?.toList := by
    cases h : key.asText? <;> simp [Snapshot.keys, h]
  rw [Snapshot.keys_append, hkey]
  cases key.asText? with
  | none => simpa using hn
  | some name =>
    have hnew : (Snapshot.keys kept ++ [name]).Nodup ↔ name ∉ Snapshot.keys kept := by
      rw [← List.concat_eq_append, List.nodup_concat]
      exact and_iff_left hn
    rw [Option.toList_some, hnew, ← hasKey_iff]
    simp [Option.filter_some]

/-- Entries are kept behind others exactly if each can be and no text stands as a key twice. -/
theorem collect_eq_ok : ∀ {entries : List (σ × σ)} {done : Nat}
    {kept : List (Snapshot × Snapshot)} {p : Progress} {flat : Flat}, (Snapshot.keys kept).Nodup →
    (collect done kept entries = ⟨p, .ok flat⟩ ↔
      p = { whole := done + entries.length } ∧
        ∃ more, List.Forall₂ Keeps (entries.map offered) more ∧
          (Snapshot.keys (kept ++ more)).Nodup ∧ flat = ⟨kept ++ more⟩)
  | [], done, kept, p, flat, hn => by
    simp only [collect, Outcome.mk.injEq, Except.ok.injEq, List.length_nil, Nat.add_zero,
      List.map_nil, List.forall₂_nil_left_iff, exists_eq_left, List.append_nil]
    exact and_congr eq_comm ⟨fun h => ⟨hn, h.symm⟩, fun h => h.2.symm⟩
  | (k, v) :: rest, done, kept, p, flat, hn => by
    rw [collect, List.map_cons]
    cases hk : Snapshot.ofOffer (Source.offer k) with
    | error f => simp [List.forall₂_cons_left_iff, Keeps, offered, hk]
    | ok key =>
      cases hv : Snapshot.ofOffer (Source.offer v) with
      | error f => simp [List.forall₂_cons_left_iff, Keeps, offered, hv]
      | ok value =>
        have hsplit : ∀ more, kept ++ (key, value) :: more = kept ++ [(key, value)] ++ more := by
          simp
        have hkeeps : ∀ c, Keeps (offered (k, v)) c ↔ c = (key, value) := by
          simp [Keeps, offered, hk, hv, Prod.ext_iff, eq_comm]
        simp only [List.forall₂_cons_left_iff, hkeeps]
        have hsnoc := nodup_keys_snoc hn key value
        cases hd : key.asText?.filter (hasKey kept) with
        | some name =>
          -- The new key stands there already, so no list with it is without repetition.
          simp only [Outcome.mk.injEq, reduceCtorEq, and_false, false_iff, not_and, not_exists]
          rintro - _ ⟨c, more, rfl, -, rfl⟩ hnodup -
          rw [hsplit, Snapshot.keys_append, List.nodup_append] at hnodup
          exact absurd (hsnoc.1 hnodup.1) (by simp [hd])
        | none =>
          simp only
          rw [collect_eq_ok (hsnoc.2 hd), List.length_cons, Nat.add_assoc, Nat.add_comm 1]
          refine and_congr Iff.rfl ⟨?_, ?_⟩
          · rintro ⟨more, h, hnodup, rfl⟩
            exact ⟨_, ⟨_, more, rfl, h, rfl⟩, hsplit more ▸ hnodup, by rw [← hsplit]⟩
          · rintro ⟨_, ⟨_, more, rfl, h, rfl⟩, hnodup, rfl⟩
            exact ⟨more, h, hsplit more ▸ hnodup, by rw [hsplit]⟩

theorem visit_result_eq_ok {c : Call σ} {flat : Flat} :
    (visit c).result = .ok flat ↔ ∃ entries hint, c = .map entries hint ∧
      List.Forall₂ Keeps (entries.map offered) flat.entries ∧
        (Snapshot.keys flat.entries).Nodup := by
  cases c with
  | map entries hint =>
    have hnil : (Snapshot.keys []).Nodup := List.nodup_nil
    simp only [visit, Call.map.injEq]
    constructor
    · intro h
      obtain ⟨-, more, hk, hn, rfl⟩ := (collect_eq_ok hnil).1 (Outcome.eq_mk_of_result h)
      exact ⟨entries, hint, ⟨rfl, rfl⟩, hk, hn⟩
    · rintro ⟨_, _, ⟨rfl, rfl⟩, hk, hn⟩
      exact congrArg Outcome.result
        ((collect_eq_ok hnil).2 ⟨rfl, flat.entries, hk, hn, rfl⟩)
  | _ => simp [visit, refuse]

theorem progress_visit {entries : List (σ × σ)} {hint : Option Nat} {flat : Flat}
    (h : (visit (.map entries hint)).result = .ok flat) :
    (visit (.map entries hint)).progress = { whole := entries.length } := by
  have hnil : (Snapshot.keys []).Nodup := List.nodup_nil
  have hp := ((collect_eq_ok hnil).1 (Outcome.eq_mk_of_result h)).1
  rw [Nat.zero_add] at hp
  exact hp

/-- A flat representation is read from a map all of whose parts can be kept, if no text stands as
a key twice and the source lets go of it. -/
theorem read_eq_ok {s : σ} {flat : Flat} :
    read s = .ok flat ↔ ∃ a entries hint, Source.answer .map s = .ok a ∧
      a.call = .map entries hint ∧ List.Forall₂ Keeps (entries.map offered) flat.entries ∧
        (Snapshot.keys flat.entries).Nodup ∧ a.close { whole := entries.length } = .ok () := by
  simp only [read, consult_eq_ok, visit_result_eq_ok]
  constructor
  · rintro ⟨a, ha, ⟨entries, hint, hc, hk, hn⟩, hclose⟩
    rw [hc, progress_visit (visit_result_eq_ok.2 ⟨entries, hint, rfl, hk, hn⟩)] at hclose
    exact ⟨a, entries, hint, ha, hc, hk, hn, hclose⟩
  · rintro ⟨a, entries, hint, ha, hc, hk, hn, hclose⟩
    refine ⟨a, ha, ⟨entries, hint, hc, hk, hn⟩, ?_⟩
    rwa [hc, progress_visit (visit_result_eq_ok.2 ⟨entries, hint, rfl, hk, hn⟩)]

/-- What is offered on its own is a flat representation if it is such a map. -/
theorem read_offered_eq_ok {s : Offered} {flat : Flat} :
    read s = .ok flat ↔ ∃ entries hint, s.value = .map entries hint ∧
      Snapshot.ofEntries entries = .ok flat.entries ∧ (Offer.keys entries).Nodup := by
  obtain ⟨value, readable⟩ := s
  have hoffered : ∀ entries : List (Offer × Offer),
      (entries.map fun e => ((⟨e.1, readable⟩, ⟨e.2, readable⟩) : Offered × Offered)).map offered =
        entries := by
    intro entries
    rw [List.map_map]
    exact List.map_id entries
  rw [read_eq_ok]
  constructor
  · rintro ⟨a, parts, hint, ha, hc, hk, hn, -⟩
    obtain ⟨call, hcall, ha⟩ := bind_eq_ok.1 ha
    obtain rfl := pure_eq_ok.1 ha
    obtain rfl : call = .map parts hint := hc
    cases value <;> simp only [Offer.call, Except.ok.injEq, reduceCtorEq] at hcall
    case map entries hint' =>
      obtain ⟨rfl, rfl⟩ := Call.map.inj hcall
      rw [hoffered] at hk
      exact ⟨entries, hint', rfl, Snapshot.ofEntries_eq_ok.2 hk, Snapshot.keys_eq hk ▸ hn⟩
  · rintro ⟨entries, hint, rfl, hk, hn⟩
    have hk := Snapshot.ofEntries_eq_ok.1 hk
    exact ⟨_, _, hint, rfl, rfl, (hoffered entries).symm ▸ hk, (Snapshot.keys_eq hk).symm ▸ hn, rfl⟩

/-! ## Looking up -/

/-- At most one entry stands under a text, and that one is found. -/
theorem find?_eq_some (flat : Flat) (hn : (Snapshot.keys flat.entries).Nodup) {name : String}
    {c : Snapshot} : flat.find? name = some c ↔ (.text name, c) ∈ flat.entries := by
  obtain ⟨entries⟩ := flat
  simp only [find?]
  induction entries with
  | nil => simp
  | cons e rest ih =>
    obtain ⟨k, v⟩ := e
    by_cases hk : k = .text name
    · subst hk
      have hnot : ∀ c, (Snapshot.text name, c) ∉ rest := by
        intro c hc
        have : name ∉ Snapshot.keys rest := (List.nodup_cons.1 hn).1
        exact this (Snapshot.mem_keys.2 ⟨c, hc⟩)
      simp [Snapshot.asText?, hnot, eq_comm]
    · have hn : (Snapshot.keys rest).Nodup := by
        simp only [Snapshot.keys, List.filterMap_cons] at hn
        split at hn
        · exact hn
        · exact (List.nodup_cons.1 hn).2
      have hne : k.asText? ≠ some name := fun h => hk (Snapshot.asText?_eq_some.1 h)
      rw [List.find?_cons_of_neg (by simpa using hne), ih hn]
      simp [Ne.symm hk]

theorem find?_eq_none {flat : Flat} {name : String} :
    flat.find? name = none ↔ ∀ c, (.text name, c) ∉ flat.entries := by
  simp only [find?, Option.map_eq_none_iff, List.find?_eq_none, decide_eq_true_eq,
    Snapshot.asText?_eq_some, Prod.forall]
  exact ⟨fun h c hc => h _ c hc rfl, fun h k c hc hk => h c (hk ▸ hc)⟩

end Flat

end FlatUnion
