import FlatUnion.Proofs.Keeping

/-!
# Which fault is reported

An offer that cannot be kept fails with the first of its faults, in the order in which its parts are
read (`Snapshot.ofOffer_eq_error`). Enums and failures are faults, at any depth (`Offer.faults`).

The entries of a flat representation are kept one behind the other. An entry can also fail because
it repeats a text that stands as a key before it, but its key and its value are kept first
(`Offer.Offends`). Keys that are no texts, and the keys of maps further inside, may be repeated.

The main statement is `Flat.read_first_fault` : a map is kept exactly if no entry offends, and
otherwise the first entry that does says why.
-/

namespace FlatUnion

/-! ## Faults in the order of reading -/

theorem bind_eq_error {ε α β : Type} {x : Except ε α} {f : α → Except ε β} {e : ε} :
    (x >>= f) = .error e ↔ x = .error e ∨ ∃ a, x = .ok a ∧ f a = .error e := by
  cases x with
  | error e' => simp [bind, Except.bind]
  | ok a => simp [bind, Except.bind]

theorem fmap_eq_error {ε α β : Type} {x : Except ε α} {f : α → β} {e : ε} :
    (f <$> x) = .error e ↔ x = .error e := by
  cases x with
  | error e' => simp [Functor.map, Except.map]
  | ok a => simp [Functor.map, Except.map]

/-- The first of two lists one behind the other. -/
theorem head?_append_eq_some {α : Type} {xs ys : List α} {x : α} :
    (xs ++ ys).head? = some x ↔ xs.head? = some x ∨ xs = [] ∧ ys.head? = some x := by
  rw [List.head?_append, Option.or_eq_some_iff, List.head?_eq_none_iff]

namespace Offer

mutual

/-- The faults in an offer, in the order in which its parts are read. -/
def faults : Offer → List Fault
  | .scalar _ | .none | .unit => []
  | .some inner | .newtype inner => inner.faults
  | .seq items _ => itemsFaults items
  | .map entries _ => entriesFaults entries
  | .enum _ => [.invalidType .enum "any value"]
  | .fail fault => [fault]

def itemsFaults : List Offer → List Fault
  | [] => []
  | x :: rest => x.faults ++ itemsFaults rest

def entriesFaults : List (Offer × Offer) → List Fault
  | [] => []
  | (k, v) :: rest => k.faults ++ v.faults ++ entriesFaults rest

end

mutual

theorem faults_eq_nil : ∀ o : Offer, o.faults = [] ↔ o.keepable
  | .scalar _ | .none | .unit => by simp [faults, keepable]
  | .some inner | .newtype inner => by simp [faults, keepable, faults_eq_nil inner]
  | .seq items _ => by simp [faults, keepable, itemsFaults_eq_nil items]
  | .map entries _ => by simp [faults, keepable, entriesFaults_eq_nil entries]
  | .enum _ | .fail _ => by simp [faults, keepable]

theorem itemsFaults_eq_nil : ∀ items : List Offer, itemsFaults items = [] ↔ itemsKeepable items
  | [] => by simp [itemsFaults, itemsKeepable]
  | x :: rest => by
    simp [itemsFaults, itemsKeepable, faults_eq_nil x, itemsFaults_eq_nil rest]

theorem entriesFaults_eq_nil : ∀ entries : List (Offer × Offer),
    entriesFaults entries = [] ↔ entriesKeepable entries
  | [] => by simp [entriesFaults, entriesKeepable]
  | (k, v) :: rest => by
    simp [entriesFaults, entriesKeepable, faults_eq_nil k, faults_eq_nil v,
      entriesFaults_eq_nil rest, and_assoc]

end

/-- What has no fault can be kept. -/
theorem exists_kept_iff {o : Offer} : (∃ c, Snapshot.ofOffer o = .ok c) ↔ o.faults = [] := by
  rw [faults_eq_nil, Snapshot.keepable_iff]

end Offer

namespace Snapshot

open Offer (faults itemsFaults entriesFaults)

mutual

/-- Keeping fails with the first fault. -/
theorem ofOffer_eq_error : ∀ {o : Offer} {f : Fault},
    ofOffer o = .error f ↔ o.faults.head? = Option.some f
  | .scalar _, f | .none, f | .unit, f => by simp [ofOffer, faults]
  | .some inner, f | .newtype inner, f => by
    simp [ofOffer, faults, fmap_eq_error, @ofOffer_eq_error inner]
  | .seq items _, f => by
    simp [ofOffer, faults, fmap_eq_error, @ofItems_eq_error items]
  | .map entries _, f => by
    simp [ofOffer, faults, fmap_eq_error, @ofEntries_eq_error entries]
  | .enum _, f | .fail _, f => by simp [ofOffer, faults]

theorem ofItems_eq_error : ∀ {items : List Offer} {f : Fault},
    ofItems items = .error f ↔ (itemsFaults items).head? = Option.some f
  | [], f => by simp [ofItems, itemsFaults]
  | x :: rest, f => by
    simp only [ofItems, itemsFaults, bind_eq_error, bind_pure_comp, fmap_eq_error,
      exists_and_right, ofOffer_eq_error, Offer.exists_kept_iff, ofItems_eq_error,
      head?_append_eq_some]

theorem ofEntries_eq_error : ∀ {entries : List (Offer × Offer)} {f : Fault},
    ofEntries entries = .error f ↔ (entriesFaults entries).head? = Option.some f
  | [], f => by simp [ofEntries, entriesFaults]
  | (k, v) :: rest, f => by
    simp only [ofEntries, entriesFaults, bind_eq_error, bind_pure_comp, fmap_eq_error,
      exists_and_right, ofOffer_eq_error, Offer.exists_kept_iff, ofEntries_eq_error,
      head?_append_eq_some, List.append_assoc]

end

end Snapshot

/-! ## Entries one behind the other -/

namespace Offer

/-- Entries can be kept behind others, of which some texts stand as keys : there is no fault in
them, and no text stands as a key twice. -/
def Follow (taken : List String) (entries : List (Offer × Offer)) : Prop :=
  entriesFaults entries = [] ∧ (taken ++ keys entries).Nodup

/-- Why an entry cannot be kept behind others. -/
inductive Offends (taken : List String) : Offer × Offer → Fault → Prop
  /-- Its key has a fault. -/
  | key {k v : Offer} {f : Fault} (hk : k.faults.head? = Option.some f) : Offends taken (k, v) f
  /-- Its value has one. -/
  | value {k v : Offer} {f : Fault} (hk : k.faults = []) (hv : v.faults.head? = Option.some f) :
    Offends taken (k, v) f
  /-- Its key is a text that stands as a key before it. -/
  | repeated {k v : Offer} {name : String} (hk : k.faults = []) (hv : v.faults = [])
    (hname : k.asText? = Option.some name) (htaken : name ∈ taken) :
    Offends taken (k, v) (.custom ("duplicate field `" ++ name ++ "`"))

theorem keys_cons (e : Offer × Offer) (rest : List (Offer × Offer)) :
    keys (e :: rest) = e.1.asText?.toList ++ keys rest := by
  cases h : e.1.asText? <;> simp [keys, h]

theorem follow_nil {taken : List String} : Follow taken [] ↔ taken.Nodup := by
  simp [Follow, entriesFaults, keys]

theorem follow_cons {taken : List String} {e : Offer × Offer} {rest : List (Offer × Offer)} :
    Follow taken (e :: rest) ↔
      e.1.faults = [] ∧ e.2.faults = [] ∧ Follow (taken ++ e.1.asText?.toList) rest := by
  simp [Follow, entriesFaults, keys_cons, and_assoc]

/-- Nothing follows texts that stand as keys twice. -/
theorem Follow.nodup {taken : List String} {entries : List (Offer × Offer)}
    (h : Follow taken entries) : taken.Nodup :=
  (List.nodup_append.1 h.2).1

theorem offends_of_key {taken : List String} {k v : Offer} {f g : Fault}
    (hk : k.faults.head? = Option.some g) : Offends taken (k, v) f ↔ g = f := by
  have hne : k.faults ≠ [] := fun h => by simp [h] at hk
  constructor
  · rintro (hf | ⟨h, -⟩ | ⟨h, -⟩)
    · exact Option.some.inj (hk.symm.trans hf)
    · exact absurd h hne
    · exact absurd h hne
  · rintro rfl
    exact .key hk

theorem offends_of_value {taken : List String} {k v : Offer} {f g : Fault} (hk : k.faults = [])
    (hv : v.faults.head? = Option.some g) : Offends taken (k, v) f ↔ g = f := by
  have hne : v.faults ≠ [] := fun h => by simp [h] at hv
  constructor
  · rintro (hf | ⟨-, hf⟩ | ⟨-, h, -⟩)
    · simp [hk] at hf
    · exact Option.some.inj (hv.symm.trans hf)
    · exact absurd h hne
  · rintro rfl
    exact .value hk hv

theorem offends_of_kept {taken : List String} {k v : Offer} {f : Fault} (hk : k.faults = [])
    (hv : v.faults = []) : Offends taken (k, v) f ↔ ∃ name, k.asText? = Option.some name ∧
      name ∈ taken ∧ .custom ("duplicate field `" ++ name ++ "`") = f := by
  constructor
  · rintro (hf | ⟨-, hf⟩ | ⟨-, -, hname, htaken⟩)
    · simp [hk] at hf
    · simp [hv] at hf
    · exact ⟨_, hname, htaken, rfl⟩
  · rintro ⟨name, hname, htaken, rfl⟩
    exact .repeated hk hv hname htaken

end Offer

/-- An element of a list and those before it : it is the first, or one of the others. -/
theorem exists_split_cons {α : Type} {x : α} {xs : List α} {P : List α → α → Prop} :
    (∃ before y after, x :: xs = before ++ y :: after ∧ P before y) ↔
      P [] x ∨ ∃ before y after, xs = before ++ y :: after ∧ P (x :: before) y := by
  constructor
  · rintro ⟨before, y, after, h, hp⟩
    obtain ⟨rfl, hxs⟩ | ⟨before, rfl, rfl⟩ := List.cons_eq_append_iff.1 h
    · obtain ⟨rfl, rfl⟩ := List.cons.inj hxs
      exact .inl hp
    · exact .inr ⟨before, y, after, rfl, hp⟩
  · rintro (hp | ⟨before, y, after, rfl, hp⟩)
    · exact ⟨[], x, xs, rfl, hp⟩
    · exact ⟨x :: before, y, after, rfl, hp⟩

namespace Flat

open Offer (Follow Offends)

variable {σ : Type} [Source σ]

theorem keys_snoc (kept : List (Snapshot × Snapshot)) (key value : Snapshot) :
    Snapshot.keys (kept ++ [(key, value)]) = Snapshot.keys kept ++ key.asText?.toList := by
  cases h : key.asText? <;> simp [Snapshot.keys, h]

/-- Keeping entries behind others fails exactly with what the first of them that offends says. -/
theorem collect_eq_error : ∀ {entries : List (σ × σ)} {done : Nat}
    {kept : List (Snapshot × Snapshot)} {f : Fault}, (Snapshot.keys kept).Nodup →
    ((collect done kept entries).result = .error f ↔
      ∃ before e after, entries.map offered = before ++ e :: after ∧
        Follow (Snapshot.keys kept) before ∧ Offends (Snapshot.keys kept ++ Offer.keys before) e f)
  | [], done, kept, f, hn => by simp [collect]
  | (k, v) :: rest, done, kept, f, hn => by
    have hnil : Offer.keys [] = [] := rfl
    rw [collect, List.map_cons, exists_split_cons]
    simp only [Offer.follow_nil, hn, true_and, Offer.follow_cons, Offer.keys_cons, hnil,
      List.append_nil, ← List.append_assoc]
    cases hk : Snapshot.ofOffer (Source.offer k) with
    | error g =>
      have hfault := Snapshot.ofOffer_eq_error.1 hk
      have hne : (Source.offer k).faults ≠ [] := fun h => by simp [h] at hfault
      simp [offered, Offer.offends_of_key hfault, hne]
    | ok key =>
      have hkey := Offer.exists_kept_iff.1 ⟨key, hk⟩
      cases hv : Snapshot.ofOffer (Source.offer v) with
      | error g =>
        have hfault := Snapshot.ofOffer_eq_error.1 hv
        have hne : (Source.offer v).faults ≠ [] := fun h => by simp [h] at hfault
        simp [offered, Offer.offends_of_value hkey hfault, hne]
      | ok value =>
        have hvalue := Offer.exists_kept_iff.1 ⟨value, hv⟩
        simp only [offered, Offer.offends_of_kept hkey hvalue, hkey, hvalue, true_and,
          ← Snapshot.asText?_eq hk]
        cases hd : key.asText?.filter (hasKey kept) with
        | some name =>
          obtain ⟨hname, hhas⟩ := Option.filter_eq_some_iff.1 hd
          have htaken := hasKey_iff.1 hhas
          -- The text stands there already, so nothing can follow the entry.
          have hnot : ∀ before, ¬ Follow (Snapshot.keys kept ++ [name]) before := fun before h =>
            (List.nodup_append.1 h.nodup).2.2 _ htaken _ (List.mem_singleton_self _) rfl
          simp [hname, htaken, hnot]
        | none =>
          have hsnoc := (nodup_keys_snoc hn key value).2 hd
          have hnew : ∀ name, key.asText? = some name → name ∉ Snapshot.keys kept := by
            intro name hname htaken
            simp [hname, Option.filter_some, hasKey_iff.2 htaken] at hd
          simp only
          rw [collect_eq_error hsnoc, keys_snoc]
          simp only [List.append_assoc]
          refine (or_iff_right ?_).symm
          rintro ⟨name, hname, htaken, -⟩
          exact hnew name hname htaken

/-- The parts of a map that is offered are those it was made of. -/
theorem map_offered (entries : List (Offer × Offer)) (readable : Bool) :
    (entries.map fun e => ((⟨e.1, readable⟩, ⟨e.2, readable⟩) : Offered × Offered)).map offered =
      entries := by
  rw [List.map_map]
  exact List.map_id entries

/-- A map that is offered on its own is kept entry by entry, and nothing is said afterwards. -/
theorem read_map (entries : List (Offer × Offer)) (hint : Option Nat) (readable : Bool) :
    read (⟨.map entries hint, readable⟩ : Offered) =
      (collect 0 [] (entries.map fun e =>
        ((⟨e.1, readable⟩, ⟨e.2, readable⟩) : Offered × Offered))).result := by
  have hread : ∀ o : Outcome Flat,
      ({ call := .unit } : Answer Offered).finish o = o.result := by
    rintro ⟨p, _ | flat⟩ <;> rfl
  exact hread _

theorem read_map_eq_error {entries : List (Offer × Offer)} {hint : Option Nat} {readable : Bool}
    {f : Fault} : read (⟨.map entries hint, readable⟩ : Offered) = .error f ↔
      ∃ before e after, entries = before ++ e :: after ∧ Follow [] before ∧
        Offends (Offer.keys before) e f := by
  have hnil : (Snapshot.keys []).Nodup := List.nodup_nil
  rw [read_map, collect_eq_error hnil, map_offered]
  rfl

theorem exists_read_map {entries : List (Offer × Offer)} {hint : Option Nat} {readable : Bool} :
    (∃ flat, read (⟨.map entries hint, readable⟩ : Offered) = .ok flat) ↔ Follow [] entries := by
  rw [Follow, Offer.entriesFaults_eq_nil, Snapshot.entriesKeepable_iff, List.nil_append]
  constructor
  · rintro ⟨flat, h⟩
    obtain ⟨_, _, hmap, hkept, hn⟩ := read_offered_eq_ok.1 h
    obtain ⟨rfl, -⟩ := Offer.map.inj hmap
    exact ⟨⟨_, hkept⟩, hn⟩
  · rintro ⟨⟨kept, hkept⟩, hn⟩
    exact ⟨⟨kept⟩, read_offered_eq_ok.2 ⟨entries, hint, rfl, hkept, hn⟩⟩

/-- Among different keys a text stands once at most. -/
theorem length_filter_key_le {entries : List (Snapshot × Snapshot)}
    (hn : (Snapshot.keys entries).Nodup) (name : String) :
    (entries.filter fun e => e.1.asText? = some name).length ≤ 1 := by
  have hcount : (entries.filter fun e => e.1.asText? = some name).length =
      (Snapshot.keys entries).count name := by
    rw [← List.countP_eq_length_filter, Snapshot.keys, List.count, List.countP_filterMap]
    congr 1
    funext e
    cases e.1.asText? <;> simp [Bool.beq_eq_decide_eq]
  rw [hcount]
  exact List.nodup_iff_count_le_one.1 hn name

/-- A map is kept exactly if nothing in it is an enum or a failure, at any depth, and no text stands
in it as a key twice. Otherwise it fails with what the first entry says that cannot be kept behind
those before it, whatever stands behind. So whatever the source, at most one entry that has been
kept stands under a text. -/
theorem read_first_fault (entries : List (Offer × Offer)) (hint : Option Nat) (readable : Bool) :
    ((∃ flat, read (⟨.map entries hint, readable⟩ : Offered) = .ok flat) ↔
      (∀ e ∈ entries, e.1.faults = [] ∧ e.2.faults = []) ∧ (Offer.keys entries).Nodup) ∧
    (∀ f, read (⟨.map entries hint, readable⟩ : Offered) = .error f ↔
      ∃ before e after, entries = before ++ e :: after ∧
        (∀ e ∈ before, e.1.faults = [] ∧ e.2.faults = []) ∧ (Offer.keys before).Nodup ∧
        Offends (Offer.keys before) e f) ∧
    ∀ {σ : Type} [Source σ] (s : σ) (flat : Flat), read s = .ok flat →
      ∀ name, (flat.entries.filter fun e => e.1.asText? = some name).length ≤ 1 := by
  have hfollow : ∀ es, Follow [] es ↔
      (∀ e ∈ es, e.1.faults = [] ∧ e.2.faults = []) ∧ (Offer.keys es).Nodup := fun es => by
    simp only [Follow, Offer.entriesFaults_eq_nil, Snapshot.mem_entriesKeepable,
      Offer.faults_eq_nil, List.nil_append]
  refine ⟨exists_read_map.trans (hfollow entries), fun f => ?_, fun s flat h name => ?_⟩
  · simp only [read_map_eq_error, hfollow, and_assoc]
  · obtain ⟨_, _, _, -, -, -, hn, -⟩ := read_eq_ok.1 h
    exact length_filter_key_le hn name

/-- A fault of the value is found before the key is compared with those before it. -/
example : read (⟨.map [(.scalar (.text .passing "a"), .unit),
    (.scalar (.text .owned "a"), .seq [.enum "b"] none)] none, true⟩ : Offered) =
      .error (.invalidType .enum "any value") := rfl

end Flat

end FlatUnion
