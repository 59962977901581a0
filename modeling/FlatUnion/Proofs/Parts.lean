import Mathlib.Data.List.Forall2
import FlatUnion.Read.Source

/-!
# Reading all parts

What it takes for a reader to succeed. A result that is bound to the next is good if both are
(`bind_eq_ok`), a consultation if the source answers, the reader accepts and the source agrees in
the end (`consult_eq_ok`). A reader that takes all elements of a sequence, or all entries of a map,
succeeds exactly if it does so on each of them, and is then behind the last one
(`readItems_eq_ok`, `readEntries_eq_ok`).
-/

namespace FlatUnion

variable {σ α β κ : Type}

/-! ## Results -/

theorem bind_eq_ok {ε : Type} {x : Except ε α} {f : α → Except ε β} {b : β} :
    (x >>= f) = .ok b ↔ ∃ a, x = .ok a ∧ f a = .ok b := by
  cases x with
  | error e => simp [bind, Except.bind]
  | ok a => simp [bind, Except.bind]

theorem map_eq_ok {ε : Type} {x : Except ε α} {f : α → β} {b : β} :
    x.map f = .ok b ↔ ∃ a, x = .ok a ∧ f a = b := by
  cases x with
  | error e => simp [Except.map]
  | ok a => simp [Except.map]

theorem fmap_eq_ok {ε : Type} {x : Except ε α} {f : α → β} {b : β} :
    (f <$> x) = .ok b ↔ ∃ a, x = .ok a ∧ f a = b :=
  map_eq_ok

@[simp] theorem pure_eq_ok {ε : Type} {a b : α} :
    (pure a : Except ε α) = .ok b ↔ a = b := by
  simp [pure, Except.pure]

/-! ## Lists side by side -/

section SideBySide

variable {R : α → β → Prop} {as : List α} {bs : List β}

/-- What stands in one of two lists has a counterpart in the other. -/
theorem exists_right_of_mem (h : List.Forall₂ R as bs) {a : α} (ha : a ∈ as) :
    ∃ b ∈ bs, R a b := by
  induction h with
  | nil => simp at ha
  | cons hr _ ih =>
    obtain rfl | ha := List.mem_cons.1 ha
    · exact ⟨_, List.mem_cons_self, hr⟩
    · obtain ⟨b, hb, hr⟩ := ih ha
      exact ⟨b, List.mem_cons_of_mem _ hb, hr⟩

theorem exists_left_of_mem (h : List.Forall₂ R as bs) {b : β} (hb : b ∈ bs) : ∃ a ∈ as, R a b :=
  exists_right_of_mem h.flip hb

end SideBySide

/-! ## Outcomes -/

namespace Outcome

@[simp] theorem result_plain (r : Except Fault α) : (Outcome.plain r).result = r :=
  rfl

@[simp] theorem result_map (f : α → β) (o : Outcome α) : (o.map f).result = o.result.map f :=
  rfl

theorem eq_mk_of_result {o : Outcome α} {r : Except Fault α} (h : o.result = r) :
    o = ⟨o.progress, r⟩ :=
  h ▸ rfl

theorem map_eq_mk_ok {f : α → β} {o : Outcome α} {p : Progress} {b : β} :
    o.map f = ⟨p, .ok b⟩ ↔ ∃ a, o = ⟨p, .ok a⟩ ∧ f a = b := by
  obtain ⟨q, r⟩ := o
  cases r with
  | error e => simp [Outcome.map, Except.map]
  | ok a => simp [Outcome.map, Except.map, and_assoc]

end Outcome

theorem Answer.finish_eq_ok {a : Answer σ} {o : Outcome α} {x : α} :
    a.finish o = .ok x ↔ o.result = .ok x ∧ a.close o.progress = .ok () := by
  obtain ⟨p, r⟩ := o
  cases r with
  | error f => simp [Answer.finish]
  | ok y =>
    simp only [Answer.finish, map_eq_ok, Except.ok.injEq]
    constructor
    · rintro ⟨_, h, rfl⟩
      exact ⟨rfl, h⟩
    · rintro ⟨rfl, h⟩
      exact ⟨(), h, rfl⟩

theorem consult_eq_ok [Source σ] {r : Request} {s : σ} {read : Call σ → Outcome α} {x : α} :
    consult r s read = .ok x ↔
      ∃ a, Source.answer r s = .ok a ∧ (read a.call).result = .ok x ∧
        a.close (read a.call).progress = .ok () := by
  simp only [consult, bind_eq_ok, Answer.finish_eq_ok]

/-! ## Elements and entries -/

/-- All elements are read exactly if each of them is. -/
theorem readItems_eq_ok {read : σ → Except Fault α} :
    ∀ {items : List σ} {done : Nat} {p : Progress} {xs : List α},
      readItems read none done items = ⟨p, .ok xs⟩ ↔
        p = { whole := done + items.length } ∧
          List.Forall₂ (fun s x => read s = .ok x) items xs
  | [], done, p, xs => by
    simp [readItems, eq_comm]
  | s :: rest, done, p, xs => by
    cases hs : read s with
    | error f => simp [readItems, hs, List.forall₂_cons_left_iff]
    | ok x =>
      simp only [readItems, hs, Option.map_none, Outcome.map_eq_mk_ok, readItems_eq_ok,
        List.forall₂_cons_left_iff, List.length_cons, Except.ok.injEq]
      constructor
      · rintro ⟨ys, ⟨rfl, h⟩, rfl⟩
        exact ⟨by rw [Nat.add_right_comm, Nat.add_assoc], x, ys, rfl, h, rfl⟩
      · rintro ⟨rfl, y, ys, rfl, h, rfl⟩
        exact ⟨ys, ⟨by rw [Nat.add_right_comm, Nat.add_assoc], h⟩, rfl⟩

/-- All entries are read exactly if each key is, and then the value behind it. -/
theorem readEntries_eq_ok {readKey : σ → Except Fault κ} {readValue : κ → σ → Except Fault α} :
    ∀ {entries : List (σ × σ)} {done : Nat} {p : Progress} {xs : List (κ × α)},
      readEntries readKey readValue none done entries = ⟨p, .ok xs⟩ ↔
        p = { whole := done + entries.length } ∧
          List.Forall₂ (fun e x => readKey e.1 = .ok x.1 ∧ readValue x.1 e.2 = .ok x.2) entries xs
  | [], done, p, xs => by
    simp [readEntries, eq_comm]
  | (k, v) :: rest, done, p, xs => by
    cases hk : readKey k with
    | error f => simp [readEntries, hk, List.forall₂_cons_left_iff]
    | ok key =>
      cases hv : readValue key v with
      | error f =>
        simp only [readEntries, hk, hv, List.forall₂_cons_left_iff]
        constructor
        · simp
        · rintro ⟨-, ⟨y₁, y₂⟩, ys, ⟨h₁, h₂⟩, -, -⟩
          obtain rfl := Except.ok.inj h₁
          simp [hv] at h₂
      | ok x =>
        simp only [readEntries, hk, hv, Option.map_none, Outcome.map_eq_mk_ok, readEntries_eq_ok,
          List.forall₂_cons_left_iff, List.length_cons, Except.ok.injEq]
        constructor
        · rintro ⟨ys, ⟨rfl, h⟩, rfl⟩
          exact ⟨by rw [Nat.add_right_comm, Nat.add_assoc], (key, x), ys, ⟨rfl, hv⟩, h, rfl⟩
        · rintro ⟨rfl, ⟨y₁, y₂⟩, ys, ⟨rfl, h₂⟩, h, rfl⟩
          obtain rfl := Except.ok.inj (hv.symm.trans h₂)
          exact ⟨ys, ⟨by rw [Nat.add_right_comm, Nat.add_assoc], h⟩, rfl⟩

end FlatUnion
