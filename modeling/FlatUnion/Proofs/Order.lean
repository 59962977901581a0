import Mathlib.Data.List.Basic
import Mathlib.Tactic.SplitIfs
import FlatUnion.Type.Visit

/-!
# Maps in the order of their keys

Keys are strictly ordered (`Datum.before_trans`, `Datum.before_asymm`). Whatever the order in which
the entries of a map are met, they end up ascending (`Visit.foldl_insertSorted_ascending`), and
entries that are ascending already stay as they are (`Visit.foldl_insertSorted_of_ascending`).
-/

namespace FlatUnion

namespace Datum

theorem before_iff {a b : Datum} : a.before b ↔ a.rank < b.rank := by
  simp [before]

theorem before_trans {a b c : Datum} (hab : a.before b) (hbc : b.before c) : a.before c :=
  before_iff.2 (List.lt_trans (before_iff.1 hab) (before_iff.1 hbc))

theorem before_asymm {a b : Datum} (h : a.before b) : b.before a = false := by
  rw [← Bool.not_eq_true, before_iff]
  exact List.lt_asymm (before_iff.1 h)

theorem textRank_injective : Function.Injective textRank := by
  intro s t h
  have h := List.append_cancel_right h
  refine String.toList_inj.1 (List.map_injective_iff.2 (fun c d hcd => ?_) h)
  exact Char.toNat_inj.1 (by omega)

/-- Two texts of which none stands before the other are the same. -/
theorem eq_of_not_before {s t : String} (h : (text s).before (text t) = false)
    (h' : (text t).before (text s) = false) : s = t := by
  rw [← Bool.not_eq_true, before_iff] at h h'
  exact textRank_injective (List.le_antisymm h' h)

end Datum

/-- Entries in the order of their keys, none of which stands there twice. -/
def Ascending (es : List (Datum × Datum)) : Prop :=
  es.Pairwise fun a b => a.1.before b.1

namespace Visit

variable {k v : Datum} {es : List (Datum × Datum)}

/-- What stands before all keys stands before one more that it stands before. -/
theorem before_insertSorted {a : Datum} (hk : a.before k) : ∀ {es : List (Datum × Datum)},
    (∀ e ∈ es, a.before e.1) → ∀ e ∈ insertSorted k v es, a.before e.1
  | [], _, e, he => by
    obtain rfl := List.mem_singleton.1 he
    exact hk
  | (k', v') :: rest, h, e, he => by
    have hrest : ∀ e ∈ rest, a.before e.1 := fun e he => h e (List.mem_cons_of_mem _ he)
    have hk' : a.before k' := h _ List.mem_cons_self
    rw [insertSorted] at he
    split_ifs at he
    · obtain rfl | he := List.mem_cons.1 he
      · exact hk
      · exact h e he
    · obtain rfl | he := List.mem_cons.1 he
      · exact hk'
      · exact before_insertSorted hk hrest e he
    · obtain rfl | he := List.mem_cons.1 he
      · exact hk'
      · exact hrest e he

theorem insertSorted_ascending : ∀ {es : List (Datum × Datum)}, Ascending es →
    Ascending (insertSorted k v es)
  | [], _ => List.pairwise_singleton _ _
  | (k', v') :: rest, h => by
    obtain ⟨hk', hrest⟩ := List.pairwise_cons.1 h
    rw [insertSorted]
    split_ifs with hlt hgt
    · refine List.pairwise_cons.2 ⟨fun e he => ?_, h⟩
      obtain rfl | he := List.mem_cons.1 he
      · exact hlt
      · exact Datum.before_trans hlt (hk' e he)
    · exact List.pairwise_cons.2 ⟨before_insertSorted hgt hk', insertSorted_ascending hrest⟩
    · exact List.pairwise_cons.2 ⟨hk', hrest⟩

/-- Entries are in order once they have been put in one by one. -/
theorem foldl_insertSorted_ascending (pairs : List (Datum × Datum)) :
    ∀ {sorted : List (Datum × Datum)}, Ascending sorted →
      Ascending (pairs.foldl (fun sorted e => insertSorted e.1 e.2 sorted) sorted) := by
  induction pairs with
  | nil => exact fun h => h
  | cons p pairs ih => exact fun h => ih (insertSorted_ascending h)

/-- A key that all others stand before is put last. -/
theorem insertSorted_last : ∀ {es : List (Datum × Datum)}, (∀ e ∈ es, e.1.before k) →
    insertSorted k v es = es ++ [(k, v)]
  | [], _ => rfl
  | (k', v') :: rest, h => by
    have hk' : k'.before k := h _ List.mem_cons_self
    rw [insertSorted, if_neg (by simp [Datum.before_asymm hk']), if_pos hk',
      insertSorted_last fun e he => h e (List.mem_cons_of_mem _ he), List.cons_append]

/-- Entries that are in order are put in as they stand. -/
theorem foldl_insertSorted_of_ascending : ∀ {pairs sorted : List (Datum × Datum)},
    Ascending (sorted ++ pairs) →
      pairs.foldl (fun sorted e => insertSorted e.1 e.2 sorted) sorted = sorted ++ pairs
  | [], sorted, _ => (List.append_nil sorted).symm
  | p :: pairs, sorted, h => by
    have hlast : insertSorted p.1 p.2 sorted = sorted ++ [p] :=
      insertSorted_last fun e he => (List.pairwise_append.1 h).2.2 e he p List.mem_cons_self
    have h : Ascending (sorted ++ [p] ++ pairs) := by
      rw [List.append_assoc]
      exact h
    rw [List.foldl_cons, hlast, foldl_insertSorted_of_ascending h, List.append_assoc]
    rfl

end Visit

end FlatUnion
