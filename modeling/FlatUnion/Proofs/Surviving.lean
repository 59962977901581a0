import FlatUnion.Proofs.Rereading

/-!
# Typed values that are kept

A format that describes itself shows a value that was written in one of many ways : it lends texts
for a shorter or a longer time, announces sizes or not, true ones or not, and marks newtypes or
leaves them out (`Datum.ShownAs`). In all of these the same is kept (`Datum.ofOffer_shown`), and
from what was kept the value is read again (`Ty.read_kept_shown`), whatever regular type it has :
options inside options, newtypes around options, variants without fields, and maps under any keys.
-/

namespace FlatUnion

/-! ## Ways to show a value -/

mutual

/-- What is offered shows a datum, newtypes marked or not : structs as maps of their fields, tuples
as sequences, a bare variant as its name, and any other as a map of one entry. -/
def Datum.ShownAs (marks : Bool) : Datum → Offer → Prop
  | .bool b, o => o = .scalar (.bool b)
  | .int w n, o => o = .scalar (.int w n)
  | .f32 bits, o => o = .scalar (.f32 bits)
  | .f64 bits, o => o = .scalar (.f64 bits)
  | .char c, o => o = .scalar (.char c)
  | .text s, o | .display s, o => ∃ lending, o = .scalar (.text lending s)
  | .bytes bs, o => ∃ lending, o = .scalar (.bytes lending bs)
  | .none, o => o = .none
  | .some inner, o => ∃ i, o = .some i ∧ inner.ShownAs marks i
  | .unit, o | .unitStruct _, o => o = .unit
  | .unitVariant v, o => ∃ lending, o = .scalar (.text lending v.name)
  | .newtypeStruct _ inner, o =>
    (marks = true ∧ ∃ i, o = .newtype i ∧ inner.ShownAs marks i) ∨
      (marks = false ∧ inner.ShownAs marks o)
  | .newtypeVariant v inner, o =>
    ∃ lending i hint, o = .map [(.scalar (.text lending v.name), i)] hint ∧ inner.ShownAs marks i
  | .seq items, o | .tuple items, o | .tupleStruct _ items, o =>
    ∃ os hint, o = .seq os hint ∧ listShownAs marks items os
  | .tupleVariant v items, o =>
    ∃ lending os hint outer, o = .map [(.scalar (.text lending v.name), .seq os hint)] outer ∧
      listShownAs marks items os
  | .map items, o => ∃ os hint, o = .map os hint ∧ itemsShownAs marks items os
  | .struct _ fields, o => ∃ os hint, o = .map os hint ∧ fieldsShownAs marks fields os
  | .structVariant v fields, o =>
    ∃ lending os hint outer, o = .map [(.scalar (.text lending v.name), .map os hint)] outer ∧
      fieldsShownAs marks fields os
  | .readability, _ | .fail _, _ => False

def listShownAs (marks : Bool) : List Datum → List Offer → Prop
  | [], os => os = []
  | d :: rest, os => ∃ o more, os = o :: more ∧ d.ShownAs marks o ∧ listShownAs marks rest more

def fieldsShownAs (marks : Bool) : List (String × Option Datum) → List (Offer × Offer) → Prop
  | [], os => os = []
  | (_, none) :: rest, os => fieldsShownAs marks rest os
  | (name, some d) :: rest, os =>
    ∃ lending o more, os = (.scalar (.text lending name), o) :: more ∧ d.ShownAs marks o ∧
      fieldsShownAs marks rest more

def itemsShownAs (marks : Bool) : List (Item Datum) → List (Offer × Offer) → Prop
  | [], os => os = []
  | .entry k v :: rest, os =>
    ∃ ko vo more, os = (ko, vo) :: more ∧ k.ShownAs marks ko ∧ v.ShownAs marks vo ∧
      itemsShownAs marks rest more
  | _ :: _, _ => False

end

mutual

/-- However a datum is shown, the same is kept. -/
theorem Datum.ofOffer_shown {marks : Bool} : ∀ {d : Datum} {o : Offer}, d.ShownAs marks o →
    Snapshot.ofOffer o = .ok (d.shown marks)
  | .bool _, _, rfl | .int _ _, _, rfl | .f32 _, _, rfl | .f64 _, _, rfl | .char _, _, rfl
  | .none, _, rfl | .unit, _, rfl | .unitStruct _, _, rfl => rfl
  | .text _, _, ⟨_, rfl⟩ | .display _, _, ⟨_, rfl⟩ | .bytes _, _, ⟨_, rfl⟩
  | .unitVariant _, _, ⟨_, rfl⟩ => rfl
  | .some inner, _, ⟨i, ho, hi⟩ => by
    rw [ho, Snapshot.ofOffer, inner.ofOffer_shown hi]
    rfl
  | .newtypeStruct _ inner, _, .inl ⟨hmarks, i, ho, hi⟩ => by
    rw [ho, Snapshot.ofOffer, inner.ofOffer_shown hi, Datum.shown, if_pos hmarks]
    rfl
  | .newtypeStruct _ inner, _, .inr ⟨hmarks, hi⟩ => by
    rw [inner.ofOffer_shown hi, Datum.shown, if_neg (by simp [hmarks])]
  | .newtypeVariant v inner, _, ⟨lending, i, hint, ho, hi⟩ => by
    rw [ho, Snapshot.ofOffer, Snapshot.ofEntries, Snapshot.ofOffer, inner.ofOffer_shown hi]
    rfl
  | .seq items, _, ⟨os, hint, ho, hos⟩ | .tuple items, _, ⟨os, hint, ho, hos⟩
  | .tupleStruct _ items, _, ⟨os, hint, ho, hos⟩ => by
    rw [ho, Snapshot.ofOffer, ofItems_shown hos]
    rfl
  | .tupleVariant v items, _, ⟨lending, os, hint, outer, ho, hos⟩ => by
    rw [ho, Snapshot.ofOffer, Snapshot.ofEntries, Snapshot.ofOffer, Snapshot.ofOffer,
      ofItems_shown hos]
    rfl
  | .map items, _, ⟨os, hint, ho, hos⟩ => by
    rw [ho, Snapshot.ofOffer, ofEntries_items_shown hos]
    rfl
  | .struct _ fields, _, ⟨os, hint, ho, hos⟩ => by
    rw [ho, Snapshot.ofOffer, ofEntries_fields_shown hos]
    rfl
  | .structVariant v fields, _, ⟨lending, os, hint, outer, ho, hos⟩ => by
    rw [ho, Snapshot.ofOffer, Snapshot.ofEntries, Snapshot.ofOffer, Snapshot.ofOffer,
      ofEntries_fields_shown hos]
    rfl

theorem ofItems_shown {marks : Bool} : ∀ {ds : List Datum} {os : List Offer},
    listShownAs marks ds os → Snapshot.ofItems os = .ok (shownList marks ds)
  | [], _, rfl => rfl
  | d :: rest, _, ⟨o, more, hos, ho, hmore⟩ => by
    rw [hos, Snapshot.ofItems, d.ofOffer_shown ho, ofItems_shown hmore]
    rfl

theorem ofEntries_fields_shown {marks : Bool} : ∀ {fields : List (String × Option Datum)}
    {os : List (Offer × Offer)}, fieldsShownAs marks fields os →
      Snapshot.ofEntries os = .ok (shownFields marks fields)
  | [], _, rfl => rfl
  | (_, none) :: rest, _, h => @ofEntries_fields_shown marks rest _ h
  | (name, some d) :: rest, _, ⟨lending, o, more, hos, ho, hmore⟩ => by
    rw [hos, Snapshot.ofEntries, d.ofOffer_shown ho, ofEntries_fields_shown hmore]
    rfl

theorem ofEntries_items_shown {marks : Bool} : ∀ {items : List (Item Datum)}
    {os : List (Offer × Offer)}, itemsShownAs marks items os →
      Snapshot.ofEntries os = .ok (shownItems marks items)
  | [], _, rfl => rfl
  | .entry k v :: rest, _, ⟨ko, vo, more, hos, hk, hv, hmore⟩ => by
    rw [hos, Snapshot.ofEntries, k.ofOffer_shown hk, v.ofOffer_shown hv,
      ofEntries_items_shown hmore]
    rfl

end

/-! ## Reading it again -/

/-- A value of a regular type that is shown in any way can be kept, and is read from what was kept
as the same value. -/
theorem Ty.read_kept_shown {t : Ty} {d : Datum} (ht : t.regular) (hd : t.Has false d)
    {marks : Bool} {o : Offer} (ho : d.ShownAs marks o) :
    ∃ c, Snapshot.ofOffer o = .ok c ∧ t.read c = .ok d :=
  ⟨d.shown marks, d.ofOffer_shown ho, t.read_shown marks ht hd⟩

/-- An enum whose variants have no fields, or an option around an option. -/
def corner : Ty :=
  .enum "Corner" .external
    [("Bare", .unit, .unit), ("Empty", .tuple, .tuple []),
     ("Blank", .struct, .struct { name := "Blank" } []),
     ("Held", .newtype, .option (.newtypeStruct "Maybe" (.option .unit)))]

/-- A map of such values under options of characters. -/
def corners : Datum :=
  .ofEntries
    [(.none, .structVariant ⟨"Corner", 2, "Blank"⟩ []),
     (.some (.char 'x'),
       .newtypeVariant ⟨"Corner", 3, "Held"⟩ (.some (.newtypeStruct "Maybe" .none)))]

/-- The map in a format that marks newtypes and announces a size that is not true. -/
def cornersShown : Offer :=
  .map
    [(.none, .map [(.scalar (.text .lasting "Blank"), .map [] none)] (some 1)),
     (.some (.scalar (.char 'x')),
      .map [(.scalar (.text .passing "Held"), .some (.newtype .none))] none)] (some 7)

theorem has_corners : (Ty.map (.option .char) corner).Has false corners := by
  refine ⟨_, rfl, List.pairwise_pair.2 (by decide), fun e he => ?_⟩
  simp only [List.mem_cons, List.not_mem_nil, or_false] at he
  obtain rfl | rfl := he
  · exact ⟨.inl ⟨rfl, rfl⟩, 2, "Blank", .struct [], rfl, rfl, [], rfl, rfl⟩
  · exact ⟨.inr ⟨_, rfl, _, rfl⟩, 3, "Held", .newtype _, rfl, rfl,
      .inr ⟨_, rfl, _, rfl, .inl ⟨rfl, rfl⟩⟩⟩

theorem corners_shownAs : corners.ShownAs true cornersShown :=
  ⟨_, _, rfl, _, _, _, rfl, rfl, ⟨_, _, _, _, rfl, rfl⟩, _, _, _, rfl, ⟨_, rfl, rfl⟩,
    ⟨_, _, _, rfl, _, rfl, .inl ⟨rfl, _, rfl, rfl⟩⟩, rfl⟩

theorem read_kept_shown_corners :
    (Ty.map (.option .char) corner).regular ∧ (Ty.map (.option .char) corner).Has false corners ∧
      corners.ShownAs true cornersShown ∧ ∃ c, Snapshot.ofOffer cornersShown = .ok c ∧
        (Ty.map (.option .char) corner).read c = .ok corners :=
  have ht : (Ty.map (.option .char) corner).regular := by decide
  ⟨ht, has_corners, corners_shownAs, Ty.read_kept_shown ht has_corners corners_shownAs⟩

end FlatUnion
