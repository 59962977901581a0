import FlatUnion.Proofs.Yields
import FlatUnion.Type.Read

/-!
# Readers of two sources

Two sources can show one value in different ways, and a reader may take it from the one exactly as
from the other. A result follows another if it is the same wherever the other is good (`Follows`).
What two sources must have in common for this is a `Simulation` : wherever the first answers a
request with something of use, the second answers with the same, opened by one level, and lets go of
it as readily.

Each reader of one value follows itself along a simulation, if the readers of the parts do. So does
the reader of a type, whatever is done to the keys of its maps on the way (`Ty.mapKeys`,
`Ty.read_follows`).
-/

namespace FlatUnion

variable {σ τ α β : Type}

/-! ## Results -/

/-- The second result is that of the first wherever the first is good. -/
def Follows (x y : Except Fault α) : Prop := ∀ a, x = .ok a → y = .ok a

/-- The second reader does as the first wherever the first succeeds. -/
def Outcome.Follows (x y : Outcome α) : Prop := ∀ p a, x = ⟨p, .ok a⟩ → y = ⟨p, .ok a⟩

namespace Follows

theorem refl (x : Except Fault α) : Follows x x :=
  fun _ h => h

theorem of_eq {x y : Except Fault α} (h : x = y) : Follows x y :=
  h ▸ refl x

theorem error (f : Fault) (y : Except Fault α) : Follows (.error f) y :=
  fun _ h => nomatch h

theorem bind {x y : Except Fault α} {f g : α → Except Fault β} (h : Follows x y)
    (hf : ∀ a, Follows (f a) (g a)) : Follows (x >>= f) (y >>= g) := by
  intro b hb
  obtain ⟨a, ha, hb⟩ := bind_eq_ok.1 hb
  exact bind_eq_ok.2 ⟨a, h a ha, hf a b hb⟩

theorem map {x y : Except Fault α} (f : α → β) (h : Follows x y) : Follows (x.map f) (y.map f) := by
  intro b hb
  obtain ⟨a, ha, rfl⟩ := map_eq_ok.1 hb
  exact map_eq_ok.2 ⟨a, h a ha, rfl⟩

end Follows

namespace Outcome.Follows

theorem of_eq {x y : Outcome α} (h : x = y) : x.Follows y :=
  fun _ _ hx => h ▸ hx

theorem error {p : Progress} (f : Fault) (y : Outcome α) : Follows ⟨p, .error f⟩ y := by
  intro q a h
  simp at h

theorem plain {x y : Except Fault α} (h : FlatUnion.Follows x y) :
    Follows (.plain x) (.plain y) := by
  intro p a hx
  obtain ⟨rfl, rfl⟩ := Outcome.mk.inj hx
  rw [h a rfl]
  rfl

theorem map {x y : Outcome α} (f : α → β) (h : x.Follows y) : (x.map f).Follows (y.map f) := by
  intro p b hb
  obtain ⟨a, ha, rfl⟩ := Outcome.map_eq_mk_ok.1 hb
  exact Outcome.map_eq_mk_ok.2 ⟨a, h p a ha, rfl⟩

theorem andThen {x y : Outcome α} {f g : α → Except Fault β} (h : x.Follows y)
    (hf : ∀ a, FlatUnion.Follows (f a) (g a)) : (x.andThen f).Follows (y.andThen g) := by
  intro p b hb
  obtain ⟨q, r⟩ := x
  cases r with
  | error e => simp [Outcome.andThen, Except.bind] at hb
  | ok a =>
    obtain ⟨rfl, hb⟩ := Outcome.mk.inj hb
    rw [h q a rfl]
    exact congrArg (Outcome.mk q) (hf a b (congrArg Outcome.result hb))

end Outcome.Follows

/-! ## Readers that are done

A reader that returns a value has read whole parts, also where it has not read all of them. -/

/-- A reader that succeeds has not stopped between a key and its value. -/
def Outcome.Settled (o : Outcome α) : Prop := ∀ x, o.result = .ok x → o.progress.keyTaken = false

namespace Outcome.Settled

theorem plain (x : Except Fault α) : Settled (.plain x) :=
  fun _ _ => rfl

theorem error (p : Progress) (f : Fault) : Settled (⟨p, .error f⟩ : Outcome α) :=
  nofun

theorem refuse (expected : String) (c : Call σ) : Settled (refuse expected c : Outcome α) :=
  plain _

theorem map {o : Outcome α} (h : o.Settled) (f : α → β) : (o.map f).Settled := by
  intro _ hx
  obtain ⟨x, hx, -⟩ := map_eq_ok.1 hx
  exact h x hx

theorem andThen {o : Outcome α} (h : o.Settled) (f : α → Except Fault β) :
    (o.andThen f).Settled := by
  intro _ hx
  obtain ⟨x, hx, -⟩ := bind_eq_ok.1 hx
  exact h x hx

end Outcome.Settled

theorem readItems_settled {read : σ → Except Fault α} (done : Nat) (as : List σ) :
    (readItems read none done as).Settled := by
  intro xs hread
  rw [(readItems_eq_ok.1 (Outcome.eq_mk_of_result hread)).1]

theorem readEntries_settled {κ : Type} {readKey : σ → Except Fault κ} {read : σ → Except Fault α}
    (done : Nat) (entries : List (σ × σ)) :
    (readEntries readKey (fun _ => read) none done entries).Settled := by
  intro xs hread
  rw [(readEntries_eq_ok.1 (Outcome.eq_mk_of_result hread)).1]

namespace Visit

theorem inOrder_settled (lengths : String) : ∀ (done : Nat)
    (readers : List (σ → Except Fault Datum)) (as : List σ),
      (inOrder lengths done readers as).Settled
  | done, [], as => by
    rw [inOrder]
    exact fun _ _ => rfl
  | done, _ :: _, [] => by
    rw [inOrder]
    exact .error _ _
  | done, read :: readers, a :: as => by
    rw [inOrder]
    split
    · exact .error _ _
    · exact (inOrder_settled lengths (done + 1) readers as).map _

theorem fieldsInOrder_settled (lengths : String) : ∀ (i done : Nat) (readers : List (FieldReader σ))
    (as : List σ), (fieldsInOrder lengths i done readers as).Settled
  | i, done, [], as => by
    rw [fieldsInOrder]
    exact fun _ _ => rfl
  | i, done, r :: readers, [] => by
    rw [fieldsInOrder]
    split
    · exact (fieldsInOrder_settled lengths (i + 1) done readers []).map _
    · exact .error _ _
  | i, done, r :: readers, a :: as => by
    rw [fieldsInOrder]
    split
    · exact .error _ _
    · exact (fieldsInOrder_settled lengths (i + 1) (done + 1) readers as).map _

theorem slots_settled [Source σ] {named : List (FieldReader σ)}
    {readKey : σ → Except Fault FieldKey} {collecting : Bool} :
    ∀ (done : Nat) (found : Slots) (entries : List (σ × σ)),
      (slots named readKey collecting done found entries).Settled
  | done, found, [] => fun _ _ => rfl
  | done, found, (k, v) :: rest => by
    rw [slots]
    split
    · exact .error _ _
    · split
      · split
        · exact .error _ _
        · exact slots_settled (done + 1) _ rest
      · exact .error _ _
      · exact fun _ _ => rfl
    · split_ifs
      · split
        · exact .error _ _
        · exact slots_settled (done + 1) _ rest
      · split
        · exact .error _ _
        · exact slots_settled (done + 1) _ rest

end Visit

/-! ## Calls -/

/-- Two calls that answer a request alike, given which parts are alike. A text may be lent in
different ways, and where an integer of the widest kind is asked for it may be shown in different
widths. -/
inductive Call.Like (value key : σ → τ → Prop) (r : Request) : Call σ → Call τ → Prop
  | scalar (s : Scalar) : Like value key r (.scalar s) (.scalar s)
  | text (l l' : Lending) (s : String) :
    Like value key r (.scalar (.text l s)) (.scalar (.text l' s))
  | wide {w : Width} (hr : r = .int w) (hw : w.isWide) (v v' : Width) (n : Int) :
    Like value key r (.scalar (.int v n)) (.scalar (.int v' n))
  | none : Like value key r .none .none
  | some {a : σ} {b : τ} (h : value a b) : Like value key r (.some a) (.some b)
  | unit : Like value key r .unit .unit
  | newtype {a : σ} {b : τ} (h : value a b) : Like value key r (.newtype a) (.newtype b)
  | seq {as : List σ} {bs : List τ} (h : List.Forall₂ value as bs) (n m : Option Nat) :
    Like value key r (.seq as n) (.seq bs m)
  | map {ds : List (σ × σ)} {es : List (τ × τ)}
    (h : List.Forall₂ (fun d e => key d.1 e.1 ∧ value d.2 e.2) ds es) (n m : Option Nat) :
    Like value key r (.map ds n) (.map es m)
  | bare {a : σ} {b : τ} (h : key a b) :
    Like value key r (.enum a Option.none) (.enum b Option.none)
  | enum {a c : σ} {b d : τ} (h : key a b) (hc : value c d) :
    Like value key r (.enum a (Option.some c)) (.enum b (Option.some d))

/-- What is like something is so the other way round. -/
theorem Call.Like.symm {value key : σ → τ → Prop} {r : Request} {c : Call σ} {d : Call τ}
    (h : Like value key r c d) : Like (fun b a => value a b) (fun b a => key a b) r d c := by
  cases h with
  | scalar s => exact .scalar s
  | text l l' s => exact .text l' l s
  | wide hr hw v v' n => exact .wide hr hw v' v n
  | none => exact .none
  | some h => exact .some h
  | unit => exact .unit
  | newtype h => exact .newtype h
  | seq h n m => exact .seq h.flip m n
  | map h n m => exact .map h.flip m n
  | bare h => exact .bare h
  | enum h hc => exact .enum h hc

/-- Whether a call is of use to a reader that made a request. -/
def Request.takes : Request → Call σ → Bool
  | .bool, .scalar (.bool _) => true
  | .int w, .scalar (.int _ n) => w.fits n
  | .f32, .scalar (.int ..) | .f32, .scalar (.f32 _) | .f32, .scalar (.f64 _) => true
  | .f64, .scalar (.int ..) | .f64, .scalar (.f32 _) | .f64, .scalar (.f64 _) => true
  | .char, .scalar (.char _) | .char, .scalar (.text ..) => true
  | .string, .scalar (.char _) | .string, .scalar (.text ..) | .string, .scalar (.bytes ..) => true
  | .identifier, .scalar (.char _) | .identifier, .scalar (.text ..) => true
  | .identifier, .scalar (.bytes ..) | .identifier, .scalar (.int ..) => true
  | .unit, .unit | .unitStruct, .unit => true
  | .option, .none | .option, .unit | .option, .some _ => true
  | .newtypeStruct, .newtype _ | .newtypeStruct, .seq .. => true
  | .seq, .seq .. | .tuple, .seq .. | .tupleStruct, .seq .. | .tupleVariant, .seq .. => true
  | .map, .map .. => true
  | .struct, .map .. | .struct, .seq .. | .structVariant, .map .. | .structVariant, .seq .. => true
  | .enum, .enum .. => true
  | _, _ => false

/-- Whether a call is of use to a reader that made a request. Of an enum the name of the variant
must be told. -/
def Call.Useful [Source σ] (r : Request) : Call σ → Prop
  | .enum variant _ => r = .enum ∧ ∃ x, Source.answer .identifier variant = .ok x
  | c => r.takes c

/-- Whether a key is asked for by a request. -/
def Request.ofKey : Request → Bool
  | .char | .string | .identifier => true
  | _ => false

/-- Whether a value is asked for by a request. With `zeros` there may be negative zeros, and no
signed integer of the widest kind is asked for. -/
def Request.ofValue (zeros : Bool) : Request → Bool
  | .int w => !(zeros && w = .i128)
  | .identifier => false
  | _ => true

/-- The second answer is like the first, and no harder to close for a reader that has not stopped
between a key and its value. -/
def Answer.Follows (value key : σ → τ → Prop) (r : Request) (x : Answer σ) (y : Answer τ) : Prop :=
  Call.Like value key r x.call y.call ∧
    ∀ p, p.keyTaken = false → x.close p = .ok () → y.close p = .ok ()

/-- A source that answers as another does, as long as that one answers with something of use, and
can be closed. -/
structure Simulation (zeros : Bool) (σ τ : Type) [Source σ] [Source τ] where
  value : σ → τ → Prop
  key : σ → τ → Prop
  answer_value {a : σ} {b : τ} {r : Request} {x : Answer σ} : value a b → r.ofValue zeros →
    Source.answer r a = .ok x → x.call.Useful r → (∃ p, x.close p = .ok ()) →
      ∃ y : Answer τ, Source.answer r b = .ok y ∧ x.Follows value key r y
  answer_key {a : σ} {b : τ} {r : Request} {x : Answer σ} : key a b → r.ofKey →
    Source.answer r a = .ok x → x.call.Useful r →
      ∃ y : Answer τ, Source.answer r b = .ok y ∧ x.Follows value key r y
  skip_value {a : σ} {b : τ} : value a b → Follows (Source.skip a) (Source.skip b)

/-- A call is like itself. -/
theorem Call.Like.refl [Source σ] {r : Request} {c : Call σ} (h : c.Useful r) :
    Like Eq Eq r c c := by
  cases c with
  | scalar s => exact .scalar s
  | none => exact .none
  | some inner => exact .some rfl
  | unit => exact .unit
  | newtype inner => exact .newtype rfl
  | seq items hint => exact .seq (List.forall₂_refl items) hint hint
  | map entries hint => exact .map (List.forall₂_same.2 fun _ _ => ⟨rfl, rfl⟩) hint hint
  | enum variant content =>
    cases content with
    | none => exact .bare rfl
    | some content => exact .enum rfl rfl
  | refused found => cases r <;> simp [Call.Useful, Request.takes] at h

/-- A source answers as itself. -/
def Simulation.refl (zeros : Bool) (σ : Type) [Source σ] : Simulation zeros σ σ where
  value := Eq
  key := Eq
  answer_value := by
    rintro a _ r x rfl - ha hx -
    exact ⟨x, ha, .refl hx, fun _ _ => id⟩
  answer_key := by
    rintro a _ r x rfl - ha hx
    exact ⟨x, ha, .refl hx, fun _ _ => id⟩
  skip_value := by
    rintro a _ rfl
    exact Follows.refl _

/-! ## Readers of one value -/

/-- Two readers, each of its source, that do alike after a request, given which parts are alike. -/
structure VisitsAlike [Source σ] (value key : σ → τ → Prop) (r : Request) (f : Call σ → Outcome α)
    (g : Call τ → Outcome α) : Prop where
  follows {c : Call σ} {d : Call τ} : Call.Like value key r c d → (f c).Follows (g d)
  useful {c : Call σ} {x : α} : (f c).result = .ok x → c.Useful r
  settled (c : Call σ) : (f c).Settled

theorem VisitsAlike.consult [Source σ] [Source τ] {value key : σ → τ → Prop} {r : Request}
    {f : Call σ → Outcome α} {g : Call τ → Outcome α} (h : VisitsAlike value key r f g)
    {a : σ} {b : τ}
    (hab : ∀ x : Answer σ, Source.answer r a = .ok x → x.call.Useful r →
      (∃ p, x.close p = .ok ()) → ∃ y : Answer τ, Source.answer r b = .ok y ∧
        x.Follows value key r y) :
    Follows (consult r a f) (consult r b g) := by
  intro d hd
  obtain ⟨x, hx, hread, hclose⟩ := consult_eq_ok.1 hd
  obtain ⟨y, hy, hlike, hclose'⟩ := hab x hx (h.useful hread) ⟨_, hclose⟩
  have hg := h.follows hlike _ d (Outcome.eq_mk_of_result hread)
  refine consult_eq_ok.2 ⟨y, hy, ?_, ?_⟩
  · rw [hg]
  · rw [hg]
    exact hclose' _ (h.settled x.call d hread) hclose

theorem VisitsAlike.map [Source σ] {value key : σ → τ → Prop} {r : Request} {f : Call σ → Outcome α}
    {g : Call τ → Outcome α} (h : VisitsAlike value key r f g) (k : α → β) :
    VisitsAlike value key r (fun c => (f c).map k) (fun c => (g c).map k) where
  follows hc := (h.follows hc).map k
  useful hx := by
    obtain ⟨x, hx, -⟩ := map_eq_ok.1 hx
    exact h.useful hx
  settled c := (h.settled c).map k

namespace Simulation

variable {zeros : Bool} [Source σ] [Source τ] (S : Simulation zeros σ τ) {a : σ} {b : τ}
  {r : Request} {f : Call σ → Outcome α} {g : Call τ → Outcome α}

/-- What is read of a value is read of the other. -/
theorem consult_value (hab : S.value a b) (hr : r.ofValue zeros)
    (h : VisitsAlike S.value S.key r f g) : Follows (consult r a f) (consult r b g) :=
  h.consult fun _ hx huseful hclose => S.answer_value hab hr hx huseful hclose

/-- What is read of a key is read of the other. -/
theorem consult_key (hab : S.key a b) (hr : r.ofKey) (h : VisitsAlike S.value S.key r f g) :
    Follows (consult r a f) (consult r b g) :=
  h.consult fun _ hx huseful _ => S.answer_key hab hr hx huseful

end Simulation

theorem refuse_follows (expected : String) (c : Call σ) (y : Outcome α) :
    (refuse expected c : Outcome α).Follows y :=
  .error _ y

theorem result_refuse {expected : String} {c : Call σ} {x : α} :
    (refuse expected c).result ≠ .ok x :=
  nofun

namespace Visit

section Scalars

variable [Source σ] {value key : σ → τ → Prop}

theorem bool_alike : VisitsAlike value key .bool bool bool where
  follows h := by
    cases h with
    | scalar s => exact .of_eq (by cases s <;> rfl)
    | wide hr => nomatch hr
    | _ => exact refuse_follows _ _ _
  useful h := by
    unfold bool at h
    split at h
    · rfl
    · exact absurd h result_refuse
  settled c := by
    unfold bool
    split
    · exact .plain _
    · exact .refuse _ _

theorem int_alike (w : Width) : VisitsAlike value key (.int w) (int w) (int w) where
  follows h := by
    cases h with
    | scalar s => exact .of_eq (by cases s <;> rfl)
    | wide hr hw v v' n =>
      obtain rfl := Request.int.inj hr
      intro p a ha
      simp only [int, hw, Bool.not_true, Bool.and_false, Bool.false_eq_true, if_false] at ha ⊢
      split at ha
      · rwa [if_pos ‹_›]
      · simp [Outcome.plain] at ha
    | _ => exact refuse_follows _ _ _
  useful h := by
    unfold int at h
    split at h
    · split at h
      · exact absurd h result_refuse
      · split at h
        · assumption
        · nomatch h
    · exact absurd h result_refuse
  settled c := by
    unfold int
    split
    · split
      · exact .refuse _ _
      · split <;> exact .plain _
    · exact .refuse _ _

theorem f32_alike : VisitsAlike value key .f32 f32 f32 where
  follows h := by
    cases h with
    | scalar s => exact .of_eq (by cases s <;> rfl)
    | wide hr => nomatch hr
    | _ => exact refuse_follows _ _ _
  useful {c x} h := by
    unfold f32 at h
    split at h
    · next s =>
      cases s with
      | int | f32 | f64 => rfl
      | _ => exact absurd h result_refuse
    · exact absurd h result_refuse
  settled c := by
    unfold f32
    split
    · split
      · exact .plain _
      · exact .refuse _ _
    · exact .refuse _ _

theorem f64_alike : VisitsAlike value key .f64 f64 f64 where
  follows h := by
    cases h with
    | scalar s => exact .of_eq (by cases s <;> rfl)
    | wide hr => nomatch hr
    | _ => exact refuse_follows _ _ _
  useful {c x} h := by
    unfold f64 at h
    split at h
    · next s =>
      cases s with
      | int | f32 | f64 => rfl
      | _ => exact absurd h result_refuse
    · exact absurd h result_refuse
  settled c := by
    unfold f64
    split
    · split
      · exact .plain _
      · exact .refuse _ _
    · exact .refuse _ _

theorem char_alike : VisitsAlike value key .char char char where
  follows h := by
    cases h with
    | scalar s => exact .of_eq (by cases s <;> rfl)
    | text l l' s => exact .of_eq rfl
    | wide hr => nomatch hr
    | _ => exact refuse_follows _ _ _
  useful h := by
    unfold char at h
    split at h
    · rfl
    · rfl
    · exact absurd h result_refuse
  settled c := by
    unfold char
    split
    · exact .plain _
    · split <;> exact .plain _
    · exact .refuse _ _

theorem text_alike : VisitsAlike value key .string text text where
  follows h := by
    cases h with
    | scalar s => exact .of_eq (by cases s <;> rfl)
    | text l l' s => exact .of_eq rfl
    | wide hr => nomatch hr
    | _ => exact refuse_follows _ _ _
  useful h := by
    unfold text at h
    split at h
    · rfl
    · rfl
    · rfl
    · exact absurd h result_refuse
  settled c := by
    unfold text
    split
    · exact .plain _
    · exact .plain _
    · split <;> exact .plain _
    · exact .refuse _ _

theorem unit_alike : VisitsAlike value key .unit unit unit where
  follows h := by
    cases h with
    | unit => exact .of_eq rfl
    | _ => exact refuse_follows _ _ _
  useful h := by
    unfold unit at h
    split at h
    · rfl
    · exact absurd h result_refuse
  settled c := by
    unfold unit
    split
    · exact .plain _
    · exact .refuse _ _

theorem unitStruct_alike (name : String) :
    VisitsAlike value key .unitStruct (unitStruct name) (unitStruct name) where
  follows h := by
    cases h with
    | unit => exact .of_eq rfl
    | _ => exact refuse_follows _ _ _
  useful h := by
    unfold unitStruct at h
    split at h
    · rfl
    · exact absurd h result_refuse
  settled c := by
    unfold unitStruct
    split
    · exact .plain _
    · exact .refuse _ _

end Scalars

/-! ## Parts -/

section Parts

variable {value key : σ → τ → Prop}

/-- What was made of the one list is made of the other, if it is so element by element. -/
theorem forall₂_transport {γ δ ε : Type} {R : γ → δ → Prop} {P : γ → ε → Prop} {Q : δ → ε → Prop}
    (h : ∀ c d e, R c d → P c e → Q d e) {cs : List γ} {ds : List δ} (hs : List.Forall₂ R cs ds) :
    ∀ {es : List ε}, List.Forall₂ P cs es → List.Forall₂ Q ds es := by
  induction hs with
  | nil =>
    intro es hes
    obtain rfl := List.forall₂_nil_left_iff.1 hes
    exact .nil
  | cons hcd _ ih =>
    intro es hes
    obtain ⟨e, rest, he, hrest, rfl⟩ := List.forall₂_cons_left_iff.1 hes
    exact .cons (h _ _ e hcd he) (ih hrest)

/-- At each place there is something in both lists or in neither. -/
theorem getElem?_beside {γ δ : Type} {R : γ → δ → Prop} {cs : List γ} {ds : List δ}
    (h : List.Forall₂ R cs ds) (i : Nat) :
    cs[i]? = Option.none ∧ ds[i]? = Option.none ∨
      ∃ c d, cs[i]? = Option.some c ∧ ds[i]? = Option.some d ∧ R c d := by
  by_cases hi : i < cs.length
  · have hi' : i < ds.length := h.length_eq ▸ hi
    exact .inr ⟨_, _, List.getElem?_eq_getElem hi, List.getElem?_eq_getElem hi', h.get hi hi'⟩
  · have hi' : ¬ i < ds.length := h.length_eq ▸ hi
    exact .inl ⟨List.getElem?_eq_none (Nat.le_of_not_lt hi),
      List.getElem?_eq_none (Nat.le_of_not_lt hi')⟩

/-- The elements of a sequence are read alike. -/
theorem readItems_follows {read : σ → Except Fault α} {read' : τ → Except Fault α}
    (h : ∀ a b, value a b → Follows (read a) (read' b)) (done : Nat) {as : List σ} {bs : List τ}
    (hs : List.Forall₂ value as bs) :
    (readItems read none done as).Follows (readItems read' none done bs) := by
  intro p xs hread
  obtain ⟨rfl, hxs⟩ := readItems_eq_ok.1 hread
  rw [hs.length_eq]
  exact readItems_eq_ok.2 ⟨rfl, forall₂_transport (fun a b x hab => h a b hab x) hs hxs⟩

/-- The entries of a map are read alike. -/
theorem readEntries_follows {κ : Type} {readKey : σ → Except Fault κ}
    {readKey' : τ → Except Fault κ}
    {read : σ → Except Fault α} {read' : τ → Except Fault α}
    (hk : ∀ a b, key a b → Follows (readKey a) (readKey' b))
    (h : ∀ a b, value a b → Follows (read a) (read' b)) (done : Nat)
    {ds : List (σ × σ)} {es : List (τ × τ)}
    (hs : List.Forall₂ (fun d e => key d.1 e.1 ∧ value d.2 e.2) ds es) :
    (readEntries readKey (fun _ => read) none done ds).Follows
      (readEntries readKey' (fun _ => read') none done es) := by
  intro p xs hread
  obtain ⟨rfl, hxs⟩ := readEntries_eq_ok.1 hread
  rw [hs.length_eq]
  refine readEntries_eq_ok.2 ⟨rfl, forall₂_transport ?_ hs hxs⟩
  rintro d e x ⟨hkey, hvalue⟩ ⟨hx₁, hx₂⟩
  exact ⟨hk _ _ hkey _ hx₁, h _ _ hvalue _ hx₂⟩

/-- Elements that have a reader each are read alike. -/
theorem inOrder_follows (lengths : String) {readers : List (σ → Except Fault Datum)}
    {readers' : List (τ → Except Fault Datum)}
    (h : List.Forall₂ (fun f g => ∀ a b, value a b → Follows (f a) (g b)) readers readers') :
    ∀ (done : Nat) {as : List σ} {bs : List τ}, List.Forall₂ value as bs →
      (inOrder lengths done readers as).Follows (inOrder lengths done readers' bs) := by
  induction h with
  | nil =>
    intro done as bs _
    rw [inOrder, inOrder]
    exact .of_eq rfl
  | @cons f g _ _ hfg _ ih =>
    intro done as bs hs
    cases hs with
    | nil => exact .error _ _
    | @cons a b as bs hab hs =>
      rw [inOrder, inOrder]
      cases hfa : f a with
      | error e => exact .error _ _
      | ok d =>
        rw [hfg a b hab d hfa]
        exact (ih (done + 1) hs).map _

variable [Source σ]

theorem option_alike {read : σ → Except Fault Datum} {read' : τ → Except Fault Datum}
    (h : ∀ a b, value a b → Follows (read a) (read' b)) :
    VisitsAlike value key .option (option read) (option read') := by
  have hopt : VisitsAlike value key .option (optional read) (optional read') :=
    { follows := fun hc => by
        cases hc with
        | none | unit => exact .of_eq rfl
        | some hab => exact .plain ((h _ _ hab).map _)
        | _ => exact refuse_follows _ _ _
      useful := fun {c x} hx => by
        unfold optional at hx
        split at hx
        · rfl
        · rfl
        · rfl
        · exact absurd hx result_refuse
      settled := fun c => by
        unfold optional
        split
        · exact .plain _
        · exact .plain _
        · exact .plain _
        · exact .refuse _ _ }
  exact hopt.map _

theorem list_alike {read : σ → Except Fault Datum} {read' : τ → Except Fault Datum}
    (h : ∀ a b, value a b → Follows (read a) (read' b)) :
    VisitsAlike value key .seq (list read) (list read') := by
  have helements : VisitsAlike value key .seq (elements read) (elements read') :=
    { follows := fun hc => by
        cases hc with
        | seq hs => exact readItems_follows h 0 hs
        | _ => exact refuse_follows _ _ _
      useful := fun {c x} hx => by
        unfold elements at hx
        split at hx
        · rfl
        · exact absurd hx result_refuse
      settled := fun c => by
        unfold elements
        split
        · exact readItems_settled 0 _
        · exact .refuse _ _ }
  exact helements.map _

theorem items_alike {r : Request} (hr : ∀ (items : List σ) hint, r.takes (.seq items hint))
    (what lengths : String) {readers : List (σ → Except Fault Datum)}
    {readers' : List (τ → Except Fault Datum)}
    (h : List.Forall₂ (fun f g => ∀ a b, value a b → Follows (f a) (g b)) readers readers') :
    VisitsAlike value key r (items what lengths readers) (items what lengths readers') where
  follows hc := by
    cases hc with
    | seq hs => exact inOrder_follows lengths h 0 hs
    | _ => exact refuse_follows _ _ _
  useful hx := by
    unfold items at hx
    split at hx
    · exact hr _ _
    · exact absurd hx result_refuse
  settled c := by
    unfold items
    split
    · exact inOrder_settled _ 0 _ _
    · exact .refuse _ _

theorem map_alike {readKey read : σ → Except Fault Datum} {readKey' read' : τ → Except Fault Datum}
    (hk : ∀ a b, key a b → Follows (readKey a) (readKey' b))
    (h : ∀ a b, value a b → Follows (read a) (read' b)) :
    VisitsAlike value key .map (map readKey read) (map readKey' read') where
  follows hc := by
    cases hc with
    | map hs => exact (readEntries_follows hk h 0 hs).map _
    | _ => exact refuse_follows _ _ _
  useful hx := by
    unfold map at hx
    split at hx
    · rfl
    · exact absurd hx result_refuse
  settled c := by
    unfold map
    split
    · exact (readEntries_settled 0 _).map _
    · exact .refuse _ _

theorem newtypeStruct_alike (name : String) {read : σ → Except Fault Datum}
    {read' : τ → Except Fault Datum} (h : ∀ a b, value a b → Follows (read a) (read' b)) :
    VisitsAlike value key .newtypeStruct (newtypeStruct name read) (newtypeStruct name read') where
  follows hc := by
    cases hc with
    | newtype hab => exact .plain ((h _ _ hab).map _)
    | seq hs => exact (inOrder_follows _ (.cons h .nil) 0 hs).map _
    | _ => exact refuse_follows _ _ _
  useful hx := by
    unfold newtypeStruct at hx
    split at hx
    · rfl
    · rfl
    · exact absurd hx result_refuse
  settled c := by
    unfold newtypeStruct
    split
    · exact .plain _
    · exact (inOrder_settled _ 0 _ _).map _
    · exact .refuse _ _

end Parts

/-! ## Structs -/

/-- Readers of one field that do alike. Flattened fields are left out. -/
structure FieldsAlike (value : σ → τ → Prop) (r : FieldReader σ) (r' : FieldReader τ) : Prop where
  field : r.field = r'.field
  unflattened : r.field.flattened = false
  optional : r.optional = r'.optional
  read : ∀ a b, value a b → Follows (r.read a) (r'.read b)

section Structs

variable {value key : σ → τ → Prop} {readers : List (FieldReader σ)}
  {readers' : List (FieldReader τ)}

theorem name?_useful [Source σ] {c : Call σ} {n : Name} (h : name? c = some n) :
    c.Useful .identifier := by
  unfold name? at h
  split at h <;> first | rfl | nomatch h

theorem name?_scalar (s : Scalar) : name? (.scalar s : Call σ) = name? (.scalar s : Call τ) := by
  cases s <;> rfl

theorem any_flattened (h : List.Forall₂ (FieldsAlike value) readers readers') :
    readers.any (·.field.flattened) = false ∧ readers'.any (·.field.flattened) = false := by
  induction h with
  | nil => exact ⟨rfl, rfl⟩
  | cons hr _ ih =>
    simp [hr.unflattened, ← hr.field, ih]

theorem filter_flattened (h : List.Forall₂ (FieldsAlike value) readers readers') :
    (readers.filter fun r => !r.field.flattened) = readers ∧
      (readers'.filter fun r => !r.field.flattened) = readers' := by
  obtain ⟨h₁, h₂⟩ := any_flattened h
  rw [List.any_eq_false] at h₁ h₂
  exact ⟨List.filter_eq_self.2 (by simpa using h₁), List.filter_eq_self.2 (by simpa using h₂)⟩

theorem names_eq (h : List.Forall₂ (FieldsAlike value) readers readers') :
    readers.map FieldReader.names = readers'.map FieldReader.names := by
  induction h with
  | nil => rfl
  | cons hr _ ih =>
    rw [List.map_cons, List.map_cons, ih, FieldReader.names, FieldReader.names, hr.field]

/-- The key of a struct is told alike. -/
theorem fieldKey_alike [Source σ] (h : List.Forall₂ (FieldsAlike value) readers readers')
    (strict : Bool) :
    VisitsAlike value key .identifier (fieldKey readers strict false)
      (fieldKey readers' strict false) where
  follows hc := by
    obtain ⟨h₁, h₂⟩ := filter_flattened h
    cases hc with
    | scalar s =>
      refine .of_eq ?_
      simp only [fieldKey, h₁, h₂, names_eq h, Bool.false_eq_true, if_false,
        name?_scalar (σ := σ) (τ := τ)]
      rfl
    | text l l' s =>
      refine .of_eq ?_
      simp only [fieldKey, h₁, h₂, names_eq h, Bool.false_eq_true, if_false]
      rfl
    | wide hr => nomatch hr
    | _ => exact refuse_follows _ _ _
  useful {c x} hx := by
    simp only [fieldKey, Bool.false_eq_true, if_false] at hx
    cases hn : name? c with
    | none =>
      rw [hn] at hx
      exact absurd hx result_refuse
    | some n => exact name?_useful hn
  settled c := by
    simp only [fieldKey, Bool.false_eq_true, if_false]
    split
    · exact .refuse _ _
    · split
      · exact .plain _
      · split_ifs
        · exact .plain _
        · split <;> exact .plain _

/-- The entries of a struct are read alike. -/
theorem slots_follows [Source σ] [Source τ] {readKey : σ → Except Fault FieldKey}
    {readKey' : τ → Except Fault FieldKey} (h : List.Forall₂ (FieldsAlike value) readers readers')
    (hk : ∀ a b, key a b → Follows (readKey a) (readKey' b))
    (hskip : ∀ a b, value a b → Follows (Source.skip a) (Source.skip b))
    {ds : List (σ × σ)} {es : List (τ × τ)}
    (hs : List.Forall₂ (fun d e => key d.1 e.1 ∧ value d.2 e.2) ds es) :
    ∀ (done : Nat) (found : Slots), (slots readers readKey false done found ds).Follows
      (slots readers' readKey' false done found es) := by
  induction hs with
  | nil => exact fun done found => .of_eq rfl
  | @cons d e ds es hde _ ih =>
    intro done found
    obtain ⟨k, v⟩ := d
    obtain ⟨k', v'⟩ := e
    obtain ⟨hkey, hvalue⟩ := hde
    rw [slots, slots]
    cases hkk : readKey k with
    | error f => exact .error _ _
    | ok fk =>
      rw [hk _ _ hkey fk hkk]
      cases fk with
      | other c =>
        simp only [Bool.false_eq_true, if_false]
        cases hv : Source.skip v with
        | error f => exact .error _ _
        | ok u =>
          rw [hskip _ _ hvalue u hv]
          exact ih (done + 1) found
      | known i =>
        obtain ⟨hr, hr'⟩ | ⟨r, r', hr, hr', halike⟩ := getElem?_beside h i
        · simp only [hr, hr']
          exact .of_eq rfl
        · simp only [hr, hr']
          cases found.values[i]? with
          | none => exact .error _ _
          | some o =>
            cases o with
            | some d => exact .error _ _
            | none =>
              dsimp only
              cases hv : r.read v with
              | error f => exact .error _ _
              | ok d =>
                rw [halike.read _ _ hvalue d hv]
                exact ih (done + 1) _

theorem missing_eq {r : FieldReader σ} {r' : FieldReader τ} (h : FieldsAlike value r r') :
    r.missing = r'.missing := by
  rw [FieldReader.missing, FieldReader.missing, h.field, h.optional]

theorem fill_eq (h : List.Forall₂ (FieldsAlike value) readers readers') :
    ∀ values : List (Option Datum), fill readers values = fill readers' values := by
  induction h with
  | nil => exact fun _ => rfl
  | cons hr _ ih =>
    intro values
    cases values with
    | nil => rw [fill, fill, missing_eq hr, ih]
    | cons v values => rw [fill, fill, missing_eq hr, ih]

theorem complete_eq (refusing : Bool) (h : List.Forall₂ (FieldsAlike value) readers readers') :
    ∀ (own : List Datum) (left : List (Snapshot × Snapshot)),
      complete refusing readers own left = complete refusing readers' own left := by
  induction h with
  | nil => exact fun _ _ => rfl
  | cons hr _ ih =>
    intro own left
    simp only [complete, ← hr.field, hr.unflattened, Bool.false_eq_true, if_false, ih]

theorem fieldsInOrder_follows (lengths : String)
    (h : List.Forall₂ (FieldsAlike value) readers readers') :
    ∀ (i done : Nat) {as : List σ} {bs : List τ}, List.Forall₂ value as bs →
      (fieldsInOrder lengths i done readers as).Follows
        (fieldsInOrder lengths i done readers' bs) := by
  induction h with
  | nil =>
    intro i done as bs _
    rw [fieldsInOrder, fieldsInOrder]
    exact .of_eq rfl
  | @cons r r' _ _ hr _ ih =>
    intro i done as bs hs
    cases hs with
    | nil =>
      rw [fieldsInOrder, fieldsInOrder, ← hr.field]
      cases r.field.default with
      | none => exact .error _ _
      | some d => exact (ih (i + 1) done .nil).map _
    | @cons a b as bs hab hs =>
      rw [fieldsInOrder, fieldsInOrder]
      cases hra : r.read a with
      | error f => exact .error _ _
      | ok d =>
        rw [hr.read a b hab d hra]
        exact (ih (i + 1) (done + 1) hs).map _

theorem struct_alike [Source σ] [Source τ] {zeros : Bool} (S : Simulation zeros σ τ) {r : Request}
    (hmap : ∀ (entries : List (σ × σ)) hint, r.takes (.map entries hint))
    (hseq : ∀ (items : List σ) hint, r.takes (.seq items hint))
    (what : String) (strict : Bool) (h : List.Forall₂ (FieldsAlike S.value) readers readers') :
    VisitsAlike S.value S.key r (struct what strict readers) (struct what strict readers') where
  follows hc := by
    obtain ⟨h₁, h₂⟩ := filter_flattened h
    obtain ⟨ha₁, ha₂⟩ := any_flattened h
    cases hc with
    | map hs =>
      simp only [struct, h₁, h₂, ha₁, ha₂]
      have hvalues : (readers.map fun _ => (none : Option Datum)) = readers'.map fun _ => none := by
        rw [List.map_const', List.map_const', h.length_eq]
      rw [hvalues]
      have hkey : ∀ a b, S.key a b → Follows
          (consult .identifier a (fieldKey readers strict false))
          (consult .identifier b (fieldKey readers' strict false)) :=
        fun a b hab => S.consult_key hab rfl (fieldKey_alike h strict)
      refine (slots_follows h hkey (fun a b => S.skip_value) hs 0 _).andThen fun found => .of_eq ?_
      simp only [fill_eq h, complete_eq _ h]
    | seq hs =>
      simp only [struct, ha₁, ha₂, Bool.false_eq_true, if_false, h.length_eq]
      exact fieldsInOrder_follows _ h 0 0 hs
    | _ => exact refuse_follows _ _ _
  useful hx := by
    unfold struct at hx
    split at hx
    · exact hmap _ _
    · exact hseq _ _
    · exact absurd hx result_refuse
  settled c := by
    unfold struct
    split
    · exact (slots_settled 0 _ _).andThen _
    · split_ifs
      · exact .refuse _ _
      · exact fieldsInOrder_settled _ 0 0 _ _
    · exact .refuse _ _

end Structs

/-! ## Enums -/

/-- Readers of one variant that do alike, whatever form its content has. -/
structure VariantsAlike (value : σ → τ → Prop) (r : VariantReader σ) (r' : VariantReader τ) :
    Prop where
  name : r.name = r'.name
  form : r.form = r'.form
  read : r.form = .newtype → ∀ a b, value a b → Follows (r.read a) (r'.read b)
  items : r.form = .tuple →
    List.Forall₂ (fun f g => ∀ a b, value a b → Follows (f a) (g b)) r.items r'.items
  fields : r.form = .struct → List.Forall₂ (FieldsAlike value) r.fields r'.fields

section Enums

variable {value key : σ → τ → Prop}

theorem variant_alike [Source σ] (names : List String) :
    VisitsAlike value key .identifier (variant names) (variant names) where
  follows hc := by
    cases hc with
    | scalar s =>
      refine .of_eq ?_
      simp only [variant, name?_scalar (σ := σ) (τ := τ)]
      rfl
    | text l l' s => exact .of_eq rfl
    | wide hr => nomatch hr
    | _ => exact refuse_follows _ _ _
  useful {c x} hx := by
    rw [variant] at hx
    cases hn : name? c with
    | none =>
      rw [hn] at hx
      exact absurd hx result_refuse
    | some n => exact name?_useful hn
  settled c := by
    unfold variant
    split
    · exact .refuse _ _
    · split <;> exact .plain _

theorem field_eq {readers : List (FieldReader σ)} {readers' : List (FieldReader τ)}
    (h : List.Forall₂ (FieldsAlike value) readers readers') :
    readers.map (·.field) = readers'.map (·.field) := by
  induction h with
  | nil => rfl
  | cons hr _ ih => rw [List.map_cons, List.map_cons, ih, hr.field]

variable [Source σ] [Source τ] {zeros : Bool} (S : Simulation zeros σ τ) (enum : String)

theorem bareName_follows {r : VariantReader σ} {r' : VariantReader τ}
    (h : VariantsAlike S.value r r') :
    Follows (externalContent enum r none) (externalContent enum r' none) := by
  simp only [externalContent, ← h.form]
  exact .refl _

/-- The content of a variant is read alike. -/
theorem externalContent_follows {r : VariantReader σ} {r' : VariantReader τ}
    (h : VariantsAlike S.value r r') {a : σ} {b : τ} (hab : S.value a b) :
    Follows (externalContent enum r (some a)) (externalContent enum r' (some b)) := by
  simp only [externalContent, ← h.form, ← h.name]
  cases hform : r.form with
  | unit => exact (S.consult_value hab rfl unit_alike).bind fun _ => .refl _
  | newtype => exact (h.read hform a b hab).bind fun _ => .refl _
  | tuple =>
    have hitems := h.items hform
    simp only [hitems.length_eq]
    exact (S.consult_value hab rfl (items_alike (fun _ _ => rfl) _ _ hitems)).bind
      fun _ => .refl _
  | struct =>
    have hfields := h.fields hform
    simp only [VariantReader.written, field_eq hfields]
    exact (S.consult_value hab rfl
      (struct_alike S (fun _ _ => rfl) (fun _ _ => rfl) _ _ hfields)).bind fun _ => .refl _

theorem externalEnum_alike {readers : List (VariantReader σ)} {readers' : List (VariantReader τ)}
    (h : List.Forall₂ (VariantsAlike S.value) readers readers') :
    VisitsAlike S.value S.key .enum (externalEnum enum readers) (externalEnum enum readers') where
  follows hc := by
    have hnames : readers.map (·.name) = readers'.map (·.name) := by
      induction h with
      | nil => rfl
      | cons hr _ ih => rw [List.map_cons, List.map_cons, ih, hr.name]
    -- What is told by the name is the same variant, so it is left to read its content.
    have hvariant : ∀ {a : σ} {b : τ} {content : Option σ} {content' : Option τ}, S.key a b →
        (∀ r r', VariantsAlike S.value r r' →
          Follows (externalContent enum r content) (externalContent enum r' content')) →
        (externalEnum enum readers (.enum a content)).Follows
          (externalEnum enum readers' (.enum b content')) := by
      intro a b content content' hab hcontent
      refine .plain ?_
      rw [hnames]
      refine (S.consult_key hab rfl (variant_alike _)).bind fun i => ?_
      obtain ⟨hr, -⟩ | ⟨r, r', hr, hr', halike⟩ := getElem?_beside h i
      · rw [pick, hr]
        exact .error _ _
      · rw [pick_eq_ok.2 hr, pick_eq_ok.2 hr']
        refine (hcontent r r' halike).bind fun c => ?_
        rw [halike.name]
        exact .refl _
    cases hc with
    | bare hab => exact hvariant hab fun r r' hr => bareName_follows S enum hr
    | enum hab hcd => exact hvariant hab fun r r' hr => externalContent_follows S enum hr hcd
    | _ => exact refuse_follows _ _ _
  useful hx := by
    unfold externalEnum at hx
    split at hx
    · obtain ⟨i, hi, -⟩ := bind_eq_ok.1 hx
      obtain ⟨x, hanswer, -⟩ := consult_eq_ok.1 hi
      exact ⟨rfl, x, hanswer⟩
    · exact absurd hx result_refuse
  settled c := by
    unfold externalEnum
    split
    · exact .plain _
    · exact .refuse _ _

end Enums

end Visit

end FlatUnion
