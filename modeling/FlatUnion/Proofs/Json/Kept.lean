import FlatUnion.Proofs.Following
import FlatUnion.Proofs.Json.Cut
import FlatUnion.Proofs.Json.Leaves
import FlatUnion.Proofs.Keeping

/-!
# Texts and what was kept of them

A part of a text can be kept, and what was kept of it answers the requests of ordinary types as the
part itself does (`Node.Kept.agrees`). Each of the two is simulated by the other, so readers of such
types follow from either to the other one (`textSimulation`, `keptSimulation`).

Two things make a difference, and are excluded. Integers of more than sixty-four bits are reported
as floats (`Node.fits`). A negative zero is reported as a float, too, which no reader of an integer
takes, but the text reads it as a signed integer of the widest kind.
-/

namespace FlatUnion.Json

/-! ## What is kept -/

/-- Whether a leaf is no integer that exceeds sixty-four bits. -/
def leafFits (zeros : Bool) (c : Cursor) : Bool :=
  match Numeral.read false c.rest with
  | .ok l => l.value.fits zeros
  | .error _ => true

mutual

/-- Whether no integer of a part exceeds sixty-four bits. Whether there may be negative zeros, is
told by `zeros`. -/
def Node.fits (zeros : Bool) : Node → Bool
  | .leaf c _ => leafFits zeros c
  | .list _ _ items _ => itemsFit zeros items
  | .object _ _ members _ => membersFit zeros members
  | .missing .. => true

def itemsFit (zeros : Bool) : List Node → Bool
  | [] => true
  | n :: rest => n.fits zeros && itemsFit zeros rest

def membersFit (zeros : Bool) : List (Member Node) → Bool
  | [] => true
  | ⟨_, _, v, _⟩ :: rest => v.fits zeros && membersFit zeros rest

end

/-- What is kept of a literal. -/
def Literal.kept : Literal → Snapshot
  | .null => .unit
  | .bool b => .bool b
  | .text _ s => .text s
  | .number n => .ofScalar n.scalar

theorem Literal.ofOffer_offer (x : Literal) : Snapshot.ofOffer x.offer = .ok x.kept := by
  cases x <;> rfl

/-- A part of a well-cut text whose integers fit, and what is kept of it. -/
structure Node.Kept (zeros : Bool) (node : Node) (c : Snapshot) : Prop where
  enclosed : node.enclosed
  wellCut : node.WellCut
  fits : node.fits zeros
  offer : Snapshot.ofOffer node.offer = .ok c

/-- A key, and what is kept of it. -/
def KeyKept (key : Cursor) (c : Snapshot) : Prop :=
  ∃ lent s d, keyText key = .ok (.text lent s, d) ∧ c = .text s

variable {zeros : Bool}

theorem keyText_ok {c : Cursor} {s : Scalar} {d : Cursor} (h : keyText c = .ok (s, d)) :
    ∃ lent l, text c.rest = .ok l ∧ s = .text lent l.value := by
  obtain ⟨⟨x, e⟩, hx, h⟩ := bind_eq_ok.1 h
  obtain ⟨rfl, -⟩ := Prod.mk.inj (pure_eq_ok.1 h)
  unfold Cursor.take at hx
  split at hx
  · nomatch hx
  · next l hl =>
    obtain ⟨rfl, -⟩ := Prod.mk.inj (Except.ok.inj hx)
    exact ⟨_, l, hl, rfl⟩

theorem keyKept_of_offer {key : Cursor} {c : Snapshot}
    (h : Snapshot.ofOffer (keyOffer key) = .ok c) : KeyKept key c := by
  unfold keyOffer at h
  split at h
  · next s d hkey =>
    obtain ⟨lent, l, -, rfl⟩ := keyText_ok hkey
    exact ⟨lent, l.value, d, hkey, (Except.ok.inj h).symm⟩
  · nomatch h

theorem Node.Kept.leaf {c : Cursor} {inside : Option JsonError} {s : Snapshot}
    (h : (Node.leaf c inside).Kept zeros s) :
    ∃ l, Literal.read c.rest = .ok l ∧ s = l.value.kept := by
  have hoffer : Snapshot.ofOffer (leafOffer c) = .ok s := h.offer
  unfold leafOffer at hoffer
  split at hoffer
  · next l hl =>
    rw [Literal.ofOffer_offer] at hoffer
    exact ⟨l, hl, (Except.ok.inj hoffer).symm⟩
  · nomatch hoffer

/-- All items of a list are kept, if it is read to its end. -/
theorem ofItems_offerItems {ending : Ending} : ∀ {items : List Node} {cs : List Snapshot},
    itemsWellCut items → itemsFit zeros items →
      Snapshot.ofItems (offerItems ending items) = .ok cs →
        (∃ p, ending = .closed p) ∧ List.Forall₂ (Node.Kept zeros) items cs
  | [], cs, _, _, h => by
    cases ending with
    | closed p =>
      obtain rfl := Except.ok.inj h
      exact ⟨⟨p, rfl⟩, .nil⟩
    | broken => nomatch h
  | n :: rest, cs, ⟨henclosed, hcut, hcuts⟩, hfits, h => by
    obtain ⟨hfit, hfits⟩ := Bool.and_eq_true_iff.1 hfits
    obtain ⟨c, hc, h⟩ := bind_eq_ok.1 h
    obtain ⟨cs, hcs, h⟩ := bind_eq_ok.1 h
    obtain rfl := pure_eq_ok.1 h
    obtain ⟨hclosed, hrest⟩ := ofItems_offerItems hcuts hfits hcs
    exact ⟨hclosed, .cons ⟨henclosed, hcut, hfit, hc⟩ hrest⟩

/-- All members of an object are kept, if it is read to its end. -/
theorem ofEntries_offerMembers {ending : Ending} : ∀ {members : List (Member Node)}
    {es : List (Snapshot × Snapshot)}, membersWellCut members → membersFit zeros members →
      Snapshot.ofEntries (offerMembers ending members) = .ok es →
        (∃ p, ending = .closed p) ∧
          List.Forall₂ (fun m e => KeyKept m.key e.1 ∧ m.value.Kept zeros e.2) members es
  | [], es, _, _, h => by
    cases ending with
    | closed p =>
      obtain rfl := Except.ok.inj h
      exact ⟨⟨p, rfl⟩, .nil⟩
    | broken => nomatch h
  | ⟨k, _, v, _⟩ :: rest, es, ⟨_, henclosed, hcut, hcuts⟩, hfits, h => by
    obtain ⟨hfit, hfits⟩ := Bool.and_eq_true_iff.1 hfits
    obtain ⟨key, hkey, h⟩ := bind_eq_ok.1 h
    obtain ⟨value, hvalue, h⟩ := bind_eq_ok.1 h
    obtain ⟨es, hes, h⟩ := bind_eq_ok.1 h
    obtain rfl := pure_eq_ok.1 h
    obtain ⟨hclosed, hrest⟩ := ofEntries_offerMembers hcuts hfits hes
    exact ⟨hclosed, .cons ⟨keyKept_of_offer hkey, henclosed, hcut, hfit, hvalue⟩ hrest⟩

theorem Node.Kept.list {c : Cursor} {depth : Nat} {items : List Node} {ending : Ending}
    {s : Snapshot} (h : (Node.list c depth items ending).Kept zeros s) :
    c.rest.head? = some '[' ∧ depth < depthLimit ∧ (∃ p, ending = .closed p) ∧
      ∃ cs, s = .seq cs ∧ List.Forall₂ (Node.Kept zeros) items cs := by
  obtain ⟨hhead, hcut⟩ := h.wellCut
  have hoffer := h.offer
  rw [Node.offer] at hoffer
  split at hoffer
  · nomatch hoffer
  · next hdepth =>
    obtain ⟨cs, hcs, hs⟩ := bind_eq_ok.1 hoffer
    obtain ⟨hclosed, hitems⟩ := ofItems_offerItems hcut h.fits hcs
    exact ⟨hhead, Nat.lt_of_not_le hdepth, hclosed, cs, (pure_eq_ok.1 hs).symm, hitems⟩

theorem Node.Kept.object {c : Cursor} {depth : Nat} {members : List (Member Node)} {ending : Ending}
    {s : Snapshot} (h : (Node.object c depth members ending).Kept zeros s) :
    c.rest.head? = some '\x7b' ∧ Framed (c.drop 1).skipBlanks members ending ∧
      membersWellCut members ∧ depth < depthLimit ∧ (∃ p, ending = .closed p) ∧
        ∃ es, s = .map es ∧
          List.Forall₂ (fun m e => KeyKept m.key e.1 ∧ m.value.Kept zeros e.2) members es := by
  obtain ⟨hhead, hframed, hcut⟩ := h.wellCut
  have hoffer := h.offer
  rw [Node.offer] at hoffer
  split at hoffer
  · nomatch hoffer
  · next hdepth =>
    obtain ⟨es, hes, hs⟩ := bind_eq_ok.1 hoffer
    obtain ⟨hclosed, hmembers⟩ := ofEntries_offerMembers hcut h.fits hes
    exact ⟨hhead, hframed, hcut, Nat.lt_of_not_le hdepth, hclosed, es, (pure_eq_ok.1 hs).symm,
      hmembers⟩

/-- The members of an object are offered as they are answered. -/
theorem map_offered_members (start : Cursor) (ending : Ending) : ∀ members : List (Member Node),
    (members.map (fun m => (Part.key m.key, Part.value m.value)) ++ ending.next?.toList.map fun f =>
        (Part.value (.missing start f), Part.value (.missing start f))).map Flat.offered =
      offerMembers ending members
  | [] => by
    cases ending <;> rfl
  | m :: rest =>
    congrArg ((keyOffer m.key, m.value.offer) :: ·) (map_offered_members start ending rest)

/-- An object whose members can be kept is read to its end. -/
theorem closed_of_offerMembers {ending : Ending} : ∀ {members : List (Member Node)}
    {es : List (Snapshot × Snapshot)}, Snapshot.ofEntries (offerMembers ending members) = .ok es →
      ∃ p, ending = .closed p
  | [], _, h => by
    cases ending with
    | closed p => exact ⟨p, rfl⟩
    | broken => nomatch h
  | ⟨_, _, _, _⟩ :: rest, _, h => by
    obtain ⟨_, -, h⟩ := bind_eq_ok.1 h
    obtain ⟨_, -, h⟩ := bind_eq_ok.1 h
    obtain ⟨_, hrest, -⟩ := bind_eq_ok.1 h
    exact closed_of_offerMembers hrest

/-! ## Passing over -/

theorem skipText_of_keyKept {key : Cursor} {c : Snapshot} (h : KeyKept key c) :
    ∃ n, skipText key.rest = .ok n := by
  obtain ⟨lent, s, d, hkey, -⟩ := h
  obtain ⟨-, l, hl, -⟩ := keyText_ok hkey
  obtain ⟨x, hx, -⟩ := map_eq_ok.1 hl
  exact skipBody_of_textBody hx

mutual

/-- What can be kept can be passed over. -/
theorem Node.skip_of_kept : ∀ {node : Node} {s : Snapshot}, node.Kept zeros s → node.skip = .ok ()
  | .leaf c inside, s, h => by
    obtain ⟨l, hl, -⟩ := h.leaf
    obtain ⟨n, hn⟩ := skipLeaf_of_read hl
    rw [Node.skip, hn]
  | .list c depth items ending, s, h => by
    obtain ⟨-, -, ⟨p, rfl⟩, cs, -, hitems⟩ := h.list
    exact skipItems_of_kept hitems
  | .object c depth members ending, s, h => by
    obtain ⟨-, -, -, -, ⟨p, rfl⟩, es, -, hmembers⟩ := h.object
    exact skipMembers_of_kept hmembers
  | .missing start fault, s, h => nomatch h.offer

theorem skipItems_of_kept : ∀ {items : List Node} {cs : List Snapshot} {p : Position},
    List.Forall₂ (Node.Kept zeros) items cs → skipItems (.closed p) items = .ok ()
  | [], _, _, _ => rfl
  | n :: rest, _, _, h => by
    obtain ⟨c, cs, hn, hrest, -⟩ := List.forall₂_cons_left_iff.1 h
    rw [skipItems, n.skip_of_kept hn]
    exact skipItems_of_kept hrest

theorem skipMembers_of_kept : ∀ {members : List (Member Node)} {es : List (Snapshot × Snapshot)}
    {p : Position},
    List.Forall₂ (fun m e => KeyKept m.key e.1 ∧ m.value.Kept zeros e.2) members es →
      skipMembers (.closed p) members = .ok ()
  | [], _, _, _ => rfl
  | ⟨k, _, v, _⟩ :: rest, _, _, h => by
    obtain ⟨e, es, ⟨hkey, hv⟩, hrest, -⟩ := List.forall₂_cons_left_iff.1 h
    obtain ⟨n, hn⟩ := skipText_of_keyKept hkey
    simp only [skipMembers, hn, v.skip_of_kept hv]
    exact skipMembers_of_kept hrest

end

/-! ## Answers -/

/-- A part that is a value, and what is kept of it. -/
def ValueKept (zeros : Bool) (part : Part) (c : Snapshot) : Prop :=
  ∃ node, part = .value node ∧ node.Kept zeros c

/-- A part that answers as a text where a key or a name is asked for, and this text. -/
def TextKept (part : Part) (c : Snapshot) : Prop :=
  ∃ s, c = .text s ∧ ∀ r : Request, r.ofKey → ∃ x lent, part.answer r = .ok x ∧
    x.call = .scalar (.text lent s) ∧ ∀ p, x.close p = .ok ()

/-- Two answers to a request : both are of use and alike, or neither is. -/
inductive Agree (zeros : Bool) (r : Request) (a : Except Fault (Answer Part))
    (b : Except Fault (Answer Snapshot)) : Prop
  | alike {x : Answer Part} {y : Answer Snapshot} (ha : a = .ok x) (hb : b = .ok y)
    (hcall : Call.Like (ValueKept zeros) TextKept r x.call y.call)
    (hclose : ∀ p, p.keyTaken = false → (x.close p = .ok () ↔ y.close p = .ok ()))
  | useless (ha : ∀ x, a = .ok x → x.call.Useful r → ∀ p, x.close p ≠ .ok ())
    (hb : ∀ y, b = .ok y → ¬ y.call.Useful r)

/-- A literal answers as itself, or is refused. -/
theorem literalAnswer_eq {c : Cursor} {l : Lexeme Literal} (h : Literal.read c.rest = .ok l)
    (r : Request) : literalAnswer r c = .ok (located (c.drop l.length).place
      (if l.value.suits r then l.value.call
        else .refused (l.value.call : Call Part).unexpected)) := by
  obtain ⟨hlist, hobject⟩ := (Literal.spelled_of_read h).ne_bracket
  unfold literalAnswer
  split
  · next hc => exact absurd hc hlist
  · next hc => exact absurd hc hobject
  · rw [h]
    dsimp only [Cursor.take, bind, Except.bind, pure, Except.pure]
    split <;> rfl

/-- Whether a request is answered by literals as they are, or not at all. -/
def Request.isPlain : Request → Bool
  | .option | .newtypeStruct | .enum | .bytes | .byteBuf | .ignored => false
  | .int w => !w.isWide
  | _ => true

theorem leafAnswer_plain {r : Request} (hr : Request.isPlain r) (inside : Option JsonError)
    (c : Cursor) : leafAnswer r inside c = literalAnswer r c := by
  cases r with
  | int w =>
    simp only [leafAnswer]
    rw [if_neg (by simpa [Request.isPlain] using hr)]
  | option | newtypeStruct | enum | bytes | byteBuf | ignored => nomatch hr
  | _ => rfl

/-- A text answers as one where a key or a name is asked for. -/
theorem textKept_leaf {c : Cursor} {inside : Option JsonError} {l : Lexeme Literal}
    (h : Literal.read c.rest = .ok l) {lent : Lending} {s : String} (hl : l.value = .text lent s) :
    TextKept (.value (.leaf c inside)) (.text s) := by
  refine ⟨s, rfl, fun r hr => ?_⟩
  have hplain : Request.isPlain r := by cases r <;> first | rfl | nomatch hr
  have hanswer : Part.answer r (.value (.leaf c inside)) = literalAnswer r c := by
    rw [← leafAnswer_plain hplain inside]
    cases r <;> first | rfl | nomatch hr
  have hsuits : (Literal.text lent s).suits r := by cases r <;> first | rfl | nomatch hr
  rw [hanswer, literalAnswer_eq h, hl, if_pos hsuits]
  exact ⟨_, lent, rfl, rfl, fun _ => rfl⟩

theorem textKept_key {key : Cursor} {c : Snapshot} (h : KeyKept key c) : TextKept (.key key) c := by
  obtain ⟨lent, s, d, hkey, rfl⟩ := h
  refine ⟨s, rfl, fun r hr => ⟨{ call := .scalar (.text lent s) }, lent, ?_, rfl, fun _ => rfl⟩⟩
  cases r with
  | char | string | identifier =>
    simp [Part.answer, keyAnswer, hkey, bind, Except.bind, pure, Except.pure]
  | _ => simp [Request.ofKey] at hr

/-- A literal is like what is kept of it. -/
theorem Literal.call_like (x : Literal) (r : Request) :
    Call.Like (ValueKept zeros) TextKept r x.call x.kept.call := by
  cases x with
  | null => exact .unit
  | bool b => exact .scalar _
  | text lent s => exact .text _ _ s
  | number n => cases n <;> exact .scalar _

/-- What is of use as it is kept suits the request. -/
theorem Literal.suits_of_useful {x : Literal} {r : Request} (hr : r.ofValue zeros)
    (hplain : Request.isPlain r) (h : x.kept.call.Useful r) : x.suits r := by
  cases x with
  | number n =>
    cases n <;> cases r <;> simp_all [kept, Snapshot.ofScalar, Number.scalar, Snapshot.call,
      Call.Useful, Request.takes, suits, Request.ofValue]
  | null | bool | text =>
    cases r <;> simp_all [kept, Snapshot.call, Call.Useful, Request.takes, suits, Request.isPlain]

/-- A plain request that is suited is answered with what was kept. -/
theorem Literal.answer_kept {x : Literal} {r : Request} (hplain : Request.isPlain r)
    (hsuits : x.suits r) : Snapshot.answer r x.kept = .ok x.kept.replay := by
  cases x with
  | number n => cases n <;> cases r <;> first | rfl | simp [suits] at hsuits hplain
  | null | bool | text => cases r <;> first | rfl | simp [suits] at hsuits hplain

/-- A plain request that is not refused is answered with what was kept. -/
theorem Literal.eq_replay_of_answer {x : Literal} {r : Request} (hplain : Request.isPlain r)
    {y : Answer Snapshot} (h : Snapshot.answer r x.kept = .ok y) : y = x.kept.replay := by
  cases x with
  | number n =>
    cases n <;> cases r <;>
      simp_all [kept, Snapshot.ofScalar, Number.scalar, Snapshot.answer, Request.isPlain]
  | null | bool | text => cases r <;> simp_all [kept, Snapshot.answer, Request.isPlain]

theorem Literal.answer_newtypeStruct (x : Literal) :
    Snapshot.answer .newtypeStruct x.kept = .ok { call := .newtype x.kept } := by
  cases x with
  | number n => cases n <;> rfl
  | _ => rfl

theorem not_useful_refused (r : Request) (found : Unexpected) :
    ¬ (Call.refused found : Call Part).Useful r := by
  cases r <;> simp [Call.Useful, Request.takes]

/-- What is kept of a literal can be closed. -/
theorem Literal.closing_kept (x : Literal) (p : Progress) : x.kept.closing p = .ok () := by
  cases x with
  | number n => cases n <;> rfl
  | _ => rfl

theorem literal_agrees {c : Cursor} {l : Lexeme Literal} (hl : Literal.read c.rest = .ok l)
    {r : Request} (hr : r.ofValue zeros) (hplain : Request.isPlain r) :
    Agree zeros r (literalAnswer r c) (Snapshot.answer r l.value.kept) := by
  by_cases hsuits : l.value.suits r = true
  · refine .alike (literalAnswer_eq hl r) (Literal.answer_kept hplain hsuits) ?_ ?_
    · rw [if_pos hsuits]
      exact l.value.call_like r
    · exact fun p _ => iff_of_true rfl (l.value.closing_kept p)
  · refine .useless ?_ ?_
    · rintro x hx huseful
      rw [literalAnswer_eq hl, if_neg hsuits] at hx
      obtain rfl := Except.ok.inj hx
      exact absurd huseful (not_useful_refused r _)
    · rintro y hy huseful
      rw [Literal.eq_replay_of_answer hplain hy] at huseful
      exact hsuits (Literal.suits_of_useful hr hplain huseful)

/-- No answer is of use where bytes are asked for, or where a value is passed over. -/
theorem useless_agree {r : Request} {a : Except Fault (Answer Part)}
    {b : Except Fault (Answer Snapshot)} (h : r = .bytes ∨ r = .byteBuf ∨ r = .ignored) :
    Agree zeros r a b := by
  refine .useless (fun x _ huseful => ?_) (fun y _ huseful => ?_)
  · obtain rfl | rfl | rfl := h <;> cases hx : x.call <;>
      simp [hx, Call.Useful, Request.takes] at huseful
  · obtain rfl | rfl | rfl := h <;> cases hy : y.call <;>
      simp [hy, Call.Useful, Request.takes] at huseful

theorem wide_agrees {c : Cursor} {inside : Option JsonError} (henclosed : inside.isSome)
    (hfits : leafFits zeros c) {l : Lexeme Literal} (hl : Literal.read c.rest = .ok l) {w : Width}
    (hw : w.isWide) (hr : Request.ofValue zeros (.int w)) :
    Agree zeros (.int w) (wideAnswer w inside c) (.ok l.value.kept.replay) := by
  have hnone : (∀ x, wideAnswer w inside c ≠ .ok x) → ¬ l.value.kept.call.Useful (.int w) →
      Agree zeros (.int w) (wideAnswer w inside c) (.ok l.value.kept.replay) := by
    intro ha hb
    exact .useless (fun x hx => absurd hx (ha x)) fun y hy => Except.ok.inj hy ▸ hb
  have hspelled := Literal.spelled_of_read hl
  obtain ⟨e, rfl⟩ := Option.isSome_iff_exists.1 henclosed
  obtain ⟨rest, place⟩ := c
  dsimp only at hspelled
  generalize l.value = x at hspelled hnone ⊢
  cases hspelled with
  | null | true | false | text =>
    exact hnone (wideAnswer_ne_ok (by simp) w _) (by
      simp [Literal.kept, Snapshot.call, Call.Useful, Request.takes])
  | @number d rest m n hd hread hvalue =>
    have hok := fun a => wideAnswer_eq_ok (c := ⟨d :: rest, place⟩) hread w e (a := a)
    have hfloat : (∃ bits, n.scalar = .f64 bits) →
        ¬ (Literal.number n).kept.call.Useful (.int w) := by
      rintro ⟨bits, hn⟩
      simp [Literal.kept, hn, Snapshot.ofScalar, Snapshot.call, Call.Useful, Request.takes]
    cases hwhole : m.value.isWhole with
    | false =>
      refine hnone (fun a ha => ?_) (hfloat (Numeral.value_float hwhole hvalue))
      simpa [hwhole] using (hok a).1 ha
    | true =>
      have hfit : m.value.fits zeros := by
        simpa [leafFits, hread] using hfits
      obtain ⟨⟨v, hn⟩, hnegative⟩ | ⟨hnegative, hzeros, hn⟩ :=
        Numeral.value_whole hwhole hfit hvalue
      · by_cases hint : w.fits m.value.integer = true
        · have hsigned : m.value.negative → w.isSigned := by
            intro hneg
            have hlo := (Width.fits_iff.1 hint).1
            have := hnegative hneg
            by_contra hs
            rw [Width.lo, if_neg hs] at hlo
            omega
          have hkept : (Literal.number n).kept = .int v m.value.integer := by
            rw [Literal.kept, hn]
            rfl
          rw [hkept]
          exact .alike ((hok _).2 ⟨hsigned, hint, hwhole, rfl⟩) rfl (.wide rfl hw w v _)
            fun _ _ => Iff.rfl
        · refine hnone (fun a ha => hint ((hok a).1 ha).2.1) ?_
          simpa [Literal.kept, hn, Snapshot.ofScalar, Snapshot.call, Call.Useful, Request.takes]
            using hint
      · -- Only a signed width takes a negative zero, and there it is not asked for.
        refine hnone (fun a ha => ?_) (hfloat hn)
        have hsigned := ((hok a).1 ha).1 hnegative
        cases w <;> simp_all [Width.isWide, Width.isSigned, Request.ofValue]

/-- What is no word answers as a value where there may be none. -/
theorem leafAnswer_option {c : Cursor} (h : c.rest.head? ≠ some 'n') (inside : Option JsonError) :
    leafAnswer .option inside c = .ok { call := .some (.value (.leaf c inside)) } := by
  unfold leafAnswer
  split <;> simp_all

/-- Answers that open a value by itself, as something that is there, are alike. -/
theorem some_agrees {node : Node} {s : Snapshot} (h : node.Kept zeros s)
    {b : Except Fault (Answer Snapshot)} (hb : b = .ok { call := .some s }) :
    Agree zeros .option (.ok { call := .some (.value node) }) b :=
  .alike rfl hb (.some ⟨node, rfl, h⟩) fun _ _ => Iff.rfl

/-- Answers that open a value by itself, as the inside of a newtype, are alike. -/
theorem newtype_agrees {node : Node} {s : Snapshot} (h : node.Kept zeros s)
    {b : Except Fault (Answer Snapshot)} (hb : b = .ok { call := .newtype s }) :
    Agree zeros .newtypeStruct (.ok { call := .newtype (.value node) }) b :=
  .alike rfl hb (.newtype ⟨node, rfl, h⟩) fun _ _ => Iff.rfl

theorem option_agrees {c : Cursor} {inside : Option JsonError} {l : Lexeme Literal}
    (h : (Node.leaf c inside).Kept zeros l.value.kept) (hl : Literal.read c.rest = .ok l) :
    Agree zeros .option (leafAnswer .option inside c) (Snapshot.answer .option l.value.kept) := by
  have hspelled := Literal.spelled_of_read hl
  obtain ⟨rest, place⟩ := c
  dsimp only at hspelled
  generalize l.value = x at hspelled h ⊢
  cases hspelled with
  | null hword =>
    refine .alike (x := { call := .none }) ?_ rfl .none fun _ _ => Iff.rfl
    simp only [leafAnswer, hword]
  | true | false | text =>
    rw [leafAnswer_option (by simp)]
    exact some_agrees h rfl
  | @number d rest m n hd hread hvalue =>
    have hne : d ≠ 'n' := by
      rintro rfl
      simp at hd
    rw [leafAnswer_option (by simpa using hne)]
    exact some_agrees h (by cases n <;> rfl)

/-- What is no text is not read as an enum. -/
theorem leafAnswer_enum {c : Cursor} (h : c.rest.head? ≠ some '"') (inside : Option JsonError)
    (a : Answer Part) : leafAnswer .enum inside c ≠ .ok a := by
  unfold leafAnswer
  split <;> simp_all

theorem enum_agrees {c : Cursor} {inside : Option JsonError} {l : Lexeme Literal}
    (hl : Literal.read c.rest = .ok l) :
    Agree zeros .enum (leafAnswer .enum inside c) (Snapshot.answer .enum l.value.kept) := by
  have hspelled := Literal.spelled_of_read hl
  have htext : ∀ lent s, l.value = .text lent s →
      TextKept (.value (.leaf c inside)) (.text s) := fun _ _ h => textKept_leaf hl h
  obtain ⟨rest, place⟩ := c
  dsimp only at hspelled
  generalize l.value = x at hspelled htext ⊢
  cases hspelled with
  | null | true | false =>
    exact .useless (fun a ha => absurd ha (leafAnswer_enum (by simp) inside a)) nofun
  | text ht lent =>
    exact .alike rfl rfl (.bare (htext lent _ rfl)) fun _ _ => Iff.rfl
  | @number d rest m n hd hread hvalue =>
    have hne : d ≠ '"' := by
      rintro rfl
      simp at hd
    refine .useless (fun a ha => absurd ha (leafAnswer_enum (by simpa using hne) inside a)) ?_
    cases n <;> exact nofun

theorem leaf_agrees {c : Cursor} {inside : Option JsonError} {s : Snapshot}
    (h : (Node.leaf c inside).Kept zeros s) {r : Request} (hr : r.ofValue zeros) :
    Agree zeros r (Part.answer r (.value (.leaf c inside))) (Snapshot.answer r s) := by
  obtain ⟨l, hl, rfl⟩ := h.leaf
  by_cases hplain : Request.isPlain r = true
  · have hanswer : Part.answer r (.value (.leaf c inside)) = literalAnswer r c := by
      rw [← leafAnswer_plain hplain inside]
      cases r <;> first | rfl | simp [Request.isPlain] at hplain
    rw [hanswer]
    exact literal_agrees hl hr hplain
  cases r with
  | bytes => exact useless_agree (.inl rfl)
  | byteBuf => exact useless_agree (.inr (.inl rfl))
  | ignored => exact useless_agree (.inr (.inr rfl))
  | int w =>
    have hw : w.isWide := by simpa [Request.isPlain] using hplain
    have hanswer : Part.answer (.int w) (.value (.leaf c inside)) = wideAnswer w inside c := by
      show leafAnswer (.int w) inside c = _
      simp only [leafAnswer]
      rw [if_pos hw]
    rw [hanswer]
    exact wide_agrees h.enclosed h.fits hl hw hr
  | option => exact option_agrees h hl
  | newtypeStruct => exact newtype_agrees h (l.value.answer_newtypeStruct)
  | enum => exact enum_agrees hl
  | _ => exact absurd rfl hplain

theorem within_eq {depth : Nat} (h : depth < depthLimit) (start : Cursor) (a : Answer Part) :
    within depth start a = .ok a :=
  if_neg (Nat.not_le.2 h)

/-- Where there is a bracket, no literal is answered. -/
theorem not_useful_bracket {c : Cursor}
    (hc : c.rest.head? = some '[' ∨ c.rest.head? = some '\x7b') {r : Request}
    (hr : r ≠ .option ∧ r ≠ .newtypeStruct ∧ r ≠ .enum ∧ r ≠ .bytes ∧ r ≠ .byteBuf ∧ r ≠ .ignored)
    {x : Answer Part} (h : leafAnswer r none c = .ok x) : ¬ x.call.Useful r := by
  by_cases hplain : Request.isPlain r = true
  · rw [leafAnswer_plain hplain] at h
    have hrefused : ∃ found, x.call = .refused found := by
      obtain hc | hc := hc <;>
      · rw [literalAnswer, hc] at h
        obtain rfl := Except.ok.inj h
        exact ⟨_, rfl⟩
    obtain ⟨found, hfound⟩ := hrefused
    rw [hfound]
    exact not_useful_refused r found
  · cases r with
    | int w =>
      have hw : w.isWide := by simpa [Request.isPlain] using hplain
      simp only [leafAnswer] at h
      rw [if_pos hw] at h
      exact absurd h (wideAnswer_ne_ok (by obtain hc | hc := hc <;> simp [hc]) w none x)
    | _ => simp [Request.isPlain] at hplain hr

/-- A request that takes no sequence is of no use there, on either side. -/
theorem unsuited_agrees {c : Cursor} (hc : c.rest.head? = some '[' ∨ c.rest.head? = some '\x7b')
    {r : Request}
    (hr : r ≠ .option ∧ r ≠ .newtypeStruct ∧ r ≠ .enum ∧ r ≠ .bytes ∧ r ≠ .byteBuf ∧ r ≠ .ignored)
    {s : Snapshot} (hs : ∀ y, Snapshot.answer r s = .ok y → ¬ y.call.Useful r) :
    Agree zeros r (leafAnswer r none c) (Snapshot.answer r s) :=
  .useless (fun _ hx huseful => absurd huseful (not_useful_bracket hc hr hx)) hs

/-- A list can be closed behind its last item. -/
theorem close_listAnswer {c : Cursor} {items : List Node} {p : Position} {q : Progress} :
    (listAnswer c items (.closed p)).close q = .ok () ↔ items.length ≤ q.whole := by
  rw [← List.getElem?_eq_none_iff]
  unfold listAnswer
  dsimp only
  split
  · next item hitem => exact iff_of_false nofun (by rw [hitem]; simp)
  · next hitem => exact iff_of_true rfl hitem

theorem list_agrees {c : Cursor} {depth : Nat} {items : List Node} {ending : Ending} {s : Snapshot}
    (h : (Node.list c depth items ending).Kept zeros s) {r : Request} (hr : r.ofValue zeros) :
    Agree zeros r (Part.answer r (.value (.list c depth items ending))) (Snapshot.answer r s) := by
  obtain ⟨hhead, hdepth, ⟨p, rfl⟩, cs, rfl, hitems⟩ := h.list
  have halike : ∀ {a : Except Fault (Answer Part)} {b : Except Fault (Answer Snapshot)},
      a = within depth c (listAnswer c items (.closed p)) → b = .ok (Snapshot.seq cs).replay →
        Agree zeros r a b := by
    rintro _ _ rfl rfl
    refine .alike (within_eq hdepth c _) rfl ?_ fun q _ => ?_
    · refine .seq ?_ _ _
      rw [Ending.next?, Option.toList_none, List.map_nil, List.append_nil,
        List.forall₂_map_left_iff]
      exact hitems.imp fun n c hn => ⟨n, rfl, hn⟩
    · rw [close_listAnswer, hitems.length_eq]
      exact Snapshot.leftover_eq_ok.symm
  cases r with
  | option => exact some_agrees h rfl
  | newtypeStruct => exact newtype_agrees h rfl
  | enum => exact .useless nofun nofun
  | bytes => exact useless_agree (.inl rfl)
  | byteBuf => exact useless_agree (.inr (.inl rfl))
  | ignored => exact useless_agree (.inr (.inr rfl))
  | any | seq | tuple | tupleStruct | tupleVariant | struct | structVariant => exact halike rfl rfl
  | _ =>
    refine unsuited_agrees (.inl hhead) (by simp) fun y hy => ?_
    obtain rfl := Except.ok.inj hy
    simp [Snapshot.replay, Snapshot.call, Call.Useful, Request.takes]

/-- There is a member behind a place exactly if not all members stand before it. -/
theorem boundary_eq_none {members : List (Member Node)} : ∀ {n : Nat},
    boundary members n = none ↔ members.length ≤ n
  | 0 => by
    cases members <;> simp [boundary]
  | n + 1 => by
    by_cases hn : n + 1 < members.length
    · have hget : members[n]? = some members[n] := List.getElem?_eq_getElem (by omega)
      simp [boundary, hn, hget]
    · simp only [boundary, if_neg hn, true_iff]
      omega

/-- An object can be closed behind its last member. -/
theorem close_objectAnswer {c : Cursor} {members : List (Member Node)} {p : Position}
    {q : Progress} :
    (objectAnswer c members (.closed p)).close q = .ok () ↔ members.length ≤ q.whole := by
  rw [← boundary_eq_none]
  unfold objectAnswer
  dsimp only
  split
  · next hboundary => exact iff_of_false nofun (by rw [hboundary]; simp)
  · next hboundary => exact iff_of_true rfl hboundary

/-- The key of a member names a variant. -/
theorem textKept_variant {key : Cursor} {c : Snapshot} (h : KeyKept key c)
    (hquote : key.rest.head? = some '"') : TextKept (.value (.leaf key none)) c := by
  obtain ⟨lent, s, d, hkey, rfl⟩ := h
  obtain ⟨lent', l, hl, hs⟩ := keyText_ok hkey
  obtain ⟨-, rfl⟩ := Scalar.text.inj hs
  obtain ⟨rest, place⟩ := key
  cases rest with
  | nil => simp at hquote
  | cons x rest =>
    obtain rfl : x = '"' := by simpa using hquote
    have hread : Literal.read ('"' :: rest) =
        .ok ⟨.text (lending ('"' :: rest) l.length) l.value, l.length⟩ :=
      map_eq_ok.2 ⟨l, hl, rfl⟩
    exact textKept_leaf hread rfl

/-- An object is read as an enum if it has one member : its variant and its content. -/
theorem variant_agrees {c : Cursor} {depth : Nat} {members : List (Member Node)} {ending : Ending}
    {s : Snapshot} (h : (Node.object c depth members ending).Kept zeros s) :
    Agree zeros .enum (within depth c (enumAnswer c members)) (Snapshot.answer .enum s) := by
  obtain ⟨-, hframed, hcut, hdepth, ⟨p, rfl⟩, es, rfl, hmembers⟩ := h.object
  rw [within_eq hdepth]
  cases hmembers with
  | nil =>
    refine .useless (fun x hx huseful => ?_) nofun
    obtain rfl := Except.ok.inj hx
    obtain ⟨-, y, hy⟩ := huseful
    have hbrace : (c.drop 1).skipBlanks.rest.head? = some '\x7d' := hframed p rfl
    obtain ⟨rest, hrest⟩ := List.head?_eq_some_iff.1 hbrace
    have hanswer : literalAnswer .identifier (c.drop 1).skipBlanks = .ok y := hy
    rw [literalAnswer, hrest] at hanswer
    nomatch hanswer
  | @cons m e ms es hm hms =>
    obtain ⟨hkey, hvalue⟩ := hm
    cases hms with
    | nil =>
      obtain ⟨hfirst, hclosed⟩ := hframed
      obtain ⟨rest, hrest⟩ := List.head?_eq_some_iff.1 (hclosed p rfl)
      obtain ⟨hquote, -⟩ := hcut
      refine .alike rfl rfl (.enum ?_ ⟨_, rfl, hvalue⟩) fun q _ => iff_of_true ?_ rfl
      · rw [← hfirst]
        exact textKept_variant hkey hquote
      · simp only [enumAnswer, hrest]
    | cons =>
      obtain ⟨-, hcomma⟩ := hframed
      obtain ⟨rest, hrest⟩ := List.head?_eq_some_iff.1 hcomma
      refine .useless (fun x hx _ q => ?_) nofun
      obtain rfl := Except.ok.inj hx
      simp [enumAnswer, hrest]

theorem object_agrees {c : Cursor} {depth : Nat} {members : List (Member Node)} {ending : Ending}
    {s : Snapshot} (h : (Node.object c depth members ending).Kept zeros s) {r : Request}
    (hr : r.ofValue zeros) :
    Agree zeros r (Part.answer r (.value (.object c depth members ending)))
      (Snapshot.answer r s) := by
  obtain ⟨hhead, -, -, hdepth, ⟨p, rfl⟩, es, rfl, hmembers⟩ := h.object
  have halike : ∀ {a : Except Fault (Answer Part)} {b : Except Fault (Answer Snapshot)},
      a = within depth c (objectAnswer c members (.closed p)) →
        b = .ok (Snapshot.map es).replay → Agree zeros r a b := by
    rintro _ _ rfl rfl
    refine .alike (within_eq hdepth c _) rfl ?_ fun q hq => ?_
    · refine .map ?_ _ _
      rw [Ending.next?, Option.toList_none, List.map_nil, List.append_nil,
        List.forall₂_map_left_iff]
      exact hmembers.imp fun m e hm => ⟨textKept_key hm.1, _, rfl, hm.2⟩
    · have hbegun : q.begun = q.whole := by simp [Progress.begun, hq]
      rw [close_objectAnswer, hmembers.length_eq, ← hbegun]
      exact Snapshot.leftover_eq_ok.symm
  cases r with
  | option => exact some_agrees h rfl
  | newtypeStruct => exact newtype_agrees h rfl
  | enum => exact variant_agrees h
  | bytes => exact useless_agree (.inl rfl)
  | byteBuf => exact useless_agree (.inr (.inl rfl))
  | ignored => exact useless_agree (.inr (.inr rfl))
  | any | map | struct | structVariant => exact halike rfl rfl
  | tupleVariant => exact unsuited_agrees (.inr hhead) (by simp) nofun
  | _ =>
    refine unsuited_agrees (.inr hhead) (by simp) fun y hy => ?_
    obtain rfl := Except.ok.inj hy
    simp [Snapshot.replay, Snapshot.call, Call.Useful, Request.takes]

/-- What is kept of a part answers as the part does. -/
theorem Node.Kept.agrees {node : Node} {s : Snapshot} (h : node.Kept zeros s) {r : Request}
    (hr : r.ofValue zeros) :
    Agree zeros r (Part.answer r (.value node)) (Snapshot.answer r s) := by
  cases node with
  | leaf c inside => exact leaf_agrees h hr
  | list c depth items ending => exact list_agrees h hr
  | object c depth members ending => exact object_agrees h hr
  | missing start fault => nomatch h.offer

/-! ## Simulations -/

/-- What is kept of a text is asked for as texts are. -/
theorem TextKept.answers {part : Part} {c : Snapshot} (h : TextKept part c) (zeros : Bool)
    {r : Request} (hr : r.ofKey) : ∃ x, part.answer r = .ok x ∧ Snapshot.answer r c = .ok c.replay ∧
      Call.Like (ValueKept zeros) TextKept r x.call c.replay.call ∧
        ∀ p, x.close p = .ok () ∧ c.replay.close p = .ok () := by
  obtain ⟨s, rfl, h⟩ := h
  obtain ⟨x, lent, hx, hcall, hclose⟩ := h r hr
  refine ⟨x, hx, ?_, hcall ▸ .text lent .owned s, fun p => ⟨hclose p, rfl⟩⟩
  cases r <;> first | rfl | simp [Request.ofKey] at hr

/-- What is kept of a text answers as the text does. -/
def textSimulation (zeros : Bool) : Simulation zeros Part Snapshot where
  value := ValueKept zeros
  key := TextKept
  answer_value := by
    rintro _ c r x ⟨node, rfl, h⟩ hr hx huseful ⟨p, hp⟩
    cases h.agrees hr with
    | @alike x' y ha hb hcall hclose =>
      obtain rfl : x' = x := Except.ok.inj (ha.symm.trans hx)
      exact ⟨y, hb, hcall, fun q hq => (hclose q hq).1⟩
    | useless ha hb => exact absurd hp (ha x hx huseful p)
  answer_key := by
    intro a c r x h hr hx huseful
    obtain ⟨x', hx', hc, hcall, hclose⟩ := h.answers zeros hr
    obtain rfl : x' = x := Except.ok.inj (hx'.symm.trans hx)
    exact ⟨_, hc, hcall, fun p _ _ => (hclose p).2⟩
  skip_value := fun _ _ _ => rfl

/-- A text answers as what is kept of it. -/
def keptSimulation (zeros : Bool) : Simulation zeros Snapshot Part where
  value c part := ValueKept zeros part c
  key c part := TextKept part c
  answer_value := by
    rintro c _ r y ⟨node, rfl, h⟩ hr hy huseful -
    cases h.agrees hr with
    | @alike x y' ha hb hcall hclose =>
      obtain rfl : y' = y := Except.ok.inj (hb.symm.trans hy)
      exact ⟨x, ha, hcall.symm, fun q hq => (hclose q hq).2⟩
    | useless ha hb => exact absurd huseful (hb y hy)
  answer_key := by
    intro c a r y h hr hy huseful
    obtain ⟨x, hx, hc, hcall, hclose⟩ := h.answers zeros hr
    obtain rfl := Except.ok.inj (hc.symm.trans hy)
    exact ⟨x, hx, hcall.symm, fun p _ _ => (hclose p).1⟩
  skip_value := by
    rintro c _ ⟨node, rfl, h⟩ _ -
    exact node.skip_of_kept h

end FlatUnion.Json
