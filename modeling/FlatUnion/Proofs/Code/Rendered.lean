import Mathlib.Data.List.Forall2
import FlatUnion.Code.Parser
import FlatUnion.Code.Piece

/-!
# Code that is printed again

Code that has been read is not always printed as it was written (`Rendered`). Lifetimes stand first
among the arguments in angle brackets, with a comma behind each. Some colons are left out : in front
of arguments in parentheses, and behind parameters that have no bounds. So are the lifetimes that
are bound in front of a macro. All else stays. Only of blocks that declare items nothing is said, as
in items more can be left out.

In front of each of these stands a token that tells of it (`Token.disturbs`) : the last one of an
argument that is no lifetime and has one behind it, a colon, or the word `for`. Where there is none,
and no block that declares items, code is `undisturbed`.

The main statement is `Rendered.verbatim` : all other code is printed as it was written.
-/

namespace FlatUnion.Code

/-! ## Lists with commas -/

/-- Parts with commas between them, and behind the last one if there is a trailing comma. -/
inductive Separated {α : Type} (Comma : α → Prop) : Bool → List (List α) → List α → Prop
  | nil : Separated Comma false [] []
  | last (x : List α) : Separated Comma false [x] x
  | trailing (x : List α) {c : α} (hc : Comma c) : Separated Comma true [x] (x ++ [c])
  | cons (x : List α) {c : α} (hc : Comma c) {trailing : Bool} {y : List α} {ys : List (List α)}
      {rest : List α} (h : Separated Comma trailing (y :: ys) rest) :
      Separated Comma trailing (x :: y :: ys) (x ++ c :: rest)

/-- A comma as a token. -/
def IsComma (t : Token) : Prop := ∃ joint, t = .punct ',' joint

theorem printTokens_append (ts us : List Token) :
    printTokens (ts ++ us) = printTokens ts ++ printTokens us := by
  induction ts with
  | nil => simp [printTokens]
  | cons t ts ih => simp [printTokens, ih]

theorem printTokens_angles (ts : List Token) (joint joint' : Bool) :
    printTokens (.punct '<' joint :: ts ++ [.punct '>' joint']) =
      "<" :: printTokens ts ++ [">"] := by
  simp [printTokens_append, printTokens, Token.printed]

namespace Separated

variable {trailing : Bool} {tss : List (List Token)} {ts : List Token}

/-- Parts that are printed as they were written, with printed commas between them. -/
theorem eq_printTokens {p : Printed} (h : Separated IsComma trailing tss ts)
    (hp : Separated (· = ",") trailing (tss.map printTokens) p) : p = printTokens ts := by
  induction h generalizing p with
  | nil =>
    cases hp
    rfl
  | last x =>
    cases hp
    rfl
  | trailing x hc =>
    obtain ⟨joint, rfl⟩ := hc
    obtain - | - | ⟨-, rfl⟩ := hp
    rw [printTokens_append]
    rfl
  | cons x hc h ih =>
    obtain ⟨joint, rfl⟩ := hc
    obtain - | - | - | ⟨-, rfl, hp⟩ := hp
    rw [printTokens_append, ih hp]
    rfl

/-- Behind a part stands a comma, or what stands behind them all. -/
theorem exists_behind (h : Separated IsComma trailing tss ts) {x : List Token} (hx : x ∈ tss)
    (last : Token) : ∃ front t back, ts ++ [last] = front ++ (x ++ t :: back) ∧
      (IsComma t ∨ t = last) := by
  induction h with
  | nil => nomatch hx
  | last y =>
    obtain rfl := List.mem_singleton.1 hx
    exact ⟨[], last, [], rfl, .inr rfl⟩
  | trailing y hc =>
    obtain rfl := List.mem_singleton.1 hx
    exact ⟨[], _, [last], by simp, .inl hc⟩
  | @cons y c hc _ _ _ rest h ih =>
    obtain rfl | hx := List.mem_cons.1 hx
    · exact ⟨[], c, rest ++ [last], by simp, .inl hc⟩
    · obtain ⟨front, t, back, heq, ht⟩ := ih hx
      exact ⟨y ++ c :: front, t, back, by simp [heq], ht⟩

end Separated

/-! ## Rendered code -/

/-- A mark of lists in angle brackets. -/
def Token.isListMark : Token → Bool
  | .punct c _ => c = '<' || c = '>' || c = ','
  | _ => false

/-- Whether tokens are a lifetime and nothing more. -/
def isLoneLifetime : List Token → Bool
  | [.lifetime _] => true
  | _ => false

/-- The words with which items are declared that have parameters, or parts with parameters. -/
def itemWords : List String :=
  ["fn", "const", "type", "struct", "enum", "union", "trait", "impl"]

/-- Whether items may be declared in tokens. -/
def declaresItems (ts : List Token) : Bool := itemWords.any fun s => ts.any fun t => isWord s [t]

/-- Parameters as they were written, and without the colon that no bounds follow. -/
inductive DropsColon : List Token → List Token → Prop
  | same (ts : List Token) : DropsColon ts ts
  | last (ts : List Token) (joint : Bool) : DropsColon (ts ++ [.punct ':' joint]) ts
  | beforeDefault (ts us : List Token) (joint joint' : Bool) :
      DropsColon (ts ++ .punct ':' joint :: .punct '=' joint' :: us) (ts ++ .punct '=' joint' :: us)

/-- What is printed of tokens. In a group any token may stand for itself. Elsewhere the marks of
lists may not, as they are those of lists. -/
inductive Rendered : (inGroup : Bool) → List Token → Printed → Prop
  | nil {inGroup : Bool} : Rendered inGroup [] []
  | token {inGroup : Bool} {t : Token} (h : inGroup = true ∨ t.isListMark = false) :
      Rendered inGroup [t] t.printed
  | arrow {inGroup : Bool} (joint joint' : Bool) :
      Rendered inGroup [.punct '-' joint, .punct '>' joint'] ["-", ">"]
  | append {inGroup : Bool} {ts us : List Token} {p q : Printed} (h : Rendered inGroup ts p)
      (h' : Rendered inGroup us q) : Rendered inGroup (ts ++ us) (p ++ q)
  | group {inGroup : Bool} (d : Delimiter) {ts : List Token} {p : Printed}
      (h : Rendered true ts p) : Rendered inGroup [.group d ts] (Printed.enclosed d p)
  /-- The colons in front of arguments in parentheses are left out. -/
  | called {inGroup : Bool} (joint joint' : Bool) {ts : List Token} {p : Printed}
      (h : Rendered true ts p) :
      Rendered inGroup [.punct ':' joint, .punct ':' joint', .group .parenthesis ts]
        (Printed.enclosed .parenthesis p)
  /-- A block that declares items may be printed in any way. -/
  | declaring {inGroup : Bool} {ts : List Token} (h : declaresItems ts = true) (p : Printed) :
      Rendered inGroup [.group .brace ts] (Printed.enclosed .brace p)
  /-- The lifetimes bound in front of a macro are left out. -/
  | unbound {inGroup : Bool} (joint joint' joint'' : Bool) (d : Delimiter)
      {params path inside : List Token} {p : Printed}
      (h : Rendered inGroup (path ++ [.punct '!' joint'', .group d inside]) p) :
      Rendered inGroup (.ident "for" :: .punct '<' joint :: params ++ .punct '>' joint' ::
        (path ++ [.punct '!' joint'', .group d inside])) p
  /-- Parameters stay in their order. -/
  | parameters {inGroup trailing : Bool} (joint joint' : Bool)
      {params : List (List Token × Printed)} {written : List (List Token)} {ts : List Token}
      {p : Printed} (h : ∀ a ∈ params, Rendered false a.1 a.2)
      (hwritten : List.Forall₂ DropsColon written (params.map (·.1)))
      (hts : Separated IsComma trailing written ts)
      (hp : Separated (· = ",") trailing (params.map (·.2)) p) :
      Rendered inGroup (.punct '<' joint :: ts ++ [.punct '>' joint']) ("<" :: p ++ [">"])
  /-- Arguments are printed with the lifetimes first. -/
  | arguments {inGroup trailing : Bool} (joint joint' : Bool)
      {args : List (List Token × Printed)} {ts : List Token} {p : Printed}
      (h : ∀ a ∈ args, Rendered false a.1 a.2)
      (hts : Separated IsComma trailing (args.map (·.1)) ts)
      (hp : Separated (· = ",") (trailingComma (isLoneLifetime ·.1) args trailing)
        ((lifetimesFirst (isLoneLifetime ·.1) args).map (·.2)) p) :
      Rendered inGroup (.punct '<' joint :: ts ++ [.punct '>' joint']) ("<" :: p ++ [">"])

/-- In a group more is allowed. -/
theorem Rendered.inGroup {inGroup : Bool} {ts : List Token} {p : Printed}
    (h : Rendered inGroup ts p) : Rendered true ts p := by
  induction h with
  | nil => exact .nil
  | token h => exact .token (.inl rfl)
  | arrow joint joint' => exact .arrow joint joint'
  | append _ _ ih ih' => exact .append ih ih'
  | group d h => exact .group d h
  | called joint joint' h => exact .called joint joint' h
  | declaring h p => exact .declaring h p
  | unbound joint joint' joint'' d _ ih => exact .unbound joint joint' joint'' d ih
  | parameters joint joint' h hwritten hts hp => exact .parameters joint joint' h hwritten hts hp
  | arguments joint joint' h hts hp => exact .arguments joint joint' h hts hp

/-- Nothing is printed of nothing alone. -/
theorem Rendered.eq_nil {inGroup : Bool} {ts : List Token} (h : Rendered inGroup ts []) :
    ts = [] := by
  generalize hp : [] = p at h
  induction h with
  | nil => rfl
  | @token _ t _ => cases t <;> simp [Token.printed, Printed.enclosed] at hp
  | append _ _ ih ih' =>
    obtain ⟨hp, hq⟩ := List.append_eq_nil_iff.1 hp.symm
    rw [ih hp.symm, ih' hq.symm, List.append_nil]
  | unbound _ _ _ _ _ ih => exact absurd (ih hp) (by simp)
  | _ => simp [Printed.enclosed] at hp

/-! ## Code that is printed as it was written -/

/-- The marks behind which an argument begins. -/
def Token.opensArgument : Token → Bool
  | .punct c _ => c = '<' || c = ','
  | _ => false

/-- Whether a token is the last one of an argument that is no lifetime, behind which stands a
lifetime, or is in front of its last one. -/
def Token.delays (t : Token) : List Token → Bool
  | .punct ',' _ :: .lifetime _ :: _ => !isLoneLifetime [t]
  | .lifetime _ :: .punct ',' _ :: .lifetime _ :: _ => !t.opensArgument
  | _ => false

/-- Whether a token is a colon that may be left out. -/
def Token.isDropped : Token → List Token → Bool
  | .punct ':' _, .punct ':' _ :: .group .parenthesis _ :: _ => true
  | .punct ':' _, .punct c _ :: _ => c = ',' || c = '>' || c = '='
  | _, _ => false

/-- Whether a macro stands among tokens. -/
def hasMacro : List Token → Bool
  | .punct '!' _ :: .group _ _ :: _ => true
  | _ :: rest => hasMacro rest
  | [] => false

/-- Whether a token in front of others may keep them from being printed as they were written. -/
def Token.disturbs (t : Token) (rest : List Token) : Bool :=
  t.delays rest || t.isDropped rest || (isWord "for" [t] && hasMacro rest)

mutual

/-- Whether nothing in a token keeps it from being printed as it was written. -/
def Token.undisturbed : Token → Bool
  | .group d ts => Code.undisturbed ts && !(d = .brace && declaresItems ts)
  | _ => true

/-- Whether nothing in some tokens keeps them from being printed as they were written. -/
def undisturbed : List Token → Bool
  | [] => true
  | t :: rest => t.undisturbed && !t.disturbs rest && undisturbed rest

end

theorem hasMacro_append {ts : List Token} (us : List Token) (h : hasMacro ts = true) :
    hasMacro (ts ++ us) = true := by
  fun_induction hasMacro ts with
  | case1 => rfl
  | case2 t rest hmacro ih =>
    rw [List.cons_append]
    unfold hasMacro
    split <;> simp_all
  | case3 => nomatch h

theorem hasMacro_of_append (ts : List Token) (joint : Bool) (d : Delimiter) (inside : List Token) :
    hasMacro (ts ++ [Token.punct '!' joint, Token.group d inside]) = true := by
  induction ts with
  | nil => rfl
  | cons t ts ih =>
    rw [List.cons_append]
    unfold hasMacro
    split <;> simp_all

theorem Token.disturbs_append {t : Token} {ts : List Token} (us : List Token)
    (h : t.disturbs ts = true) : t.disturbs (ts ++ us) = true := by
  have hdelays : t.delays ts = true → t.delays (ts ++ us) = true := by
    intro h
    unfold delays at h
    split at h
    · exact h
    · exact h
    · nomatch h
  have hdropped : t.isDropped ts = true → t.isDropped (ts ++ us) = true := by
    intro h
    unfold isDropped at h
    split at h
    · rfl
    · simp only [Bool.or_eq_true, decide_eq_true_eq] at h
      obtain (rfl | rfl) | rfl := h <;> rfl
    · nomatch h
  simp only [disturbs, Bool.or_eq_true, Bool.and_eq_true] at h ⊢
  exact h.imp (Or.imp hdelays hdropped) fun h => ⟨h.1, hasMacro_append us h.2⟩

theorem undisturbed_append (ts : List Token) {us : List Token} (h : undisturbed (ts ++ us) = true) :
    undisturbed ts = true ∧ undisturbed us = true := by
  induction ts with
  | nil => exact ⟨rfl, h⟩
  | cons t ts ih =>
    simp only [List.cons_append, undisturbed, Bool.and_eq_true, Bool.not_eq_true'] at h ⊢
    obtain ⟨⟨ht, hnext⟩, hrest⟩ := h
    obtain ⟨hts, hus⟩ := ih hrest
    have hbefore : t.disturbs ts = false := by
      by_contra hdisturbs
      have hafter := Token.disturbs_append us (Bool.of_not_eq_false hdisturbs)
      rw [hnext] at hafter
      nomatch hafter
    exact ⟨⟨⟨ht, hbefore⟩, hts⟩, hus⟩

theorem not_disturbs (ts : List Token) {us : List Token} {t : Token}
    (h : undisturbed (ts ++ t :: us) = true) : t.disturbs us = false := by
  have hus := (undisturbed_append ts h).2
  simp only [undisturbed, Bool.and_eq_true, Bool.not_eq_true'] at hus
  exact hus.1.2

/-! ### Lists of undisturbed code -/

section Lists

variable {trailing : Bool} {tss : List (List Token)} {ts : List Token} {last : Token}

theorem Separated.undisturbed (h : Separated IsComma trailing tss ts)
    (hts : Code.undisturbed (ts ++ [last]) = true) : ∀ x ∈ tss, Code.undisturbed x = true := by
  intro x hx
  obtain ⟨front, t, back, heq, -⟩ := h.exists_behind hx last
  exact (undisturbed_append x (undisturbed_append front (heq ▸ hts)).2).1

/-- No colon has been left out behind undisturbed parameters. -/
theorem eq_of_dropsColon {joint : Bool} {kept : List (List Token)}
    (h : Separated IsComma trailing tss ts)
    (hts : undisturbed (ts ++ [Token.punct '>' joint]) = true)
    (hkept : List.Forall₂ DropsColon tss kept) : tss = kept := by
  have hsame : ∀ x ∈ tss, ∀ k, DropsColon x k → x = k := by
    intro x hx k hk
    obtain ⟨front, t, back, heq, ht⟩ := h.exists_behind hx (.punct '>' joint)
    rw [heq] at hts
    cases hk with
    | same => rfl
    | last k colon =>
      have hfalse : (Token.punct ':' colon).disturbs (t :: back) = false :=
        not_disturbs (front ++ k) (by simpa using hts)
      obtain ⟨comma, rfl⟩ | rfl := ht <;> simp [Token.disturbs, Token.isDropped] at hfalse
    | beforeDefault k us colon equals =>
      have hfalse : (Token.punct ':' colon).disturbs
          (Token.punct '=' equals :: us ++ t :: back) = false :=
        not_disturbs (front ++ k) (by simpa using hts)
      simp [Token.disturbs, Token.isDropped] at hfalse
  rw [← List.forall₂_eq_eq_eq]
  exact ((List.forall₂_and_left _ _).2 ⟨hsame, hkept⟩).imp fun _ _ h => h.1 _ h.2

/-- Neither the last token nor one in front of a last lifetime is a mark behind which an argument
begins. -/
def EndsArgument (ts : List Token) : Prop :=
  (∀ us t, ts = us ++ [t] → t.opensArgument = false) ∧
    ∀ us t name, ts = us ++ [t] ++ [.lifetime name] → t.opensArgument = false

theorem endsArgument_concat (ts : List Token) {t : Token} (hopens : t.opensArgument = false)
    (hlifetime : isLoneLifetime [t] = false) : EndsArgument (ts ++ [t]) := by
  refine ⟨fun us t' heq => ?_, fun us t' name heq => ?_⟩ <;>
    obtain ⟨-, ht⟩ := List.append_inj' heq rfl <;> obtain rfl := List.singleton_inj.1 ht
  · exact hopens
  · nomatch hlifetime

theorem EndsArgument.append {ts us : List Token} (h : EndsArgument ts) (h' : EndsArgument us) :
    EndsArgument (ts ++ us) := by
  obtain rfl | ⟨us, t, rfl⟩ := us.eq_nil_or_concat
  · simpa using h
  · rw [List.concat_eq_append] at h' ⊢
    rw [← List.append_assoc]
    refine ⟨fun vs t' heq => ?_, fun vs t' name heq => ?_⟩ <;>
      obtain ⟨hfront, ht⟩ := List.append_inj' heq rfl <;> obtain rfl := List.singleton_inj.1 ht
    · exact h'.1 us t rfl
    · -- The token in front of the lifetime is of the same part, or the last one of the other part.
      obtain rfl | ⟨us, u, rfl⟩ := us.eq_nil_or_concat
      · exact h.1 vs t' (by simpa using hfront)
      · rw [List.concat_eq_append] at h' hfront
        rw [← List.append_assoc] at hfront
        obtain ⟨-, hu⟩ := List.append_inj' hfront rfl
        obtain rfl := List.singleton_inj.1 hu
        exact h'.2 us u name rfl

/-- Rendered code in angle brackets ends an argument. -/
theorem Rendered.endsArgument {p : Printed} (h : Rendered false ts p) : EndsArgument ts := by
  generalize hlist : false = inGroup at h
  induction h with
  | nil => simp [EndsArgument]
  | @token inGroup t ht =>
    obtain rfl := hlist
    have hmark : t.isListMark = false := by simpa using ht
    have hopens : t.opensArgument = false := by
      cases t <;> simp_all [Token.isListMark, Token.opensArgument]
    refine ⟨fun us t' heq => ?_, fun us t' name heq => ?_⟩
    · obtain ⟨-, rfl⟩ : us = [] ∧ t' = t := by
        simpa [List.append_eq_singleton_iff] using heq.symm
      exact hopens
    · simpa using congrArg List.length heq
  | append h h' ih ih' => exact (ih hlist).append (ih' hlist)
  | arrow joint joint' => exact endsArgument_concat [.punct '-' joint] rfl rfl
  | group d => exact endsArgument_concat [] rfl rfl
  | called joint joint' =>
    exact endsArgument_concat [.punct ':' joint, .punct ':' joint'] rfl rfl
  | declaring => exact endsArgument_concat [] rfl rfl
  | @unbound _ joint joint' joint'' d params path inside =>
    have hlast := endsArgument_concat (.ident "for" :: .punct '<' joint :: params ++
      .punct '>' joint' :: path ++ [.punct '!' joint'']) (t := .group d inside) rfl rfl
    simpa using hlast
  | parameters => exact endsArgument_concat _ rfl rfl
  | arguments => exact endsArgument_concat _ rfl rfl

/-- In front of a lifetime stands an argument that is one too. -/
theorem isLoneLifetime_of_behind {t : Token} (ht : t.opensArgument = true) {x back : List Token}
    {p : Printed} (hx : Rendered false x p) {joint : Bool} {name : String}
    (h : undisturbed (t :: (x ++ .punct ',' joint :: .lifetime name :: back)) = true) :
    isLoneLifetime x = true := by
  have hopens : isLoneLifetime [t] = false := by
    cases t <;> first | rfl | nomatch ht
  obtain rfl | ⟨x, t', rfl⟩ := x.eq_nil_or_concat
  · have hfirst := not_disturbs [] h
    simp [Token.disturbs, Token.delays, hopens] at hfirst
  · have hlast : t'.disturbs (.punct ',' joint :: .lifetime name :: back) = false :=
      not_disturbs (t :: x) (by simpa using h)
    obtain ⟨name', rfl⟩ : ∃ name', t' = .lifetime name' := by
      cases t' with
      | lifetime name' => exact ⟨name', rfl⟩
      | _ => simp [Token.disturbs, Token.delays, isLoneLifetime] at hlast
    obtain rfl | ⟨x, t', rfl⟩ := x.eq_nil_or_concat
    · rfl
    · -- Behind no mark of lists, the lifetime is a part of a longer argument.
      have hbefore : t'.disturbs (.lifetime name' :: .punct ',' joint :: .lifetime name :: back) =
          false :=
        not_disturbs (t :: x) (by simpa using h)
      have hmark := hx.endsArgument.2 x t' name' (by simp)
      simp [Token.disturbs, Token.delays, hmark] at hbefore

theorem Separated.pairwise {t : Token} (h : Separated IsComma trailing tss ts)
    (ht : t.opensArgument = true) (hts : Code.undisturbed (t :: ts) = true)
    (hrendered : ∀ x ∈ tss, ∃ p, Rendered false x p) :
    tss.Pairwise fun x y => isLoneLifetime y = true → isLoneLifetime x = true := by
  induction h generalizing t with
  | nil => exact .nil
  | last x => exact List.pairwise_singleton _ x
  | trailing x hc => exact List.pairwise_singleton _ x
  | @cons x c hc _ y ys rest h ih =>
    obtain ⟨joint, rfl⟩ := hc
    obtain ⟨⟨p, hx⟩, hys⟩ := List.forall_mem_cons.1 hrendered
    have hrest := ih rfl (undisturbed_append (t :: x) (by simpa using hts)).2 hys
    have hnext : isLoneLifetime y = true → isLoneLifetime x = true := by
      intro hy
      obtain ⟨name, rfl⟩ : ∃ name, y = [.lifetime name] := by
        unfold isLoneLifetime at hy
        split at hy
        · exact ⟨_, rfl⟩
        · nomatch hy
      obtain ⟨back, rfl⟩ : ∃ back, rest = .lifetime name :: back := by
        cases h with
        | last => exact ⟨[], rfl⟩
        | trailing _ hc => exact ⟨_, rfl⟩
        | cons _ hc h => exact ⟨_, rfl⟩
      exact isLoneLifetime_of_behind ht hx hts
    refine List.pairwise_cons.2 ⟨fun z hz hlone => ?_, hrest⟩
    obtain rfl | hz := List.mem_cons.1 hz
    · exact hnext hlone
    · exact hnext ((List.pairwise_cons.1 hrest).1 z hz hlone)

end Lists

/-- If lifetimes stand first, they stay where they are. -/
theorem lifetimesFirst_eq {α : Type} {isLifetime : α → Bool} {xs : List α}
    (h : xs.Pairwise fun x y => isLifetime y = true → isLifetime x = true) (trailing : Bool) :
    lifetimesFirst isLifetime xs = xs ∧ trailingComma isLifetime xs trailing = trailing := by
  induction h with
  | nil => simp [lifetimesFirst, trailingComma]
  | @cons x xs hx _ ih =>
    cases hlifetime : isLifetime x with
    | true =>
      refine ⟨by simpa [lifetimesFirst, hlifetime] using ih.1, ?_⟩
      obtain rfl | hne := eq_or_ne xs []
      · simp [trailingComma, hlifetime]
      · have hlast : (x :: xs).getLast? = xs.getLast? := List.getLast?_cons_of_ne_nil hne
        simpa [trailingComma, hlast, hlifetime] using ih.2
    | false =>
      have hnot : ∀ y ∈ xs, isLifetime y = false := by
        intro y hy
        by_contra hyes
        simpa [hlifetime] using hx y hy (Bool.of_not_eq_false hyes)
      have hall : ∀ y ∈ x :: xs, isLifetime y = false := List.forall_mem_cons.2 ⟨hlifetime, hnot⟩
      constructor
      · rw [lifetimesFirst, List.filter_eq_nil_iff.2 (by simpa using hall),
          List.filter_eq_self.2 (by simpa using hall), List.nil_append]
      · have hlast : (x :: xs).getLast?.any isLifetime = false := by
          rw [List.getLast?_eq_some_getLast (by simp), Option.any_some]
          exact hall _ (List.getLast_mem _)
        simp [trailingComma, hlast]

/-- Undisturbed code is printed as it was written. -/
theorem Rendered.verbatim {inGroup : Bool} {ts : List Token} {p : Printed}
    (h : Rendered inGroup ts p) (hts : undisturbed ts = true) : p = printTokens ts := by
  induction h with
  | nil => rfl
  | token h => simp [printTokens]
  | arrow joint joint' => rfl
  | append h h' ih ih' =>
    obtain ⟨h₁, h₂⟩ := undisturbed_append _ hts
    rw [printTokens_append, ih h₁, ih' h₂]
  | group d h ih =>
    have hinside := hts
    simp only [undisturbed, Token.undisturbed, Bool.and_eq_true] at hinside
    rw [ih hinside.1.1.1]
    simp [printTokens, Token.printed]
  | called joint joint' h =>
    exact absurd (not_disturbs [] hts) (by simp [Token.disturbs, Token.isDropped])
  | declaring h =>
    simp [undisturbed, Token.undisturbed, h] at hts
  | @unbound _ joint joint' joint'' d params path inside _ h =>
    have hmacro := hasMacro_of_append
      (.punct '<' joint :: params ++ .punct '>' joint' :: path) joint'' d inside
    have hfor := not_disturbs [] hts
    simp_all [Token.disturbs, isWord]
  | @parameters _ trailing joint joint' params written ts p h hwritten hlist hp ih =>
    have hts := (undisturbed_append [_] hts).2
    obtain rfl := eq_of_dropsColon hlist hts hwritten
    have hprinted : params.map (·.2) = (params.map (·.1)).map printTokens := by
      rw [List.map_map, List.map_inj_left]
      exact fun a ha => ih a ha (hlist.undisturbed hts a.1 (List.mem_map_of_mem ha))
    rw [hprinted] at hp
    rw [hlist.eq_printTokens hp, printTokens_angles]
  | @arguments _ trailing joint joint' args ts p h hlist hp ih =>
    have hinside := (undisturbed_append [_] hts).2
    have hprinted : args.map (·.2) = (args.map (·.1)).map printTokens := by
      rw [List.map_map, List.map_inj_left]
      exact fun a ha => ih a ha (hlist.undisturbed hinside a.1 (List.mem_map_of_mem ha))
    have hpairwise := hlist.pairwise (t := .punct '<' joint) rfl (undisturbed_append _ hts).1
      (List.forall_mem_map.2 fun a ha => ⟨a.2, h a ha⟩)
    obtain ⟨horder, hcomma⟩ := lifetimesFirst_eq (List.pairwise_map.1 hpairwise) trailing
    rw [horder, hcomma, hprinted] at hp
    rw [hlist.eq_printTokens hp, printTokens_angles]

end FlatUnion.Code
