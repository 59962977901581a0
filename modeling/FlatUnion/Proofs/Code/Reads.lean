import Mathlib
import FlatUnion.Proofs.Code.Grammar
import FlatUnion.Proofs.Code.Rendered

/-!
# What is printed of what is read

Between two moments of a parser some tokens are read, and of its result some code is printed. For a
parser of the grammar, this is the code that is printed of those tokens (`Reads`, `Parser.Renders`).
The lists in angle brackets need statements of their own, as what is printed of them is made of
all their parts at once (`ReadsParameters`, `ReadsArguments`). So do the parsers of what stands in
groups, which know what they read only if they read all of it (`Parser.RendersAll`).
-/

set_option mvcgen.warning false

namespace FlatUnion.Code

open Std.Do
open FlatUnion.Code.Parser

/-! ## What is printed of pieces -/

/-- Results of parsers that are printed. -/
class Printable (α : Type) where
  printed : α → Printed

export Printable (printed)

instance : Printable (List Piece) := ⟨printPieces⟩

instance : Printable (List Piece × Bool) := ⟨fun x => printPieces x.1⟩

instance : Printable (List (List Piece) × Bool) := ⟨fun x => printPieces (commaPieces x.2 x.1)⟩

instance : Printable (String × List Piece) := ⟨fun s => s.1 :: printPieces s.2⟩

instance : Printable Attribute := ⟨fun a =>
  a.path.printed ++ match a.body with
    | .nothing => []
    | .list d tokens => Printed.enclosed d (printTokens tokens)
    | .value code => "=" :: printPieces code⟩

instance : Printable (List Attribute) := ⟨fun as => printPieces (as.map Attribute.pieces).flatten⟩

@[simp]
theorem printed_pieces (ps : List Piece) : printed ps = printPieces ps := rfl

@[simp]
theorem printed_flagged (x : List Piece × Bool) : printed x = printPieces x.1 := rfl

@[simp]
theorem printed_parts (x : List (List Piece) × Bool) :
    printed x = printPieces (commaPieces x.2 x.1) := rfl

@[simp]
theorem printed_segment (s : String × List Piece) : printed s = s.1 :: printPieces s.2 := rfl

theorem printed_attribute (path : Piece) (body : AttributeBody) :
    printed (⟨path, body⟩ : Attribute) = path.printed ++ match body with
      | .nothing => []
      | .list d tokens => Printed.enclosed d (printTokens tokens)
      | .value code => "=" :: printPieces code := rfl

@[simp]
theorem printed_attributes (as : List Attribute) :
    printed as = printPieces (as.map Attribute.pieces).flatten := rfl

@[simp]
theorem printPieces_nil : printPieces [] = [] := rfl

@[simp]
theorem printPieces_cons (p : Piece) (ps : List Piece) :
    printPieces (p :: ps) = p.printed ++ printPieces ps := by
  rw [printPieces]

@[simp]
theorem printPieces_append (xs ys : List Piece) :
    printPieces (xs ++ ys) = printPieces xs ++ printPieces ys := by
  induction xs with
  | nil => rfl
  | cons p xs ih => simp [ih]

@[simp]
theorem printed_token (t : Token) : (Piece.token t).printed = t.printed := by rw [Piece.printed]

@[simp]
theorem printed_punct (c : Char) : (Piece.punct c).printed = [String.singleton c] := by
  rw [Piece.punct, printed_token, Token.printed]

@[simp]
theorem printed_word (s : String) : (Piece.word s).printed = [s] := by
  rw [Piece.word, printed_token, Token.printed]

@[simp]
theorem printed_lifetime (s : String) : (Piece.lifetime s).printed = [lifetimeText s] := by
  rw [Piece.printed]

@[simp]
theorem printed_group (d : Delimiter) (ps : List Piece) :
    (Piece.group d ps).printed = Printed.enclosed d (printPieces ps) := by
  rw [Piece.printed]

@[simp]
theorem printed_name (s : String) : (Piece.name s).printed = [s] := by
  simp [Piece.name, Piece.printed, printSegments]

@[simp]
theorem printed_inRole (role : PathRole) (p : Piece) : (p.inRole role).printed = p.printed := by
  cases p <;> simp [Piece.inRole, Piece.printed]

@[simp]
theorem printPieces_map_inRole (role : PathRole) (ps : List Piece) :
    printPieces (ps.map (Piece.inRole role)) = printPieces ps := by
  induction ps with
  | nil => rfl
  | cons p ps ih => simp [ih]

@[simp]
theorem printPieces_tokenPieces (ts : List Token) :
    printPieces (tokenPieces ts) = printTokens ts := by
  induction ts with
  | nil => simp [tokenPieces, printTokens]
  | cons t ts ih => simpa [tokenPieces, printTokens] using ih

theorem printSegments_cons {s : String × List Piece} {segments : List (String × List Piece)}
    (h : segments ≠ []) :
    printSegments (s :: segments) =
      s.1 :: (printPieces s.2 ++ ":" :: ":" :: printSegments segments) := by
  obtain ⟨s', segments, rfl⟩ := List.exists_cons_of_ne_nil h
  simp [printSegments, pathSeparator]

theorem printSegments_single (s : String × List Piece) :
    printSegments [s] = s.1 :: printPieces s.2 := by
  simp [printSegments]

@[simp]
theorem printed_path (role : PathRole) (leading : Bool) (segments : List (String × List Piece)) :
    (Piece.path role leading segments).printed =
      (if leading then [":", ":"] else []) ++ printSegments segments := by
  rw [Piece.printed]
  rfl

theorem printSegments_last (front : List (String × List Piece)) (name : String)
    (arguments : List Piece) :
    printSegments (front ++ [(name, arguments)]) =
      printSegments (front ++ [(name, [])]) ++ printPieces arguments := by
  induction front with
  | nil => simp [printSegments]
  | cons s front ih =>
    rw [List.cons_append, List.cons_append, printSegments_cons (by simp),
      printSegments_cons (by simp), ih]
    simp

/-- Arguments are printed behind a path that has none. -/
theorem printed_applied {role : PathRole} {leading : Bool} {segments : List (String × List Piece)}
    (hne : segments ≠ []) (h : endsWithArguments segments = false) (arguments : List Piece) :
    ((Piece.path role leading segments).applied arguments).printed =
      (Piece.path role leading segments).printed ++ printPieces arguments := by
  obtain ⟨front, ⟨name, before⟩, rfl⟩ := (List.eq_nil_or_concat segments).resolve_left hne
  obtain rfl : before = [] := by simpa [endsWithArguments] using h
  simp [Piece.applied, printSegments_last front name arguments]

theorem printPieces_attribute (a : Attribute) :
    printPieces a.pieces = "#" :: Printed.enclosed .bracket (printed a) := by
  obtain ⟨path, body⟩ := a
  cases body <;> simp [Attribute.pieces, printed, Token.printed]

/-- A part more in front, with a comma behind it. -/
theorem printPieces_commaPieces_cons (trailing : Bool) (x : List Piece) (xs : List (List Piece)) :
    printPieces (commaPieces (trailing || xs.isEmpty) (x :: xs)) =
      printPieces x ++ "," :: printPieces (commaPieces trailing xs) := by
  cases xs with
  | nil => simp [commaPieces]
  | cons y ys => simp [commaPieces]

/-! ## What is read -/

/-- Between two moments some tokens are read that satisfy a predicate, unless a group has been left
before its end. -/
def Consumes (P : List Token → Prop) (i j : Input) : Prop :=
  j.leftover = none → i.leftover = none ∧ ∃ ts, i.rest = ts ++ j.rest ∧ P ts

/-- Some tokens are read of which a text is printed. -/
def Reads (inGroup : Bool) (i j : Input) (p : Printed) : Prop :=
  Consumes (Rendered inGroup · p) i j

/-- A group is read whose tokens satisfy a predicate. -/
def ConsumesGroup (d : Delimiter) (P : List Token → Prop) (i j : Input) : Prop :=
  j.leftover = none → i.leftover = none ∧ ∃ ts, i.rest = .group d ts :: j.rest ∧ P ts

/-- A group is read of whose tokens a text is printed. -/
def ReadsGroup (d : Delimiter) (i j : Input) (p : Printed) : Prop :=
  ConsumesGroup d (Rendered true · p) i j

/-- A token has been taken. -/
def TookToken (t : Token) (i j : Input) : Prop :=
  i.rest = t :: j.rest ∧ j.leftover = i.leftover

/-- An operator has been taken. -/
def Took (s : String) (i j : Input) : Prop :=
  isPunct s i.rest = true ∧ j = { i with rest := i.rest.drop s.length }

/-- The texts of the marks of an operator. -/
def marks (s : String) : Printed := s.toList.map String.singleton

/-- An operator has none of the marks of lists. -/
def isUnlisted (s : String) : Bool := s.toList.all fun c => !(c = '<' || c = '>' || c = ',')

namespace Reads

variable {inGroup : Bool} {i j k : Input} {p q : Printed}

@[simp]
theorem refl : Reads inGroup i i [] := fun h => ⟨h, [], rfl, .nil⟩

theorem trans (h : Reads inGroup i j p) (h' : Reads inGroup j k q) :
    Reads inGroup i k (p ++ q) := by
  intro hk
  obtain ⟨hj, us, hus, hq⟩ := h' hk
  obtain ⟨hi, ts, hts, hp⟩ := h hj
  exact ⟨hi, ts ++ us, by simp [hts, hus], .append hp hq⟩

theorem of_list (h : Reads false i j p) : Reads true i j p := by
  intro hj
  obtain ⟨hi, ts, hts, hp⟩ := h hj
  exact ⟨hi, ts, hts, hp.inGroup⟩

/-- Tokens that stand for themselves. -/
theorem of_tokens {ts : List Token} (hi : i.rest = ts ++ j.rest)
    (hleftover : j.leftover = i.leftover)
    (h : ∀ t ∈ ts, inGroup = true ∨ t.isListMark = false) : Reads inGroup i j (printTokens ts) := by
  intro hj
  refine ⟨hleftover ▸ hj, ts, hi, ?_⟩
  clear hi
  induction ts with
  | nil => exact .nil
  | cons t ts ih =>
    obtain ⟨ht, hts⟩ := List.forall_mem_cons.1 h
    rw [printTokens]
    exact .append (.token ht) (ih hts)

end Reads

namespace TookToken

variable {inGroup : Bool} {i j : Input} {t : Token} {s : String}

theorem reads (h : TookToken t i j) (ht : t.isListMark = false) : Reads inGroup i j t.printed :=
  fun hj => ⟨h.2 ▸ hj, [t], h.1, .token (.inr ht)⟩

theorem ident (h : TookToken (.ident s) i j) : Reads false i j [s] := by
  have hreads : Reads false i j _ := h.reads rfl
  rwa [Token.printed] at hreads

theorem lifetime (h : TookToken (.lifetime s) i j) : Reads false i j [lifetimeText s] := by
  have hreads : Reads false i j _ := h.reads rfl
  rwa [Token.printed] at hreads

theorem group {d : Delimiter} {ts : List Token} (h : TookToken (.group d ts) i j) :
    Reads false i j (Token.group d ts).printed :=
  h.reads rfl

end TookToken

namespace ReadsGroup

variable {i j : Input} {d : Delimiter} {p : Printed}

theorem reads (h : ReadsGroup d i j p) : Reads false i j (Printed.enclosed d p) := by
  intro hj
  obtain ⟨hi, ts, hts, hp⟩ := h hj
  exact ⟨hi, [.group d ts], hts, .group d hp⟩

end ReadsGroup

/-- The tokens of an operator are its marks. -/
theorem exists_marks {cs : List Char} {ts : List Token} (h : isOperator cs ts = true) :
    ∃ us rest, ts = us ++ rest ∧ us.length = cs.length ∧
      printTokens us = cs.map String.singleton ∧
        ∀ t ∈ us, ∃ c ∈ cs, ∃ joint, t = .punct c joint := by
  fun_induction isOperator cs ts with
  | case1 ts => exact ⟨[], ts, rfl, rfl, rfl, by simp⟩
  | case2 c c' joint rest =>
    obtain rfl : c = c' := by simpa using h
    exact ⟨[.punct c joint], rest, rfl, rfl, by simp [printTokens, Token.printed], by simp⟩
  | case3 c cs c' joint rest hcs ih =>
    simp only [Bool.and_eq_true, decide_eq_true_eq] at h
    obtain ⟨⟨rfl, rfl⟩, hrest⟩ := h
    obtain ⟨us, rest, rfl, hlength, hprinted, hus⟩ := ih hrest
    refine ⟨.punct c true :: us, rest, rfl, by simp [hlength], ?_, ?_⟩
    · simp [printTokens, Token.printed, hprinted]
    · rintro t (- | ⟨-, ht⟩)
      · exact ⟨c, List.mem_cons_self, true, rfl⟩
      · obtain ⟨c', hc', joint, rfl⟩ := hus t ht
        exact ⟨c', List.mem_cons_of_mem c hc', joint, rfl⟩
  | case4 => exact absurd h Bool.false_ne_true

namespace Took

variable {s : String} {i j k l : Input} {p q : Printed}

theorem exists_tokens (h : Took s i j) : ∃ us, i.rest = us ++ j.rest ∧ j.leftover = i.leftover ∧
    us = i.rest.take s.length ∧ printTokens us = marks s ∧
      ∀ t ∈ us, ∃ c ∈ s.toList, ∃ joint, t = .punct c joint := by
  obtain ⟨hpunct, rfl⟩ := h
  obtain ⟨us, rest, hrest, hlength, hprinted, hus⟩ := exists_marks hpunct
  have hlength : us.length = s.length := hlength
  refine ⟨us, ?_, rfl, ?_, hprinted, hus⟩
  · simp [hrest, ← hlength]
  · simp [hrest, ← hlength]

/-- Behind one mark stands what is left. -/
theorem eq_cons {c : Char} (h : Took (String.singleton c) i j) :
    ∃ joint, i.rest = .punct c joint :: j.rest ∧ j.leftover = i.leftover := by
  obtain ⟨us, hrest, hleftover, hus, -, hpunct⟩ := h.exists_tokens
  obtain ⟨t, rfl⟩ : ∃ t, us = [t] := by
    have hone : us.length = 1 := by
      obtain ⟨us', rest', hrest', hlength, -⟩ := exists_marks h.1
      simp at hlength
      rw [hus, hrest']
      simp [hlength]
    exact List.length_eq_one_iff.1 hone
  obtain ⟨c', hc', joint, rfl⟩ := hpunct t (by simp)
  obtain rfl : c' = c := by simpa using hc'
  exact ⟨joint, hrest, hleftover⟩

theorem reads_inGroup (h : Took s i j) : Reads true i j (marks s) := by
  obtain ⟨us, hrest, hleftover, -, hprinted, -⟩ := h.exists_tokens
  exact hprinted ▸ .of_tokens hrest hleftover fun _ _ => .inl rfl

theorem reads (h : Took s i j) (hs : isUnlisted s = true) : Reads false i j (marks s) := by
  obtain ⟨us, hrest, hleftover, -, hprinted, hpunct⟩ := h.exists_tokens
  refine hprinted ▸ .of_tokens hrest hleftover fun t ht => .inr ?_
  obtain ⟨c, hc, joint, rfl⟩ := hpunct t ht
  simpa [Token.isListMark] using List.all_eq_true.1 hs c hc

theorem colons (h : Took "::" i j) : Reads false i j [":", ":"] := h.reads (by decide)

theorem colon (h : Took ":" i j) : Reads false i j [":"] := h.reads (by decide)

theorem equals (h : Took "=" i j) : Reads false i j ["="] := h.reads (by decide)

theorem semicolon (h : Took ";" i j) : Reads false i j [";"] := h.reads (by decide)

theorem hash (h : Took "#" i j) : Reads false i j ["#"] := h.reads (by decide)

theorem comma (h : Took "," i j) : Reads true i j [","] := h.reads_inGroup

/-- Two marks are taken as two tokens. -/
theorem eq_cons_cons {a b : Char} (h : Took (String.ofList [a, b]) i j) :
    ∃ joint joint', i.rest = .punct a joint :: .punct b joint' :: j.rest ∧
      j.leftover = i.leftover := by
  obtain ⟨us, hrest, hleftover, hus, hprinted, hpunct⟩ := h.exists_tokens
  obtain ⟨t, t', rfl⟩ : ∃ t t', us = [t, t'] := by
    obtain ⟨us', rest', hrest', hlength, -⟩ := exists_marks h.1
    refine List.length_eq_two.1 ?_
    simp at hlength
    simp [hus, hrest', hlength]
  obtain ⟨c, -, joint, rfl⟩ := hpunct t (by simp)
  obtain ⟨c', -, joint', rfl⟩ := hpunct t' (by simp)
  obtain ⟨rfl, rfl⟩ : c = a ∧ c' = b := by simpa [printTokens, Token.printed, marks] using hprinted
  exact ⟨joint, joint', hrest, hleftover⟩

/-- The arrow in front of a result. -/
theorem arrow (h : Took "->" i j) : Reads false i j (marks "->") := by
  obtain ⟨joint, joint', hrest, hleftover⟩ := eq_cons_cons (a := '-') (b := '>') h
  exact fun hj => ⟨hleftover ▸ hj, _, hrest, .arrow joint joint'⟩

/-- The colons in front of arguments in parentheses are left out. -/
theorem called (h : Took "::" i j) (h' : ReadsGroup .parenthesis j k p) :
    Reads false i k (Printed.enclosed .parenthesis p) := by
  obtain ⟨joint, joint', hrest, hleftover⟩ := eq_cons_cons (a := ':') (b := ':') h
  intro hk
  obtain ⟨hj, ts, hts, hp⟩ := h' hk
  exact ⟨hleftover ▸ hj, _, by rw [hrest, hts]; rfl, .called joint joint' hp⟩

end Took

/-- More than one token is read, unless a group has been left before its end. -/
def ReadsTwo (i j : Input) : Prop :=
  j.leftover = none → i.leftover = none ∧ ∃ t t' ts, i.rest = t :: t' :: ts ++ j.rest

namespace ReadsTwo

variable {i j k : Input}

theorem of_took {t : Token} (h : TookToken t i j) {c : Char} (h' : Took (String.singleton c) j k) :
    ReadsTwo i k := by
  obtain ⟨joint, hrest, hleftover⟩ := h'.eq_cons
  exact fun hk => ⟨h.2 ▸ hleftover ▸ hk, t, _, [], by rw [h.1, hrest]; rfl⟩

theorem trans {inGroup : Bool} {p : Printed} (h : ReadsTwo i j) (h' : Reads inGroup j k p) :
    ReadsTwo i k := by
  intro hk
  obtain ⟨hj, us, hus, -⟩ := h' hk
  obtain ⟨hi, t, t', ts, hts⟩ := h hj
  exact ⟨hi, t, t', ts ++ us, by simp [hts, hus]⟩

end ReadsTwo

/-! ## Lists in angle brackets -/

/-- A parameter is read, of which a text is printed. -/
def ReadsParameter (i j : Input) (p : Printed) : Prop :=
  j.leftover = none → i.leftover = none ∧ ∃ ts kept, i.rest = ts ++ j.rest ∧
    DropsColon ts kept ∧ Rendered false kept p

/-- Parameters with commas between them are read, of each of which a text is printed. -/
def ReadsParameters (i j : Input) (ps : List Printed) (trailing : Bool) : Prop :=
  j.leftover = none → i.leftover = none ∧
    ∃ (written : List (List Token)) (params : List (List Token × Printed)) (ts : List Token),
      i.rest = ts ++ j.rest ∧ Separated IsComma trailing written ts ∧
        List.Forall₂ DropsColon written (params.map (·.1)) ∧
    (∀ a ∈ params, Rendered false a.1 a.2) ∧ params.map (·.2) = ps

/-- An argument is read, of which a text is printed, and which may be a lifetime. -/
def ReadsArgument (i j : Input) (x : Bool × Printed) : Prop :=
  j.leftover = none → i.leftover = none ∧ ∃ ts, i.rest = ts ++ j.rest ∧
    isLoneLifetime ts = x.1 ∧ Rendered false ts x.2

/-- A list in angle brackets is read, of which a text is printed. -/
def ReadsAngles (i j : Input) (p : Printed) : Prop :=
  j.leftover = none → i.leftover = none ∧ ∃ joint joint' ts,
    i.rest = Token.punct '<' joint :: ts ++ Token.punct '>' joint' :: j.rest ∧
      Rendered false (Token.punct '<' joint :: ts ++ [Token.punct '>' joint']) p

theorem ReadsAngles.reads {i j : Input} {p : Printed} (h : ReadsAngles i j p) :
    Reads false i j p := by
  intro hj
  obtain ⟨hi, joint, joint', ts, hts, hp⟩ := h hj
  exact ⟨hi, _, by simp [hts], hp⟩

/-- Arguments with commas between them are read. -/
def ReadsArguments (i j : Input) (xs : List (Bool × Printed)) (trailing : Bool) : Prop :=
  j.leftover = none → i.leftover = none ∧
    ∃ (args : List (List Token × Printed)) (ts : List Token),
      i.rest = ts ++ j.rest ∧ Separated IsComma trailing (args.map (·.1)) ts ∧
      (∀ a ∈ args, Rendered false a.1 a.2) ∧ args.map (fun a => (isLoneLifetime a.1, a.2)) = xs

namespace Separated

variable {α : Type} {Comma : α → Prop} {trailing : Bool} {xs : List (List α)} {rest : List α}

/-- A part more in front, with a comma behind it. -/
theorem comma {c : α} (x : List α) (hc : Comma c) (h : Separated Comma trailing xs rest) :
    Separated Comma (trailing || xs.isEmpty) (x :: xs) (x ++ c :: rest) := by
  cases xs with
  | nil =>
    cases h
    exact .trailing x hc
  | cons y ys => simpa using Separated.cons x hc h

theorem ne_nil (h : Separated Comma true xs rest) : xs ≠ [] := by
  cases h <;> simp

end Separated

/-- Pieces with commas between them are printed with commas between what is printed of each. -/
theorem separated_commaPieces {trailing : Bool} {xs : List (List Piece)}
    (h : trailing = true → xs ≠ []) :
    Separated (· = ",") trailing (xs.map printPieces) (printPieces (commaPieces trailing xs)) := by
  fun_induction commaPieces trailing xs with
  | case1 =>
    obtain rfl : trailing = false := by simpa using h
    exact .nil
  | case2 x =>
    cases trailing with
    | false => simpa using Separated.last (printPieces x)
    | true =>
      have hcomma : Separated (· = ",") true [printPieces x] _ := .trailing (printPieces x) rfl
      simpa using hcomma
  | case3 x rest hrest ih =>
    obtain ⟨y, ys, rfl⟩ := List.exists_cons_of_ne_nil hrest
    have hrest := ih (by simp)
    rw [List.map_cons] at hrest
    simpa using @Separated.cons _ (· = ",") (printPieces x) "," rfl _ _ _ _ hrest

namespace ReadsParameter

variable {i j k l m : Input} {p : Printed}

theorem of_reads (h : Reads false i j p) : ReadsParameter i j p := by
  intro hj
  obtain ⟨hi, ts, hts, hp⟩ := h hj
  exact ⟨hi, ts, ts, hts, .same ts, hp⟩

end ReadsParameter

/-- The bounds behind a colon, and no colon if there are none. -/
def boundPieces (bounds : List Piece) : List Piece :=
  if bounds.isEmpty then [] else .punct ':' :: bounds

theorem printPieces_param (p : Param) :
    printPieces p.pieces =
      printPieces (p.attributes.map Attribute.pieces).flatten ++
        ((if p.kind = .const then ["const"] else []) ++ (printPieces p.asArgument ++
          (printPieces (boundPieces p.bounds) ++ match p.default with
            | some code => "=" :: printPieces code
            | none => []))) := by
  obtain ⟨kind, name, attributes, bounds, default⟩ := p
  cases default <;> cases kind <;> simp [Param.pieces, boundPieces]

namespace ReadsParameter

variable {i j k l m n : Input} {p : Printed} {bounds default : List Piece}

/-- Behind a colon stand bounds, or else the colon is left out. -/
theorem bounded (h : Reads false i j p) (hcolon : Took ":" j k)
    (hbounds : Reads false k l (printPieces bounds)) :
    ReadsParameter i l (p ++ printPieces (boundPieces bounds)) := by
  cases bounds with
  | cons b bounds =>
    have hreads := h.trans (hcolon.colon.trans hbounds)
    exact of_reads (by simpa [boundPieces] using hreads)
  | nil =>
    obtain ⟨joint, hrest, hleftover⟩ := Took.eq_cons (c := ':') hcolon
    intro hl
    obtain ⟨hk, us, hus, hnone⟩ := hbounds hl
    obtain rfl := hnone.eq_nil
    obtain ⟨hi, ts, hts, hp⟩ := h (hleftover ▸ hk)
    refine ⟨hi, ts ++ [Token.punct ':' joint], ts, ?_, .last ts joint,
      by simpa [boundPieces] using hp⟩
    simp [hts, hrest, hus]

theorem defaulted (h : Reads false i j p) (hcolon : Took ":" j k)
    (hbounds : Reads false k l (printPieces bounds)) (hequals : Took "=" l m)
    (hdefault : Reads false m n (printPieces default)) :
    ReadsParameter i n (p ++ (printPieces (boundPieces bounds) ++ "=" :: printPieces default)) := by
  cases bounds with
  | cons b bounds =>
    have hreads := h.trans (hcolon.colon.trans (hbounds.trans (hequals.equals.trans hdefault)))
    exact of_reads (by simpa [boundPieces] using hreads)
  | nil =>
    obtain ⟨joint, hrest, hleftover⟩ := Took.eq_cons (c := ':') hcolon
    obtain ⟨joint', hrest', hleftover'⟩ := Took.eq_cons (c := '=') hequals
    intro hn
    obtain ⟨hm, us, hus, hd⟩ := hdefault hn
    obtain ⟨hk, us', hus', hnone⟩ := hbounds (hleftover' ▸ hm)
    obtain rfl := hnone.eq_nil
    obtain ⟨hi, ts, hts, hp⟩ := h (hleftover ▸ hk)
    refine ⟨hi, _, _, ?_, .beforeDefault ts us joint joint', ?_⟩
    · simp [hts, hrest, hus', hrest', hus]
    · have hequals : Rendered false [.punct '=' joint'] ["="] := .token (.inr rfl)
      exact .append hp (.append hequals hd)

end ReadsParameter

namespace ReadsParameters

variable {i j k l : Input} {p : Printed} {ps : List Printed} {trailing : Bool}

theorem nil : ReadsParameters i i [] false :=
  fun h => ⟨h, [], [], [], rfl, .nil, .nil, by simp, rfl⟩

theorem last (h : ReadsParameter i j p) : ReadsParameters i j [p] false := by
  intro hj
  obtain ⟨hi, ts, kept, hts, hkept, hp⟩ := h hj
  exact ⟨hi, [ts], [(kept, p)], ts, hts, .last ts, .cons hkept .nil, by simpa using hp, rfl⟩

theorem cons (h : ReadsParameter i j p) (hcomma : Took "," j k)
    (h' : ReadsParameters k l ps trailing) :
    ReadsParameters i l (p :: ps) (trailing || ps.isEmpty) := by
  obtain ⟨joint, hrest, hleftover⟩ := Took.eq_cons (c := ',') hcomma
  intro hl
  obtain ⟨hk, written, params, us, hus, hseparated, hwritten, hparams, rfl⟩ := h' hl
  obtain ⟨hi, ts, kept, hts, hkept, hp⟩ := h (hleftover ▸ hk)
  refine ⟨hi, ts :: written, (kept, p) :: params, ts ++ .punct ',' joint :: us, ?_, ?_,
    .cons hkept hwritten, List.forall_mem_cons.2 ⟨hp, hparams⟩, rfl⟩
  · simp [hts, hrest, hus]
  · have hempty : (params.map (·.2)).isEmpty = written.isEmpty := by
      have hlength := hwritten.length_eq
      cases written <;> cases params <;> simp_all
    rw [hempty]
    exact hseparated.comma ts ⟨joint, rfl⟩

/-- Parameters in angle brackets. -/
theorem enclosed (hopen : Took "<" i j) {x : List Param × Bool}
    (h : ReadsParameters j k (x.1.map fun p => printPieces p.pieces) x.2) (hclose : Took ">" k l) :
    ReadsAngles i l
      ("<" :: (printPieces (commaPieces x.2 (x.1.map Param.pieces)) ++ [">"])) := by
  obtain ⟨joint, hrest, hleftover⟩ := Took.eq_cons (c := '<') hopen
  obtain ⟨joint', hrest', hleftover'⟩ := Took.eq_cons (c := '>') hclose
  intro hl
  obtain ⟨hj, written, params, ts, hts, hseparated, hwritten, hparams, hprinted⟩ :=
    h (hleftover' ▸ hl)
  refine ⟨hleftover ▸ hj, joint, joint', ts, by simp [hrest, hts, hrest'],
    .parameters joint joint' hparams hwritten hseparated ?_⟩
  have hne : x.2 = true → x.1.map Param.pieces ≠ [] := by
    intro htrailing hnil
    rw [htrailing] at hseparated
    have hlength := hwritten.length_eq
    have hlength' := congrArg List.length hprinted
    have := hseparated.ne_nil
    simp_all
  have hpieces := separated_commaPieces hne
  rw [List.map_map] at hpieces
  rw [hprinted]
  exact hpieces

end ReadsParameters

theorem lifetimesFirst_map {α β : Type} (isLifetime : β → Bool) (f : α → β) (xs : List α) :
    lifetimesFirst isLifetime (xs.map f) = (lifetimesFirst (isLifetime ∘ f) xs).map f := by
  simp [lifetimesFirst, List.filter_map, Function.comp_def]

theorem trailingComma_map {α β : Type} (isLifetime : β → Bool) (f : α → β) (xs : List α)
    (trailing : Bool) :
    trailingComma isLifetime (xs.map f) trailing = trailingComma (isLifetime ∘ f) xs trailing := by
  simp only [trailingComma, List.any_map, List.getLast?_map, Function.comp_def]
  cases xs.getLast? <;> rfl

/-- Lifetimes are bound, or none. -/
def Binds (i j : Input) (binder : List Piece) : Prop :=
  (binder = [] ∧ j = i) ∨ (j.leftover = none → i.leftover = none ∧
    ∃ joint joint' params, i.rest =
      Token.ident "for" :: Token.punct '<' joint :: params ++ Token.punct '>' joint' :: j.rest ∧
    Rendered false
      (Token.ident "for" :: Token.punct '<' joint :: params ++ [Token.punct '>' joint'])
      (printPieces binder))

namespace Binds

variable {i j k l m : Input} {binder : List Piece} {p : Printed}

theorem none : Binds i i [] := .inl ⟨rfl, rfl⟩

theorem angles (hfor : TookToken (.ident "for") i j) (h : ReadsAngles j k p)
    (hprinted : printPieces binder = "for" :: p) : Binds i k binder := by
  refine .inr fun hk => ?_
  obtain ⟨hj, joint, joint', params, hparams, hp⟩ := h hk
  have hword : Rendered false [.ident "for"] ["for"] := .token (.inr rfl)
  refine ⟨hfor.2 ▸ hj, joint, joint', params, by simp [hfor.1, hparams], ?_⟩
  rw [hprinted]
  exact .append hword hp

theorem reads (h : Binds i j binder) : Reads false i j (printPieces binder) := by
  obtain ⟨rfl, rfl⟩ | h := h
  · exact .refl
  · intro hj
    obtain ⟨hi, joint, joint', params, hparams, hp⟩ := h hj
    exact ⟨hi, _, by simp [hparams], hp⟩

/-- In front of a macro bound lifetimes are left out. -/
theorem leftOut (h : Binds i j binder) (hpath : Reads false j k p) (hmark : Took "!" k l)
    {d : Delimiter} {ts : List Token} (hgroup : TookToken (.group d ts) l m) :
    Reads false i m (p ++ (marks "!" ++ (Token.group d ts).printed)) := by
  obtain ⟨joint'', hmark, hbefore⟩ := Took.eq_cons (c := '!') hmark
  intro hm
  obtain ⟨hj, path, hpath, hp⟩ := hpath (hbefore ▸ hgroup.2 ▸ hm)
  have hmacro : Rendered false (path ++ [Token.punct '!' joint'', Token.group d ts])
      (p ++ (marks "!" ++ (Token.group d ts).printed)) := by
    have hbang : Rendered false [.punct '!' joint''] (marks "!") := .token (.inr rfl)
    exact .append hp (.append hbang (.token (.inr rfl)))
  have hj' : j.rest = path ++ [Token.punct '!' joint'', Token.group d ts] ++ m.rest := by
    simp [hpath, hmark, hgroup.1]
  obtain ⟨rfl, rfl⟩ | h := h
  · exact ⟨hj, _, hj', hmacro⟩
  · obtain ⟨hi, joint, joint', params, hparams, -⟩ := h hj
    have hunbound : Rendered false (Token.ident "for" :: Token.punct '<' joint :: params ++
        Token.punct '>' joint' :: (path ++ [Token.punct '!' joint'', Token.group d ts])) _ :=
      .unbound joint joint' joint'' d hmacro
    exact ⟨hi, _, by simp [hparams, hj'], hunbound⟩

end Binds

theorem eq_nil_of_lifetimesFirst {α : Type} {isLifetime : α → Bool} {xs : List α}
    (h : lifetimesFirst isLifetime xs = []) : xs = [] := by
  obtain ⟨hyes, hno⟩ := List.append_eq_nil_iff.1 h
  rw [List.eq_nil_iff_forall_not_mem]
  intro x hx
  have hlifetime := List.filter_eq_nil_iff.1 hyes x hx
  have hother := List.filter_eq_nil_iff.1 hno x hx
  simp [hlifetime] at hother

namespace ReadsArgument

variable {i j : Input} {p : Printed}

theorem lifetime {s : String} (h : TookToken (.lifetime s) i j) :
    ReadsArgument i j (true, [lifetimeText s]) := by
  intro hj
  have hlifetime : Rendered false [.lifetime s] (Token.lifetime s).printed := .token (.inr rfl)
  rw [Token.printed] at hlifetime
  exact ⟨h.2 ▸ hj, [.lifetime s], h.1, rfl, hlifetime⟩

/-- What does not begin with a lifetime is none. -/
theorem of_reads (h : Reads false i j p) (hi : isLifetime i.rest = false) :
    ReadsArgument i j (false, p) := by
  intro hj
  obtain ⟨hleftover, ts, hts, hp⟩ := h hj
  refine ⟨hleftover, ts, hts, ?_, hp⟩
  unfold isLoneLifetime
  split
  · rw [hts] at hi
    nomatch hi
  · rfl

/-- What has more than one token is no lifetime. -/
theorem of_readsTwo (h : Reads false i j p) (htwo : ReadsTwo i j) :
    ReadsArgument i j (false, p) := by
  intro hj
  obtain ⟨hleftover, ts, hts, hp⟩ := h hj
  obtain ⟨-, t, t', us, hus⟩ := htwo hj
  obtain rfl : ts = t :: t' :: us := List.append_cancel_right (hts ▸ hus)
  exact ⟨hleftover, _, hts, by cases t <;> rfl, hp⟩

end ReadsArgument

namespace ReadsArguments

variable {i j k l : Input} {x : Bool × Printed} {xs : List (Bool × Printed)} {trailing : Bool}

theorem nil : ReadsArguments i i [] false := fun h => ⟨h, [], [], rfl, .nil, by simp, rfl⟩

theorem last (h : ReadsArgument i j x) : ReadsArguments i j [x] false := by
  intro hj
  obtain ⟨hi, ts, hts, hlone, hp⟩ := h hj
  exact ⟨hi, [(ts, x.2)], ts, hts, .last ts, by simpa using hp, by simp [hlone]⟩

theorem cons (h : ReadsArgument i j x) (hcomma : Took "," j k)
    (h' : ReadsArguments k l xs trailing) :
    ReadsArguments i l (x :: xs) (trailing || xs.isEmpty) := by
  obtain ⟨joint, hrest, hleftover⟩ := Took.eq_cons (c := ',') hcomma
  intro hl
  obtain ⟨hk, args, us, hus, hseparated, hargs, rfl⟩ := h' hl
  obtain ⟨hi, ts, hts, hlone, hp⟩ := h (hleftover ▸ hk)
  refine ⟨hi, (ts, x.2) :: args, ts ++ .punct ',' joint :: us, ?_, ?_,
    List.forall_mem_cons.2 ⟨hp, hargs⟩, by simp [hlone]⟩
  · simp [hts, hrest, hus]
  · simpa using hseparated.comma ts ⟨joint, rfl⟩

/-- Arguments in angle brackets are printed with the lifetimes first. -/
theorem enclosed (hopen : Took "<" i j) {items : List (Bool × List Piece)}
    (h : ReadsArguments j k (items.map fun x => (x.1, printPieces x.2)) trailing)
    (hclose : Took ">" k l) :
    Reads false i l ("<" :: (printPieces (commaPieces (trailingComma (·.1) items trailing)
      ((lifetimesFirst (·.1) items).map (·.2))) ++ [">"])) := by
  obtain ⟨joint, hrest, hleftover⟩ := Took.eq_cons (c := '<') hopen
  obtain ⟨joint', hrest', hleftover'⟩ := Took.eq_cons (c := '>') hclose
  intro hl
  obtain ⟨hj, args, ts, hts, hseparated, hargs, hitems⟩ := h (hleftover' ▸ hl)
  refine ⟨hleftover ▸ hj, Token.punct '<' joint :: ts ++ [Token.punct '>' joint'], ?_,
    .arguments joint joint' hargs hseparated ?_⟩
  · simp [hrest, hts, hrest']
  -- The arguments as they were read, with what is printed of each.
  let flagged : List Token × Printed → Bool × Printed := fun a => (isLoneLifetime a.1, a.2)
  let shown : Bool × List Piece → Bool × Printed := fun x => (x.1, printPieces x.2)
  have horder : (lifetimesFirst (isLoneLifetime ·.1) args).map (·.2) =
      ((lifetimesFirst (·.1) items).map (·.2)).map printPieces :=
    calc (lifetimesFirst (isLoneLifetime ·.1) args).map (·.2)
        = (lifetimesFirst (·.1) (args.map flagged)).map (·.2) := by
          rw [lifetimesFirst_map, List.map_map]
          rfl
      _ = (lifetimesFirst (·.1) (items.map shown)).map (·.2) := by rw [hitems]
      _ = ((lifetimesFirst (·.1) items).map (·.2)).map printPieces := by
          rw [lifetimesFirst_map, List.map_map, List.map_map]
          rfl
  have hcomma : trailingComma (isLoneLifetime ·.1) args trailing =
      trailingComma (·.1) items trailing :=
    calc trailingComma (isLoneLifetime ·.1) args trailing
        = trailingComma (·.1) (args.map flagged) trailing :=
          (trailingComma_map Prod.fst flagged args trailing).symm
      _ = trailingComma (·.1) (items.map shown) trailing := by rw [hitems]
      _ = trailingComma (·.1) items trailing := trailingComma_map Prod.fst shown items trailing
  rw [horder, hcomma]
  refine separated_commaPieces fun htrailing hnil => ?_
  obtain rfl := eq_nil_of_lifetimesFirst (List.map_eq_nil_iff.1 hnil)
  obtain rfl : args = [] := by simpa using hitems
  obtain rfl : trailing = true := by simpa [trailingComma] using htrailing
  exact hseparated.ne_nil rfl

end ReadsArguments

/-- One argument in angle brackets, such as the type that a path begins with. -/
theorem Reads.angles {i j k l : Input} {p : Printed} (hopen : Took "<" i j)
    (h : Reads false j k p) (hclose : Took ">" k l) :
    Reads false i l (marks "<" ++ (p ++ marks ">")) := by
  obtain ⟨joint, hrest, hleftover⟩ := Took.eq_cons (c := '<') hopen
  obtain ⟨joint', hrest', hleftover'⟩ := Took.eq_cons (c := '>') hclose
  intro hl
  obtain ⟨hj, ts, hts, hp⟩ := h (hleftover' ▸ hl)
  have hone := @lifetimesFirst_eq (List Token × Printed) (isLoneLifetime ·.1) _
    (List.pairwise_singleton _ (ts, p)) false
  have hlist : Separated IsComma false ([(ts, p)].map (·.1)) ts := .last ts
  refine ⟨hleftover ▸ hj, Token.punct '<' joint :: ts ++ [Token.punct '>' joint'], ?_,
    .arguments joint joint' (List.forall_mem_singleton.2 hp) hlist ?_⟩
  · simp [hrest, hts, hrest']
  · rw [hone.1, hone.2]
    exact .last p

/-! ## Parsers of tokens -/

/-- What a parser reads is what is printed of its result. -/
abbrev Parser.Renders {α : Type} [Printable α] (inGroup : Bool) (p : Parser α) (i₀ : Input) :
    Prop :=
  ⦃fun i => ⌜i = i₀⌝⦄ p ⦃⇓? x => fun i => ⌜Reads inGroup i₀ i (printed x)⌝⦄

/-- What a parser reads is what is printed of its result, if it reads all there is. -/
abbrev Parser.RendersAll {α : Type} [Printable α] (p : Parser α) (i₀ : Input) : Prop :=
  ⦃fun i => ⌜i = i₀⌝⦄ p ⦃⇓? x => fun i => ⌜i.rest = [] → Reads true i₀ i (printed x)⌝⦄

section Parsers

variable {i₀ : Input} {α : Type}

theorem gives_throw (c : Complaint) {Q : α → Assertion (.arg Input (.except Complaint .pure))} :
    ⦃fun _ => ⌜True⌝⦄ (throw c : Parser α) ⦃⇓? x => Q x⦄ :=
  fun _ _ => trivial

theorem gives_fail (p : Problem) {Q : α → Assertion (.arg Input (.except Complaint .pure))} :
    ⦃fun _ => ⌜True⌝⦄ (fail p : Parser α) ⦃⇓? x => Q x⦄ :=
  fun _ _ => trivial

theorem gives_expected (thing : String)
    {Q : α → Assertion (.arg Input (.except Complaint .pure))} :
    ⦃fun _ => ⌜True⌝⦄ (expected thing : Parser α) ⦃⇓? x => Q x⦄ :=
  gives_fail _

theorem gives_onlyLifetimes (text : String)
    {Q : α → Assertion (.arg Input (.except Complaint .pure))} :
    ⦃fun _ => ⌜True⌝⦄ (onlyLifetimes text : Parser α) ⦃⇓? x => Q x⦄ :=
  gives_throw _

theorem gives_tooDeep {P : Assertion (.arg Input (.except Complaint .pure))}
    {Q : α → Assertion (.arg Input (.except Complaint .pure))} :
    ⦃P⦄ (tooDeep : Parser α) ⦃⇓? x => Q x⦄ :=
  fun _ _ => trivial

theorem gives_rest :
    ⦃fun i => ⌜i = i₀⌝⦄ rest ⦃⇓? ts => fun i => ⌜ts = i₀.rest ∧ i = i₀⌝⦄ := by
  mvcgen [rest]
  simp_all

attribute [local spec] gives_fail gives_expected gives_onlyLifetimes gives_rest

theorem gives_next (look : List Token → Bool) :
    ⦃fun i => ⌜i = i₀⌝⦄ next look ⦃⇓? b => fun i => ⌜look i₀.rest = b ∧ i = i₀⌝⦄ := by
  mvcgen [next]
  simp_all

theorem gives_atEnd :
    ⦃fun i => ⌜i = i₀⌝⦄ atEnd ⦃⇓? b => fun i => ⌜i₀.rest.isEmpty = b ∧ i = i₀⌝⦄ := by
  mvcgen [atEnd]
  simp_all

theorem gives_take (n : Nat) :
    ⦃fun i => ⌜i = i₀⌝⦄ take n
    ⦃⇓? ts => fun i => ⌜ts = i₀.rest.take n ∧ i = { i₀ with rest := i₀.rest.drop n } ∧
      Reads true i₀ i (printTokens ts)⌝⦄ := by
  mvcgen [take, setRest]
  simp_all +zetaDelta
  exact .of_tokens (List.take_append_drop _ _).symm rfl fun _ _ => .inl rfl

attribute [local spec] gives_next gives_atEnd gives_take

theorem gives_punct (s : String) :
    ⦃fun i => ⌜i = i₀⌝⦄ punct s ⦃⇓? ts => fun i => ⌜printTokens ts = marks s ∧ Took s i₀ i⌝⦄ := by
  mvcgen [punct, gives_throw, -Spec.throw_MonadExcept]
  rename_i i hi _ hpunct j hj ts k
  rintro rfl rfl -
  obtain ⟨rfl, rfl, -⟩ := hj
  subst hi
  have htook : Took s _ _ := ⟨hpunct, rfl⟩
  obtain ⟨us, -, -, rfl, hprinted, -⟩ := htook.exists_tokens
  exact ⟨hprinted, htook⟩

attribute [local spec] gives_punct

theorem exists_of_isWord {s : String} {ts : List Token} (h : isWord s ts = true) :
    ∃ rest, ts = .ident s :: rest := by
  unfold isWord at h
  split at h
  · exact ⟨_, by rw [of_decide_eq_true h]⟩
  · nomatch h

theorem gives_word (s : String) :
    ⦃fun i => ⌜i = i₀⌝⦄ word s
    ⦃⇓? ts => fun i => ⌜printTokens ts = [s] ∧ TookToken (.ident s) i₀ i⌝⦄ := by
  mvcgen [word]
  rename_i i hi _ hword j hj ts k
  rintro rfl rfl -
  obtain ⟨rfl, rfl, -⟩ := hj
  obtain rfl := hi
  obtain ⟨rest, hrest⟩ := exists_of_isWord hword
  simp [TookToken, hrest, printTokens, Token.printed]

theorem gives_name :
    ⦃fun i => ⌜i = i₀⌝⦄ name ⦃⇓? s => fun i => ⌜TookToken (.ident s) i₀ i⌝⦄ := by
  mvcgen [name, setRest]
  all_goals simp_all +zetaDelta [TookToken]

theorem gives_anyWord :
    ⦃fun i => ⌜i = i₀⌝⦄ anyWord ⦃⇓? s => fun i => ⌜TookToken (.ident s) i₀ i⌝⦄ := by
  mvcgen [anyWord, setRest]
  all_goals simp_all +zetaDelta [TookToken]

theorem gives_lifetime :
    ⦃fun i => ⌜i = i₀⌝⦄ lifetime ⦃⇓? s => fun i => ⌜TookToken (.lifetime s) i₀ i⌝⦄ := by
  mvcgen [lifetime, setRest]
  all_goals simp_all +zetaDelta [TookToken]

attribute [local spec] gives_word gives_name gives_anyWord gives_lifetime

/-- A parser that knows what it reads if it reads all there is knows what it reads in a group. -/
theorem gives_group {P : α → List Token → Prop} (d : Delimiter) {p : Parser α}
    (hp : ∀ i, ⦃fun j => ⌜j = i⌝⦄ p ⦃⇓? x => fun j => ⌜j.rest = [] → Consumes (P x) i j⌝⦄) :
    ⦃fun i => ⌜i = i₀⌝⦄ inside d p ⦃⇓? x => fun i => ⌜ConsumesGroup d (P x) i₀ i⌝⦄ := by
  mvcgen [inside, hp]
  rename_i i hi _ d' inner ts hts hd j hj read x k hreads left l hl done
  obtain rfl := hi
  obtain ⟨hrest, rfl⟩ := hj
  obtain ⟨rfl, rfl⟩ := hl
  obtain rfl := hd
  intro hleftover
  -- Nothing was left before, and nothing is left of this group.
  obtain ⟨hbefore, hleft⟩ : l.leftover = none ∧ l.rest = [] := by
    simpa [done, Option.or_eq_none_iff] using hleftover
  obtain ⟨hi, us, hus, hP⟩ := hreads hleft hbefore
  refine ⟨hi, us, ?_, hP⟩
  simp_all [read, done]

theorem gives_inside [Printable α] (d : Delimiter) {p : Parser α} (hp : ∀ i, RendersAll p i) :
    ⦃fun i => ⌜i = i₀⌝⦄ inside d p ⦃⇓? x => fun i => ⌜ReadsGroup d i₀ i (printed x)⌝⦄ :=
  gives_group d hp

attribute [local spec] gives_inside

/-- Tokens are parts with commas between them, each of which is read as something. -/
def SeparatedAs (R : List Token → α → Prop) (xs : List α) (trailing : Bool) (ts : List Token) :
    Prop :=
  ∃ parts, Separated IsComma trailing parts ts ∧ List.Forall₂ R parts xs

section SeparatedAs

variable {R : List Token → α → Prop} {i j k l : Input} {x : α} {xs : List α × Bool}

theorem Consumes.last (h : Consumes (R · x) i j) : Consumes (SeparatedAs R [x] false) i j := by
  intro hj
  obtain ⟨hi, ts, hts, hR⟩ := h hj
  exact ⟨hi, ts, hts, [ts], .last ts, .cons hR .nil⟩

theorem Consumes.trailing (h : Consumes (R · x) i j) (hcomma : Took "," j k) :
    Consumes (SeparatedAs R [x] true) i k := by
  obtain ⟨joint, hrest, hleftover⟩ := Took.eq_cons (c := ',') hcomma
  intro hk
  obtain ⟨hi, ts, hts, hR⟩ := h (hleftover ▸ hk)
  exact ⟨hi, ts ++ [.punct ',' joint], by simp [hts, hrest], [ts], .trailing ts ⟨joint, rfl⟩,
    .cons hR .nil⟩

/-- As something is left behind the comma, and then all is read, there is a part behind it. -/
theorem Consumes.cons (h : Consumes (R · x) i j) (hcomma : Took "," j k) (hk : k.rest ≠ [])
    (hl : l.rest = []) (h' : Consumes (SeparatedAs R xs.1 xs.2) k l) :
    Consumes (SeparatedAs R (x :: xs.1) xs.2) i l := by
  obtain ⟨joint, hrest, hleftover⟩ := Took.eq_cons (c := ',') hcomma
  intro hdone
  obtain ⟨hk', us, hus, parts, hparts, hRs⟩ := h' hdone
  obtain ⟨hi, ts, hts, hR⟩ := h (hleftover ▸ hk')
  refine ⟨hi, ts ++ .punct ',' joint :: us, by simp [hts, hrest, hus], ts :: parts, ?_,
    .cons hR hRs⟩
  cases parts with
  | nil =>
    generalize xs.2 = trailing at hparts
    cases hparts
    simp [hus, hl] at hk
  | cons y ys => exact .cons ts ⟨joint, rfl⟩ hparts

end SeparatedAs

theorem gives_someSeparated {R : List Token → α → Prop} {p : Parser α}
    (hp : ∀ i, ⦃fun j => ⌜j = i⌝⦄ p ⦃⇓? x => fun j => ⌜Consumes (R · x) i j⌝⦄) (n : Nat)
    (i : Input) :
    ⦃fun j => ⌜j = i⌝⦄ someSeparated p n
    ⦃⇓? x => fun j => ⌜j.rest = [] → Consumes (SeparatedAs R x.1 x.2) i j⌝⦄ := by
  have hnil : ∀ i, Consumes (SeparatedAs R [] false) i i :=
    fun i hi => ⟨hi, [], rfl, [], .nil, .nil⟩
  induction n generalizing i with
  | zero =>
    mvcgen [someSeparated]
    simp_all
  | succ n ih =>
    mvcgen [someSeparated, hp, ih]
    all_goals simp_all
    all_goals grind [Consumes.last, Consumes.trailing, Consumes.cons]

theorem gives_commaSeparated {R : List Token → α → Prop} {p : Parser α}
    (hp : ∀ i, ⦃fun j => ⌜j = i⌝⦄ p ⦃⇓? x => fun j => ⌜Consumes (R · x) i j⌝⦄) :
    ⦃fun i => ⌜i = i₀⌝⦄ commaSeparated p
    ⦃⇓? x => fun i => ⌜i.rest = [] → Consumes (SeparatedAs R x.1 x.2) i₀ i⌝⦄ := by
  have hsome := gives_someSeparated hp
  mvcgen [commaSeparated, hsome]
  all_goals simp_all

/-- Rendered parts are printed with commas between them. -/
theorem Rendered.commaPieces {xs : List (List Piece)} {trailing : Bool} {ts : List Token}
    (h : SeparatedAs (fun ts x => Rendered true ts (printPieces x)) xs trailing ts) :
    Rendered true ts (printPieces (commaPieces trailing xs)) := by
  obtain ⟨parts, hparts, hxs⟩ := h
  have hcomma : ∀ {t}, IsComma t → Rendered true [t] [","] := by
    rintro t ⟨joint, rfl⟩
    exact .token (.inl rfl)
  induction hparts generalizing xs with
  | nil =>
    cases hxs
    exact .nil
  | last part =>
    obtain - | ⟨hx, ⟨⟩⟩ := hxs
    simpa [Code.commaPieces] using hx
  | trailing part hc =>
    obtain - | ⟨hx, ⟨⟩⟩ := hxs
    simpa [Code.commaPieces] using hx.append (hcomma hc)
  | cons part hc _ ih =>
    obtain - | ⟨hx, hxs⟩ := hxs
    have hrest := ih hxs
    obtain - | ⟨hy, hys⟩ := hxs
    simpa [Code.commaPieces] using hx.append ((hcomma hc).append hrest)

theorem renders_commaSeparated {p : Parser (List Piece)} (hp : ∀ i, Renders true p i) :
    RendersAll (commaSeparated p) i₀ := by
  have hseparated := @gives_commaSeparated i₀ _ (fun ts x => Rendered true ts (printPieces x)) p hp
  mvcgen [hseparated]
  next hi _ _ =>
    obtain rfl := hi
    intro h hrest hleftover
    obtain ⟨hi, ts, hts, hprinted⟩ := h hrest hleftover
    exact ⟨hi, ts, hts, .commaPieces hprinted⟩

attribute [local spec] renders_commaSeparated

attribute [local grind .] Reads.refl
attribute [local grind →] Reads.trans Reads.of_list TookToken.ident TookToken.lifetime
  TookToken.group ReadsGroup.reads Took.colons Took.comma

/-! ## Helpers of the rules -/

theorem gives_operator (s : String) :
    ⦃fun i => ⌜i = i₀⌝⦄ operator s
    ⦃⇓? ps => fun i => ⌜printPieces ps = marks s ∧ Took s i₀ i ∧ Reads true i₀ i (marks s) ∧
      (isUnlisted s = true → Reads false i₀ i (marks s))⌝⦄ := by
  mvcgen [operator]
  next hi _ _ h =>
    obtain rfl := hi
    exact ⟨by simpa using h.1, h.2, h.2.reads_inGroup, h.2.reads⟩

theorem gives_wordPiece (s : String) :
    ⦃fun i => ⌜i = i₀⌝⦄ wordPiece s
    ⦃⇓? ps => fun i => ⌜printPieces ps = [s] ∧ TookToken (.ident s) i₀ i⌝⦄ := by
  mvcgen [wordPiece]
  all_goals simp_all

attribute [local spec] gives_operator gives_wordPiece

theorem renders_optionalWord (s : String) : Renders false (optionalWord s) i₀ := by
  mvcgen [optionalWord]
  all_goals simp_all
  all_goals grind

theorem renders_enclosed (d : Delimiter) {p : Parser (List Piece)} (hp : ∀ i, RendersAll p i) :
    Renders false (enclosed d (inside d p)) i₀ := by
  mvcgen [enclosed, hp]
  all_goals simp_all
  all_goals grind

/-- The tokens of a literal are none of the marks of lists. -/
theorem isListMark_of_isLiteral {ts : List Token} (h : isLiteral ts = true) :
    ∀ t ∈ ts.take (if isPunct "-" ts then 2 else 1), t.isListMark = false := by
  unfold isLiteral at h
  split at h
  · simp [isPunct, isOperator, Token.isListMark]
  · simp [isPunct, isOperator, Token.isListMark]
  · have hword : ∃ name rest, ts = .ident name :: rest := by
      obtain h | h := Bool.or_eq_true _ _ ▸ h <;> obtain ⟨rest, rfl⟩ := exists_of_isWord h <;>
        exact ⟨_, rest, rfl⟩
    obtain ⟨name, rest, rfl⟩ := hword
    simp [isPunct, isOperator, Token.isListMark]

theorem renders_literal (h : isLiteral i₀.rest = true) : Renders false literal i₀ := by
  mvcgen [literal]
  rename_i i hi signed j hj ts k hk
  obtain rfl := hi
  obtain ⟨rfl, rfl⟩ := hj
  obtain ⟨rfl, rfl, -⟩ := hk
  rw [printed_pieces, printPieces_tokenPieces]
  exact .of_tokens (List.take_append_drop _ _).symm rfl fun t ht =>
    .inr (isListMark_of_isLiteral h t ht)

theorem gives_macroTokens :
    ⦃fun i => ⌜i = i₀⌝⦄ macroTokens
    ⦃⇓? x => fun i => ⌜∃ d ts, printPieces x = (Token.group d ts).printed ∧
      TookToken (.group d ts) i₀ i⌝⦄ := by
  mvcgen [macroTokens]
  rename_i i hi _ d ts left _ j hj us k hk
  obtain rfl := hi
  obtain ⟨hrest, rfl⟩ := hj
  obtain ⟨rfl, rfl, -⟩ := hk
  exact ⟨d, ts, by simp, by simp [← hrest], rfl⟩

theorem renders_barePath_go (n : Nat) :
    ⦃fun i => ⌜i = i₀⌝⦄ barePath.go n
    ⦃⇓? names => fun i => ⌜Reads false i₀ i (printSegments (names.map fun s => (s, [])))⌝⦄ := by
  induction n generalizing i₀ with
  | zero => mvcgen [barePath.go]; simp_all [printSegments]
  | succ n ih =>
    mvcgen [barePath.go, ih]
    all_goals simp_all [printSegments, pathSeparator]
    all_goals grind

theorem renders_barePath :
    ⦃fun i => ⌜i = i₀⌝⦄ barePath ⦃⇓? p => fun i => ⌜Reads false i₀ i p.printed⌝⦄ := by
  have hgo := @renders_barePath_go
  mvcgen [barePath, hgo]
  all_goals simp_all [printSegments]
  all_goals grind

end Parsers

end FlatUnion.Code
