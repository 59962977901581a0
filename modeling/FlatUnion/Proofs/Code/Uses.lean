import FlatUnion.Code.Usage

/-!
# Uses that are found and uses that are missed

Code uses a parameter if a lifetime of its name stands in it, if a path begins with its name, or if
a macro is given its name (`UsedIn`). A name alone is found wherever it stands, and so is a type
that begins with a type parameter (`SeenIn`). All other uses are missed (`MissedIn`) : a longer path
that is no type or begins with a constant, a trait inside of a qualified path, and what a macro is
given. On the other hand a type that begins with colons is taken for a use if the first name behind
them is that of a type parameter (`MistakenIn`).

Names are compared as they are written. The main statement is `anyUses_right_iff`.
-/

namespace FlatUnion.Code

/-! ## Parts of code -/

/-- Somewhere in code, inside of groups and behind the segments of paths too, some pieces stand next
to each other. -/
inductive Appears (part : List Piece) : List Piece → Prop
  | here (before after : List Piece) : Appears part (before ++ part ++ after)
  | inside (before after : List Piece) (d : Delimiter) {code : List Piece}
      (h : Appears part code) : Appears part (before ++ .group d code :: after)
  | argument (before after : List Piece) (role : PathRole) (leading : Bool)
      (front back : List (String × List Piece)) (name : String) {code : List Piece}
      (h : Appears part code) :
      Appears part (before ++ .path role leading (front ++ (name, code) :: back) :: after)

namespace Appears

variable {part code : List Piece}

theorem refl (part : List Piece) : Appears part part := by
  have h : Appears part ([] ++ part ++ []) := here [] []
  rwa [List.nil_append, List.append_nil] at h

theorem append_left (front : List Piece) (h : Appears part code) :
    Appears part (front ++ code) := by
  cases h with
  | here before after =>
    rw [← List.append_assoc, ← List.append_assoc]
    exact here _ _
  | inside before after d h =>
    rw [← List.append_assoc]
    exact inside _ _ d h
  | argument before after role leading front back name h =>
    rw [← List.append_assoc]
    exact argument _ _ role leading front back name h

theorem append_right (back : List Piece) (h : Appears part code) : Appears part (code ++ back) := by
  cases h with
  | here before after =>
    rw [List.append_assoc]
    exact here _ _
  | inside before after d h =>
    rw [List.append_assoc]
    exact inside _ _ d h
  | argument before after role leading front back name h =>
    rw [List.append_assoc]
    exact argument _ _ role leading front back name h

theorem ne_nil (hpart : part ≠ []) (h : Appears part code) : code ≠ [] := by
  cases h <;> simp [hpart]

/-- In a path without arguments nothing stands but the path. -/
theorem eq_of_isBare {p : Piece} (hp : isBare p = true) (hpart : part ≠ [])
    (h : Appears part [p]) : part = [p] := by
  generalize hcode : [p] = code at h
  cases h with
  | here before after =>
    cases before with
    | nil =>
      cases part with
      | nil => contradiction
      | cons q part => simp_all
    | cons => simp_all
  | inside before after d h =>
    cases before with
    | nil => simp_all [isBare]
    | cons => simp at hcode
  | @argument before after role leading front back name code h =>
    cases before with
    | nil =>
      obtain ⟨rfl, -⟩ := List.cons.inj hcode
      have hnil : code = [] := by
        simp only [isBare, List.all_append, List.all_cons, Bool.and_eq_true,
          List.isEmpty_iff] at hp
        exact hp.2.1
      exact absurd hnil (h.ne_nil hpart)
    | cons => simp at hcode

end Appears

/-! ## What is looked for -/

/-- Whether a name is that of a type or of a constant. -/
def Generics.named (g : Generics) (name : String) : Bool :=
  g.declares .type name || g.declares .const name

/-- A piece of code is itself taken for the use of a parameter. -/
inductive Takes (g : Generics) : Piece → Prop
  | lifetime {name : String} (h : g.declares .lifetime name = true) : Takes g (.lifetime name)
  | alone {role : PathRole} {name : String} (hrole : role ≠ .qualified) (h : g.named name = true) :
      Takes g (.path role false [(name, [])])
  | type {leading : Bool} {name : String} {arguments : List Piece}
      {rest : List (String × List Piece)} (h : g.declares .type name = true) :
      Takes g (.path .type leading ((name, arguments) :: rest))

variable {g : Generics} {code : List Piece}

theorem isParameter_eq_true {role : PathRole} {leading : Bool}
    {segments : List (String × List Piece)} :
    g.isParameter (.path role leading segments) = true ↔
      ∃ name, leading = false ∧ segments = [(name, [])] ∧ g.named name = true := by
  rw [Generics.isParameter, Piece.name?.eq_def]
  split
  · next heq =>
    obtain ⟨rfl, rfl, rfl⟩ := Piece.path.inj heq
    simp [Generics.named]
  · next hne =>
    refine iff_of_false (by simp) ?_
    rintro ⟨name, rfl, rfl, -⟩
    exact hne role name rfl

theorem takes_path_iff {role : PathRole} {leading : Bool}
    {segments : List (String × List Piece)} :
    Takes g (.path role leading segments) ↔
      (role ≠ .qualified ∧ g.isParameter (.path role leading segments) = true) ∨
        g.beginsType role segments = true := by
  rw [isParameter_eq_true]
  constructor
  · rintro (_ | ⟨hrole, h⟩ | h)
    · exact .inl ⟨hrole, _, rfl, rfl, h⟩
    · exact .inr (by simpa [Generics.beginsType] using h)
  · rintro (⟨hrole, name, rfl, rfl, h⟩ | h)
    · exact .alone hrole h
    · obtain ⟨rfl, hhead⟩ : role = .type ∧ (segments.head?.any fun s => g.declares .type s.1) := by
        simpa [Generics.beginsType] using h
      match segments, hhead with
      | _ :: _, h => exact .type h

theorem anyUses_append (g : Generics) (xs ys : List Piece) :
    anyUses g (xs ++ ys) = (anyUses g xs || anyUses g ys) := by
  induction xs with
  | nil => rfl
  | cons p xs ih => simp only [List.cons_append, anyUses, ih, Bool.or_assoc]

theorem argumentsUse_append (g : Generics) (xs ys : List (String × List Piece)) :
    argumentsUse g (xs ++ ys) = (argumentsUse g xs || argumentsUse g ys) := by
  induction xs with
  | nil => rfl
  | cons s xs ih => simp only [List.cons_append, argumentsUse, ih, Bool.or_assoc]

theorem uses_path {role : PathRole} {leading : Bool} {segments : List (String × List Piece)} :
    (Piece.path role leading segments).uses g = true ↔
      Takes g (.path role leading segments) ∨ argumentsUse g segments = true := by
  rw [takes_path_iff, Piece.uses]
  simp

theorem uses_of_takes {p : Piece} (h : Takes g p) : p.uses g = true := by
  cases p with
  | token | group => cases h
  | lifetime name =>
    cases h with
    | lifetime h => rwa [Piece.uses]
  | path role leading segments => exact uses_path.2 (.inl h)

theorem anyUses_of_appears {p : Piece} (hp : Takes g p) (h : Appears [p] code) :
    anyUses g code = true := by
  induction h with
  | here before after => simp [anyUses_append, anyUses, uses_of_takes hp]
  | inside before after d h ih => simp [anyUses_append, anyUses, Piece.uses, ih]
  | argument before after role leading front back name h ih =>
    simp [anyUses_append, anyUses, Piece.uses, argumentsUse_append, argumentsUse, ih]

mutual

theorem appears_of_uses : (p : Piece) → p.uses g = true → ∃ q, Takes g q ∧ Appears [q] [p]
  | .token _, h => absurd h (by simp [Piece.uses])
  | .lifetime name, h => ⟨_, .lifetime (by rwa [Piece.uses] at h), .refl _⟩
  | .group d inside, h =>
    have ⟨q, hq, hin⟩ := appears_of_anyUses inside (by simpa [Piece.uses] using h)
    ⟨q, hq, .inside [] [] d hin⟩
  | .path role leading segments, h => by
    rcases uses_path.1 h with h | h
    · exact ⟨_, h, .refl _⟩
    · obtain ⟨q, hq, front, name, arguments, back, rfl, hin⟩ := appears_of_argumentsUse segments h
      exact ⟨q, hq, .argument [] [] role leading front back name hin⟩

theorem appears_of_anyUses : (code : List Piece) → anyUses g code = true →
    ∃ q, Takes g q ∧ Appears [q] code
  | [], h => absurd h (by simp [anyUses])
  | p :: rest, h => by
    rw [anyUses, Bool.or_eq_true] at h
    rcases h with h | h
    · obtain ⟨q, hq, hin⟩ := appears_of_uses p h
      exact ⟨q, hq, hin.append_right rest⟩
    · obtain ⟨q, hq, hin⟩ := appears_of_anyUses rest h
      exact ⟨q, hq, hin.append_left [p]⟩

theorem appears_of_argumentsUse : (segments : List (String × List Piece)) →
    argumentsUse g segments = true →
    ∃ q, Takes g q ∧ ∃ front name arguments back,
      segments = front ++ (name, arguments) :: back ∧ Appears [q] arguments
  | [], h => absurd h (by simp [argumentsUse])
  | (name, arguments) :: rest, h => by
    rw [argumentsUse, Bool.or_eq_true] at h
    rcases h with h | h
    · obtain ⟨q, hq, hin⟩ := appears_of_anyUses arguments h
      exact ⟨q, hq, [], name, arguments, rest, rfl, hin⟩
    · obtain ⟨q, hq, front, name', arguments', back, rfl, hin⟩ := appears_of_argumentsUse rest h
      exact ⟨q, hq, (name, arguments) :: front, name', arguments', back, rfl, hin⟩

end

/-- A use is found if and only if a piece that is taken for one stands anywhere in code. -/
theorem anyUses_iff_appears : anyUses g code = true ↔ ∃ p, Takes g p ∧ Appears [p] code :=
  ⟨appears_of_anyUses code, fun ⟨_, hp, h⟩ => anyUses_of_appears hp h⟩

/-! ## Uses -/

/-- Tokens mention a parameter : a lifetime, or a name that does not stand behind colons. -/
inductive Mentions (g : Generics) : List Token → Prop
  | lifetime {name : String} (before after : List Token)
      (hname : g.declares .lifetime name = true) :
      Mentions g (before ++ .lifetime name :: after)
  | name {name : String} (before after : List Token) (hname : g.named name = true)
      (hbefore : ∀ joint, ¬ [.punct ':' true, .punct ':' joint] <:+ before) :
      Mentions g (before ++ .ident name :: after)
  | inside (before after : List Token) (d : Delimiter) {ts : List Token} (h : Mentions g ts) :
      Mentions g (before ++ .group d ts :: after)

/-- A macro is given the name of a parameter. -/
def GivenIn (g : Generics) (code : List Piece) : Prop :=
  ∃ joint d ts, Appears [.token (.punct '!' joint), .token (.group d ts)] code ∧ Mentions g ts

/-- A parameter is used in code : a lifetime, the name that a path begins with, or a name that a
macro is given. -/
inductive UsedIn (g : Generics) (code : List Piece) : Prop
  | lifetime {name : String} (h : Appears [.lifetime name] code)
      (hname : g.declares .lifetime name = true)
  | path {role : PathRole} {name : String} {arguments : List Piece}
      {rest : List (String × List Piece)}
      (h : Appears [.path role false ((name, arguments) :: rest)] code)
      (hname : g.named name = true)
  | given (h : GivenIn g code)

/-- The uses that are found : a lifetime, a name alone, and a type that begins with a type
parameter. -/
inductive SeenIn (g : Generics) (code : List Piece) : Prop
  | lifetime {name : String} (h : Appears [.lifetime name] code)
      (hname : g.declares .lifetime name = true)
  | alone {role : PathRole} {name : String} (hrole : role ≠ .qualified)
      (h : Appears [.path role false [(name, [])]] code) (hname : g.named name = true)
  | type {name : String} {arguments : List Piece} {rest : List (String × List Piece)}
      (h : Appears [.path .type false ((name, arguments) :: rest)] code)
      (hname : g.declares .type name = true)

/-- The uses that are missed : a path that goes on and is no type or begins with a constant, a trait
inside of a qualified path, and what a macro is given. -/
inductive MissedIn (g : Generics) (code : List Piece) : Prop
  | path {role : PathRole} {name : String} {arguments : List Piece}
      {rest : List (String × List Piece)}
      (h : Appears [.path role false ((name, arguments) :: rest)] code)
      (hname : g.named name = true)
      (hmore : role = .qualified ∨ (arguments, rest) ≠ ([], []))
      (hkind : role = .type → g.declares .type name = false)
  | given (h : GivenIn g code)

/-- What is taken for a use and is none : a type that begins with colons, the first name behind
which is that of a type parameter. -/
def MistakenIn (g : Generics) (code : List Piece) : Prop :=
  ∃ name arguments rest, Appears [.path .type true ((name, arguments) :: rest)] code ∧
    g.declares .type name = true

theorem usedIn_iff : UsedIn g code ↔ SeenIn g code ∨ MissedIn g code := by
  constructor
  · rintro (⟨h, hname⟩ | @⟨role, name, arguments, rest, h, hname⟩ | h)
    · exact .inl (.lifetime h hname)
    · by_cases htype : role = .type ∧ g.declares .type name = true
      · obtain ⟨rfl, hname⟩ := htype
        exact .inl (.type h hname)
      by_cases hmore : role = .qualified ∨ (arguments, rest) ≠ ([], [])
      · exact .inr (.path h hname hmore fun hrole => by simpa [hrole] using htype)
      · obtain ⟨hrole, harguments, rfl⟩ : role ≠ .qualified ∧ arguments = [] ∧ rest = [] := by
          simpa using hmore
        exact .inl (.alone hrole (harguments ▸ h) hname)
    · exact .inr (.given h)
  · rintro ((⟨h, hname⟩ | ⟨-, h, hname⟩ | ⟨h, hname⟩) | (⟨h, hname, -, -⟩ | h))
    · exact .lifetime h hname
    · exact .path h hname
    · exact .path h (by rw [Generics.named, hname, Bool.true_or])
    · exact .path h hname
    · exact .given h

theorem anyUses_iff : anyUses g code = true ↔ SeenIn g code ∨ MistakenIn g code := by
  rw [anyUses_iff_appears]
  constructor
  · rintro ⟨_, hname | ⟨hrole, hname⟩ | @⟨leading, _, _, _, hname⟩, h⟩
    · exact .inl (.lifetime h hname)
    · exact .inl (.alone hrole h hname)
    · cases leading with
      | false => exact .inl (.type h hname)
      | true => exact .inr ⟨_, _, _, h, hname⟩
  · rintro ((⟨h, hname⟩ | ⟨hrole, h, hname⟩ | ⟨h, hname⟩) | ⟨_, _, _, h, hname⟩)
    · exact ⟨_, .lifetime hname, h⟩
    · exact ⟨_, .alone hrole hname, h⟩
    · exact ⟨_, .type hname, h⟩
    · exact ⟨_, .type hname, h⟩

/-- What is found and what is used, for all code and all parameters. A use is found if it is a
lifetime, a name alone or a type that begins with a type parameter, and nothing else is found but
types that begin with colons. So the answer is right if and only if such a use is found, or neither
is a use missed nor a type with colons taken for one, or both. -/
theorem anyUses_right_iff (g : Generics) (code : List Piece) :
    (anyUses g code = true ↔ SeenIn g code ∨ MistakenIn g code) ∧
    (UsedIn g code ↔ SeenIn g code ∨ MissedIn g code) ∧
    ((anyUses g code = true ↔ UsedIn g code) ↔
      SeenIn g code ∨ (MissedIn g code ↔ MistakenIn g code)) := by
  refine ⟨anyUses_iff, usedIn_iff, ?_⟩
  rw [anyUses_iff, usedIn_iff]
  by_cases hseen : SeenIn g code
  · simp only [hseen, true_or]
  · simp only [hseen, false_or]
    exact Iff.comm

/-- The type that a text is. -/
def typeOf? (text : String) : Option (List Piece) := (parseAll parseType text).toOption

theorem exists_typeOf {text : String} {used : Bool} {P : List Piece → Prop}
    (shape : List Piece → Bool) (hshape : ∀ code, shape code = true → P code)
    (h : ((typeOf? text).any fun code => anyUses g code = used ∧ shape code = true) = true) :
    ∃ code, typeOf? text = some code ∧ P code ∧ anyUses g code = used := by
  obtain ⟨code, htext, hcode⟩ := (Option.any_eq_true _ _).1 h
  obtain ⟨hused, hcode⟩ := of_decide_eq_true hcode
  exact ⟨code, htext, hshape code hcode, hused⟩

/-- A single type parameter `T`. -/
def onlyT : Generics := { params := [{ kind := .type, name := "T" }] }

/-- An array whose length is a path that begins with `T`. -/
def isArrayByT : List Piece → Bool
  | [.group _ [_, _, .path _ false (("T", _) :: _)]] => true
  | _ => false

/-- A macro that is given `T`. -/
def isMacroOfT : List Piece → Bool
  | [_, .token (.punct '!' _), .token (.group _ [.ident "T"])] => true
  | _ => false

/-- A path that begins with colons, and has no arguments. -/
def isBareBehindColons : List Piece → Bool
  | [.path role true segments] => isBare (.path role true segments)
  | _ => false

/-- The length `T::LEN` and the macro `m!(T)` use `T` and no use is found, in `::T::X` a use is
found that is none. -/
theorem uses_missed_and_mistaken :
    (∃ code, typeOf? "[u8; T::LEN]" = some code ∧ UsedIn onlyT code ∧
      anyUses onlyT code = false) ∧
    (∃ code, typeOf? "m!(T)" = some code ∧ UsedIn onlyT code ∧ anyUses onlyT code = false) ∧
    (∃ code, typeOf? "::T::X" = some code ∧ ¬ UsedIn onlyT code ∧ anyUses onlyT code = true) := by
  have hT : onlyT.named "T" = true := by decide
  refine ⟨exists_typeOf isArrayByT (fun code h => ?_) (by decide +kernel),
    exists_typeOf isMacroOfT (fun code h => ?_) (by decide +kernel),
    exists_typeOf isBareBehindColons (fun code h hused => ?_) (by decide +kernel)⟩
  · unfold isArrayByT at h
    split at h
    · next d element mark role arguments rest =>
      exact .path (.inside [] [] d (.here [element, mark] [])) hT
    · exact absurd h Bool.false_ne_true
  · unfold isMacroOfT at h
    split at h
    · next macroPath joint d =>
      exact .given ⟨joint, d, _, .here [macroPath] [], .name [] [] hT (by simp)⟩
    · exact absurd h Bool.false_ne_true
  · unfold isBareBehindColons at h
    split at h
    · next role segments =>
      -- The path is all there is, and it begins with colons.
      rcases hused with ⟨hin, -⟩ | ⟨hin, -⟩ | ⟨_, _, _, hin, -⟩ <;>
        simpa using hin.eq_of_isBare h (by simp)
    · exact absurd h Bool.false_ne_true

end FlatUnion.Code
