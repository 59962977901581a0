import FlatUnion.Proofs.Derive.Arguments

/-!
# How often arguments are complained about

An attribute has as many arguments as it has commas, and one more if tokens stand behind the last
comma (`argumentCount`). Rounds read one argument each, and say at most one thing about it. The
exception is an argument for `crate` that is not written as it should be : the round takes all that
is left, and when it has said why, it says that the name of an argument is missing too
(`said_broken`).

What stands behind such an argument is lost, and the first argument that sets `crate` is not
complained about at all. So an attribute has more complaints than arguments exactly if the argument
at fault is its last one and all others are complained about (`EndsBroken`). The main statement is
`complaints_le_arguments_iff`.
-/

namespace FlatUnion.Derive

open Code

/-! ## Counting arguments -/

/-- How many arguments stand in an attribute : one in front of each comma, and one behind the last
comma if any token stands there. -/
def argumentCount (ts : List Token) : Nat :=
  ts.countP isComma + if ts.getLast?.all isComma then 0 else 1

theorem argumentCount_of_whole {ts : List Token} (hne : ts ≠ [])
    (h : ∀ t ∈ ts, isComma t = false) : argumentCount ts = 1 := by
  have hcount : ts.countP isComma = 0 := List.countP_eq_zero.2 fun t ht => by simp [h t ht]
  have hlast : isComma (ts.getLast hne) = false := h _ (List.getLast_mem hne)
  simp [argumentCount, hcount, List.getLast?_eq_some_getLast hne, hlast]

theorem argumentCount_comma {ts : List Token} (h : ∀ t ∈ ts, isComma t = false) (joint : Bool)
    (rest : List Token) :
    argumentCount (ts ++ .punct ',' joint :: rest) = argumentCount rest + 1 := by
  have hcount : ts.countP isComma = 0 := List.countP_eq_zero.2 fun t ht => by simp [h t ht]
  have hcomma : isComma (.punct ',' joint) = true := rfl
  have hlast : (ts ++ .punct ',' joint :: rest).getLast?.all isComma =
      rest.getLast?.all isComma := by
    cases rest with
    | nil => simp [hcomma]
    | cons t rest =>
      have hne : t :: rest ≠ [] := List.cons_ne_nil t rest
      simp [List.getLast?_eq_some_getLast hne]
  rw [argumentCount, argumentCount, hlast, List.countP_append, hcount, List.countP_cons,
    if_pos hcomma]
  omega

theorem one_le_argumentCount {ts : List Token} (hne : ts ≠ []) : 1 ≤ argumentCount ts := by
  rcases whole_or_cut ts with h | ⟨front, joint, rest, rfl, h⟩
  · exact Nat.le_of_eq (argumentCount_of_whole hne h).symm
  · rw [argumentCount_comma h]
    omega

theorem Argument.whole_tokens (a : Argument) : ∀ t ∈ a.tokens, isComma t = false := by
  cases a with
  | crate value literal joint holds => simp [tokens, isComma]
  | other name more unlike whole => exact List.forall_mem_cons.2 ⟨rfl, whole⟩

theorem argumentCount_withCommas (arguments : List (Argument × Bool)) (rest : List Token) :
    argumentCount (withCommas arguments ++ rest) = arguments.length + argumentCount rest := by
  induction arguments with
  | nil => simp [withCommas]
  | cons a arguments ih =>
    rw [withCommas_cons, argumentCount_comma a.1.whole_tokens, ih, List.length_cons]
    omega

/-! ## What is said about an attribute -/

/-- What is said about the tokens of an attribute, given that `crate` is set before or is not. -/
def said (isSet : Bool) (ts : List Token) : List Diagnostic :=
  Notice.report isSet ((Finding.all ts).map .found)

theorem said_nil (isSet : Bool) : said isSet [] = [] := by
  rw [said, Finding.all_nil]
  rfl

/-- What is said about the tokens is said about what a round finds and then about what it
leaves. -/
theorem said_of_next {isSet : Bool} {ts rest : List Token} {f : Finding} (hne : ts ≠ [])
    (hnext : Finding.next ts = (f, rest)) :
    said isSet ts = f.diagnostics isSet ++ said (isSet || f.value?.isSome) rest := by
  rw [said, Finding.all_of_next hne hnext]
  rfl

theorem said_argument (isSet : Bool) (a : Argument) :
    said isSet a.tokens = a.finding.diagnostics isSet := by
  rw [said_of_next a.tokens_ne_nil (Finding.next_argument a), said_nil, List.append_nil]

theorem said_comma (isSet : Bool) (a : Argument) (joint : Bool) (rest : List Token) :
    said isSet (a.tokens ++ .punct ',' joint :: rest) =
      a.finding.diagnostics isSet ++ said (isSet || a.isCrate) rest := by
  rw [said_of_next (by simp) (Finding.next_argument_comma a joint rest)]
  cases a <;> rfl

theorem said_broken {isSet : Bool} {rest : List Token} {c : Complaint}
    (h : CrateText.read rest = .error c) :
    said isSet (.ident "crate" :: rest) = [.complaint c, .complaint (nameMissing true)] := by
  have hnext : Finding.next (.ident "crate" :: rest) = (.broken c, []) := by
    simp [Finding.next, h]
  rw [said_of_next (by simp) hnext, said_nil]
  rfl

theorem said_withCommas (isSet : Bool) (arguments : List (Argument × Bool)) (rest : List Token) :
    said isSet (withCommas arguments ++ rest) =
      Notice.report isSet ((arguments.map (·.1)).map fun a => .found a.finding) ++
        said (isSet || arguments.any fun a => a.1.isCrate) rest := by
  have hcrate : ∀ a : Argument, (Notice.found a.finding).value?.isSome = a.isCrate := by
    intro a
    cases a <;> rfl
  rw [said, all_withCommas, List.map_append, Notice.report_append, said]
  simp [List.any_map, Function.comp_def, hcrate]

theorem length_diagnostics_finding (isSet : Bool) (a : Argument) :
    (a.finding.diagnostics isSet).length = if a.isCrate && !isSet then 0 else 1 := by
  cases a <;> cases isSet <;> rfl

/-! ## Arguments at fault -/

/-- The last argument in an attribute is for `crate` and is not written as it should be, and all the
arguments in front of it are written so and are complained about. -/
def EndsBroken (isSet : Bool) (ts : List Token) : Prop :=
  ∃ front rest, ts = withCommas front ++ .ident "crate" :: rest ∧
    argumentCount (.ident "crate" :: rest) = 1 ∧
    (∀ list : ArgumentList, list.tokens ≠ .ident "crate" :: rest) ∧
    (isSet = true ∨ ∀ a ∈ front, a.1.isCrate = false)

/-- The only argument of an attribute is for `crate` and can be read if and only if it is written as
it should be. -/
theorem exists_error_iff {rest : List Token} (h : argumentCount (.ident "crate" :: rest) = 1) :
    (∃ c, CrateText.read rest = .error c) ↔
      ∀ list : ArgumentList, list.tokens ≠ .ident "crate" :: rest := by
  constructor
  · rintro ⟨c, hc⟩ list hlist
    have hnext : Finding.next (.ident "crate" :: rest) = (.broken c, []) := by
      simp [Finding.next, hc]
    have hall := all_argumentList list
    rw [hlist, Finding.all_of_next (by simp) hnext] at hall
    obtain ⟨a, -, ha⟩ := List.mem_map.1 (hall ▸ List.mem_cons_self)
    cases a <;> cases ha
  · intro hlists
    cases hread : CrateText.read rest with
    | error c => exact ⟨c, rfl⟩
    | ok result =>
      obtain ⟨value, left⟩ := result
      obtain ⟨joint, literal, holds, ⟨rfl, rfl⟩ | ⟨comma, rfl⟩⟩ := CrateText.read_eq_ok.1 hread
      · exact absurd rfl (hlists ⟨[], some (.crate value literal joint holds)⟩)
      · let a : Argument := .crate value literal joint holds
        have hcount : argumentCount left + 1 = 1 :=
          (argumentCount_comma a.whole_tokens comma left).symm.trans h
        cases left with
        | nil => exact absurd rfl (hlists ⟨[(a, comma)], none⟩)
        | cons t left =>
          have hone := one_le_argumentCount (List.cons_ne_nil t left)
          omega

/-- Of an argument at fault two things are said, and one of every argument in front of it. -/
theorem said_of_endsBroken {isSet : Bool} {ts : List Token} (h : EndsBroken isSet ts) :
    ∃ before c, said isSet ts = before ++ [.complaint c, .complaint (nameMissing true)] ∧
      before.length + 1 = argumentCount ts := by
  obtain ⟨front, rest, rfl, hcount, hlists, hfront⟩ := h
  obtain ⟨c, hc⟩ := (exists_error_iff hcount).2 hlists
  refine ⟨_, c, by rw [said_withCommas, said_broken hc], ?_⟩
  rw [report_arguments, argumentCount_withCommas, hcount]
  rcases hfront with rfl | hfront
  · simp
  · have hnone : ∀ a ∈ front.map (·.1), ¬ a.isCrate = true := by
      intro a ha
      obtain ⟨b, hb, rfl⟩ := List.mem_map.1 ha
      simp [hfront b hb]
    rw [List.eraseP_of_forall_not hnone]
    simp

theorem EndsBroken.cons {isSet : Bool} {a : Argument} {rest : List Token} (joint : Bool)
    (ha : isSet = true ∨ a.isCrate = false) (h : EndsBroken (isSet || a.isCrate) rest) :
    EndsBroken isSet (a.tokens ++ .punct ',' joint :: rest) := by
  obtain ⟨front, last, rfl, hcount, hlists, hfront⟩ := h
  refine ⟨(a, joint) :: front, last, (withCommas_cons (a, joint) front _).symm, hcount, hlists, ?_⟩
  rcases ha with rfl | ha
  · exact .inl rfl
  · rw [ha, Bool.or_false] at hfront
    exact hfront.imp id fun hfront => List.forall_mem_cons.2 ⟨ha, hfront⟩

/-- There are no more complaints than arguments, unless the last argument is at fault. -/
theorem said_le_or_endsBroken (isSet : Bool) (ts : List Token) :
    (said isSet ts).length ≤ argumentCount ts ∨ EndsBroken isSet ts := by
  induction ts using Finding.parts.induct generalizing isSet with
  | case1 => exact .inl (by simp [said_nil])
  | case2 ts hne _ ih =>
    have hround := Finding.round_next ts
    have hone := one_le_argumentCount hne
    cases hnext : Finding.next ts with
    | mk f left =>
      simp only [hnext] at hround ih
      cases hround with
      | last a =>
        left
        rw [said_argument, length_diagnostics_finding]
        split <;> omega
      | argument a joint =>
        have hcount := argumentCount_comma a.whole_tokens joint left
        have hsaid : (said isSet (a.tokens ++ .punct ',' joint :: left)).length =
            (if a.isCrate && !isSet then 0 else 1) + (said (isSet || a.isCrate) left).length := by
          rw [said_comma, List.length_append, length_diagnostics_finding]
        rcases ih (isSet || a.isCrate) with hle | hbroken
        · left
          split at hsaid <;> omega
        · -- The first value of `crate` passes without a word, which makes up for the second one
          -- about the argument at fault.
          cases hsilent : a.isCrate && !isSet with
          | true =>
            left
            obtain ⟨before, c, hleft, hbefore⟩ := said_of_endsBroken hbroken
            rw [hleft, hsilent] at hsaid
            simp at hsaid
            omega
          | false =>
            refine .inr (hbroken.cons joint ?_)
            cases isSet <;> simp_all
      | @broken rest c h =>
        by_cases hcount : argumentCount (.ident "crate" :: rest) = 1
        · exact .inr ⟨[], rest, rfl, hcount, (exists_error_iff hcount).1 ⟨c, h⟩, .inr (by simp)⟩
        · left
          rw [said_broken h, List.length_cons, List.length_singleton]
          omega
      | noName h =>
        left
        rw [said_of_next hne hnext, said_nil]
        exact hone

/-- A single argument is at fault if it is for `crate` and is not written as it should be. -/
theorem endsBroken_single {isSet : Bool} {ts : List Token} (h : argumentCount ts = 1) :
    EndsBroken isSet ts ↔
      (∃ rest, ts = .ident "crate" :: rest) ∧ ∀ list : ArgumentList, list.tokens ≠ ts := by
  constructor
  · rintro ⟨front, rest, rfl, hcount, hlists, -⟩
    rw [argumentCount_withCommas, hcount] at h
    obtain rfl : front = [] := List.eq_nil_of_length_eq_zero (by omega)
    exact ⟨⟨rest, rfl⟩, hlists⟩
  · rintro ⟨⟨rest, rfl⟩, hlists⟩
    exact ⟨[], rest, rfl, h, hlists, .inr nofun⟩

theorem diagnostics_addAttribute (a : Arguments) {source : Attribute} {d : Delimiter}
    {ts : List Token} (hname : source.path.name? = some "flat_tag")
    (hbody : source.body = .list d ts) :
    (a.addAttribute source).diagnostics = a.diagnostics ++ said a.crate.isSome ts := by
  rw [Arguments.addAttribute_eq, Arguments.foldl_notice, Notice.ofAttribute_list hname hbody]
  rfl

/-- An attribute adds no more complaints than it has arguments, unless its last argument is for
`crate` and is not written as it should be, and no argument in front of it passes without a
complaint. Then it adds one more : the last argument has two, and the second one says that a name is
missing behind it. So a single argument has at most one complaint, or two if it is at fault in this
way. -/
theorem complaints_le_arguments_iff (a : Arguments) {source : Attribute} {d : Delimiter}
    {ts : List Token} (hname : source.path.name? = some "flat_tag")
    (hbody : source.body = .list d ts) :
    ∃ added, (a.addAttribute source).diagnostics = a.diagnostics ++ added ∧
      (added.length ≤ argumentCount ts ↔ ¬ EndsBroken a.crate.isSome ts) ∧
      (EndsBroken a.crate.isSome ts → added.length = argumentCount ts + 1 ∧
        ∃ before c, added = before ++ [.complaint c, .complaint (nameMissing true)]) ∧
      (argumentCount ts = 1 →
        (added.length ≤ 1 ↔
          ¬ ((∃ rest, ts = .ident "crate" :: rest) ∧
            ∀ list : ArgumentList, list.tokens ≠ ts))) := by
  have hbroken : EndsBroken a.crate.isSome ts →
      (said a.crate.isSome ts).length = argumentCount ts + 1 ∧
        ∃ before c, said a.crate.isSome ts =
          before ++ [.complaint c, .complaint (nameMissing true)] := by
    intro h
    obtain ⟨before, c, hsaid, hbefore⟩ := said_of_endsBroken h
    refine ⟨?_, before, c, hsaid⟩
    rw [hsaid, List.length_append, List.length_cons, List.length_singleton]
    omega
  have hle : (said a.crate.isSome ts).length ≤ argumentCount ts ↔
      ¬ EndsBroken a.crate.isSome ts := by
    refine ⟨fun hle h => ?_, fun h => (said_le_or_endsBroken _ ts).resolve_right h⟩
    have hmore := (hbroken h).1
    omega
  refine ⟨_, diagnostics_addAttribute a hname hbody, hle, hbroken, fun hone => ?_⟩
  rw [← endsBroken_single hone, ← hle, hone]

/-- The attribute with some tokens for its arguments. -/
def attributeOf (ts : List Token) : Attribute := ⟨.name "flat_tag", .list .parenthesis ts⟩

/-- An argument whose name is not known, and one for `crate` that is a number. -/
def numberedCrate : List Token :=
  [.ident "x", .punct ',' false, .ident "crate", .punct '=' false, .literal "5", .punct ',' false]

theorem complaints_le_arguments_iff_numbered :
    ∃ added, (Arguments.addAttribute {} (attributeOf numberedCrate)).diagnostics = added ∧
      added.length = 3 ∧ argumentCount numberedCrate = 2 := by
  obtain ⟨added, hadded, -, hbroken, -⟩ :=
    @complaints_le_arguments_iff {} (attributeOf numberedCrate) .parenthesis _ rfl rfl
  have hread : CrateText.read [.punct '=' false, .literal "5", .punct ',' false] =
      .error ⟨.expected ["string literal"], false⟩ := rfl
  have hends : EndsBroken false numberedCrate :=
    ⟨[(.other "x" [] (by decide) nofun, false)], _, rfl, rfl,
      (exists_error_iff rfl).1 ⟨_, hread⟩, .inr (by decide)⟩
  exact ⟨added, hadded, (hbroken hends).1, rfl⟩

/-- An attribute whose only argument is `crate` without a value has two complaints. -/
theorem bare_crate_twice :
    argumentCount [.ident "crate"] = 1 ∧
      (Arguments.addAttribute {} (attributeOf [.ident "crate"])).diagnostics =
        [.complaint ⟨.expected ["`=`"], false⟩, .complaint ⟨.expected ["ident"], true⟩] :=
  ⟨rfl, by decide +kernel⟩

end FlatUnion.Derive
