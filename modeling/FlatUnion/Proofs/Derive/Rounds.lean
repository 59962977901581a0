import FlatUnion.Proofs.Derive.Arguments

/-!
# Rounds of reading

The tokens in an attribute are read in rounds, as long as any are left (`Reading.Run`). In a round,
the arguments that can be set look at what is left one after another, until one of them takes the
next argument for its own (`Trial`). If none does, the next argument is skipped up to its comma.

A trial on its own may bring nothing about : one that finds another argument hands back all the
tokens, and one that can not read its own loses all of them (`Trial.Outcome`). It is the whole round
that leaves fewer (`round_suffix`), and so reading ends, whichever trials of this kind there are
(`run_ends`).

The only argument that can be set is `crate`. With it, rounds find what is found in an attribute
(`run_crate`). The main statement is `rounds_end`.
-/

namespace FlatUnion.Derive

open Code

/-! ## Reading in rounds -/

/-- Where the reading of an attribute stands : the tokens that are left, and what is known. -/
structure Reading where
  left : List Token
  known : Arguments

/-- What an argument that can be set does with what is left : whether it takes the next argument for
its own, and where reading stands then. -/
abbrev Trial := Reading → Bool × Reading

/-- Adds something that is said. -/
def Arguments.say (a : Arguments) (d : Diagnostic) : Arguments :=
  { a with diagnostics := a.diagnostics ++ [d] }

/-- Reads an argument for `crate`, with the comma behind it. All tokens are left if the next
argument is another one. -/
def CrateText.next (ts : List Token) : Except Complaint (Option CrateText × List Token) :=
  if isWord "crate" ts then
    match CrateText.read ts.tail with
    | .ok (value, rest) => .ok (some value, rest)
    | .error c => .error c
  else .ok (none, ts)

/-- The trial for `crate`. A repetition is taken too, though the first value stays. -/
def Trial.crate : Trial := fun r =>
  match CrateText.next r.left with
  | .ok (none, rest) => (false, ⟨rest, r.known⟩)
  | .ok (some value, rest) =>
    if r.known.crate.isSome then (true, ⟨rest, r.known.say .crateSetBefore⟩)
    else (true, ⟨rest, { r.known with crate := some value }⟩)
  | .error c => (false, ⟨[], r.known.say (.complaint c)⟩)

/-- Reads the name of an argument, and what is behind it up to the next comma. -/
def anyArgument : List Token → Except Complaint (String × List Token)
  | .ident name :: rest => .ok (name, behindComma rest)
  | ts => .error (nameMissing ts.isEmpty)

namespace Reading

/-- Skips an argument that is not known. -/
def skip (r : Reading) : Reading :=
  match anyArgument r.left with
  | .ok (name, rest) => ⟨rest, r.known.say (.unrecognized name)⟩
  | .error c => ⟨[], r.known.say (.complaint c)⟩

/-- Trials one after another, until one takes the next argument. -/
def tryAll : List Trial → Trial
  | [], r => (false, r)
  | trial :: trials, r =>
    match trial r with
    | (true, r) => (true, r)
    | (false, r) => tryAll trials r

/-- A round : some trials, and a skip if none of them takes the next argument. -/
def round (trials : List Trial) (r : Reading) : Reading :=
  match tryAll trials r with
  | (true, r) => r
  | (false, r) => r.skip

/-- Rounds are read as long as tokens are left : how many there are, and where reading stands at the
end. There is no such run where rounds never end. -/
inductive Run (trials : List Trial) : Reading → Nat → Reading → Prop
  | done {r : Reading} (h : r.left = []) : Run trials r 0 r
  | round {r last : Reading} {n : Nat} (h : r.left ≠ [])
    (rest : Run trials (r.round trials) n last) : Run trials r (n + 1) last

variable {trials : List Trial} {r : Reading}

/-- Reading has one outcome at most. -/
theorem Run.unique {n m : Nat} {last other : Reading} (h : Run trials r n last)
    (h' : Run trials r m other) : n = m ∧ last = other := by
  induction h generalizing m with
  | done hnil =>
    cases h' with
    | done => exact ⟨rfl, rfl⟩
    | round hne => exact absurd hnil hne
  | round hne rest ih =>
    cases h' with
    | done hnil => exact absurd hnil hne
    | round _ rest' =>
      obtain ⟨rfl, rfl⟩ := ih rest'
      exact ⟨rfl, rfl⟩

end Reading

/-! ## What trials and rounds leave -/

/-- What a trial may do with the tokens that are left : take an argument, and so the first token at
least, or hand back all tokens, or lose them. -/
inductive Trial.Outcome (ts : List Token) : Bool → List Token → Prop
  | taken {rest : List Token} (h : rest <:+ ts.tail) : Outcome ts true rest
  | handedBack : Outcome ts false ts
  | lost : Outcome ts false []

/-- Whatever there is to read, a trial does one of these things. -/
def Trial.Fair (trial : Trial) : Prop :=
  ∀ r : Reading, Trial.Outcome r.left (trial r).1 (trial r).2.left

/-- A trial that finds no tokens leaves none, whether it takes them or not. -/
theorem Trial.Outcome.of_nil {takes : Bool} {rest : List Token} (h : Outcome [] takes rest)
    (ts : List Token) : Outcome ts takes rest := by
  cases h with
  | taken h =>
    obtain rfl := List.suffix_nil.1 h
    exact .taken List.nil_suffix
  | handedBack => exact .lost
  | lost => exact .lost

theorem behindComma_suffix (ts : List Token) : behindComma ts <:+ ts := by
  fun_induction behindComma ts with
  | case1 => exact List.suffix_rfl
  | case2 joint rest => exact List.suffix_cons _ rest
  | case3 t rest _ ih => exact ih.trans (List.suffix_cons t rest)

theorem CrateText.read_suffix {ts rest : List Token} {value : CrateText}
    (h : CrateText.read ts = .ok (value, rest)) : rest <:+ ts := by
  obtain ⟨joint, literal, -, ⟨-, rfl⟩ | ⟨comma, rfl⟩⟩ := CrateText.read_eq_ok.1 h
  · exact List.nil_suffix
  · exact ⟨[.punct '=' joint, .literal literal, .punct ',' comma], rfl⟩

theorem Trial.fair_crate : Trial.crate.Fair := by
  intro r
  unfold Trial.crate CrateText.next
  by_cases hword : isWord "crate" r.left
  · rw [if_pos hword]
    cases hread : CrateText.read r.left.tail with
    | error c => exact .lost
    | ok result =>
      have htaken := CrateText.read_suffix hread
      -- A repetition takes the same tokens as a first value.
      by_cases hset : r.known.crate.isSome
      · simpa only [if_pos hset] using .taken htaken
      · simpa only [if_neg hset] using .taken htaken
  · rw [if_neg hword]
    exact .handedBack

namespace Reading

variable {trials : List Trial}

theorem fair_tryAll (h : ∀ trial ∈ trials, trial.Fair) : Trial.Fair (tryAll trials) := by
  induction trials with
  | nil => exact fun r => .handedBack
  | cons trial trials ih =>
    obtain ⟨htrial, htrials⟩ := List.forall_mem_cons.1 h
    intro r
    have hone := htrial r
    rw [tryAll]
    cases hr : trial r with
    | mk takes after =>
      have hrest := ih htrials after
      obtain ⟨left, known⟩ := after
      simp only [hr] at hone
      cases hone with
      | taken h => exact .taken h
      | handedBack => exact hrest
      | lost =>
        -- The trials behind a lost argument look at no tokens.
        exact hrest.of_nil r.left

/-- A skip takes the first token at least, if there is any. -/
theorem skip_suffix (r : Reading) : r.skip.left <:+ r.left.tail := by
  obtain ⟨left, known⟩ := r
  unfold skip anyArgument
  rcases left with _ | ⟨t, ts⟩
  · exact List.nil_suffix
  · cases t with
    | ident name => exact behindComma_suffix ts
    | _ => exact List.nil_suffix

/-- A round takes the first token at least, though its trials may take none. -/
theorem round_suffix (h : ∀ trial ∈ trials, trial.Fair) (r : Reading) :
    (r.round trials).left <:+ r.left.tail := by
  have htrials := fair_tryAll h r
  unfold round
  cases hr : tryAll trials r with
  | mk takes after =>
    have hskip := after.skip_suffix
    obtain ⟨left, known⟩ := after
    simp only [hr] at htrials
    cases htrials with
    | taken htaken => exact htaken
    | handedBack => exact hskip
    | lost => exact hskip.trans List.nil_suffix

end Reading

/-! ## Counting rounds -/

/-- How many token trees a token is : a group is one, and a lifetime is two, its apostrophe and its
name. -/
def trees : Token → Nat
  | .lifetime _ => 2
  | _ => 1

/-- The number of token trees. -/
def treeCount : List Token → Nat
  | [] => 0
  | t :: ts => trees t + treeCount ts

theorem treeCount_append (ts us : List Token) :
    treeCount (ts ++ us) = treeCount ts + treeCount us := by
  induction ts with
  | nil => simp [treeCount]
  | cons t ts ih => simp [treeCount, ih, Nat.add_assoc]

/-- Fewer token trees are left when the first token is gone. -/
theorem treeCount_lt {rest ts : List Token} (hne : ts ≠ []) (h : rest <:+ ts.tail) :
    treeCount rest < treeCount ts := by
  obtain ⟨t, ts, rfl⟩ := List.exists_cons_of_ne_nil hne
  obtain ⟨taken, rfl⟩ := h
  have ht : 1 ≤ trees t := by cases t <;> simp [trees]
  rw [treeCount, treeCount_append]
  omega

namespace Reading

variable {trials : List Trial}

theorem treeCount_round (h : ∀ trial ∈ trials, trial.Fair) {r : Reading} (hne : r.left ≠ []) :
    treeCount (r.round trials).left < treeCount r.left :=
  treeCount_lt hne (round_suffix h r)

/-- Reading ends, after no more rounds than there are token trees. -/
theorem run_ends (h : ∀ trial ∈ trials, trial.Fair) (r : Reading) :
    ∃ n last, Run trials r n last ∧ n ≤ treeCount r.left := by
  induction hcount : treeCount r.left using Nat.strongRecOn generalizing r with
  | ind count ih =>
    subst hcount
    by_cases hne : r.left = []
    · exact ⟨0, r, .done hne, Nat.zero_le _⟩
    · have hround := treeCount_round h hne
      obtain ⟨n, last, hrun, hn⟩ := ih _ hround (r.round trials) rfl
      exact ⟨n + 1, last, .round hne hrun, by omega⟩

end Reading

/-! ## Rounds with `crate` -/

namespace Arguments

theorem add_unrecognized (a : Arguments) (name : String) :
    a.add (.unrecognized name) = a.say (.unrecognized name) := by
  simp [add, say, Finding.value?, Finding.diagnostics]

theorem add_noName (a : Arguments) (c : Complaint) :
    a.add (.noName c) = a.say (.complaint c) := by
  simp [add, say, Finding.value?, Finding.diagnostics]

theorem add_broken (a : Arguments) (c : Complaint) :
    a.add (.broken c) = (a.say (.complaint c)).say (.complaint (nameMissing true)) := by
  simp [add, say, Finding.value?, Finding.diagnostics]

end Arguments

namespace Trial

theorem crate_of_other {ts : List Token} (h : isWord "crate" ts = false) (a : Arguments) :
    crate ⟨ts, a⟩ = (false, ⟨ts, a⟩) := by
  simp [crate, CrateText.next, h]

theorem crate_of_ok {rest left : List Token} {value : CrateText}
    (h : CrateText.read rest = .ok (value, left)) (a : Arguments) :
    crate ⟨.ident "crate" :: rest, a⟩ = (true, ⟨left, a.add (.crate value)⟩) := by
  obtain ⟨set, diagnostics⟩ := a
  cases set <;>
    simp [crate, CrateText.next, isWord, h, Arguments.add, Arguments.say, Finding.value?,
      Finding.diagnostics]

theorem crate_of_error {rest : List Token} {c : Complaint}
    (h : CrateText.read rest = .error c) (a : Arguments) :
    crate ⟨.ident "crate" :: rest, a⟩ = (false, ⟨[], a.say (.complaint c)⟩) := by
  simp [crate, CrateText.next, isWord, h]

end Trial

namespace Reading

theorem skip_nil (a : Arguments) :
    skip ⟨[], a⟩ = ⟨[], a.say (.complaint (nameMissing true))⟩ := rfl

theorem skip_ident (name : String) (rest : List Token) (a : Arguments) :
    skip ⟨.ident name :: rest, a⟩ = ⟨behindComma rest, a.say (.unrecognized name)⟩ := rfl

theorem skip_of_noName {ts : List Token} (h : ∀ name rest, ts ≠ .ident name :: rest)
    (a : Arguments) : skip ⟨ts, a⟩ = ⟨[], a.say (.complaint (nameMissing ts.isEmpty))⟩ := by
  simp [skip, anyArgument.eq_2 ts h]

theorem round_of_taken {trial : Trial} {r after : Reading} (h : trial r = (true, after)) :
    round [trial] r = after := by
  simp [round, tryAll, h]

theorem round_of_passed {trial : Trial} {r after : Reading} (h : trial r = (false, after)) :
    round [trial] r = after.skip := by
  simp [round, tryAll, h]

/-- A round with a trial for `crate` adds what is found in front, and leaves what is left then. -/
theorem round_crate (ts : List Token) (a : Arguments) :
    round [.crate] ⟨ts, a⟩ = ⟨(Finding.next ts).2, a.add (Finding.next ts).1⟩ := by
  unfold Finding.next
  split
  · next name rest =>
    by_cases hname : name = "crate"
    · subst hname
      rw [if_pos rfl]
      cases hread : CrateText.read rest with
      | ok result => exact round_of_taken (Trial.crate_of_ok hread a)
      | error c =>
        -- Nothing is left, but the round goes on, and the skip complains about the missing name.
        rw [round_of_passed (Trial.crate_of_error hread a), skip_nil, Arguments.add_broken]
    · have hother : isWord "crate" (.ident name :: rest) = false := by simpa [isWord] using hname
      rw [if_neg hname, round_of_passed (Trial.crate_of_other hother a), skip_ident,
        Arguments.add_unrecognized]
  · next hname =>
    have hother : isWord "crate" ts = false := isWord.eq_2 "crate" ts hname
    rw [round_of_passed (Trial.crate_of_other hother a), skip_of_noName hname,
      Arguments.add_noName]

/-- Reading in rounds finds all that is found in the tokens, and one thing in each round. -/
theorem run_crate (ts : List Token) (a : Arguments) :
    Run [.crate] ⟨ts, a⟩ (Finding.all ts).length
      ⟨[], (Finding.all ts).foldl Arguments.add a⟩ := by
  induction ts using Finding.parts.induct generalizing a with
  | case1 =>
    rw [Finding.all_nil]
    exact .done rfl
  | case2 ts hne _ ih =>
    rw [Finding.all_of_next hne rfl]
    refine .round hne ?_
    rw [round_crate]
    exact ih _

end Reading

/-- A trial for `crate` takes an argument, be it a repetition, or it hands back all tokens or loses
them. Whichever of these it does, and whatever is known, the round leaves fewer token trees than it
finds. So the arguments of an attribute are read in no more rounds than it has token trees, and then
no tokens are left and all is known that the attribute says. -/
theorem rounds_end (a : Arguments) {source : Attribute} {d : Delimiter} {ts : List Token}
    (hname : source.path.name? = some "flat_tag") (hbody : source.body = .list d ts) :
    (∀ r : Reading, r.left ≠ [] →
        Trial.Outcome r.left (Trial.crate r).1 (Trial.crate r).2.left ∧
          treeCount (r.round [.crate]).left < treeCount r.left) ∧
      ∃ n, n ≤ treeCount ts ∧ Reading.Run [.crate] ⟨ts, a⟩ n ⟨[], a.addAttribute source⟩ := by
  have hfair : ∀ trial ∈ [Trial.crate], trial.Fair :=
    List.forall_mem_singleton.2 Trial.fair_crate
  refine ⟨fun r hne => ⟨Trial.fair_crate r, Reading.treeCount_round hfair hne⟩, ?_⟩
  obtain ⟨n, last, hrun, hn⟩ := Reading.run_ends hfair ⟨ts, a⟩
  obtain ⟨rfl, rfl⟩ := hrun.unique (Reading.run_crate ts a)
  rw [Arguments.addAttribute, if_pos hname, hbody]
  exact ⟨_, hn, hrun⟩

/-- A value for `crate`, a repetition of it, an argument that is not known, and one for `crate` that
can not be read. -/
def mixedArguments : List Token :=
  [.ident "crate", .punct '=' false, .literal "\"a\"", .punct ',' false,
   .ident "crate", .punct '=' false, .literal "\"b\"", .punct ',' false,
   .ident "x", .lifetime "y", .punct ',' false,
   .ident "crate", .literal "5"]

theorem rounds_end_mixed :
    treeCount (Reading.round [.crate] ⟨mixedArguments, {}⟩).left < 14 ∧
      ∃ n, n ≤ 14 ∧ Reading.Run [.crate] ⟨mixedArguments, {}⟩ n ⟨[],
        { crate := some ⟨"a", ""⟩
          diagnostics :=
            [.crateSetBefore, .unrecognized "x", .complaint ⟨.expected ["`=`"], false⟩,
             .complaint ⟨.expected ["ident"], true⟩] }⟩ := by
  obtain ⟨hround, n, hn, hrun⟩ :=
    @rounds_end {} ⟨.name "flat_tag", .list .parenthesis mixedArguments⟩ .parenthesis _ rfl rfl
  have hknown : Arguments.addAttribute {}
      ⟨.name "flat_tag", .list .parenthesis mixedArguments⟩ =
        { crate := some ⟨"a", ""⟩
          diagnostics :=
            [.crateSetBefore, .unrecognized "x", .complaint ⟨.expected ["`=`"], false⟩,
             .complaint ⟨.expected ["ident"], true⟩] } := by decide +kernel
  exact ⟨(hround _ (List.cons_ne_nil _ _)).2, n, hn, hknown ▸ hrun⟩

end FlatUnion.Derive
