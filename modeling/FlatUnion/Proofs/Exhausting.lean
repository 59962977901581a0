import FlatUnion.Proofs.Enums
import FlatUnion.Proofs.FirstFault

/-!
# Nothing is left

A reader decides by itself how many parts of a sequence or a map it takes, and by which readers.
What is kept in memory has the last word : it objects to parts that were left.

`Reader` describes whatever reads a snapshot in this way, part by part and level by level. Each of
its decisions depends on all that it has been given before, and it returns the first fault that one
of its parts gives. `Reader.Reaches` says which part is read by which reader in the course of it.
`replay_exhausts` is the statement : a reader succeeds only if all sequences and all maps that are
visited in the course of it were read to their ends, it fails with the length of one that was not,
and a fault of its own comes before that.
-/

namespace FlatUnion

/-! ## Readers of any kind -/

mutual

/-- Whatever reads a value. -/
inductive Reader (α : Type)
  /-- Returns without a look at the source. -/
  | pass (result : Except Fault α)
  /-- Puts a request to the source, and visits the answer. -/
  | ask (request : Request) (visitor : Visitor α)

/-- What is done with an answer : how its parts are taken, and, for an enum, how the variant is
read, how the content is read then, and what is returned. -/
inductive Visitor (α : Type)
  | mk (parts : Call Unit → Taking α) (variant : Reader α) (content : α → Content α)
    (result : α → α → Except Fault α)

/-- How parts are taken, given what was read before : whether there are to be more of them, by
which reader, and what is returned in the end. -/
inductive Taking (α : Type)
  | mk (more : List α → Bool) (next : List α → Reader α) (result : List α → Except Fault α)

/-- How the content of a variant is read. -/
inductive Content (α : Type)
  | unit (x : α)
  | newtype (reader : Reader α)
  | tuple (visitor : Visitor α)
  | struct (visitor : Visitor α)

end

namespace Call

variable {σ : Type}

/-- The shape of an answer, its parts left out. -/
def outline (call : Call σ) : Call Unit := call.mapParts fun _ => ()

/-- What a reader takes of an answer, or leaves, as a whole : an element of a sequence, or an entry
of a map, its key before its value. -/
def units : Call σ → List (List σ)
  | .some s | .newtype s => [[s]]
  | .seq items _ => items.map ([·])
  | .map entries _ => entries.map fun e => [e.1, e.2]
  | _ => []

/-- How many elements or entries there are, and of what. -/
def extent : Call σ → Option (Nat × String)
  | .seq items _ => Option.some (items.length, "sequence")
  | .map entries _ => Option.some (entries.length, "map")
  | _ => Option.none

end Call

section Taking

variable {σ α : Type} (more : List α → Bool) (read : List α → σ → Except Fault α)
  (result : List α → Except Fault α)

/-- Reads all that belongs together, after what was read before. -/
def readUnit : (had : List α) → List σ → Except Fault (List α)
  | had, [] => .ok had
  | had, s :: rest => do
    let x ← read had s
    readUnit (had ++ [x]) rest

/-- Takes parts as long as there are any and more are wanted. -/
def takeUnits : (done : Nat) → (had : List α) → List (List σ) → Outcome α
  | done, had, [] => ⟨{ whole := done }, result had⟩
  | done, had, u :: rest =>
    if more had then
      match readUnit read had u with
      | .error f => ⟨{ whole := done }, .error f⟩
      | .ok had => takeUnits (done + 1) had rest
    else ⟨{ whole := done }, result had⟩

end Taking

mutual

/-- What a reader makes of a snapshot. -/
def Reader.read {α : Type} : Reader α → Snapshot → Except Fault α
  | .pass result => fun _ => result
  | .ask request visitor => fun c => consult request c visitor.visit

/-- What a visitor makes of an answer. -/
def Visitor.visit {α : Type} : Visitor α → Call Snapshot → Outcome α
  | .mk parts variant content result => fun call =>
    match call with
    | .enum v c => .plain do
      let k ← variant.read v
      let x ← (content k).read c
      result k x
    | call => (parts call.outline).take call.units

def Taking.take {α : Type} : Taking α → List (List Snapshot) → Outcome α
  | .mk more next result => takeUnits more (fun had => (next had).read) result 0 []

def Content.read {α : Type} : Content α → Option Snapshot → Except Fault α
  | .unit x => ContentReader.read (.unit x)
  | .newtype reader => ContentReader.read (.newtype reader.read)
  | .tuple visitor => ContentReader.read (.tuple visitor.visit)
  | .struct visitor => ContentReader.read (.struct visitor.visit)

end

/-! ## What is read by whom -/

section Reading

variable {α : Type}

/-- Which of the parts that belong together is read by which reader. -/
inductive UnitReads (next : List α → Reader α) : List α → List Snapshot → Reader α → Snapshot → Prop
  | here {had : List α} {s : Snapshot} {rest : List Snapshot} :
    UnitReads next had (s :: rest) (next had) s
  | later {had : List α} {s t : Snapshot} {rest : List Snapshot} {x : α} {r : Reader α}
    (hx : (next had).read s = .ok x) (hr : UnitReads next (had ++ [x]) rest r t) :
    UnitReads next had (s :: rest) r t

/-- Which of all parts is read by which reader. -/
inductive UnitsRead (more : List α → Bool) (next : List α → Reader α) :
    List α → List (List Snapshot) → Reader α → Snapshot → Prop
  | here {had : List α} {u : List Snapshot} {rest : List (List Snapshot)} {r : Reader α}
    {s : Snapshot} (hmore : more had) (hr : UnitReads next had u r s) :
    UnitsRead more next had (u :: rest) r s
  | later {had all : List α} {u : List Snapshot} {rest : List (List Snapshot)} {r : Reader α}
    {s : Snapshot} (hmore : more had) (hu : readUnit (fun had => (next had).read) had u = .ok all)
    (hr : UnitsRead more next all rest r s) : UnitsRead more next had (u :: rest) r s

/-- A visitor that takes nothing but a unit. -/
def Visitor.unit (x : α) : Visitor α :=
  .mk (fun call => .mk (fun _ => false) (fun _ => .pass (.ok x)) fun _ =>
      match call with
      | .unit => .ok x
      | c => .error (.invalidType c.unexpected "unit"))
    (.pass (.ok x)) (fun _ => .unit x) fun _ x => .ok x

/-- The reader that is given the content of a variant. -/
def Content.reader : Content α → Reader α
  | .unit x => .ask .unit (.unit x)
  | .newtype reader => reader
  | .tuple visitor => .ask .tupleVariant visitor
  | .struct visitor => .ask .structVariant visitor

theorem Content.read_some (content : Content α) (c : Snapshot) :
    content.read (some c) = content.reader.read c := by
  cases content with
  | unit x =>
    cases c with
    | seq items => cases items <;> rfl
    | map entries => cases entries <;> rfl
    | _ => rfl
  | newtype r => rfl
  | tuple v => rfl
  | struct v => rfl

/-- Which part of an answer is read by which reader. -/
inductive Visitor.Reads : Visitor α → Call Snapshot → Reader α → Snapshot → Prop
  | part {parts : Call Unit → Taking α} {variant : Reader α} {content : α → Content α}
    {result : α → α → Except Fault α} {call : Call Snapshot} {more : List α → Bool}
    {next : List α → Reader α} {last : List α → Except Fault α} {r : Reader α} {s : Snapshot}
    (hparts : parts call.outline = .mk more next last)
    (hr : UnitsRead more next [] call.units r s) :
    Reads (.mk parts variant content result) call r s
  | variant {parts : Call Unit → Taking α} {variant : Reader α} {content : α → Content α}
    {result : α → α → Except Fault α} {v : Snapshot} {c : Option Snapshot} :
    Reads (.mk parts variant content result) (.enum v c) variant v
  | content {parts : Call Unit → Taking α} {variant : Reader α} {content : α → Content α}
    {result : α → α → Except Fault α} {v c : Snapshot} {k : α} (hk : variant.read v = .ok k) :
    Reads (.mk parts variant content result) (.enum v (some c)) (content k).reader c

/-- Which snapshots are read by which readers in the course of reading one, at any depth. -/
inductive Reader.Reaches : Reader α → Snapshot → Reader α → Snapshot → Prop
  | here (r : Reader α) (c : Snapshot) : Reaches r c r c
  | inside {request : Request} {visitor : Visitor α} {c s t : Snapshot} {a : Answer Snapshot}
    {q r : Reader α} (ha : Source.answer request c = .ok a) (hq : visitor.Reads a.call q s)
    (hr : q.Reaches s r t) : Reaches (.ask request visitor) c r t

end Reading

/-! ## Faults come first -/

section Faults

variable {α : Type} {more : List α → Bool} {next : List α → Reader α} {r : Reader α} {s : Snapshot}
  {f : Fault}

theorem readUnit_eq_error {had : List α} {u : List Snapshot} (h : UnitReads next had u r s)
    (hf : r.read s = .error f) : readUnit (fun had => (next had).read) had u = .error f := by
  induction h with
  | here => rw [readUnit, hf]; rfl
  | later hx _ ih => rw [readUnit, hx]; exact ih hf

/-- The first fault of a part ends the taking of parts. -/
theorem takeUnits_eq_error {last : List α → Except Fault α} {had : List α}
    {us : List (List Snapshot)} (h : UnitsRead more next had us r s) (hf : r.read s = .error f) :
    ∀ done, (takeUnits more (fun had => (next had).read) last done had us).result = .error f := by
  induction h with
  | here hmore hr =>
    intro done
    rw [takeUnits, if_pos hmore, readUnit_eq_error hr hf]
  | later hmore hu _ ih =>
    intro done
    rw [takeUnits, if_pos hmore, hu]
    exact ih hf (done + 1)

theorem Visitor.visit_eq_error {visitor : Visitor α} {call : Call Snapshot}
    (h : visitor.Reads call r s) (hf : r.read s = .error f) :
    (visitor.visit call).result = .error f := by
  cases h with
  | @part parts _ _ _ _ _ _ last _ _ hparts hr =>
    have htake : ((parts call.outline).take call.units).result = .error f := by
      rw [hparts]
      exact takeUnits_eq_error hr hf 0
    cases call with
    | enum v c => cases hr
    | _ => exact htake
  | variant =>
    refine bind_eq_error.2 (.inl hf)
  | content hk =>
    rw [← Content.read_some] at hf
    exact bind_eq_error.2 (.inr ⟨_, hk, bind_eq_error.2 (.inl hf)⟩)

/-- A snapshot answers with what it is, or with something that has no elements or entries. -/
theorem Snapshot.answer_cases {request : Request} {c : Snapshot} {a : Answer Snapshot}
    (ha : Source.answer request c = .ok a) :
    a = c.replay ∨ ∃ call : Call Snapshot, call.extent = Option.none ∧ a = { call } := by
  have ha : answer request c = .ok a := ha
  unfold answer at ha
  split at ha
  case h_1 | h_2 | h_3 | h_4 | h_5 | h_6 => exact .inr ⟨_, rfl, (Except.ok.inj ha).symm⟩
  case h_7 =>
    obtain ⟨p, -, ha⟩ := bind_eq_ok.1 ha
    exact .inr ⟨_, rfl, (Except.ok.inj ha).symm⟩
  case h_8 | h_10 | h_11 | h_13 => exact .inl (Except.ok.inj ha).symm
  case h_9 | h_12 => cases ha

/-- A snapshot does not say where a fault arose. -/
theorem Snapshot.finish_eq_error {request : Request} {c : Snapshot} {a : Answer Snapshot}
    (ha : Source.answer request c = .ok a) {o : Outcome α} (ho : o.result = .error f) :
    a.finish o = .error f := by
  obtain ⟨p, _⟩ := o
  obtain rfl := ho
  obtain rfl | ⟨call, -, rfl⟩ := answer_cases ha <;> rfl

/-- In the end a snapshot objects to what is left of it, if no key has been taken alone. -/
theorem Snapshot.close_eq {request : Request} {c : Snapshot} {a : Answer Snapshot}
    (ha : Source.answer request c = .ok a) {n : Nat} {what : String}
    (hextent : a.call.extent = Option.some (n, what)) {p : Progress} (hp : p.keyTaken = false) :
    a.close p = leftover n what p.whole := by
  obtain rfl | ⟨call, hnone, rfl⟩ := answer_cases ha
  · cases c with
    | seq items =>
      obtain ⟨rfl, rfl⟩ := Prod.mk.inj (Option.some.inj hextent)
      rfl
    | map entries =>
      obtain ⟨rfl, rfl⟩ := Prod.mk.inj (Option.some.inj hextent)
      simp [Snapshot.replay, closing, Progress.begun, hp]
    | _ => cases hextent
  · rw [hnone] at hextent
    cases hextent

theorem Reader.read_eq_error {q : Reader α} {c : Snapshot} (h : q.Reaches c r s)
    (hf : r.read s = .error f) : q.read c = .error f := by
  induction h with
  | here => exact hf
  | inside ha hq _ ih =>
    have hvisit := Visitor.visit_eq_error hq (ih hf)
    exact bind_eq_error.2 (.inr ⟨_, ha, Snapshot.finish_eq_error ha hvisit⟩)

end Faults

/-! ## What is taken -/

section Taken

variable {α : Type}

/-- No more is taken than there is. -/
theorem whole_takeUnits_le {σ : Type} {more : List α → Bool} {read : List α → σ → Except Fault α}
    {last : List α → Except Fault α} : ∀ {us : List (List σ)} {done : Nat} {had : List α},
      (takeUnits more read last done had us).progress.whole ≤ done + us.length
  | [], _, _ => Nat.le_refl _
  | u :: rest, done, had => by
    rw [takeUnits, List.length_cons]
    split_ifs
    · cases hu : readUnit read had u with
      | error f => exact Nat.le_add_right _ _
      | ok all =>
        have ih : (takeUnits more read last (done + 1) all rest).progress.whole ≤ _ :=
          whole_takeUnits_le
        simp only
        omega
    · exact Nat.le_add_right _ _

/-- Parts are taken whole. -/
theorem keyTaken_takeUnits {σ : Type} {more : List α → Bool} {read : List α → σ → Except Fault α}
    {last : List α → Except Fault α} : ∀ {us : List (List σ)} {done : Nat} {had : List α},
      (takeUnits more read last done had us).progress.keyTaken = false
  | [], _, _ => rfl
  | u :: rest, done, had => by
    rw [takeUnits]
    split_ifs
    · cases readUnit read had u with
      | error f => rfl
      | ok all => exact keyTaken_takeUnits
    · rfl

theorem Visitor.keyTaken_visit {visitor : Visitor α} {call : Call Snapshot} :
    (visitor.visit call).progress.keyTaken = false := by
  obtain ⟨parts, variant, content, result⟩ := visitor
  have htake : ((parts call.outline).take call.units).progress.keyTaken = false := by
    obtain ⟨more, next, last⟩ := parts call.outline
    exact keyTaken_takeUnits
  cases call with
  | enum v c => rfl
  | _ => exact htake

theorem Call.length_units {σ : Type} {call : Call σ} {n : Nat} {what : String}
    (hextent : call.extent = Option.some (n, what)) : call.units.length = n := by
  cases call with
  | seq items hint | map entries hint =>
    obtain ⟨rfl, -⟩ := Prod.mk.inj (Option.some.inj hextent)
    exact List.length_map _
  | _ => cases hextent

/-- A visitor gets at most to the end of a sequence or a map. -/
theorem Visitor.whole_visit_le {visitor : Visitor α} {call : Call Snapshot} {n : Nat}
    {what : String} (hextent : call.extent = some (n, what)) :
    (visitor.visit call).progress.whole ≤ n := by
  obtain ⟨parts, variant, content, result⟩ := visitor
  have htake : ((parts call.outline).take call.units).progress.whole ≤ n := by
    rw [← Call.length_units hextent, ← Nat.zero_add call.units.length]
    obtain ⟨more, next, last⟩ := parts call.outline
    exact whole_takeUnits_le
  cases call with
  | seq | map => exact htake
  | _ => cases hextent

end Taken

/-! ## Reading to the end -/

/-- The complaint about what is left, by the number of parts that were taken. -/
theorem Snapshot.leftover_of_lt {n k : Nat} {what : String} (hk : k < n) :
    leftover n what k = .error (.invalidLength n (countElements k ++ " in " ++ what)) := by
  rw [leftover, if_pos hk, countElements]
  split_ifs <;> simp [String.append_assoc]

/-- Let a reader, however it works, read a snapshot, a part of which is a sequence or a map that is
visited in the course of it, at whatever depth, be it the snapshot itself, the content of a variant
or a payload. If the reader succeeds, then the visitor has succeeded and has read all elements or
entries. If the visitor returns before that, the reader fails with their number. If the visitor
fails, or any reader of a part does, the reader fails in the same way. -/
theorem replay_exhausts {α : Type} (r : Reader α) (c : Snapshot) :
    (∀ (request : Request) (visitor : Visitor α) (s : Snapshot) (a : Answer Snapshot) (n : Nat)
      (what : String), r.Reaches c (.ask request visitor) s → Source.answer request s = .ok a →
        a.call.extent = some (n, what) →
          (∀ x, r.read c = .ok x → (visitor.visit a.call).progress.whole = n ∧
            ∃ y, (visitor.visit a.call).result = .ok y) ∧
          (∀ k y, visitor.visit a.call = ⟨{ whole := k }, .ok y⟩ → k < n →
            r.read c = .error (.invalidLength n (countElements k ++ " in " ++ what))) ∧
          ∀ f, (visitor.visit a.call).result = .error f → r.read c = .error f) ∧
    (∀ (q : Reader α) (s : Snapshot) (f : Fault), r.Reaches c q s → q.read s = .error f →
      r.read c = .error f) ∧
    ∀ flat : Flat, flat.readPayload r.read = r.read (.map flat.entries) := by
  refine ⟨fun request visitor s a n what hr ha hextent => ?_,
    fun q s f hq hf => Reader.read_eq_error hq hf, fun flat => rfl⟩
  have hread : (Reader.ask request visitor).read s = a.finish (visitor.visit a.call) := by
    show (Source.answer request s >>= fun a => a.finish (visitor.visit a.call)) = _
    rw [ha]
    rfl
  have hfault : ∀ f, (visitor.visit a.call).result = .error f → r.read c = .error f :=
    fun f hf => Reader.read_eq_error hr (hread.trans (Snapshot.finish_eq_error ha hf))
  have hleft : ∀ y, (visitor.visit a.call).result = .ok y →
      (visitor.visit a.call).progress.whole < n → r.read c = .error (.invalidLength n
        (countElements (visitor.visit a.call).progress.whole ++ " in " ++ what)) := by
    intro y hy hlt
    refine Reader.read_eq_error hr (hread.trans ?_)
    rw [Answer.finish, hy, Snapshot.close_eq ha hextent Visitor.keyTaken_visit,
      Snapshot.leftover_of_lt hlt]
    rfl
  refine ⟨fun x hx => ?_, fun k y hk hlt => ?_, hfault⟩
  · cases hy : (visitor.visit a.call).result with
    | error f => simp [hfault f hy] at hx
    | ok y =>
      have hle : (visitor.visit a.call).progress.whole ≤ n := Visitor.whole_visit_le hextent
      have hge : ¬ (visitor.visit a.call).progress.whole < n := fun hlt => by
        simp [hleft y hy hlt] at hx
      exact ⟨by omega, y, rfl⟩
  · have h := hleft y (by rw [hk]) (by rwa [hk])
    rwa [hk] at h

/-- A visitor that takes one part of whatever it is, and returns. -/
def firstOnly : Visitor Unit :=
  .mk (fun _ => .mk (·.isEmpty) (fun _ => .pass (.ok ())) fun _ => .ok ()) (.pass (.ok ()))
    (fun _ => .unit ()) fun _ _ => .ok ()

/-- A reader of a map all of whose values are enums with the first element of a tuple. -/
def firstOfEach : Reader Unit :=
  let value : Reader Unit :=
    .ask .enum (.mk (fun _ => .mk (fun _ => false) (fun _ => .pass (.ok ())) fun _ => .ok ())
      (.pass (.ok ())) (fun _ => .tuple firstOnly) fun _ _ => .ok ())
  .ask .map (.mk (fun _ => .mk (fun _ => true)
      (fun had => if had.length % 2 = 0 then .pass (.ok ()) else value) fun _ => .ok ())
    (.pass (.ok ())) (fun _ => .unit ()) fun _ _ => .ok ())

/-- The second element of a tuple, in an entry of a payload, is not dropped. -/
theorem replay_exhausts_firstOfEach :
    (⟨[(.text "x", .map [(.text "Pair", .seq [.unit, .unit])])]⟩ : Flat).readPayload
      firstOfEach.read = .error (.invalidLength 2 "1 element in sequence") := by
  rw [(replay_exhausts firstOfEach .unit).2.2]
  refine (((replay_exhausts firstOfEach _).1 .tupleVariant firstOnly (.seq [.unit, .unit]) _ 2
    "sequence" ?_ rfl rfl).2.1 1 () rfl (by decide))
  exact .inside rfl (.part rfl (.here rfl (.later rfl .here)))
    (.inside rfl (.content rfl) (.here _ _))

end FlatUnion
