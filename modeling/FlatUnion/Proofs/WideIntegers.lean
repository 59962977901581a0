import FlatUnion.Proofs.FieldByField

/-!
# Wide integers in a text

An integer of a hundred and twenty-eight bits is written with all its digits, but a field of a union
is not read by its type at once : the text is kept first, and there an integer is a number of
sixty-four bits or a float. What is kept of an integer that fits is this integer, and a float is no
integer to any reader (`read_keeps_int`).

`wideIntegers_written` is the statement : the text has the digits, and what is read for an integer
is this integer if it fits in sixty-four bits, and nothing otherwise.
-/

namespace FlatUnion

-- Powers are those of the naturals and the integers, whatever else is imported beside this.
attribute [local instance (high)] instPowNat

open Json (Fragment Keeps readWhole)

/-! ## Integers that are kept -/

/-- Whether an integer fits in sixty-four bits, signed or unsigned. -/
def Fits64 (n : Int) : Prop := -(2 ^ (63 : Nat)) ≤ n ∧ n < 2 ^ (64 : Nat)

/-- What is kept of the text of an integer is read as this integer if it fits in sixty-four bits,
and as none otherwise. -/
theorem read_keeps_int {w : Width} {n : Int} (hn : w.fits n) {e : Datum} :
    (∃ c, Keeps (toString n) c ∧ (Ty.int w).read c = .ok e) ↔ Fits64 n ∧ e = .int w n := by
  have hkeeps : ∀ c, Keeps (toString n) c ↔ _ :=
    (Fragment.numeral (Json.Numeral.proper_ofInt n) (Json.toList_toString n) : Fragment 0 _ ∧ _).2
  simp only [hkeeps]
  by_cases hfits : Fits64 n
  · obtain ⟨m, v, hm, hscalar, hv⟩ := Json.Numeral.value_ofInt hfits.1 hfits.2 (toString n).length
    have hread : (Ty.int w).read (Snapshot.ofScalar (.int v n)) = .ok (.int w n) := by
      refine consult_eq_ok.2 ⟨_, rfl, ?_, rfl⟩
      simp [Snapshot.replay, Snapshot.call, Snapshot.ofScalar, Visit.int, hv, hn]
    rw [hm, Except.map, hscalar]
    constructor
    · rintro ⟨c, hc, h⟩
      obtain rfl := Except.ok.inj hc
      exact ⟨hfits, (Except.ok.inj (hread.symm.trans h)).symm⟩
    · rintro ⟨-, rfl⟩
      exact ⟨_, rfl, hread⟩
  · refine iff_of_false ?_ fun h => hfits h.1
    rintro ⟨c, hc, h⟩
    obtain ⟨m, hm, rfl⟩ := map_eq_ok.1 hc
    obtain ⟨bits, hbits⟩ := Json.Numeral.value_ofInt_float hfits hm
    rw [hbits] at h
    obtain ⟨a, ha, h, -⟩ := consult_eq_ok.1 h
    obtain rfl := Except.ok.inj ha
    cases h

namespace FilledField

/-- A field of an integer type that holds an integer of this type, and is written. -/
structure Holds (f : FilledField) (w : Width) (n : Int) : Prop where
  type : f.type = .int w
  value : f.value = .int w n
  fits : w.fits n
  written : f.field.writing ≠ .never

variable {f : FilledField} {w : Width} {n : Int}

theorem Holds.shown? (h : f.Holds w n) : f.shown? = some (.int w n) := by
  unfold FilledField.shown? Field.written
  rw [h.value]
  split
  · exact absurd ‹_› h.written
  · simp_all
  · simp_all

/-- An integer is read again if it fits in sixty-four bits, and nothing else is ever read for
it. -/
theorem Holds.rereads (h : f.Holds w n) {e : Datum} :
    f.Rereads e ↔ Fits64 n ∧ e = .int w n := by
  rw [rereads_some h.shown?, h.type]
  exact read_keeps_int h.fits

/-- The text of an integer spells it exactly : where an integer of its width is asked for, it is
read as it is. -/
theorem Holds.wideInteger (h : f.Holds w n) :
    Json.wideInteger w (toString n).toList = .ok ⟨n, (toString n).length⟩ := by
  have hlength : (Json.Numeral.ofInt n).frontLength = (toString n).length := by
    rw [← String.length_toList, Json.toList_toString]
    by_cases hneg : n < 0 <;>
      simp [Json.Numeral.frontLength, Json.Numeral.spelled, Json.Numeral.ofInt, hneg, Nat.add_comm]
  have hsign : ((Json.Numeral.ofInt n).negative && !w.isSigned) = false := by
    by_contra hneg
    have hlo := (Width.fits_iff.1 h.fits).1
    simp only [Json.Numeral.ofInt, Bool.not_eq_false, Bool.and_eq_true, decide_eq_true_eq,
      Bool.not_eq_true'] at hneg
    rw [Width.lo, hneg.2] at hlo
    exact absurd hneg.1 (Int.not_lt.2 hlo)
  rw [Json.wideInteger_eq (Json.Numeral.read_toString false n)]
  simp only [hsign, Json.Numeral.integer_ofInt, h.fits, hlength]
  rfl

theorem mem_members_of_holds (hf : f ∈ fs) (h : f.Holds w n) :
    (f.field.name, toString n) ∈ members fs :=
  List.mem_filterMap.2 ⟨f, hf, by rw [h.shown?]; rfl⟩

/-- A field that is read as it was, unless it holds an integer that does not fit. -/
theorem rereads_iff (hf : (∀ w n, ¬ f.Holds w n) → f.Rereads f.value) {e : Datum} :
    f.Rereads e ↔ (∀ w n, f.Holds w n → Fits64 n) ∧ e = f.value := by
  by_cases hint : ∃ w n, f.Holds w n
  · obtain ⟨w, n, h⟩ := hint
    rw [h.rereads, h.value]
    refine and_congr_left fun _ => ⟨fun hfits w' n' h' => ?_, fun hfits => hfits w n h⟩
    obtain ⟨-, rfl⟩ := Datum.int.inj (h.value.symm.trans h'.value)
    exact hfits
  · have hnone : ∀ w n, ¬ f.Holds w n := fun w n h => hint ⟨w, n, h⟩
    have hvalue := hf hnone
    exact ⟨fun h => ⟨fun w n hw => (hnone w n hw).elim, h.unique hvalue⟩, fun h => h.2 ▸ hvalue⟩

theorem forall₂_rereads_iff : ∀ {fs : List FilledField} {es : List Datum},
    (∀ f ∈ fs, (∀ w n, ¬ f.Holds w n) → f.Rereads f.value) →
      (List.Forall₂ Rereads fs es ↔
        (∀ f ∈ fs, ∀ w n, f.Holds w n → Fits64 n) ∧ es = fs.map (·.value))
  | [], es, _ => by simp
  | f :: fs, es, h => by
    obtain ⟨hf, hfs⟩ := List.forall_mem_cons.1 h
    rw [List.forall₂_cons_left_iff, List.forall_mem_cons, List.map_cons]
    constructor
    · rintro ⟨e, es, he, hes, rfl⟩
      obtain ⟨hfits, rfl⟩ := (rereads_iff hf).1 he
      obtain ⟨hrest, rfl⟩ := (forall₂_rereads_iff hfs).1 hes
      exact ⟨⟨hfits, hrest⟩, rfl⟩
    · rintro ⟨⟨hfits, hrest⟩, rfl⟩
      exact ⟨f.value, fs.map (·.value), (rereads_iff hf).2 ⟨hfits, rfl⟩,
        (forall₂_rereads_iff hfs).2 ⟨hrest, rfl⟩, rfl⟩

end FilledField

open FilledField in
/-- With different tags, a union whose payload is a struct that skips what it does not know, with
any fields under names of their own, is written as JSON with all digits of its integers, of a
hundred and twenty-eight bits too. The text is read as a struct of what the fields are read as
again one by one. For an integer this is the same integer if it fits in sixty-four bits, signed or
unsigned, and nothing at all otherwise. So where the other fields are read as they were, the union
is read as it was if all its integers fit, and is not read if one of them does not. -/
theorem wideIntegers_written (variants : List (String × Ty)) (hn : (variants.map (·.1)).Nodup)
    (i : Nat) (tag : String) (info : StructInfo) (fs : List FilledField)
    (hv : variants[i]? = some (tag, .struct info (fs.map typed))) (hstrict : info.strict = false)
    (hnames : (tagField :: namesOf (fs.map typed)).Nodup) (hfs : ∀ f ∈ fs, f.Writable) :
    let union (ds : List Datum) : Tagged := ⟨tag, structDatum info.name (fs.map (·.field)) ds⟩
    ∃ text, (union (fs.map (·.value))).datum.json = .pure text ∧
      text = unionText tag (members fs) ∧
      (∀ f ∈ fs, ∀ w n, f.Holds w n → (f.field.name, toString n) ∈ members fs ∧
        Json.wideInteger w (toString n).toList = .ok ⟨n, (toString n).length⟩ ∧
        ∀ e, f.Rereads e ↔ Fits64 n ∧ e = .int w n) ∧
      (∀ x, readWhole (Tagged.read variants) text = .ok x ↔
        ∃ es, List.Forall₂ Rereads fs es ∧ x = union es) ∧
      ((∀ f ∈ fs, (∀ w n, ¬ f.Holds w n) → f.Rereads f.value) →
        ∀ x, readWhole (Tagged.read variants) text = .ok x ↔
          (∀ f ∈ fs, ∀ w n, f.Holds w n → Fits64 n) ∧ x = union (fs.map (·.value))) := by
  intro union
  have hread : ∀ x, readWhole (Tagged.read variants) (unionText tag (members fs)) = .ok x ↔
      ∃ es, List.Forall₂ Rereads fs es ∧ x = union es := fun x =>
    read_union hfs hn hv hstrict hnames
  refine ⟨unionText tag (members fs), json_union hfs tag info.name, rfl, ?_, hread, ?_⟩
  · exact fun f hf w n h => ⟨mem_members_of_holds hf h, h.wideInteger, fun e => h.rereads⟩
  · intro hothers x
    rw [hread]
    constructor
    · rintro ⟨es, hes, rfl⟩
      obtain ⟨hfits, rfl⟩ := (forall₂_rereads_iff hothers).1 hes
      exact ⟨hfits, rfl⟩
    · rintro ⟨hfits, rfl⟩
      exact ⟨_, (forall₂_rereads_iff hothers).2 ⟨hfits, rfl⟩, rfl⟩

/-- A struct of two wide integers and a text. -/
def ledgerFields (id delta : Int) : List FilledField :=
  [⟨{ name := "id" }, .int .u128, .int .u128 id⟩,
   ⟨{ name := "delta" }, .int .i128, .int .i128 delta⟩,
   ⟨{ name := "note" }, .text, .text "sum"⟩]

/-- A union with such a struct as a payload. -/
def ledgers : List (String × Ty) :=
  [("text", Catalog.textMessage),
   ("ledger", .struct { name := "Ledger" } ((ledgerFields 0 0).map FilledField.typed))]

theorem writable_ledgerFields (id delta : Int) : ∀ f ∈ ledgerFields id delta, f.Writable := by
  simp only [ledgerFields, List.forall_mem_cons]
  have hnesting : 0 < Json.depthLimit := by decide
  exact ⟨⟨rfl, rfl, rfl, hnesting⟩, ⟨rfl, rfl, rfl, hnesting⟩, ⟨rfl, rfl, rfl, hnesting⟩, nofun⟩

theorem rereads_ledgerFields {id delta : Int} (hid : Width.u128.fits id)
    (hdelta : Width.i128.fits delta) : ∀ f ∈ ledgerFields id delta,
      (∀ w n, ¬ f.Holds w n) → f.Rereads f.value := by
  simp only [ledgerFields, List.forall_mem_cons]
  refine ⟨fun h => ?_, fun h => ?_, fun _ => ?_, nofun⟩
  · exact (h _ _ ⟨rfl, rfl, hid, nofun⟩).elim
  · exact (h _ _ ⟨rfl, rfl, hdelta, nofun⟩).elim
  · exact ⟨_, Fragment.keeps_quoted.2 rfl, rfl⟩

/-- Such a union as a text, of the least signed integer of sixty-four bits and the greatest unsigned
one. -/
def fittingText : String :=
  "\x7b\"type\":\"ledger\",\"id\":18446744073709551615,\"delta\":-9223372036854775808," ++
    "\"note\":\"sum\"\x7d"

/-- The same text with the next integer. -/
def tooWideText : String :=
  "\x7b\"type\":\"ledger\",\"id\":18446744073709551616,\"delta\":-9223372036854775808," ++
    "\"note\":\"sum\"\x7d"

theorem unionText_fitting : unionText "ledger"
    (FilledField.members (ledgerFields 18446744073709551615 (-9223372036854775808))) =
      fittingText := by
  decide

theorem unionText_tooWide : unionText "ledger"
    (FilledField.members (ledgerFields 18446744073709551616 (-9223372036854775808))) =
      tooWideText := by
  decide

theorem wideIntegers_written_ledgers :
    (ledgers.map (·.1)).Nodup ∧
      (tagField :: namesOf ((ledgerFields 0 0).map FilledField.typed)).Nodup ∧
      readWhole (Tagged.read ledgers) fittingText =
        .ok ⟨"ledger", .struct "Ledger" [("id", some (.int .u128 18446744073709551615)),
          ("delta", some (.int .i128 (-9223372036854775808))), ("note", some (.text "sum"))]⟩ ∧
      ∀ x, readWhole (Tagged.read ledgers) tooWideText ≠ .ok x := by
  have htags : (ledgers.map (·.1)).Nodup := by decide
  have hnames : (tagField :: namesOf ((ledgerFields 0 0).map FilledField.typed)).Nodup := by decide
  have hall := fun id delta => wideIntegers_written ledgers htags 1 "ledger"
    { name := "Ledger" } (ledgerFields id delta) rfl rfl hnames (writable_ledgerFields id delta)
  have hid : Width.u128.fits 18446744073709551615 ∧ Width.u128.fits 18446744073709551616 := by
    decide
  have hdelta : Width.i128.fits (-9223372036854775808) := by decide
  refine ⟨htags, hnames, ?_, fun x => ?_⟩
  · obtain ⟨_, -, rfl, -, -, hread⟩ := hall 18446744073709551615 (-9223372036854775808)
    rw [unionText_fitting] at hread
    refine (hread (rereads_ledgerFields hid.1 hdelta) _).2 ⟨?_, rfl⟩
    simp only [ledgerFields, List.forall_mem_cons]
    refine ⟨fun w n h => ?_, fun w n h => ?_, fun w n h => ?_, nofun⟩
    · obtain ⟨-, rfl⟩ := Datum.int.inj h.value
      exact ⟨by decide, by decide⟩
    · obtain ⟨-, rfl⟩ := Datum.int.inj h.value
      exact ⟨by decide, by decide⟩
    · nomatch h.value
  · obtain ⟨_, -, rfl, -, -, hread⟩ := hall 18446744073709551616 (-9223372036854775808)
    rw [unionText_tooWide] at hread
    intro hx
    obtain ⟨hfits, -⟩ := (hread (rereads_ledgerFields hid.2 hdelta) x).1 hx
    obtain ⟨-, hlt⟩ := hfits _ List.mem_cons_self .u128 _ ⟨rfl, rfl, hid.2, nofun⟩
    exact absurd hlt (by decide)

end FlatUnion
