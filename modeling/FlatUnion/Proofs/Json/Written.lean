import FlatUnion.Proofs.Json.Floats
import FlatUnion.Proofs.Json.Fragments
import FlatUnion.Proofs.Presenting

/-!
# What is written is one value

A datum that can be written, and in which brackets do not stand too deep, is written as a text that
is one value wherever it stands (`Datum.fragment`). By recursion on the datum : numbers are
numerals, and lists and objects are put together of the texts of their parts, with a comma in front
of each but the first (`Json.commas`).
-/

namespace FlatUnion

/-! ## Writing without a fault -/

theorem Emission.append_eq_pure {a b : Emission String} {text : String} :
    a ++ b = .pure text ↔ ∃ s t, a = .pure s ∧ b = .pure t ∧ text = s ++ t := by
  obtain ⟨s, _ | f⟩ := a
  · obtain ⟨t, o⟩ := b
    constructor
    · intro h
      obtain ⟨rfl, rfl⟩ := Emission.mk.inj h
      exact ⟨s, t, rfl, rfl, rfl⟩
    · rintro ⟨s', t', hs, ht, rfl⟩
      obtain ⟨rfl, -⟩ := Emission.mk.inj hs
      obtain ⟨rfl, rfl⟩ := Emission.mk.inj ht
      rfl
  · simp [Emission.append_def, Emission.pure]

theorem Emission.pure_inj {s t : String} : Emission.pure s = Emission.pure t ↔ s = t := by
  simp [Emission.pure]

/-- What has no fault is its output. -/
theorem Emission.eq_pure {e : Emission String} (h : e.fault = none) : e = .pure e.out :=
  congrArg (Emission.mk e.out) h

theorem Emission.enclosed_eq_pure {e : Emission String} {a b text : String} :
    .pure a ++ e ++ .pure b = .pure text ↔ ∃ t, e = .pure t ∧ text = a ++ t ++ b := by
  simp only [append_eq_pure, pure_inj]
  constructor
  · rintro ⟨_, _, ⟨_, t, rfl, ht, rfl⟩, rfl, rfl⟩
    exact ⟨t, ht, rfl⟩
  · rintro ⟨t, ht, rfl⟩
    exact ⟨_, _, ⟨_, t, rfl, ht, rfl⟩, rfl, rfl⟩

namespace Json

/-- Texts with a comma in front of each, but not of the first one. -/
def commas (first : Bool) : List String → String
  | [] => ""
  | t :: ts => comma first ++ t ++ commas false ts

theorem commas_true : ∀ ts : List String, commas true ts = ",".intercalate ts
  | [] => rfl
  | [t] => by simp [commas, comma]
  | t :: u :: ts => by
    rw [String.intercalate_cons_cons, ← commas_true (u :: ts)]
    simp [commas, comma, String.append_assoc]

theorem quotedChar_eq {c : Char} (h : c ≠ '"' ∧ c ≠ '\\' ∧ 0x20 ≤ c.toNat) :
    quotedChar c = String.singleton c := by
  obtain ⟨hquote, hbackslash, hcontrol⟩ := h
  have hne : ∀ d : Char, d.toNat < 0x20 → c ≠ d := by
    rintro d hd rfl
    omega
  simp [quotedChar, hquote, hbackslash, hne, Nat.not_lt.2 hcontrol]

/-- Where no character needs an escape, a text stands between quotes as it is. -/
theorem quoted_eq {s : String}
    (h : ∀ c ∈ s.toList, c ≠ '"' ∧ c ≠ '\\' ∧ 0x20 ≤ c.toNat) : quoted s = "\"" ++ s ++ "\"" := by
  have hjoin : ∀ cs : List Char, (∀ c ∈ cs, c ≠ '"' ∧ c ≠ '\\' ∧ 0x20 ≤ c.toNat) →
      String.join (cs.map quotedChar) = String.ofList cs := by
    intro cs hcs
    induction cs with
    | nil => rfl
    | cons c cs ih =>
      obtain ⟨hc, hcs⟩ := List.forall_mem_cons.1 hcs
      rw [List.map_cons, String.join_cons, quotedChar_eq hc, ih hcs]
      simp
  rw [quoted, hjoin _ h, String.ofList_toList]

/-- The characters of a numeral need no escapes. -/
theorem Numeral.plain_of_mem_spelled {x : Numeral} (hx : x.Proper) :
    ∀ c ∈ x.spelled, c ≠ '"' ∧ c ≠ '\\' ∧ 0x20 ≤ c.toNat := by
  have hdigit : ∀ c : Char, c.isDigit → c ≠ '"' ∧ c ≠ '\\' ∧ 0x20 ≤ c.toNat := by
    intro c hc
    have hlo : 48 ≤ c.toNat := by
      simp only [Char.isDigit, Bool.and_eq_true, decide_eq_true_eq] at hc
      exact hc.1
    refine ⟨?_, ?_, by omega⟩
    · rintro rfl
      exact absurd hc (by decide)
    · rintro rfl
      exact absurd hc (by decide)
  intro c hc
  simp only [spelled, List.mem_append] at hc
  obtain ((hc | hc) | hc) | hc := hc
  · split_ifs at hc
    · obtain rfl := List.mem_singleton.1 hc
      decide
    · cases hc
  · exact hdigit c (hx.whole.2 c hc)
  · cases h : x.fraction with
    | none => simp [h] at hc
    | some ds =>
      rw [h, Option.elim_some] at hc
      obtain rfl | hc := List.mem_cons.1 hc
      · decide
      · exact hdigit c ((hx.fraction ds h).2 c hc)
  · cases h : x.exponent with
    | none => simp [h] at hc
    | some e =>
      rw [h, Option.elim_some] at hc
      obtain rfl | hc := List.mem_cons.1 hc
      · decide
      obtain rfl | hc := List.mem_cons.1 hc
      · split_ifs <;> decide
      · exact hdigit c ((hx.exponent e h).2 c hc)

end Json

/-- A key is written as a text. -/
theorem Datum.exists_name_of_jsonKey : ∀ {k : Datum} {key : String}, k.jsonKey = .ok key →
    ∃ name, key = Json.quoted name
  | .text s, _, h | .display s, _, h => ⟨s, (Except.ok.inj h).symm⟩
  | .char c, _, h => ⟨_, (Except.ok.inj h).symm⟩
  | .bool b, _, h => ⟨_, (Except.ok.inj h).symm⟩
  | .int _ n, _, h => ⟨_, (Except.ok.inj h).symm⟩
  | .unitVariant v, _, h => ⟨_, (Except.ok.inj h).symm⟩
  | .some inner, _, h | .newtypeStruct _ inner, _, h => exists_name_of_jsonKey (k := inner) h
  | .f32 bits, _, h => floatKey h
  | .f64 bits, _, h => floatKey h
where
  floatKey {f : Format} {bits : Nat} {key : String} (h : jsonKey.floatKey f bits = .ok key) :
      ∃ name, key = Json.quoted name := by
    rw [jsonKey.floatKey] at h
    split_ifs at h with hfinite
    obtain rfl := Except.ok.inj h
    obtain ⟨x, hx, htext⟩ := Json.exists_numeral_float f hfinite
    exact ⟨_, (Json.quoted_eq (htext ▸ Json.Numeral.plain_of_mem_spelled hx)).symm⟩

theorem Datum.exists_name_of_jsonKeyed {k : Datum} {first : Bool} {text : String}
    (h : k.jsonKeyed first = .pure text) :
    ∃ name, text = Json.comma first ++ Json.quoted name := by
  rw [jsonKeyed] at h
  split at h
  · next hkey =>
    obtain ⟨name, rfl⟩ := exists_name_of_jsonKey hkey
    exact ⟨name, (Emission.pure_inj.1 h).symm⟩
  · cases h

/-! ## Brackets -/

mutual

/-- How deep brackets stand in one another where a datum is written. -/
def Datum.nesting : Datum → Nat
  | .some inner | .newtypeStruct _ inner => inner.nesting
  | .newtypeVariant _ inner => inner.nesting + 1
  | .seq items | .tuple items | .tupleStruct _ items => listNesting items + 1
  | .tupleVariant _ items => listNesting items + 2
  | .map items => itemsNesting items + 1
  | .struct _ fields => fieldsNesting fields + 1
  | .structVariant _ fields => fieldsNesting fields + 2
  | .bytes _ | .readability => 1
  | _ => 0

def listNesting : List Datum → Nat
  | [] => 0
  | d :: rest => max d.nesting (listNesting rest)

def fieldsNesting : List (String × Option Datum) → Nat
  | [] => 0
  | (_, none) :: rest => fieldsNesting rest
  | (_, some d) :: rest => max d.nesting (fieldsNesting rest)

def itemsNesting : List (Item Datum) → Nat
  | [] => 0
  | .entry _ v :: rest | .value v :: rest => max v.nesting (itemsNesting rest)
  | _ :: rest => itemsNesting rest

end

/-! ## Entries under texts -/

/-- Entries under texts are written as members. -/
theorem jsonItems_underTexts : ∀ {es : List (String × Datum)} (first : Bool),
    (∀ e ∈ es, e.2.json.fault = none) →
      jsonItems first (es.map fun e => .entry (.text e.1) e.2) =
        .pure (Json.commas first (es.map fun e => Json.Fragment.memberText (e.1, e.2.json.out)))
  | [], _, _ => rfl
  | (name, d) :: es, first, h => by
    obtain ⟨hd, hes⟩ := List.forall_mem_cons.1 h
    rw [List.map_cons, jsonItems, jsonItem, Item.hasKey, Bool.not_true, Bool.and_false,
      jsonItems_underTexts false hes, Emission.eq_pure hd]
    simp [Datum.jsonKeyed, Datum.jsonKey, Emission.append_def, Emission.pure, Json.commas,
      Json.Fragment.memberText, String.append_assoc]

/-! ## Fragments that are written -/

namespace Json.Fragment

variable {depth : Nat} {e : Emission String} {text : String}

/-- Texts of fragments between brackets. -/
theorem between_brackets (hdepth : depth < depthLimit)
    (he : ∀ {t}, e = .pure t → ∃ ts, t = commas true ts ∧ ∀ t ∈ ts, Fragment (depth + 1) t)
    (h : .pure "[" ++ e ++ .pure "]" = .pure text) : Fragment depth text := by
  obtain ⟨t, ht, rfl⟩ := Emission.enclosed_eq_pure.1 h
  obtain ⟨ts, rfl, hts⟩ := he ht
  rw [commas_true]
  exact (Fragment.list hts hdepth).1

/-- Members of fragments between braces. -/
theorem between_braces (hdepth : depth < depthLimit)
    (he : ∀ {t}, e = .pure t → ∃ ms : List (String × String),
      t = commas true (ms.map memberText) ∧ ∀ m ∈ ms, Fragment (depth + 1) m.2)
    (h : .pure "\x7b" ++ e ++ .pure "\x7d" = .pure text) : Fragment depth text := by
  obtain ⟨t, ht, rfl⟩ := Emission.enclosed_eq_pure.1 h
  obtain ⟨ms, rfl, hms⟩ := he ht
  rw [commas_true]
  exact (Fragment.object hms hdepth).1

/-- A fragment under the one key of an object. -/
theorem underKey {name : String} (hdepth : depth < depthLimit)
    (he : ∀ {t}, e = .pure t → Fragment (depth + 1) t) (h : underKey name e = .pure text) :
    Fragment depth text := by
  obtain ⟨t, ht, rfl⟩ := Emission.enclosed_eq_pure.1 h
  have hms : ∀ m ∈ [(name, t)], Fragment (depth + 1) m.2 := by simpa using he ht
  have htext : "\x7b" ++ Json.quoted name ++ ":" ++ t ++ "\x7d" = objectText [(name, t)] := by
    simp [objectText, memberText, String.append_assoc]
  rw [htext]
  exact (Fragment.object hms hdepth).1

theorem int (n : Int) : Fragment depth (toString n) :=
  (numeral (Numeral.proper_ofInt n) (toList_toString n)).1

theorem float (f : Format) (bits : Nat) : Fragment depth (float f bits) := by
  by_cases hfinite : (f.decode bits).isFinite
  · obtain ⟨x, hx, htext⟩ := exists_numeral_float f hfinite
    exact (numeral hx htext.symm).1
  · rw [Json.float, if_neg hfinite]
    exact null

theorem bytes (bs : List UInt8) (hdepth : depth < depthLimit) :
    Fragment depth ("[" ++ ",".intercalate (bs.map fun b => toString b.toNat) ++ "]") :=
  (Fragment.list (List.forall_mem_map.2 fun b _ => int b.toNat) hdepth).1

theorem readability (hdepth : depth < depthLimit) : Fragment depth "\x7b\"hr\":true\x7d" := by
  have htext : "\x7b\"hr\":true\x7d" = objectText [("hr", toString true)] := by decide
  rw [htext]
  exact (Fragment.object (List.forall_mem_singleton.2 (bool true)) hdepth).1

end Json.Fragment

open Json (Fragment depthLimit commas)
open Json.Fragment (memberText)

mutual

/-- A datum that can be written, and in which brackets do not stand too deep, is written as one
value. -/
theorem Datum.fragment : ∀ {d : Datum} {text : String} {depth : Nat}, d.plain →
    d.json = .pure text → depth + d.nesting ≤ depthLimit → Fragment depth text
  | .bool b, _, _, _, h, _ => Emission.pure_inj.1 h ▸ .bool b
  | .int _ n, _, _, _, h, _ => Emission.pure_inj.1 h ▸ .int n
  | .f32 bits, _, _, _, h, _ => Emission.pure_inj.1 h ▸ .float single bits
  | .f64 bits, _, _, _, h, _ => Emission.pure_inj.1 h ▸ .float double bits
  | .char c, _, _, _, h, _ => Emission.pure_inj.1 h ▸ (Fragment.quoted _).1
  | .text s, _, _, _, h, _ | .display s, _, _, _, h, _ =>
    Emission.pure_inj.1 h ▸ (Fragment.quoted s).1
  | .unitVariant v, _, _, _, h, _ => Emission.pure_inj.1 h ▸ (Fragment.quoted v.name).1
  | .none, _, _, _, h, _ | .unit, _, _, _, h, _ | .unitStruct _, _, _, _, h, _ =>
    Emission.pure_inj.1 h ▸ .null
  | .bytes bs, _, _, _, h, hn => Emission.pure_inj.1 h ▸ .bytes bs hn
  | .readability, _, _, _, h, hn => Emission.pure_inj.1 h ▸ .readability hn
  | .some inner, _, _, hp, h, hn | .newtypeStruct _ inner, _, _, hp, h, hn =>
    inner.fragment hp h hn
  | .newtypeVariant _ inner, _, depth, hp, h, hn =>
    have hn : depth + 1 + inner.nesting ≤ depthLimit := by rw [Datum.nesting] at hn; omega
    .underKey (by omega) (fun ht => inner.fragment hp ht hn) h
  | .seq items, _, depth, hp, h, hn | .tuple items, _, depth, hp, h, hn
  | .tupleStruct _ items, _, depth, hp, h, hn =>
    have hn : depth + 1 + listNesting items ≤ depthLimit := by rw [Datum.nesting] at hn; omega
    .between_brackets (by omega) (fun ht => list_fragments hp ht hn) h
  | .tupleVariant _ items, _, depth, hp, h, hn =>
    have hn : depth + 2 + listNesting items ≤ depthLimit := by rw [Datum.nesting] at hn; omega
    .underKey (by omega) (fun ht => .between_brackets (by omega)
      (fun ht => list_fragments hp ht hn) ht) h
  | .map items, _, depth, hp, h, hn =>
    have hn : depth + 1 + itemsNesting items ≤ depthLimit := by rw [Datum.nesting] at hn; omega
    .between_braces (by omega) (fun ht => items_fragments hp ht hn) h
  | .struct _ fields, _, depth, hp, h, hn =>
    have hn : depth + 1 + fieldsNesting fields ≤ depthLimit := by rw [Datum.nesting] at hn; omega
    .between_braces (by omega) (fun ht => fields_fragments hp ht hn) h
  | .structVariant _ fields, _, depth, hp, h, hn =>
    have hn : depth + 2 + fieldsNesting fields ≤ depthLimit := by rw [Datum.nesting] at hn; omega
    .underKey (by omega) (fun ht => .between_braces (by omega)
      (fun ht => fields_fragments hp ht hn) ht) h

theorem list_fragments : ∀ {ds : List Datum} {first : Bool} {text : String} {depth : Nat},
    listPlain ds → jsonList first ds = .pure text → depth + listNesting ds ≤ depthLimit →
      ∃ ts, text = commas first ts ∧ ∀ t ∈ ts, Fragment depth t
  | [], _, _, _, _, h, _ => ⟨[], (Emission.pure_inj.1 h).symm, nofun⟩
  | d :: ds, first, text, depth, hp, h, hn => by
    obtain ⟨hd, hds⟩ := Bool.and_eq_true_iff.1 hp
    rw [listNesting] at hn
    obtain ⟨_, _, hfront, hrest, rfl⟩ := Emission.append_eq_pure.1 h
    obtain ⟨_, t, hcomma, ht, rfl⟩ := Emission.append_eq_pure.1 hfront
    obtain rfl := Emission.pure_inj.1 hcomma
    have hinner : depth + listNesting ds ≤ depthLimit := by omega
    obtain ⟨ts, rfl, hts⟩ := list_fragments hds hrest hinner
    exact ⟨t :: ts, rfl, List.forall_mem_cons.2 ⟨d.fragment hd ht (by omega), hts⟩⟩

theorem fields_fragments : ∀ {fields : List (String × Option Datum)} {first : Bool}
    {text : String} {depth : Nat}, fieldsPlain fields → jsonFields first fields = .pure text →
      depth + fieldsNesting fields ≤ depthLimit →
      ∃ ms : List (String × String), text = commas first (ms.map memberText) ∧
        ∀ m ∈ ms, Fragment depth m.2
  | [], _, _, _, _, h, _ => ⟨[], (Emission.pure_inj.1 h).symm, nofun⟩
  | (_, none) :: rest, _, _, _, hp, h, hn =>
    have hp : fieldsPlain rest := hp
    fields_fragments hp h hn
  | (name, some d) :: rest, first, text, depth, hp, h, hn => by
    obtain ⟨hd, hrest⟩ := Bool.and_eq_true_iff.1 hp
    rw [fieldsNesting] at hn
    obtain ⟨_, _, hfront, hmore, rfl⟩ := Emission.append_eq_pure.1 h
    obtain ⟨_, t, hkey, ht, rfl⟩ := Emission.append_eq_pure.1 hfront
    obtain rfl := Emission.pure_inj.1 hkey
    have hinner : depth + fieldsNesting rest ≤ depthLimit := by omega
    obtain ⟨ms, rfl, hms⟩ := fields_fragments hrest hmore hinner
    refine ⟨(name, t) :: ms, ?_, List.forall_mem_cons.2 ⟨d.fragment hd ht (by omega), hms⟩⟩
    simp [commas, memberText, String.append_assoc]

theorem items_fragments : ∀ {items : List (Item Datum)} {first : Bool} {text : String}
    {depth : Nat}, itemsPlain items → jsonItems first items = .pure text →
      depth + itemsNesting items ≤ depthLimit →
      ∃ ms : List (String × String), text = commas first (ms.map memberText) ∧
        ∀ m ∈ ms, Fragment depth m.2
  | [], _, _, _, _, h, _ => ⟨[], (Emission.pure_inj.1 h).symm, nofun⟩
  | .entry k v :: rest, first, text, depth, hp, h, hn => by
    obtain ⟨hp, hrest⟩ := Bool.and_eq_true_iff.1 hp
    obtain ⟨-, hv⟩ := Bool.and_eq_true_iff.1 hp
    rw [itemsNesting] at hn
    obtain ⟨_, _, hfront, hmore, rfl⟩ := Emission.append_eq_pure.1 h
    obtain ⟨_, t, hkeyed, ht, rfl⟩ := Emission.append_eq_pure.1 hfront
    obtain ⟨_, _, hkey, hcolon, rfl⟩ := Emission.append_eq_pure.1 hkeyed
    obtain rfl := Emission.pure_inj.1 hcolon
    obtain ⟨name, rfl⟩ := k.exists_name_of_jsonKeyed hkey
    rw [Item.hasKey, Bool.not_true, Bool.and_false] at hmore
    have hinner : depth + itemsNesting rest ≤ depthLimit := by omega
    obtain ⟨ms, rfl, hms⟩ := items_fragments hrest hmore hinner
    refine ⟨(name, t) :: ms, ?_, List.forall_mem_cons.2 ⟨v.fragment hv ht (by omega), hms⟩⟩
    simp [commas, memberText, String.append_assoc]

end

end FlatUnion
