import FlatUnion.Data.Snapshot
import FlatUnion.Proofs.Parts
import FlatUnion.Write.Flatten
import FlatUnion.Write.Record

/-!
# How written values are shown

A format that describes itself shows a value that was written as one of its own : structs as maps,
tuples as sequences, a bare variant as its name and any other as a map of one entry, and options
kept apart from what they hold. It may mark newtypes as such or leave them out (`Datum.shown`).

A value in which nothing fails (`Datum.plain`) can be written, and what was written is shown as the
value is (`Datum.record_plain`).
-/

namespace FlatUnion

/-! ## Showing -/

mutual

/-- A datum as it is shown when it is read again. Only whole entries of maps are shown. -/
def Datum.shown (marks : Bool) : Datum → Snapshot
  | .bool b => .bool b
  | .int w n => .int w n
  | .f32 bits => .f32 bits
  | .f64 bits => .f64 bits
  | .char c => .char c
  | .text s | .display s => .text s
  | .bytes bs => .bytes bs
  | .readability => .map [(.text "hr", .bool false)]
  | .none => .none
  | .some inner => .some (inner.shown marks)
  | .unit | .unitStruct _ | .fail _ => .unit
  | .unitVariant v => .text v.name
  | .newtypeStruct _ inner => if marks then .newtype (inner.shown marks) else inner.shown marks
  | .newtypeVariant v inner => .map [(.text v.name, inner.shown marks)]
  | .seq items | .tuple items | .tupleStruct _ items => .seq (shownList marks items)
  | .tupleVariant v items => .map [(.text v.name, .seq (shownList marks items))]
  | .map items => .map (shownItems marks items)
  | .struct _ fields => .map (shownFields marks fields)
  | .structVariant v fields => .map [(.text v.name, .map (shownFields marks fields))]

def shownList (marks : Bool) : List Datum → List Snapshot
  | [] => []
  | d :: rest => d.shown marks :: shownList marks rest

def shownFields (marks : Bool) : List (String × Option Datum) → List (Snapshot × Snapshot)
  | [] => []
  | (_, none) :: rest => shownFields marks rest
  | (name, some d) :: rest => (.text name, d.shown marks) :: shownFields marks rest

def shownItems (marks : Bool) : List (Item Datum) → List (Snapshot × Snapshot)
  | [] => []
  | .entry k v :: rest => (k.shown marks, v.shown marks) :: shownItems marks rest
  | _ :: rest => shownItems marks rest

end

theorem shownItems_fieldItems (marks : Bool) : ∀ fields : List (String × Option Datum),
    shownItems marks (fieldItems fields) = shownFields marks fields
  | [] => rfl
  | (_, none) :: rest => shownItems_fieldItems marks rest
  | (name, some d) :: rest => by
    rw [fieldItems, shownItems, shownItems_fieldItems marks rest]
    rfl

/-! ## Writing -/

mutual

/-- Whether a datum and its parts can be written : nothing fails, and maps are given in entries. -/
def Datum.plain : Datum → Bool
  | .fail _ => false
  | .some inner | .newtypeStruct _ inner | .newtypeVariant _ inner => inner.plain
  | .seq items | .tuple items | .tupleStruct _ items | .tupleVariant _ items => listPlain items
  | .map items => itemsPlain items
  | .struct _ fields | .structVariant _ fields => fieldsPlain fields
  | _ => true

def listPlain : List Datum → Bool
  | [] => true
  | d :: rest => d.plain && listPlain rest

def fieldsPlain : List (String × Option Datum) → Bool
  | [] => true
  | (_, none) :: rest => fieldsPlain rest
  | (_, some d) :: rest => d.plain && fieldsPlain rest

def itemsPlain : List (Item Datum) → Bool
  | [] => true
  | .entry k v :: rest => k.plain && v.plain && itemsPlain rest
  | _ => false

end

/-- The entries of a map, key by key and value by value. -/
def keysAndValues : List (Datum × Datum) → List (Item Datum)
  | [] => []
  | (k, v) :: rest => .key k :: .value v :: keysAndValues rest

theorem pairUp_keysAndValues : ∀ es : List (Datum × Datum),
    Item.pairUp (keysAndValues es) = es.map fun e => .entry e.1 e.2
  | [] => rfl
  | (k, v) :: rest => by rw [keysAndValues, Item.pairUp, pairUp_keysAndValues rest]; rfl

mutual

/-- What is plain can be written, and what is written is shown as it was. -/
theorem Datum.record_plain : ∀ {d : Datum}, d.plain →
    ∃ r, d.record = .ok r ∧ ∀ marks, r.shown marks = d.shown marks
  | .bool _, _ | .int _ _, _ | .f32 _, _ | .f64 _, _ | .char _, _ | .text _, _ | .bytes _, _
  | .display _, _ | .none, _ | .unit, _ | .unitStruct _, _ | .unitVariant _, _
  | .readability, _ => ⟨_, rfl, fun _ => rfl⟩
  | .some inner, h => by
    obtain ⟨r, hr, hs⟩ := inner.record_plain h
    exact ⟨.some r, bind_eq_ok.2 ⟨r, hr, rfl⟩,
      fun marks => congrArg Snapshot.some (hs marks)⟩
  | .newtypeStruct name inner, h => by
    obtain ⟨r, hr, hs⟩ := inner.record_plain h
    exact ⟨.newtypeStruct name r, bind_eq_ok.2 ⟨r, hr, rfl⟩,
      fun marks => by rw [Datum.shown, Datum.shown, hs]⟩
  | .newtypeVariant v inner, h => by
    obtain ⟨r, hr, hs⟩ := inner.record_plain h
    exact ⟨.newtypeVariant v r, bind_eq_ok.2 ⟨r, hr, rfl⟩,
      fun marks => congrArg (fun c => Snapshot.map [(.text v.name, c)]) (hs marks)⟩
  | .seq items, h => by
    obtain ⟨rs, hr, hs⟩ := recordList_plain h
    exact ⟨.seq rs, bind_eq_ok.2 ⟨rs, hr, rfl⟩,
      fun marks => congrArg Snapshot.seq (hs marks)⟩
  | .tuple items, h => by
    obtain ⟨rs, hr, hs⟩ := recordList_plain h
    exact ⟨.tuple rs, bind_eq_ok.2 ⟨rs, hr, rfl⟩,
      fun marks => congrArg Snapshot.seq (hs marks)⟩
  | .tupleStruct name items, h => by
    obtain ⟨rs, hr, hs⟩ := recordList_plain h
    exact ⟨.tupleStruct name rs, bind_eq_ok.2 ⟨rs, hr, rfl⟩,
      fun marks => congrArg Snapshot.seq (hs marks)⟩
  | .tupleVariant v items, h => by
    obtain ⟨rs, hr, hs⟩ := recordList_plain h
    exact ⟨.tupleVariant v rs, bind_eq_ok.2 ⟨rs, hr, rfl⟩,
      fun marks => congrArg (fun cs => Snapshot.map [(.text v.name, .seq cs)]) (hs marks)⟩
  | .map items, h => by
    obtain ⟨es, hr, hs⟩ := recordItems_plain h
    refine ⟨.ofEntries es, ?_, fun marks => congrArg Snapshot.map (hs marks)⟩
    rw [Datum.record, hr]
    exact congrArg (Except.ok ∘ Datum.map) (pairUp_keysAndValues es)
  | .struct name fields, h => by
    obtain ⟨rs, hr, hs⟩ := recordFields_plain h
    exact ⟨.struct name rs, bind_eq_ok.2 ⟨rs, hr, rfl⟩,
      fun marks => congrArg Snapshot.map (hs marks)⟩
  | .structVariant v fields, h => by
    obtain ⟨rs, hr, hs⟩ := recordFields_plain h
    exact ⟨.structVariant v rs, bind_eq_ok.2 ⟨rs, hr, rfl⟩,
      fun marks => congrArg (fun es => Snapshot.map [(.text v.name, .map es)]) (hs marks)⟩

theorem recordList_plain : ∀ {items : List Datum}, listPlain items →
    ∃ rs, recordList items = .ok rs ∧ ∀ marks, shownList marks rs = shownList marks items
  | [], _ => ⟨[], rfl, fun _ => rfl⟩
  | d :: rest, h => by
    obtain ⟨hd, hrest⟩ := Bool.and_eq_true_iff.1 h
    obtain ⟨r, hr, hs⟩ := d.record_plain hd
    obtain ⟨rs, hrs, hss⟩ := recordList_plain hrest
    exact ⟨r :: rs, by rw [recordList, hr, hrs]; rfl,
      fun marks => by rw [shownList, shownList, hs, hss]⟩

theorem recordFields_plain : ∀ {fields : List (String × Option Datum)}, fieldsPlain fields →
    ∃ rs, recordFields fields = .ok rs ∧ ∀ marks, shownFields marks rs = shownFields marks fields
  | [], _ => ⟨[], rfl, fun _ => rfl⟩
  | (_, none) :: rest, h => @recordFields_plain rest h
  | (name, some d) :: rest, h => by
    obtain ⟨hd, hrest⟩ := Bool.and_eq_true_iff.1 h
    obtain ⟨r, hr, hs⟩ := d.record_plain hd
    obtain ⟨rs, hrs, hss⟩ := recordFields_plain hrest
    exact ⟨(name, some r) :: rs, by rw [recordFields, hr, hrs]; rfl,
      fun marks => by rw [shownFields, shownFields, hs, hss]⟩

theorem recordItems_plain : ∀ {items : List (Item Datum)}, itemsPlain items →
    ∃ es : List (Datum × Datum), recordItems items = ⟨keysAndValues es, none⟩ ∧
      ∀ marks, shownItems marks (es.map fun e => .entry e.1 e.2) = shownItems marks items
  | [], _ => ⟨[], rfl, fun _ => rfl⟩
  | .entry k v :: rest, h => by
    obtain ⟨h, hrest⟩ := Bool.and_eq_true_iff.1 h
    obtain ⟨hk, hv⟩ := Bool.and_eq_true_iff.1 h
    obtain ⟨rk, hrk, hsk⟩ := k.record_plain hk
    obtain ⟨rv, hrv, hsv⟩ := v.record_plain hv
    obtain ⟨es, hes, hss⟩ := recordItems_plain hrest
    refine ⟨(rk, rv) :: es, ?_, fun marks => ?_⟩
    · rw [recordItems, hes, recordItem, hrk, hrv]
      rfl
    · rw [List.map_cons, shownItems, shownItems, hss, hsk, hsv]

end

end FlatUnion
