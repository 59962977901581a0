import Mathlib
import FlatUnion.Catalog
import FlatUnion.Proofs.Json.Kept
import FlatUnion.Proofs.Keyed

/-!
# Reading through the flat representation

A value can be read from a text in two ways : directly, or from the flat representation of the text.
The second reads what the text shows to those who ask for nothing in particular, so it differs from
the first in three things. It fails if any value of the text cannot be kept, also one that the type
has no use for. A key is kept as a text, so it cannot be read as an integer or a boolean. And a
negative zero is kept as a float.

There are no other differences (`readKept_agrees`) : what can be kept is read as the type whose
maps are empty unless they are under texts or characters, and to the same value.
-/

namespace FlatUnion.Json

variable {zeros : Bool}

/-! ## Texts that are kept -/

/-- No literal is a map. -/
theorem literalAnswer_ne_map {r : Request} {c : Cursor} {a : Answer Part}
    (h : literalAnswer r c = .ok a) (entries : List (Part × Part)) (hint : Option Nat) :
    a.call ≠ .map entries hint := by
  unfold literalAnswer at h
  split at h
  · obtain rfl := Except.ok.inj h
    nofun
  · obtain rfl := Except.ok.inj h
    nofun
  · obtain ⟨⟨x, d⟩, -, h⟩ := bind_eq_ok.1 h
    dsimp only at h
    split at h <;> obtain rfl := Except.ok.inj h
    · cases x <;> nofun
    · nofun

/-- Only an object has a flat representation, and its entries are what is kept of it. -/
theorem object_of_read {node : Node} {flat : Flat} (h : Flat.read (Part.value node) = .ok flat) :
    (∃ c depth members ending, node = .object c depth members ending) ∧
      Snapshot.ofOffer node.offer = .ok (.map flat.entries) ∧
        (Snapshot.keys flat.entries).Nodup := by
  obtain ⟨a, entries, hint, ha, hcall, hkeeps, hn, -⟩ := Flat.read_eq_ok.1 h
  have ha : valueAnswer .map node = .ok a := ha
  have hleaf : ∀ inside c, leafAnswer .map inside c ≠ .ok a := fun inside c h =>
    literalAnswer_ne_map ((leafAnswer_plain rfl inside c).symm.trans h) entries hint hcall
  cases node with
  | leaf c inside => exact absurd ha (hleaf inside c)
  | list c depth items ending => exact absurd ha (hleaf none c)
  | missing start fault => nomatch ha
  | object c depth members ending =>
    have ha : within depth c (objectAnswer c members ending) = .ok a := ha
    unfold within at ha
    split at ha
    · nomatch ha
    next hdepth =>
    obtain rfl := Except.ok.inj ha
    obtain ⟨rfl, -⟩ := Call.map.inj hcall
    rw [map_offered_members] at hkeeps
    refine ⟨⟨_, _, _, _, rfl⟩, ?_, hn⟩
    rw [Node.offer, if_neg hdepth, Snapshot.ofOffer, Snapshot.ofEntries_eq_ok.2 hkeeps]
    rfl

theorem kept_of_read {node : Node} {flat : Flat} (hcut : node.WellCut) (hfits : node.fits zeros)
    (h : Flat.read (Part.value node) = .ok flat) : node.Kept zeros (.map flat.entries) := by
  obtain ⟨⟨c, depth, members, ending, rfl⟩, hoffer, -⟩ := object_of_read h
  exact ⟨rfl, hcut, hfits, hoffer⟩

/-! ## Texts that are read whole -/

/-- Whether nothing but blanks follows the value of a text. -/
def EndsWithValue (text : String) : Prop :=
  ∀ c, (scan text).2 = some c → c.skipBlanks.rest = []

theorem readWhole_eq_ok {α : Type} {read : Part → Except Fault α} {text : String} {x : α} :
    readWhole read text = .ok x ↔ read (.value (scan text).1) = .ok x ∧ EndsWithValue text := by
  unfold readWhole EndsWithValue
  obtain ⟨node, stop⟩ := scan text
  cases stop with
  | none =>
    simp only [bind_eq_ok]
    simp [pure, Except.pure]
  | some c =>
    simp only [bind_eq_ok, Option.map_some, Option.some.injEq, forall_eq']
    constructor
    · rintro ⟨y, hy, h⟩
      split at h
      · next hend =>
        obtain rfl := pure_eq_ok.1 h
        exact ⟨hy, List.isEmpty_iff.1 hend⟩
      · cases h
    · rintro ⟨hx, hend⟩
      exact ⟨x, hx, by rw [if_pos (List.isEmpty_iff.2 hend)]; rfl⟩

/-! ## Keys -/

/-- Keys that are texts are kept as they are read. -/
theorem textKeys_alike (zeros : Bool) : KeysAlike (textSimulation zeros) Ty.textKey id := by
  intro k _ part c hkey
  cases k with
  | text => exact (textSimulation zeros).consult_key hkey rfl Visit.text_alike
  | char => exact (textSimulation zeros).consult_key hkey rfl Visit.char_alike
  | _ => exact fun d hd => absurd hd (Ty.read_never part d)

/-- Of the keys that are kept only texts are read. -/
theorem keptKeys_alike (zeros : Bool) : KeysAlike (keptSimulation zeros) id Ty.textKey := by
  intro k hk c part hkey
  cases k with
  | text => exact (keptSimulation zeros).consult_key hkey rfl Visit.text_alike
  | char => exact (keptSimulation zeros).consult_key hkey rfl Visit.char_alike
  | int | bool =>
    obtain ⟨s, rfl, -⟩ := hkey
    exact fun d hd => nomatch hd
  | _ => nomatch hk

/-! ## Both ways -/

/-- Reads a text by way of its flat representation. -/
def readKept {α : Type} (read : Snapshot → Except Fault α) (text : String) : Except Fault α := do
  let flat ← readWhole Flat.read text
  flat.readPayload read

/-- A text that is kept is read from what is kept as it is read directly, but for maps under
integers and booleans, which have to be empty. -/
theorem readPayload_eq_ok {t : Ty} {text : String} {flat : Flat} (ht : t.ordinary zeros)
    (hfits : (scan text).1.fits zeros) (hflat : readWhole Flat.read text = .ok flat) {d : Datum} :
    flat.readPayload t.read = .ok d ↔ readWhole t.underTexts.read text = .ok d := by
  obtain ⟨hflat, hend⟩ := readWhole_eq_ok.1 hflat
  have hkept : ValueKept zeros (.value (scan text).1) (.map flat.entries) :=
    ⟨_, rfl, kept_of_read (scanValue_wellCut _ _ _) hfits hflat⟩
  have hto := t.read_follows (textKeys_alike zeros) ht _ _ hkept
  have hfrom := t.read_follows (keptKeys_alike zeros) ht _ _ hkept
  rw [t.mapKeys_id] at hto hfrom
  rw [readWhole_eq_ok, and_iff_left hend]
  exact ⟨hfrom d, hto d⟩

/-- By way of the flat representation a text is read exactly if it can be kept, and is read directly
as the type whose maps hold something only under texts and characters, and it is read as the same
value. As the type itself it is then also read directly as this value, and the two types are one if
all maps are under texts and characters. -/
theorem readKept_agrees {t : Ty} {text : String} (ht : t.ordinary zeros)
    (hfits : (scan text).1.fits zeros) :
    (∀ d, readKept t.read text = .ok d ↔
      (∃ flat, readWhole Flat.read text = .ok flat) ∧ readWhole t.underTexts.read text = .ok d) ∧
    (∀ d, readWhole t.underTexts.read text = .ok d → readWhole t.read text = .ok d) ∧
    ((∀ k ∈ t.keys, k.isTextKey) → t.underTexts = t) := by
  refine ⟨fun d => ⟨fun h => ?_, ?_⟩, fun d h => ?_, Ty.underTexts_of_textual⟩
  · obtain ⟨flat, hflat, h⟩ := bind_eq_ok.1 h
    exact ⟨⟨flat, hflat⟩, (readPayload_eq_ok ht hfits hflat).1 h⟩
  · rintro ⟨⟨flat, hflat⟩, h⟩
    exact bind_eq_ok.2 ⟨flat, hflat, (readPayload_eq_ok ht hfits hflat).2 h⟩
  · obtain ⟨h, hend⟩ := readWhole_eq_ok.1 h
    exact readWhole_eq_ok.2 ⟨Ty.read_of_underTexts ht _ d h, hend⟩

/-- A struct of a map under integers and a list. -/
def sizes : Ty :=
  .struct { name := "Sizes" }
    [({ name := "sizes" }, .map (.int .u32) .bool),
      ({ name := "more" }, .list (.option (.int .u8)))]

/-- A text where the map is empty. -/
def sizesText : String := "\x7b\"sizes\":\x7b\x7d,\"more\":[1,null]\x7d"

theorem start_sizesText : Cursor.start sizesText =
    ⟨['\x7b', '"', 's', 'i', 'z', 'e', 's', '"', ':', '\x7b', '\x7d', ',', '"', 'm', 'o', 'r', 'e',
      '"', ':', '[', '1', ',', 'n', 'u', 'l', 'l', ']', '\x7d'], ⟨1, 0⟩⟩ := rfl

/-- The empty map and the list are read both ways. -/
theorem readKept_agrees_sizes :
    sizes.ordinary true ∧ (scan sizesText).1.fits true ∧
      readKept sizes.read sizesText = readWhole sizes.read sizesText ∧
        (readWhole sizes.read sizesText).isOk := by
  have ht : sizes.ordinary true := by decide
  have hfits : (scan sizesText).1.fits true := by
    unfold scan
    rw [start_sizesText]
    cbv
  have hflat : readWhole Flat.read sizesText = .ok ⟨[(.text "sizes", .map []),
      (.text "more", .seq [.int .u64 1, .unit])]⟩ := by
    unfold readWhole scan
    rw [start_sizesText]
    cbv
  have hread : readWhole sizes.underTexts.read sizesText = .ok (.struct "Sizes"
      [("sizes", some (.map [])), ("more", some (.seq [.some (.int .u8 1), .none]))]) := by
    unfold readWhole scan
    rw [start_sizesText]
    cbv
  obtain ⟨hkept, hdirect, -⟩ := readKept_agrees ht hfits
  have hkept := (hkept _).2 ⟨⟨_, hflat⟩, hread⟩
  have hdirect := hdirect _ hread
  exact ⟨ht, hfits, hkept.trans hdirect.symm, by rw [hdirect]; rfl⟩

/-- A text with a key that is a number. -/
def countsText : String := "\x7b\"1\":2\x7d"

/-- A text with a number that is too large for a float, under a key that messages ignore. -/
def hugeText : String := "\x7b\"text\":\"a\",\"x\":1e999\x7d"

/-- A text with a negative zero. -/
def zeroText : String := "\x7b\"x\":-0\x7d"

theorem start_countsText : Cursor.start countsText =
    ⟨['\x7b', '"', '1', '"', ':', '2', '\x7d'], ⟨1, 0⟩⟩ := rfl

theorem start_hugeText : Cursor.start hugeText =
    ⟨['\x7b', '"', 't', 'e', 'x', 't', '"', ':', '"', 'a', '"', ',', '"', 'x', '"', ':', '1', 'e',
      '9', '9', '9', '\x7d'], ⟨1, 0⟩⟩ := rfl

theorem start_zeroText : Cursor.start zeroText =
    ⟨['\x7b', '"', 'x', '"', ':', '-', '0', '\x7d'], ⟨1, 0⟩⟩ := rfl

theorem scan_zeroText :
    let c := Cursor.start zeroText
    scan zeroText = (.object c 0
      [⟨c.drop 1, c.drop 4, .leaf (c.drop 5) (some .expectedObjectCommaOrEnd), c.drop 7⟩]
      (.closed ⟨1, 8⟩), some (c.drop 8)) := by
  intro c
  unfold c scan
  rw [start_zeroText]
  cbv

/-- Each of the three differences shows : a key that is a number, a number that is ignored but
cannot be kept, and a negative zero. -/
theorem readKept_differs :
    (readWhole (Ty.map (.int .u32) (.int .u8)).read countsText =
        .ok (.map [.entry (.int .u32 1) (.int .u8 2)]) ∧
      (readKept (Ty.map (.int .u32) (.int .u8)).read countsText).isOk = false) ∧
    (readWhole Catalog.textMessage.read hugeText =
        .ok (.struct "TextMessage" [("text", some (.text "a"))]) ∧
      (readKept Catalog.textMessage.read hugeText).isOk = false) ∧
    readWhole (Ty.map .text (.int .i128)).read zeroText =
        .ok (.map [.entry (.text "x") (.int .i128 0)]) ∧
      (readKept (Ty.map .text (.int .i128)).read zeroText).isOk = false := by
  refine ⟨?counts, ?huge, ?zero⟩
  case counts =>
    unfold readKept readWhole scan
    rw [start_countsText]
    constructor <;> cbv
  case huge =>
    unfold readKept readWhole scan
    rw [start_hugeText]
    constructor <;> cbv
  case zero =>
    unfold readKept readWhole
    rw [scan_zeroText]
    constructor
    · rw [start_zeroText]
      cbv
    · decide +kernel

end FlatUnion.Json
