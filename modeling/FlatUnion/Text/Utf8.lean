/-!
# Bytes as text

Bytes that a reader takes for text must be UTF-8. `decodeUtf8?` reads all of them or gives up,
`decodeUtf8Lossy` puts U+FFFD in the place of every maximal part that is not UTF-8.
-/

namespace FlatUnion

/-- The bytes of a text. -/
def utf8Bytes (s : String) : List UInt8 := s.toUTF8.toList

/-- The text that bytes spell, if they are UTF-8. -/
def decodeUtf8? (bytes : List UInt8) : Option String :=
  String.fromUTF8? ⟨bytes.toArray⟩

private def isContinuation (b : UInt8) : Bool := 0x80 ≤ b && b ≤ 0xbf

/-- How many bytes follow a leading byte, and the range of the first of them. -/
private def following (b : UInt8) : Option (Nat × UInt8 × UInt8) :=
  if 0xc2 ≤ b && b ≤ 0xdf then some (1, 0x80, 0xbf)
  else if b = 0xe0 then some (2, 0xa0, 0xbf)
  else if b = 0xed then some (2, 0x80, 0x9f)
  else if 0xe1 ≤ b && b ≤ 0xef then some (2, 0x80, 0xbf)
  else if b = 0xf0 then some (3, 0x90, 0xbf)
  else if 0xf1 ≤ b && b ≤ 0xf3 then some (3, 0x80, 0xbf)
  else if b = 0xf4 then some (3, 0x80, 0x8f)
  else none

/-- The length of the longest beginning of a character at the front, and whether the character
is complete. -/
private def span (b : UInt8) (rest : List UInt8) : Nat × Bool :=
  if b < 0x80 then (1, true) else
  match following b with
  | none => (1, false)
  | some (count, lo, hi) =>
    match rest with
    | c :: tail =>
      if lo ≤ c && c ≤ hi then
        let more := ((tail.take (count - 1)).takeWhile isContinuation).length
        (2 + more, more + 1 = count)
      else (1, false)
    | [] => (1, false)

private theorem span_pos (b : UInt8) (rest : List UInt8) : 0 < (span b rest).1 := by
  unfold span
  grind

/-- Reads bytes as text, with U+FFFD for each maximal part that is no character. -/
def decodeUtf8Lossy : List UInt8 → String
  | [] => ""
  | b :: rest =>
    let s := span b rest
    let here := if s.2 then (decodeUtf8? ((b :: rest).take s.1)).getD "\uFFFD" else "\uFFFD"
    here ++ decodeUtf8Lossy ((b :: rest).drop s.1)
  termination_by bytes => bytes.length
  decreasing_by
    have := span_pos b rest
    simp only [List.length_drop, List.length_cons]
    omega

private def hexDigit? (c : Char) : Option Nat :=
  if '0' ≤ c && c ≤ '9' then some (c.toNat - '0'.toNat)
  else if 'a' ≤ c && c ≤ 'f' then some (c.toNat - 'a'.toNat + 10)
  else if 'A' ≤ c && c ≤ 'F' then some (c.toNat - 'A'.toNat + 10)
  else none

/-- The number that hexadecimal digits write. -/
def hexValue? (cs : List Char) : Option Nat :=
  cs.foldlM (fun n c => (hexDigit? c).map (16 * n + ·)) 0

/-- The bytes that pairs of hexadecimal digits write. -/
def hexBytes? : List Char → Option (List UInt8)
  | [] => some []
  | [_] => none
  | a :: b :: rest => do
    let n ← hexValue? [a, b]
    return n.toUInt8 :: (← hexBytes? rest)

/-- A number in hexadecimal, with zeros in front up to a length. -/
def hexText (length n : Nat) : String :=
  let digits := Nat.toDigits 16 n
  String.ofList (List.replicate (length - digits.length) '0' ++ digits)

/-- Bytes as pairs of hexadecimal digits. -/
def hexOfBytes (bytes : List UInt8) : String :=
  String.join (bytes.map fun b => hexText 2 b.toNat)

end FlatUnion
