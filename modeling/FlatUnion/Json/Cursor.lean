import FlatUnion.Data.Fault

/-!
# Places in a text

A cursor is what is left of a text, and the position of its front : the line, and the bytes since
the line began. A slip is a mistake found while something is read off the front. It tells how many
characters, and how many bytes behind those, had been looked at.
-/

namespace FlatUnion.Json

/-- What is left of a text, and where it begins. -/
structure Cursor where
  rest : List Char
  place : Position

/-- A mistake, `offset` characters and `ahead` bytes behind the front. -/
structure Slip where
  error : JsonError
  offset : Nat := 0
  ahead : Nat := 0
  deriving DecidableEq, Repr

/-- The position behind a character. -/
def Position.after (p : Position) (c : Char) : Position :=
  if c = '\n' then ⟨p.line + 1, 0⟩ else ⟨p.line, p.column + c.utf8Size⟩

/-- The position some bytes further, which may be inside a character. -/
def Position.bytesAfter (p : Position) : (ahead : Nat) → List Char → Position
  | 0, _ | _, [] => p
  | ahead + 1, c :: rest =>
    if c.utf8Size ≤ ahead + 1 then
      Position.bytesAfter (Position.after p c) (ahead + 1 - c.utf8Size) rest
    else ⟨p.line, p.column + ahead + 1⟩
  termination_by _ cs => cs.length

namespace Cursor

/-- The beginning of a text. -/
def start (text : String) : Cursor := ⟨text.toList, ⟨1, 0⟩⟩

/-- The cursor some characters further. -/
def drop : Nat → Cursor → Cursor
  | 0, c => c
  | _, ⟨[], p⟩ => ⟨[], p⟩
  | n + 1, ⟨x :: rest, p⟩ => drop n ⟨rest, Position.after p x⟩

theorem rest_drop (n : Nat) (c : Cursor) : (c.drop n).rest = c.rest.drop n := by
  induction n generalizing c with
  | zero => rfl
  | succ n ih =>
    obtain ⟨rest, p⟩ := c
    cases rest with
    | nil => rfl
    | cons x rest => simpa [drop] using ih ⟨rest, Position.after p x⟩

/-- Whether a character may stand between the parts of a text. -/
def isBlank (c : Char) : Bool := c = ' ' || c = '\n' || c = '\t' || c = '\x0d'

/-- The cursor behind blanks. -/
def skipBlanks (c : Cursor) : Cursor := c.drop (c.rest.takeWhile isBlank).length

theorem length_skipBlanks_le (c : Cursor) : c.skipBlanks.rest.length ≤ c.rest.length := by
  simp [skipBlanks, rest_drop]

/-- The position of a slip. -/
def positionOf (c : Cursor) (s : Slip) : Position :=
  let d := c.drop s.offset
  Position.bytesAfter d.place s.ahead d.rest

/-- A slip as a fault of the text. -/
def fault (c : Cursor) (s : Slip) : Fault := ⟨.json s.error, some (c.positionOf s)⟩

/-- A complaint about the first character, which is not read. -/
def faultHere (c : Cursor) (error : JsonError) : Fault := c.fault { error, ahead := 1 }

end Cursor

end FlatUnion.Json
