import FlatUnion.Code.Item
import FlatUnion.Derive.Diagnostic

/-!
# Arguments of the attribute

The arguments stand in attributes `flat_tag`, with commas between them. The only one is `crate`,
whose value is a text that holds a path. It may be set once, in any of the attributes : what follows
is said to be set before, and the first value stays. Other arguments are skipped up to the next
comma.

Arguments are read in rounds, one for each argument (`Finding.next`). A round takes a token at least
(`Finding.next_shorter`), so reading ends. An argument that can not be read ends the attribute, and
the rest of it is lost.
-/

namespace FlatUnion.Derive

open Code

/-- The value of `crate` : a text, and the letters written directly behind it. -/
structure CrateText where
  text : String
  suffix : String
  deriving DecidableEq, Repr

/-- What a round of reading finds. -/
inductive Finding
  | crate (value : CrateText)
  | unrecognized (argument : String)
  /-- The argument is `crate` and can not be read. -/
  | broken (c : Complaint)
  /-- There is no argument here. -/
  | noName (c : Complaint)
  deriving DecidableEq, Repr

/-- The complaint where the name of an argument is missing. -/
def nameMissing (atEnd : Bool) : Complaint := ⟨.expected ["ident"], atEnd⟩

/-- Reads the value of `crate` behind its name, and the comma behind it. -/
def CrateText.read : List Token → Except Complaint (CrateText × List Token)
  | .punct '=' _ :: .literal literal :: rest =>
    match textOfLiteral? literal with
    | none => .error ⟨.expected ["string literal"], false⟩
    | some (text, suffix) =>
      match rest with
      | [] => .ok (⟨text, suffix⟩, [])
      | .punct ',' _ :: rest => .ok (⟨text, suffix⟩, rest)
      | _ => .error ⟨.expected ["`,`"], false⟩
  | .punct '=' _ :: rest => .error ⟨.expected ["string literal"], rest.isEmpty⟩
  | _ => .error ⟨.expected ["`=`"], false⟩

/-- What is left behind the first comma. -/
def behindComma : List Token → List Token
  | [] => []
  | .punct ',' _ :: rest => rest
  | _ :: rest => behindComma rest

namespace Finding

/-- Reads one argument. -/
def next : List Token → Finding × List Token
  | .ident name :: rest =>
    if name = "crate" then
      match CrateText.read rest with
      | .ok (value, rest) => (.crate value, rest)
      | .error c => (.broken c, [])
    else (.unrecognized name, behindComma rest)
  | ts => (.noName (nameMissing ts.isEmpty), [])

theorem length_behindComma_le (ts : List Token) : (behindComma ts).length ≤ ts.length := by
  fun_induction behindComma ts <;> grind

theorem length_read_le {ts rest : List Token} {value : CrateText}
    (h : CrateText.read ts = .ok (value, rest)) : rest.length ≤ ts.length := by
  unfold CrateText.read at h
  grind

/-- A round leaves fewer tokens than it finds. -/
theorem next_shorter {ts : List Token} (h : ts ≠ []) : (next ts).2.length < ts.length := by
  unfold next
  split
  · next name rest =>
    split
    · split
      · next value left h =>
        have := length_read_le h
        grind
      · simp
    · have := length_behindComma_le rest
      grind
  · simpa [List.length_pos_iff] using h

/-- Reads all arguments of an attribute. -/
def all (ts : List Token) : List Finding :=
  if h : ts = [] then []
  else
    have := next_shorter h
    (next ts).1 :: all (next ts).2
termination_by ts.length

/-- What is said about a finding, given that `crate` is set before it or is not. -/
def diagnostics (isSet : Bool) : Finding → List Diagnostic
  | .crate _ => if isSet then [.crateSetBefore] else []
  | .unrecognized argument => [.unrecognized argument]
  | .broken c => [.complaint c, .complaint (nameMissing true)]
  | .noName c => [.complaint c]

/-- The value that a finding sets. -/
def value? : Finding → Option CrateText
  | .crate value => some value
  | _ => none

end Finding

/-! ## Arguments of a declaration -/

/-- What the attributes of a declaration ask for, and what is said about them. -/
structure Arguments where
  crate : Option CrateText := none
  diagnostics : List Diagnostic := []
  deriving DecidableEq, Repr

namespace Arguments

/-- Adds a finding. -/
def add (a : Arguments) (f : Finding) : Arguments :=
  { crate := a.crate.or f.value?
    diagnostics := a.diagnostics ++ f.diagnostics a.crate.isSome }

/-- Adds the arguments of an attribute, if it is the one that has them. -/
def addAttribute (a : Arguments) (source : Attribute) : Arguments :=
  if source.path.name? = some "flat_tag" then
    match source.body with
    | .list _ tokens => (Finding.all tokens).foldl add a
    | _ => { a with diagnostics := a.diagnostics ++ [.noArguments] }
  else a

/-- Reads the arguments in some attributes. -/
def read (attributes : List Attribute) : Arguments := attributes.foldl addAttribute {}

end Arguments

/-- Reads the path that a value of `crate` holds. -/
def CrateText.path (language : Language) (value : CrateText) : Except Complaint Piece := do
  let path ← language.path value.text
  if value.suffix.isEmpty then return path
  else throw ⟨.other ("unexpected suffix `" ++ value.suffix ++ "` on string literal"), false⟩

/-- The path of the crate, if one is set that can be read. -/
def Arguments.crate? (language : Language) (a : Arguments) : Option Piece :=
  a.crate.bind fun value => (value.path language).toOption

/-- What is said about the path of the crate. -/
def Arguments.crateDiagnostics (language : Language) (a : Arguments) : List Diagnostic :=
  match a.crate.map (CrateText.path language) with
  | some (.error c) => [.invalidCrate c]
  | _ => []

end FlatUnion.Derive
