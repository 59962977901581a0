import FlatUnion.Derive.Argument
import FlatUnion.Derive.Schema

/-!
# Derived code

From an item two things can be derived : how it is written and read as a flat union, and what its
schema is. Either way the derived code consists of the generated items, if the item declares a flat
union that has variants, and behind them of all diagnostics. Those of the attribute come first, then
that of the path set in it, and last that of the declaration. If a where clause can not be read
again that was put together for an implementation, there is no derived code at all.
-/

namespace FlatUnion.Derive

open Code

/-- What is derived. -/
inductive Target
  | codec
  | schema
  deriving DecidableEq, Repr

/-- Derived code. -/
structure Expansion where
  items : Printed
  diagnostics : List Diagnostic

/-- The mark of a type that is a flat union. -/
def conformance (root : Piece) (d : Declaration) : Printed :=
  generatedMark ++
    implementation d.generics.printedHead (root.extend ["FlatTag"]) d.type
      (WhereClause.printed? d.clause) []

/-- The items for writing and reading, put together from how it is written and read. -/
def codecItemsOf (root : Piece) (d : Declaration) (written read : Printed) : Printed :=
  let marks := "#" :: bracketed (phrase "doc ( hidden )") ++
    "#" :: bracketed
      ("allow" ::
        parenthesized
          (phrase "non_camel_case_types , non_upper_case_globals , unused_qualifications ," ++
            phrase "clippy : : all"))
  let field := ["const", tagFieldName, ":", "&"] ++ textType ++ ["=", quoted tagField, ";"]
  marks ++ phrase "const _ : ( ) =" ++
    braced (field ++ tagItems root d ++ written ++ read) ++
    ";" :: conformance root d

/-- The items for writing and reading. -/
def codecItems (root : Piece) (d : Declaration) : Except Complaint Printed := do
  return codecItemsOf root d (← writing root d) (← reading root d)

/-- The items for a target. -/
def Target.items (target : Target) (root : Piece) (d : Declaration) : Except Complaint Printed :=
  if d.variants.isEmpty then return []
  else
    match target with
    | .codec => codecItems root d
    | .schema => describing root d

namespace Expansion

/-- What is derived from an item. -/
def ofItem (language : Language) (target : Target) (item : Code.Item) :
    Except Complaint Expansion := do
  let arguments := Arguments.read item.attributes
  let root := (arguments.crate? language).getD defaultRoot
  let asked := arguments.diagnostics ++ arguments.crateDiagnostics language
  match Declaration.ofItem item with
  | .ok d => return { items := ← target.items root d, diagnostics := asked }
  | .error fault => return { items := [], diagnostics := asked ++ [fault] }

/-- What is derived from the tokens of an item. -/
def ofTokens (language : Language) (target : Target) (tokens : List Token) :
    Except Complaint Expansion :=
  match language.item tokens with
  | .ok item => ofItem language target item
  | .error c => return { items := [], diagnostics := [.complaint c] }

/-- A diagnostic as code. -/
def printedDiagnostic (d : Diagnostic) : Printed :=
  phrase ": : core : : compile_error !" ++ braced [quoted d.message]

/-- The texts of derived code. -/
def printed (e : Expansion) : Printed := e.items ++ e.diagnostics.flatMap printedDiagnostic

end Expansion

end FlatUnion.Derive
