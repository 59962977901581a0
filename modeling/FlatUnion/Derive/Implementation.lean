import FlatUnion.Derive.Declaration
import FlatUnion.Derive.Phrase

/-!
# Implementations

The parts that generated implementations share : the paths of what they refer to, results, the head
of an implementation with its where clause, and the two methods that write and read. What generated
code refers to is found from the root of the library it is written against, or in the standard
library.
-/

namespace FlatUnion.Derive

open Code

/-! ## Paths -/

/-- The root that is used if the declaration sets none. -/
def defaultRoot : Piece := .path .plain true [("serde_flat_tag", [])]

/-- A path into what generated code alone uses. -/
def internalPath (root : Piece) (names : List String) : Piece := root.extend ("internal__" :: names)

/-- A path into the traits for reading and writing. -/
def codecPath (root : Piece) (names : List String) : Piece := internalPath root ("serde" :: names)

/-- A path into the traits for schemas. -/
def schemaPath (root : Piece) (names : List String) : Piece :=
  internalPath root ("schemars" :: names)

/-- A trait with a lifetime as its argument. -/
def lasting (trait : Piece) (life : String) : Piece :=
  trait.applied [.punct '<', .lifetime life, .punct '>']

/-! ## Types and values -/

/-- The type of texts. -/
def textType : Printed := phrase ": : core : : primitive : : str"

/-- The type of results. -/
def resultType (value error : Printed) : Printed :=
  phrase ": : core : : result : : Result <" ++ value ++ "," :: error ++ [">"]

/-- What is a member of a type parameter or of a type. -/
def memberOf (type name : String) : Printed := [type, ":", ":", name]

/-- A result that is a value. -/
def success (p : Printed) : Printed :=
  phrase ": : core : : result : : Result : : Ok" ++ parenthesized p

/-- A result that is an error. -/
def failure (p : Printed) : Printed :=
  phrase ": : core : : result : : Result : : Err" ++ parenthesized p

/-! ## Implementations -/

/-- The words that keep tools from judging generated code. -/
def generatedMark : Printed := "#" :: bracketed ["automatically_derived"]

/-- An implementation of a trait for a type, both with their parameters. -/
def implementation (head : Printed) (trait : Piece) (type clause body : Printed) : Printed :=
  "impl" :: head ++ trait.printed ++ "for" :: type ++ clause ++ braced body

/-- The where clause of an implementation : that of the declaration, and behind it a predicate for
each payload that uses a parameter. -/
def boundClause (d : Declaration) (trait : Piece) : Except Complaint (Option WhereClause) :=
  WhereClause.extend d.clause
    (d.genericPayloads.map fun payload => payload ++ [.punct ':', trait])

/-- The type parameter of the method that writes. -/
def writerParameter : String := "S"

/-- The method that writes. -/
def writeMethod (root : Piece) (body : Printed) : Printed :=
  phrase "fn serialize <" ++ [writerParameter, ":"] ++ (codecPath root ["Serializer"]).printed ++
    phrase "> ( & self , serializer :" ++ [writerParameter] ++ phrase ") - >" ++
    resultType (memberOf writerParameter "Ok") (memberOf writerParameter "Error") ++ braced body

/-- The type parameter of the method that reads. -/
def readerParameter : String := "D"

/-- The method that reads. -/
def readMethod (root : Piece) (life : String) (body : Printed) : Printed :=
  phrase "fn deserialize <" ++ [readerParameter, ":"] ++
    (lasting (codecPath root ["Deserializer"]) life).printed ++
    phrase "> ( deserializer :" ++ [readerParameter] ++ phrase ") - >" ++
    resultType ["Self"] (memberOf readerParameter "Error") ++ braced body

end FlatUnion.Derive
