import FlatUnion.Code.Parser

/-!
# Diagnostics

What is said about a declaration that a flat union can not be derived for, or not as its attributes
ask. A diagnostic is part of the generated code too, where it makes the compiler stop with its
words.
-/

namespace FlatUnion.Derive

open Code

/-- What is said about a declaration. -/
inductive Diagnostic
  /-- Something can not be read. -/
  | complaint (c : Complaint)
  /-- The attribute has no list of arguments. -/
  | noArguments
  | crateSetBefore
  | unrecognized (argument : String)
  /-- The path that was set for the crate can not be read. -/
  | invalidCrate (c : Complaint)
  /-- The declared type is a structure or a union. -/
  | notAnEnum
  /-- A variant has no list of fields. -/
  | noFields
  /-- A variant has a list of none or of several fields. -/
  | fieldCount
  deriving DecidableEq, Repr

/-- The words of a diagnostic. -/
def Diagnostic.message : Diagnostic → String
  | .complaint c => c.message
  | .noArguments => "serde_flat_tag: expected #[flat_tag(...)]"
  | .crateSetBefore => "serde_flat_tag: attribute `crate` already set before"
  | .unrecognized argument => "serde_flat_tag: unrecognized attribute argument: " ++ argument
  | .invalidCrate c => "serde_flat_tag: invalid `crate` path: " ++ c.message
  | .notAnEnum => "serde_flat_tag: can only be applied to enums"
  | .noFields => "serde_flat_tag: each variant must have exactly one associated value"
  | .fieldCount =>
    "serde_flat_tag: each variant must have exactly one associated value (no more, no less)"

end FlatUnion.Derive
