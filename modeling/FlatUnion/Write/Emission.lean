import FlatUnion.Data.Fault

/-!
# Emissions

A writer that fails leaves what it has written so far. An emission is the output up to the first
fault, and the fault if there is one. Emissions are joined one after another, and nothing is
written behind a fault.
-/

namespace FlatUnion

/-- Output up to the first fault. -/
structure Emission (α : Type) where
  out : α
  fault : Option Fault := none

namespace Emission

variable {α : Type}

/-- Output without a fault. -/
def pure (out : α) : Emission α := ⟨out, none⟩

/-- A fault before there is any output. -/
def fail [EmptyCollection α] (fault : Fault) : Emission α := ⟨∅, some fault⟩

/-- One emission and then, unless it failed, another. -/
protected def append [Append α] (a b : Emission α) : Emission α :=
  match a.fault with
  | some _ => a
  | none => ⟨a.out ++ b.out, b.fault⟩

instance [Append α] : Append (Emission α) := ⟨Emission.append⟩

instance [EmptyCollection α] : EmptyCollection (Emission α) := ⟨⟨∅, none⟩⟩

theorem append_def [Append α] (a b : Emission α) :
    a ++ b = match a.fault with
      | some _ => a
      | none => ⟨a.out ++ b.out, b.fault⟩ := rfl

/-- The output, if nothing failed. -/
def toExcept (e : Emission α) : Except Fault α :=
  match e.fault with
  | some f => .error f
  | none => .ok e.out

end Emission

end FlatUnion
