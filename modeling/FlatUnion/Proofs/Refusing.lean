import FlatUnion.Proofs.Rejecting

/-!
# What refused payloads are called

Flattening opens the options and newtypes around a payload, so it is the value inside of them all
that is refused (`Datum.innermost`). A value without fields is refused as one of its kind
(`Datum.kind?`), whatever it holds.

Integers of a hundred and twenty-eight bits are not. They are refused by the name of their width,
and nothing is said about flattening. The main statement is `refused_by_kind_iff` : which values
are refused by their kind, and what the others are refused with.
-/

namespace FlatUnion

namespace Datum

/-- The value inside of all options and newtypes. -/
def innermost : Datum → Datum
  | .some inner | .newtypeStruct _ inner => inner.innermost
  | d => d

/-- What a value without fields is. Structs and maps have fields, options and newtypes what their
value has, and of a value that fails nothing is known. -/
def kind? : Datum → Option String
  | .bool _ => Option.some "a boolean"
  | .int .. => Option.some "an integer"
  | .f32 _ | .f64 _ => Option.some "a float"
  | .char _ => Option.some "a char"
  | .text _ | .display _ => Option.some "a string"
  | .bytes _ => Option.some "a byte array"
  | .none => Option.some "`None`"
  | .unit => Option.some "a unit value"
  | .unitStruct _ => Option.some "a unit struct"
  | .unitVariant _ => Option.some "a unit variant"
  | .newtypeVariant .. => Option.some "a newtype variant"
  | .seq _ => Option.some "a sequence"
  | .tuple _ => Option.some "a tuple"
  | .tupleStruct .. => Option.some "a tuple struct"
  | .tupleVariant .. => Option.some "a tuple variant"
  | .structVariant .. => Option.some "a struct variant"
  | .some _ | .newtypeStruct .. | .struct .. | .map _ | .readability | .fail _ => Option.none

/-- The width of an integer of a hundred and twenty-eight bits. -/
def wide? : Datum → Option Width
  | .int w _ => if w.isWide then Option.some w else Option.none
  | _ => Option.none

/-- A payload that is refused. Flattening it into an open map fails and leaves the map as it was,
and a union that has it for its payload can be written neither as a record nor as JSON. -/
structure RefusedWith (d : Datum) (fault : Fault) : Prop where
  record (s : OpenRecord) : Step.run s (.flatten d) = (s, Option.some fault)
  object (s : OpenObject) : Step.run s (.flatten d) = (s, Option.some fault)
  recordOfUnion (tag : String) : (union tag d).record = .error fault
  jsonOfUnion (tag : String) : (union tag d).json.fault = Option.some fault

variable {d : Datum} {kind : String} {fault : Fault}

theorem refusedWith_of_flatten (h : d.flatten = [.fail fault]) : d.RefusedWith fault where
  record s := by rw [Step.run, Step.items, h, Sink.calls, Steady.call_fail]
  object s := by rw [Step.run, Step.items, h, Sink.calls, Steady.call_fail]
  recordOfUnion tag := by
    rw [union, h]
    rfl
  jsonOfUnion tag := by
    rw [union, h]
    rfl

/-- A payload is refused with one fault only. -/
theorem RefusedWith.unique {other : Fault} (h : d.RefusedWith fault) (h' : d.RefusedWith other) :
    fault = other :=
  Except.error.inj ((h.recordOfUnion "").symm.trans (h'.recordOfUnion ""))

/-- Options and newtypes are not noticed. -/
theorem flatten_innermost : ∀ d : Datum, d.innermost.flatten = d.flatten
  | .some inner | .newtypeStruct _ inner => inner.flatten_innermost
  | .bool _ | .int _ _ | .f32 _ | .f64 _ | .char _ | .text _ | .bytes _ | .display _
  | .readability | .none | .unit | .unitStruct _ | .unitVariant _ | .newtypeVariant _ _ | .seq _
  | .tuple _ | .tupleStruct _ _ | .tupleVariant _ _ | .map _ | .struct _ _ | .structVariant _ _
  | .fail _ => rfl

/-- What is no struct and no map is of a kind, unless it fails by itself. -/
theorem exists_kind : ∀ d : Datum, d.hasEntries = false → (∀ f, d.innermost ≠ .fail f) →
    ∃ kind, d.innermost.kind? = Option.some kind
  | .some inner, h, hfail | .newtypeStruct _ inner, h, hfail => inner.exists_kind h hfail
  | .fail f, _, hfail => absurd rfl (hfail f)
  | .bool _, _, _ | .int _ _, _, _ | .f32 _, _, _ | .f64 _, _, _ | .char _, _, _ | .text _, _, _
  | .bytes _, _, _ | .display _, _, _ | .none, _, _ | .unit, _, _ | .unitStruct _, _, _
  | .unitVariant _, _, _ | .newtypeVariant _ _, _, _ | .seq _, _, _ | .tuple _, _, _
  | .tupleStruct _ _, _, _ | .tupleVariant _ _, _, _ | .structVariant _ _, _, _ => ⟨_, rfl⟩

/-- A value of a kind makes no call but to fail. -/
theorem flatten_of_kind (h : d.kind? = Option.some kind) (hwide : d.wide? = Option.none) :
    d.flatten = [.fail (.cannotFlatten kind)] := by
  cases d with
  | int w n =>
    obtain rfl : "an integer" = kind := Option.some.inj h
    have hnarrow : w.isWide = false := by simpa [wide?] using hwide
    simp [flatten, refusal, hnarrow]
  | _ => cases h <;> rfl

theorem flatten_of_wide {w : Width} (h : d.wide? = Option.some w) :
    d.flatten = [.fail (.unsupportedWidth w)] := by
  cases d with
  | int v n =>
    obtain ⟨hv, rfl⟩ : v.isWide = true ∧ v = w := by simpa [wide?] using h
    simp [flatten, refusal, hv]
  | _ => cases h

/-- Only integers are wide. -/
theorem kind_of_wide {w : Width} (hkind : d.kind? = Option.some kind)
    (hwide : d.wide? = Option.some w) : kind = "an integer" ∧ (w = .u128 ∨ w = .i128) := by
  cases d with
  | int v n =>
    obtain rfl := Option.some.inj hkind
    cases v <;> cases hwide <;> simp
  | _ => cases hwide

theorem cannotFlatten_ne_unsupportedWidth {w : Width} (hkind : d.kind? = Option.some kind)
    (hwide : d.wide? = Option.some w) : Fault.cannotFlatten kind ≠ .unsupportedWidth w := by
  obtain ⟨rfl, rfl | rfl⟩ := kind_of_wide hkind hwide <;> decide

end Datum

/-- Let a payload be no struct and no map, under any options and newtypes, and let its writing not
fail by itself. Then the value inside of these is of a kind, and the payload is refused as one of
this kind if and only if the value is no integer of a hundred and twenty-eight bits. Such an integer
is refused by the name of its width. -/
theorem refused_by_kind_iff {d : Datum} (h : d.hasEntries = false)
    (hfail : ∀ fault, d.innermost ≠ .fail fault) :
    ∃ kind, d.innermost.kind? = some kind ∧
      (d.RefusedWith (.cannotFlatten kind) ↔ d.innermost.wide? = none) ∧
      ∀ w, d.innermost.wide? = some w → d.RefusedWith (.unsupportedWidth w) := by
  obtain ⟨kind, hkind⟩ := d.exists_kind h hfail
  have hflatten := d.flatten_innermost
  have hwide : ∀ w, d.innermost.wide? = some w → d.RefusedWith (.unsupportedWidth w) :=
    fun w hw => Datum.refusedWith_of_flatten (hflatten ▸ Datum.flatten_of_wide hw)
  refine ⟨kind, hkind, ⟨fun hrefused => ?_, fun hnone => ?_⟩, hwide⟩
  · cases hw : d.innermost.wide? with
    | none => rfl
    | some w =>
      exact absurd (hrefused.unique (hwide w hw)) (Datum.cannotFlatten_ne_unsupportedWidth hkind hw)
  · exact Datum.refusedWith_of_flatten (hflatten ▸ Datum.flatten_of_kind hkind hnone)

theorem refused_by_kind_iff_wrapped :
    (Datum.some (.newtypeStruct "N" (.some (.display "x")))).RefusedWith
        (.cannotFlatten "a string") ∧
      (Datum.some (.int .i128 (-1))).RefusedWith (.unsupportedWidth .i128) := by
  obtain ⟨kind, hkind, hrefused, -⟩ :=
    @refused_by_kind_iff (.some (.newtypeStruct "N" (.some (.display "x")))) rfl nofun
  obtain ⟨-, -, -, hwide⟩ := @refused_by_kind_iff (.some (.int .i128 (-1))) rfl nofun
  obtain rfl : "a string" = kind := Option.some.inj hkind
  exact ⟨hrefused.2 rfl, hwide .i128 rfl⟩

/-- Integers of a hundred and twenty-eight bits are integers, and are not refused as such. -/
theorem wide_integer_not_named :
    (Datum.int .u128 5).hasEntries = false ∧
      (Datum.int .u128 5).innermost.kind? = some "an integer" ∧
      ¬ (Datum.int .u128 5).RefusedWith (.cannotFlatten "an integer") := by
  refine ⟨rfl, rfl, fun h => ?_⟩
  have hwide : (Datum.int .u128 5).RefusedWith (.unsupportedWidth .u128) :=
    Datum.refusedWith_of_flatten rfl
  exact absurd (h.unique hwide) (by decide)

end FlatUnion
