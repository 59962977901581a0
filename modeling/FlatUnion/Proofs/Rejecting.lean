import FlatUnion.Write.Sink

/-!
# Payloads that are rejected

A payload that is no struct and no map, under whatever options and newtypes, is refused before it
has made any call that writes (`Datum.flatten_of_not_hasEntries`). Neither kind of open map takes
notice of a refusal (`Steady`).

The main statement is `rejected_leave_no_trace` : in a run of steps those that flatten such a
payload fail where they stand, and all the others do what they do in the run without them, to the
end of the map.
-/

namespace FlatUnion

/-! ## Payloads without entries -/

/-- Whether a datum is a struct or a map, under any options and newtypes. -/
def Datum.hasEntries : Datum → Bool
  | .some inner | .newtypeStruct _ inner => inner.hasEntries
  | .struct .. | .map _ | .readability => true
  | _ => false

/-- All that a payload without entries does is to fail. -/
theorem Datum.flatten_of_not_hasEntries : ∀ {d : Datum}, d.hasEntries = false →
    ∃ fault, d.flatten = [.fail fault]
  | .some inner, h | .newtypeStruct _ inner, h => inner.flatten_of_not_hasEntries h
  | .bool _, _ | .int _ _, _ | .f32 _, _ | .f64 _, _ | .char _, _ | .text _, _ | .bytes _, _
  | .display _, _ | .none, _ | .unit, _ | .unitStruct _, _ | .unitVariant _, _
  | .newtypeVariant _ _, _ | .seq _, _ | .tuple _, _ | .tupleStruct _ _, _ | .tupleVariant _ _, _
  | .structVariant _ _, _ | .fail _, _ => ⟨_, rfl⟩

/-- Whether a step flattens a payload without entries. -/
def Step.rejected : Step → Bool
  | .entry .. => false
  | .flatten payload => !payload.hasEntries

/-! ## Open maps -/

/-- Open maps that a failure between two calls leaves as they are. -/
class Steady (S : Type) [Sink S] : Prop where
  call_fail (s : S) (fault : Fault) : Sink.call s (.fail fault) = (s, some fault)

instance : Steady OpenObject where
  call_fail s fault := by
    obtain ⟨text, keyed⟩ := s
    simp [Sink.call, jsonItem, Item.hasKey]

instance : Steady OpenRecord where
  call_fail s fault := by
    have hout : (recordItem (.fail fault)).out = [] := by rw [recordItem]; rfl
    have hfault : (recordItem (.fail fault)).fault = some fault := by rw [recordItem]; rfl
    simp only [Sink.call, hout, hfault, List.append_nil]

/-! ## Runs -/

namespace Step

variable {S : Type} [Sink S]

/-- The map when all steps have been taken. -/
def final (s : S) (steps : List Step) : S := ((runAll s steps).getLast?.map (·.1)).getD s

@[simp] theorem final_nil (s : S) : final s [] = s :=
  rfl

@[simp] theorem final_cons (s : S) (step : Step) (rest : List Step) :
    final s (step :: rest) = final (step.run s).1 rest := by
  simp only [final, runAll, List.getLast?_cons]
  cases (runAll (step.run s).1 rest).getLast? <;> rfl

/-- What is left of a run when the rejected steps are taken out of it, and what they did. -/
structure RejectedUnseen (s : S) (steps : List Step) : Prop where
  /-- A rejected step fails, and leaves the map as it was. -/
  fails : ∀ i step, steps[i]? = some step → step.rejected →
    ∃ fault, (runAll s steps)[i]? = some (final s (steps.take i), some fault)
  /-- The other steps do what they do without them. -/
  others : ((steps.zip (runAll s steps)).filter fun e => !e.1.rejected).map (·.2) =
    runAll s (steps.filter fun step => !step.rejected)
  /-- So the map is the same in the end. -/
  final : final s steps = final s (steps.filter fun step => !step.rejected)

variable [Steady S]

/-- A rejected step fails and changes nothing. -/
theorem run_of_rejected {step : Step} (h : step.rejected) (s : S) :
    ∃ fault, step.run s = (s, some fault) := by
  cases step with
  | entry key value => exact absurd h Bool.false_ne_true
  | flatten payload =>
    obtain ⟨fault, hfault⟩ := payload.flatten_of_not_hasEntries (Bool.not_eq_true' _ ▸ h)
    refine ⟨fault, ?_⟩
    rw [run, items, hfault, Sink.calls, Steady.call_fail]

theorem rejectedUnseen (s : S) (steps : List Step) : RejectedUnseen s steps := by
  induction steps generalizing s with
  | nil => exact ⟨by simp, rfl, rfl⟩
  | cons step rest ih =>
    obtain ⟨hfails, hothers, hfinal⟩ := ih (step.run s).1
    refine ⟨fun i => ?_, ?_, ?_⟩
    · cases i with
      | zero =>
        rintro _ ⟨⟩ h
        obtain ⟨fault, hrun⟩ := run_of_rejected h s
        exact ⟨fault, congrArg some hrun⟩
      | succ i =>
        simpa only [List.getElem?_cons_succ, runAll, List.take_succ_cons, final_cons] using hfails i
    · cases h : step.rejected with
      | true =>
        obtain ⟨fault, hrun⟩ := run_of_rejected h s
        rw [hrun] at hothers
        simpa [runAll, h, hrun] using hothers
      | false => simpa [runAll, h] using hothers
    · cases h : step.rejected with
      | true =>
        obtain ⟨fault, hrun⟩ := run_of_rejected h s
        rw [hrun] at hfinal
        simpa [h, hrun] using hfinal
      | false => simpa [h] using hfinal

end Step

/-- A step that flattens something else than a struct or a map, under any options and newtypes,
fails and leaves the open map as it was. What the other steps give, and what the map is in the end,
is therefore the same without all such steps, for maps of both kinds. -/
theorem rejected_leave_no_trace (steps : List Step) :
    (∀ s : OpenObject, Step.RejectedUnseen s steps) ∧
      ∀ s : OpenRecord, Step.RejectedUnseen s steps :=
  ⟨fun s => Step.rejectedUnseen s steps, fun s => Step.rejectedUnseen s steps⟩

end FlatUnion
