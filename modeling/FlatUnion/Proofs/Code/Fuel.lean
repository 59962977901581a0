import Mathlib.Tactic.GCongr
import FlatUnion.Code.Generics

/-!
# The depth of rules

A rule of the grammar carries the number of rules that may be entered below it, and complains where
code goes deeper. That is all this number is for : what is read with some rules is read in the same
way with more of them (`Parser.Below`). So it does not matter how many there are as long as
something is read.

The main statement is `rulesBelow`.
-/

namespace FlatUnion.Code

open FlatUnion.Code.Parser

namespace Parser

variable {α β : Type}

/-- All that a parser reads another reads too, in the same way. -/
def Below (p q : Parser α) : Prop := ∀ i r, p.run i = .ok r → q.run i = .ok r

theorem run_bind_eq_ok {p : Parser α} {f : α → Parser β} {i : Input} {r : β × Input}
    (h : (p >>= f).run i = .ok r) :
    ∃ x j, p.run i = .ok (x, j) ∧ (f x).run j = .ok r := by
  rw [StateT.run_bind] at h
  cases hp : p.run i with
  | error c => simp [hp, bind, Except.bind] at h
  | ok s => exact ⟨s.1, s.2, rfl, by simpa [hp, bind, Except.bind] using h⟩

theorem run_bind_of_ok {p : Parser α} {f : α → Parser β} {i j : Input} {x : α}
    (h : p.run i = .ok (x, j)) : (p >>= f).run i = (f x).run j := by
  rw [StateT.run_bind, h]
  rfl

namespace Below

variable {p p' q q' : Parser α}

@[refl]
theorem refl (p : Parser α) : Below p p := fun _ _ => id

@[gcongr]
theorem bind {f g : α → Parser β} (hp : Below p q) (hf : ∀ x, Below (f x) (g x)) :
    Below (p >>= f) (q >>= g) := by
  intro i r h
  obtain ⟨x, j, hrun, h⟩ := run_bind_eq_ok h
  rw [run_bind_of_ok (hp i _ hrun)]
  exact hf x j r h

@[gcongr]
theorem ite {c : Prop} [Decidable c] (h : Below p q) (h' : Below p' q') :
    Below (if c then p else p') (if c then q else q') := by
  split
  · exact h
  · exact h'

@[gcongr]
theorem inside (d : Delimiter) (h : Below p q) :
    Below (Parser.inside d p) (Parser.inside d q) := by
  refine .bind (.refl _) fun ts => ?_
  split
  · exact .ite (.bind (.refl _) fun _ => .bind h fun _ => .refl _) (.refl _)
  · exact .refl _

theorem someSeparated (h : Below p q) (n : Nat) :
    Below (Parser.someSeparated p n) (Parser.someSeparated q n) := by
  induction n with
  | zero => exact .refl _
  | succ n ih =>
    refine .bind (.refl _) fun _ => .ite (.refl _) (.bind h fun _ => ?_)
    refine .bind (.refl _) fun _ => .ite (.refl _) (.bind (.refl _) fun _ => ?_)
    exact .bind (.refl _) fun _ => .ite (.refl _) (.bind ih fun _ => .refl _)

@[gcongr]
theorem commaSeparated (h : Below p q) :
    Below (Parser.commaSeparated p) (Parser.commaSeparated q) :=
  .bind (.refl _) fun _ => .someSeparated h _

@[gcongr]
theorem enclosed (d : Delimiter) {p q : Parser (List Piece)} (h : Below p q) :
    Below (Code.enclosed d p) (Code.enclosed d q) :=
  .bind h fun _ => .refl _

theorem tooDeep : Below Code.tooDeep p := fun _ _ h => nomatch h

end Below

end Parser

/-! ## Rules -/

/-- With one number of rules below it, every rule reads all that it reads with another. -/
structure RulesBelow (n m : Nat) : Prop where
  type : ∀ plus, Below (type plus n) (type plus m)
  pathType : ∀ plus binder path, Below (pathType plus binder path n) (pathType plus binder path m)
  parenthesized : ∀ plus, Below (parenthesized plus n) (parenthesized plus m)
  moreBounds : Below (moreBounds n) (moreBounds m)
  bounds : ∀ plus, Below (bounds plus n) (bounds plus m)
  boundsUntil : ∀ stop, Below (boundsUntil stop n) (boundsUntil stop m)
  bound : Below (bound n) (bound m)
  traitBound : Below (traitBound n) (traitBound m)
  binder : Below (binder n) (binder m)
  parameters : Below (parameters n) (parameters m)
  moreParameters : Below (moreParameters n) (moreParameters m)
  parameter : Below (parameter n) (parameter m)
  lifetimeBounds : ∀ stop, Below (lifetimeBounds stop n) (lifetimeBounds stop m)
  returnType : Below (returnType n) (returnType m)
  functionPointer : Below (functionPointer n) (functionPointer m)
  functionArgument : Below (functionArgument n) (functionArgument m)
  path : ∀ inExpression role, Below (path inExpression role n) (path inExpression role m)
  segments : ∀ inExpression, Below (segments inExpression n) (segments inExpression m)
  segment : ∀ inExpression, Below (segment inExpression n) (segment inExpression m)
  arguments : Below (arguments n) (arguments m)
  moreArguments : Below (moreArguments n) (moreArguments m)
  argument : Below (argument n) (argument m)
  qualifiedPath : ∀ inExpression role,
    Below (qualifiedPath inExpression role n) (qualifiedPath inExpression role m)
  constArgument : Below (constArgument n) (constArgument m)
  expression : Below (expression n) (expression m)
  moreOperands : Below (moreOperands n) (moreOperands m)
  operand : Below (operand n) (operand m)
  trailers : Below (trailers n) (trailers m)
  atom : Below (atom n) (atom m)
  elements : Below (elements n) (elements m)
  block : Below (block n) (block m)
  statements : Below (statements n) (statements m)
  attributes : Below (attributes n) (attributes m)
  attributeBody : Below (attributeBody n) (attributeBody m)

attribute [gcongr] RulesBelow.type RulesBelow.pathType RulesBelow.parenthesized
  RulesBelow.moreBounds RulesBelow.bounds RulesBelow.boundsUntil RulesBelow.bound
  RulesBelow.traitBound RulesBelow.binder RulesBelow.parameters RulesBelow.moreParameters
  RulesBelow.parameter RulesBelow.lifetimeBounds RulesBelow.returnType RulesBelow.functionPointer
  RulesBelow.functionArgument RulesBelow.path RulesBelow.segments RulesBelow.segment
  RulesBelow.arguments RulesBelow.moreArguments RulesBelow.argument RulesBelow.qualifiedPath
  RulesBelow.constArgument RulesBelow.expression RulesBelow.moreOperands RulesBelow.operand
  RulesBelow.trailers RulesBelow.atom RulesBelow.elements RulesBelow.block RulesBelow.statements
  RulesBelow.attributes RulesBelow.attributeBody

section Step

variable {n m : Nat} (h : RulesBelow n m)
include h

theorem type_below (plus : Bool) : Below (type plus (n + 1)) (type plus (m + 1)) := by
  unfold type
  -- Names that are given with `let` are replaced, as `gcongr` does not look behind them. It stops
  -- at a `match` too, which is split.
  dsimp only
  gcongr

theorem pathType_below (plus : Bool) (binder path : List Piece) :
    Below (pathType plus binder path (n + 1)) (pathType plus binder path (m + 1)) := by
  unfold pathType
  dsimp only
  gcongr

theorem parenthesized_below (plus : Bool) :
    Below (parenthesized plus (n + 1)) (parenthesized plus (m + 1)) := by
  unfold parenthesized
  dsimp only
  gcongr
  split <;> gcongr

theorem moreBounds_below : Below (moreBounds (n + 1)) (moreBounds (m + 1)) := by
  unfold moreBounds
  dsimp only
  gcongr

theorem bounds_below (plus : Bool) : Below (bounds plus (n + 1)) (bounds plus (m + 1)) := by
  unfold bounds
  dsimp only
  gcongr

theorem boundsUntil_below (stop : List Token → Bool) :
    Below (boundsUntil stop (n + 1)) (boundsUntil stop (m + 1)) := by
  unfold boundsUntil
  dsimp only
  gcongr

theorem bound_below : Below (bound (n + 1)) (bound (m + 1)) := by
  unfold bound
  gcongr

theorem traitBound_below : Below (traitBound (n + 1)) (traitBound (m + 1)) := by
  unfold traitBound
  dsimp only
  gcongr
  all_goals split <;> gcongr

theorem binder_below : Below (binder (n + 1)) (binder (m + 1)) := by
  unfold binder
  dsimp only
  gcongr

theorem parameters_below : Below (parameters (n + 1)) (parameters (m + 1)) := by
  unfold parameters
  gcongr

theorem moreParameters_below : Below (moreParameters (n + 1)) (moreParameters (m + 1)) := by
  unfold moreParameters
  dsimp only
  gcongr

theorem parameter_below : Below (parameter (n + 1)) (parameter (m + 1)) := by
  unfold parameter
  dsimp only
  gcongr

theorem lifetimeBounds_below (stop : List Token → Bool) :
    Below (lifetimeBounds stop (n + 1)) (lifetimeBounds stop (m + 1)) := by
  unfold lifetimeBounds
  dsimp only
  gcongr

theorem returnType_below : Below (returnType (n + 1)) (returnType (m + 1)) := by
  unfold returnType
  gcongr

theorem functionPointer_below : Below (functionPointer (n + 1)) (functionPointer (m + 1)) := by
  unfold functionPointer
  dsimp only
  gcongr
  split <;> gcongr

theorem functionArgument_below : Below (functionArgument (n + 1)) (functionArgument (m + 1)) := by
  unfold functionArgument
  dsimp only
  gcongr

theorem path_below (inExpression : Bool) (role : PathRole) :
    Below (path inExpression role (n + 1)) (path inExpression role (m + 1)) := by
  unfold path
  dsimp only
  gcongr

theorem segments_below (inExpression : Bool) :
    Below (segments inExpression (n + 1)) (segments inExpression (m + 1)) := by
  unfold segments
  gcongr

theorem segment_below (inExpression : Bool) :
    Below (segment inExpression (n + 1)) (segment inExpression (m + 1)) := by
  unfold segment
  dsimp only
  gcongr

theorem arguments_below : Below (arguments (n + 1)) (arguments (m + 1)) := by
  unfold arguments
  dsimp only
  gcongr

theorem moreArguments_below : Below (moreArguments (n + 1)) (moreArguments (m + 1)) := by
  unfold moreArguments
  dsimp only
  gcongr

theorem argument_below : Below (argument (n + 1)) (argument (m + 1)) := by
  unfold argument
  dsimp only
  gcongr
  split <;> gcongr

theorem qualifiedPath_below (inExpression : Bool) (role : PathRole) :
    Below (qualifiedPath inExpression role (n + 1)) (qualifiedPath inExpression role (m + 1)) := by
  unfold qualifiedPath
  dsimp only
  gcongr

theorem constArgument_below : Below (constArgument (n + 1)) (constArgument (m + 1)) := by
  unfold constArgument
  gcongr

theorem expression_below : Below (expression (n + 1)) (expression (m + 1)) := by
  unfold expression
  gcongr

theorem moreOperands_below : Below (moreOperands (n + 1)) (moreOperands (m + 1)) := by
  unfold moreOperands
  gcongr
  split <;> gcongr

theorem operand_below : Below (operand (n + 1)) (operand (m + 1)) := by
  unfold operand
  dsimp only
  gcongr
  split <;> gcongr

theorem trailers_below : Below (trailers (n + 1)) (trailers (m + 1)) := by
  unfold trailers
  dsimp only
  gcongr
  split <;> gcongr

theorem atom_below : Below (atom (n + 1)) (atom (m + 1)) := by
  unfold atom
  dsimp only
  gcongr

theorem elements_below : Below (elements (n + 1)) (elements (m + 1)) := by
  unfold elements
  dsimp only
  gcongr

theorem block_below : Below (block (n + 1)) (block (m + 1)) := by
  unfold block
  gcongr

theorem statements_below : Below (statements (n + 1)) (statements (m + 1)) := by
  unfold statements
  gcongr

theorem attributes_below : Below (attributes (n + 1)) (attributes (m + 1)) := by
  unfold attributes
  gcongr

theorem attributeBody_below : Below (attributeBody (n + 1)) (attributeBody (m + 1)) := by
  unfold attributeBody
  dsimp only
  gcongr
  all_goals split <;> gcongr

end Step

/-- With more rules below it, every rule reads all that it reads with fewer. -/
theorem rulesBelow {n m : Nat} (h : n ≤ m) : RulesBelow n m := by
  induction n generalizing m with
  | zero => constructor <;> intros <;> exact .tooDeep
  | succ n ih =>
    obtain ⟨m, rfl⟩ := Nat.exists_eq_add_of_le' h
    have hbelow := ih (Nat.le_add_left n m)
    exact
      { type := type_below hbelow
        pathType := pathType_below hbelow
        parenthesized := parenthesized_below hbelow
        moreBounds := moreBounds_below hbelow
        bounds := bounds_below hbelow
        boundsUntil := boundsUntil_below hbelow
        bound := bound_below hbelow
        traitBound := traitBound_below hbelow
        binder := binder_below hbelow
        parameters := parameters_below hbelow
        moreParameters := moreParameters_below hbelow
        parameter := parameter_below hbelow
        lifetimeBounds := lifetimeBounds_below hbelow
        returnType := returnType_below hbelow
        functionPointer := functionPointer_below hbelow
        functionArgument := functionArgument_below hbelow
        path := path_below hbelow
        segments := segments_below hbelow
        segment := segment_below hbelow
        arguments := arguments_below hbelow
        moreArguments := moreArguments_below hbelow
        argument := argument_below hbelow
        qualifiedPath := qualifiedPath_below hbelow
        constArgument := constArgument_below hbelow
        expression := expression_below hbelow
        moreOperands := moreOperands_below hbelow
        operand := operand_below hbelow
        trailers := trailers_below hbelow
        atom := atom_below hbelow
        elements := elements_below hbelow
        block := block_below hbelow
        statements := statements_below hbelow
        attributes := attributes_below hbelow
        attributeBody := attributeBody_below hbelow }

end FlatUnion.Code
