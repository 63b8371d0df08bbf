import ParseTree.Proofs.Builder.Outcome
import ParseTree.Proofs.Session.Steps

/-!
# Runs of a session

A run is any number of steps, of any builders and of the forest itself, in any
order, whether they succeed or not. Every run keeps the session `Sound`: the
forest is well formed, and what builders have collected belongs to it.
-/

namespace ParseTree

variable {C : Type}

/-- The nodes that the step is handed belong to the forest. -/
def SessionStep.Within (f : Forest C) : SessionStep C → Prop
  | .builder _ step => step.Within f
  | .forest step => step.Within f

/-- The step makes no loose rule and gives no parent by hand. -/
def SessionStep.Orderly : SessionStep C → Prop
  | .builder _ _ => True
  | .forest step => step.Orderly

namespace Session

variable [RuleContext C]

/-- The session after a step. -/
def after (s : Session C) (step : SessionStep C) : Session C := ((Session.step step).run s).2

theorem after_forest (s : Session C) (step : ForestStep C) :
    s.after (.forest step) = { s with forest := step.after s.forest } := by
  rw [after, ForestStep.after, stateAfter, Session.step, StateT.run, EStateM.run]
  dsimp only
  cases step.run s.forest with
  | ok node f => rfl
  | error e f => rfl

/-- A builder's step is work on the forest and on that builder. -/
theorem after_builder (s : Session C) (number : Nat) (step : BuilderStep C) :
    s.after (.builder number step) =
      let a := stateAfter step.run { forest := s.forest, builder := s.builder number }
      { forest := a.forest
        builders := if step.endsBuilder then s.builders.erase number
          else s.builders.insert number a.builder } := by
  rw [after, stateAfter, Session.step, StateT.run, builder, EStateM.run]
  dsimp only
  cases step.run { forest := s.forest, builder := s.builders.getD number {} } with
  | ok node a => rfl
  | error e a => rfl

/-- A builder's step is answered with its outcome and with what the builder reports. -/
theorem run_step_builder (s : Session C) (number : Nat) (step : BuilderStep C) :
    (Session.step (.builder number step)).run s =
      let a : Assembly C := { forest := s.forest, builder := s.builder number }
      (⟨step.outcome a, (stateAfter step.run a).report⟩, s.after (.builder number step)) := by
  refine Prod.ext ?_ rfl
  rw [Session.step, StateT.run]
  dsimp only [BuilderStep.outcome, answerOf, stateAfter, Session.builder, EStateM.run]
  cases step.run { forest := s.forest, builder := s.builders.getD number {} } with
  | ok node a => rfl
  | error e a => rfl

theorem builder_after_builder (s : Session C) (number other : Nat) (step : BuilderStep C) :
    (s.after (.builder number step)).builder other =
      if number = other then
        if step.endsBuilder then {}
        else (stateAfter step.run { forest := s.forest, builder := s.builder number }).builder
      else s.builder other := by
  rw [after_builder]
  unfold builder
  cases step.endsBuilder with
  | true => simp [Std.HashMap.getD_erase]
  | false => simp [Std.HashMap.getD_insert]

theorem forest_after_builder (s : Session C) (number : Nat) (step : BuilderStep C) :
    (s.after (.builder number step)).forest =
      (stateAfter step.run { forest := s.forest, builder := s.builder number }).forest := by
  rw [after_builder]

theorem builder_after_forest (s : Session C) (step : ForestStep C) (number : Nat) :
    (s.after (.forest step)).builder number = s.builder number := by
  rw [after_forest]
  rfl

theorem forest_after_forest (s : Session C) (step : ForestStep C) :
    (s.after (.forest step)).forest = step.after s.forest := by
  rw [after_forest]

/-- The forest is well formed, and builders have collected nothing from elsewhere. -/
structure Sound (s : Session C) : Prop where
  forest : s.forest.WellFormed
  builder : ∀ number, (s.builder number).Within s.forest

omit [RuleContext C] in
theorem builder_empty (number : Nat) : ({} : Session C).builder number = {} := by
  simp [builder]

omit [RuleContext C] in
theorem sound_empty : ({} : Session C).Sound where
  forest := Forest.wellFormed_empty
  builder number n hn := by
    rw [builder_empty] at hn
    simp [Builder.pending] at hn

theorem Sound.advance {s : Session C} (h : s.Sound) (number : Nat) {step : BuilderStep C}
    (hs : step.Within s.forest) :
    Assembly.Advance { forest := s.forest, builder := s.builder number }
      (stateAfter step.run { forest := s.forest, builder := s.builder number }) :=
  step.advance _ hs (h.builder number)

/-- A step changes the forest as an orderly step of the forest does, or as itself. -/
theorem forest_after {s : Session C} (h : s.Sound) {step : SessionStep C}
    (hs : step.Within s.forest) :
    (s.after step).forest = s.forest ∨
      ∃ change : ForestStep C, change.Within s.forest ∧ (step.Orderly → change.Orderly) ∧
        (s.after step).forest = change.after s.forest := by
  cases step with
  | builder number step =>
      rw [after_builder]
      rcases (h.advance number hs).forest with heq | ⟨change, hw, ho, heq⟩
      · exact .inl heq
      · exact .inr ⟨change, hw, fun _ => ho, heq⟩
  | forest step =>
      rw [after_forest]
      exact .inr ⟨step, hs, id, rfl⟩

theorem mem_forest_after {s : Session C} (h : s.Sound) {step : SessionStep C}
    (hs : step.Within s.forest) {n : Node C} (hn : n ∈ s.forest) : n ∈ (s.after step).forest := by
  rcases forest_after h hs with heq | ⟨change, -, -, heq⟩
  · rwa [heq]
  · rw [heq]
    exact ForestStep.mem_after hn

theorem Sound.after {s : Session C} (h : s.Sound) {step : SessionStep C}
    (hs : step.Within s.forest) : (s.after step).Sound := by
  constructor
  · rcases forest_after h hs with heq | ⟨change, hw, -, heq⟩
    · rw [heq]
      exact h.forest
    · rw [heq]
      exact h.forest.after hw
  · -- a builder that did not move keeps its nodes, since none is ever removed
    intro other n hn
    have hkeep : n ∈ (s.builder other).pending → n.node ∈ (s.after step).forest :=
      fun hold => mem_forest_after h hs (h.builder other n hold)
    cases step with
    | forest step =>
        rw [after_forest] at hn
        exact hkeep hn
    | builder number step =>
        rw [builder_after_builder] at hn
        split at hn
        · split at hn
          · simp [Builder.pending] at hn
          · rw [after_builder]
            exact (h.advance number hs).within n hn
        · exact hkeep hn

/-- The sessions that follow from a session by steps of a given kind, where every
step is handed only nodes of the forest it meets. -/
inductive Run (allowed : SessionStep C → Prop) (start : Session C) : Session C → Prop
  | refl : Run allowed start start
  | step {s : Session C} (step : SessionStep C) (run : Run allowed start s) (ha : allowed step)
      (hw : step.Within s.forest) : Run allowed start (s.after step)

/-- The sessions that begin with nothing. -/
def Reachable (allowed : SessionStep C → Prop) (s : Session C) : Prop := Run allowed {} s

theorem Run.sound {allowed : SessionStep C → Prop} {start s : Session C}
    (run : Run allowed start s) (h : start.Sound) : s.Sound := by
  induction run with
  | refl => exact h
  | step step run ha hw ih => exact ih.after hw

theorem Reachable.sound {allowed : SessionStep C → Prop} {s : Session C}
    (h : Reachable allowed s) : s.Sound :=
  Run.sound h sound_empty

/-- What is true of a fresh builder and is kept by every step of a builder on its own is
true of all builders, since nobody else ever touches a builder. -/
theorem Reachable.of_builder_steps {P : Builder C → Prop} (fresh : P {})
    (kept : ∀ (step : BuilderStep C) (a : Assembly C), step.Within a.forest →
      a.builder.Within a.forest → P a.builder → P (stateAfter step.run a).builder)
    {allowed : SessionStep C → Prop} {s : Session C} (h : Reachable allowed s) (number : Nat) :
    P (s.builder number) := by
  induction h generalizing number with
  | refl =>
      rw [builder_empty]
      exact fresh
  | @step s step run _ hw ih =>
      have hsound : s.Sound := Run.sound run sound_empty
      cases step with
      | forest step =>
          rw [builder_after_forest]
          exact ih number
      | builder moved step =>
          rw [builder_after_builder]
          split
          · split
            · exact fresh
            · exact kept step _ hw (hsound.builder moved) (ih moved)
          · exact ih number

end Session

end ParseTree
