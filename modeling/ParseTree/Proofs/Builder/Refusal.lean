import ParseTree.Proofs.Builder.Operations

/-!
# Refusals

Closing a rule takes the rule off the stack before its node is made, and making
the node gives the children their parent one by one. Both could stop half-way. They
never do, because the check that comes first covers everything that could go wrong
later. So an operation that is refused leaves no trace, in any forest and for any
builder, also where parents were given behind the builder's back.
-/

namespace ParseTree

/-- Work that is refused leaves the state as it was. -/
def Atomic {ε σ α : Type} (work : EStateM ε σ α) : Prop :=
  ∀ (s s' : σ) (e : ε), work.run s = .error e s' → s' = s

namespace Atomic

variable {ε σ α β : Type} {work : EStateM ε σ α}

/-- What is done with the result does not matter if it cannot be refused. -/
theorem bind_pure (h : Atomic work) (g : α → β) : Atomic (work >>= fun a => pure (g a)) := by
  intro s s' e hrun
  rw [EStateM.run_bind] at hrun
  cases hwork : work.run s with
  | ok a t =>
      rw [hwork] at hrun
      cases hrun
  | error e' t =>
      rw [hwork] at hrun
      cases hrun
      exact h _ _ _ hwork

theorem map (h : Atomic work) (g : α → β) : Atomic (g <$> work) := h.bind_pure g

end Atomic

variable {C : Type}

namespace Forest

theorem atomic_insert (make : NodeId → Spanned C) : Atomic (insert make) := by
  intro f f' e hrun
  rw [run_insert] at hrun
  cases hrun

theorem atomic_setParent (child parent : NodeId) :
    Atomic (setParent child parent : ForestM C Unit) := by
  intro f f' e hrun
  rw [run_setParent] at hrun
  split at hrun
  · cases hrun
    rfl
  · cases hrun

theorem atomic_rule (context : C) (children : List (Spanned C)) :
    Atomic (rule context children) := by
  intro f f' e hrun
  rw [run_rule] at hrun
  split at hrun
  · cases hrun
  · cases hrun
    rfl

/-- A check that passes changes nothing and means what it says. -/
theorem of_run_checkDetached {children : List (Spanned C)} {f f' : Forest C}
    (h : (checkDetached children).run f = .ok () f') : f' = f ∧ f.detached children = true := by
  rw [run_checkDetached] at h
  split at h
  · next hdet =>
      cases h
      exact ⟨rfl, hdet⟩
  · cases h

end Forest

theorem ForestStep.atomic_run (step : ForestStep C) : Atomic step.run := by
  cases step with
  | terminal symbol => exact (Forest.atomic_insert _).map some
  | error symbol => exact (Forest.atomic_insert _).map some
  | rule context children => exact (Forest.atomic_rule context children).map some
  | looseRule context children => exact (Forest.atomic_insert _).map some
  | setParent child parent => exact (Forest.atomic_setParent child parent).bind_pure fun _ => none

namespace Assembly

theorem atomic_startRule [RuleContext C] (context : C) : Atomic (startRule context) := by
  intro a a' e hrun
  rw [run_startRule] at hrun
  split at hrun
  · cases hrun
    rfl
  · cases hrun

theorem atomic_addLeaf (make : NodeId → Spanned C) (addition : Addition) :
    Atomic (addLeaf (Forest.insert make) addition) := by
  intro a a' e hrun
  rw [run_addLeaf] at hrun
  split at hrun
  · cases hrun
    rfl
  · cases hrun

theorem atomic_attach (subtree : Spanned C) : Atomic (attach subtree) := by
  intro a a' e hrun
  rw [run_attach] at hrun
  split at hrun
  · cases hrun
    rfl
  · split at hrun
    · cases hrun
      rfl
    · cases hrun

theorem atomic_removeLastChild : Atomic (removeLastChild (C := C)) := by
  intro a a' e hrun
  rw [run_removeLastChild] at hrun
  split at hrun
  · cases hrun
  · cases hrun

theorem atomic_finishRule [RuleContext C] : Atomic (finishRule (C := C)) := by
  intro a a' e hrun
  rw [run_finishRule] at hrun
  split at hrun
  · cases hrun
    rfl
  · split at hrun
    · cases hrun
    · cases hrun
      rfl

theorem atomic_finish : Atomic (finish (C := C)) := by
  intro a a' e hrun
  rw [run_finish] at hrun
  split at hrun
  · split at hrun
    · cases hrun
      rfl
    · cases hrun
  · cases hrun
    rfl

end Assembly

theorem BuilderStep.atomic_run [RuleContext C] (step : BuilderStep C) : Atomic step.run := by
  cases step with
  | startRule context => exact (Assembly.atomic_startRule context).bind_pure fun _ => none
  | token symbol => exact (Assembly.atomic_addLeaf _ _).map some
  | missingToken => exact (Assembly.atomic_addLeaf _ _).map some
  | errorToken symbol => exact (Assembly.atomic_addLeaf _ _).map some
  | attach subtree => exact (Assembly.atomic_attach subtree).bind_pure fun _ => none
  | removeLastChild => exact Assembly.atomic_removeLastChild
  | finishRule => exact Assembly.atomic_finishRule.map some
  | finish => exact Assembly.atomic_finish.map some

/-- In every state, a step that is refused leaves the builder, the forest and the
report as they were. Once children have passed the check, making their rule cannot
be refused any more, and neither can giving each of them its parent. -/
theorem refusal_leaves_no_trace [RuleContext C] :
    (∀ (step : BuilderStep C) (a a' : Assembly C) (e : BuildError),
      step.run.run a = .error e a' → a' = a) ∧
    (∀ (step : ForestStep C) (f f' : Forest C) (e : BuildError),
      step.run.run f = .error e f' → f' = f) ∧
    (∀ (context : C) (children : List (Spanned C)) (f f' : Forest C),
      (Forest.checkDetached children).run f = .ok () f' →
        ∃ node f'', (Forest.rule context children).run f' = .ok node f'') ∧
    ∀ (context : C) (children : List (Spanned C)) (f f' f'' : Forest C) (node : Spanned C),
      (Forest.checkDetached children).run f = .ok () f' →
      (Forest.looseRule context children).run f' = .ok node f'' →
        ∃ g, (children.forM fun child => Forest.setParent child.id node.id).run f'' =
          .ok () g := by
  refine ⟨fun step => step.atomic_run, fun step => step.atomic_run, ?_, ?_⟩
  · intro context children f f' hcheck
    obtain ⟨rfl, hdet⟩ := Forest.of_run_checkDetached hcheck
    exact ⟨_, _, by rw [Forest.run_rule, if_pos hdet]⟩
  · intro context children f f' f'' node hcheck hloose
    obtain ⟨rfl, hdet⟩ := Forest.of_run_checkDetached hcheck
    rw [Forest.looseRule, Forest.run_insert] at hloose
    cases hloose
    exact ⟨_, Forest.run_forM_setParent _ (by rw [Forest.detached_push, hdet])⟩

/-- A builder has collected a leaf that belongs to another rule by now. It cannot
close its rule, which stays open with the leaf in it; a leaf that is still free can
become a child. -/
theorem refusal_of_taken_leaf :
    let free : Spanned Invocation := .terminal ⟨0, none⟩
    let taken : Spanned Invocation := .error ⟨1, none⟩
    let forest : Forest Invocation := ⟨#[{ toSpanned := free },
      { toSpanned := taken, parent := some 2 }, { toSpanned := .rule 2 ⟨7, 0⟩ [taken] }]⟩
    let a : Assembly Invocation := { forest, builder := ⟨[⟨⟨3, 0⟩, [taken, free]⟩], none, 2⟩ }
    (∃ a', BuilderStep.finishRule.run.run a = .error .alreadyAttached a' ∧ a' = a) ∧
      (Forest.checkDetached [free]).run forest = .ok () forest ∧
      ∃ node f', (Forest.rule ⟨3, 0⟩ [free]).run forest = .ok node f' := by
  intro free taken forest a
  have hrefused : BuilderStep.finishRule.run.run a = .error .alreadyAttached a := rfl
  have hcheck : (Forest.checkDetached [free]).run forest = .ok () forest := rfl
  refine ⟨⟨a, hrefused, refusal_leaves_no_trace.1 _ _ _ _ hrefused⟩, hcheck, ?_⟩
  exact refusal_leaves_no_trace.2.2.1 _ _ _ _ hcheck

end ParseTree
