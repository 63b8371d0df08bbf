import ParseTree.Proofs.Builder.Pending

/-!
# Steps of a session

A step may be handed nodes, and these must belong to the forest the step meets.
What a builder does to the forest, the forest could also have been told directly:
a leaf is a new leaf, and a closed rule is a new rule over collected nodes. So an
invariant of the forest has to be checked for the steps of the forest only, as
long as builders collect nothing from elsewhere.
-/

namespace ParseTree

/-- The state that some work leaves behind, whether or not it succeeds. -/
def stateAfter {ε σ α : Type} (work : EStateM ε σ α) (s : σ) : σ :=
  match work.run s with
  | .ok _ s' => s'
  | .error _ s' => s'

section StateAfter

variable {ε σ α β : Type} {work : EStateM ε σ α} {s s' : σ}

theorem stateAfter_of_ok {a : α} (h : work.run s = .ok a s') : stateAfter work s = s' := by
  rw [stateAfter, h]

theorem stateAfter_of_error {e : ε} (h : work.run s = .error e s') : stateAfter work s = s' := by
  rw [stateAfter, h]

theorem stateAfter_bind_pure (g : α → β) :
    stateAfter (work >>= fun a => pure (g a)) s = stateAfter work s := by
  unfold stateAfter
  rw [EStateM.run_bind]
  cases work.run s with
  | ok a s' => rfl
  | error e s' => rfl

theorem stateAfter_map (g : α → β) : stateAfter (g <$> work) s = stateAfter work s :=
  stateAfter_bind_pure g

end StateAfter

variable {C : Type}

namespace ForestStep

/-- The nodes that the step is handed belong to the forest. -/
def Within (f : Forest C) : ForestStep C → Prop
  | .terminal _ => True
  | .error _ => True
  | .rule _ children => ∀ c ∈ children, c.node ∈ f
  | .looseRule _ children => ∀ c ∈ children, c.node ∈ f
  | .setParent child parent => (f.node? child).isSome ∧ (f.rule? parent).isSome

/-- The step makes no loose rule and gives no parent by hand. -/
def Orderly : ForestStep C → Prop
  | .looseRule _ _ => False
  | .setParent _ _ => False
  | _ => True

/-- The forest after the step. -/
def after (step : ForestStep C) (f : Forest C) : Forest C := stateAfter step.run f

theorem after_terminal (symbol : Option Token) (f : Forest C) :
    (terminal symbol).after f = f.push (.terminal ⟨f.size, symbol⟩) := rfl

theorem after_error (symbol : Option Token) (f : Forest C) :
    (error symbol).after f = f.push (.error ⟨f.size, symbol⟩) := rfl

theorem after_looseRule (context : C) (children : List (Spanned C)) (f : Forest C) :
    (looseRule context children).after f = f.push (.rule f.size context children) := rfl

theorem after_rule (context : C) (children : List (Spanned C)) (f : Forest C) :
    (rule context children).after f =
      if f.detached children then f.join context children else f := by
  rw [after, run, stateAfter_map]
  split
  · next h => exact stateAfter_of_ok (by rw [Forest.run_rule, if_pos h])
  · next h => exact stateAfter_of_error (by rw [Forest.run_rule, if_neg h])

theorem after_setParent (child parent : NodeId) (f : Forest C) :
    (setParent child parent).after f =
      if (f.parent? child).isSome then f else f.link child parent := by
  rw [after, run, stateAfter_bind_pure]
  split
  · next h => exact stateAfter_of_error (by rw [Forest.run_setParent, if_pos h])
  · next h => exact stateAfter_of_ok (by rw [Forest.run_setParent, if_neg h])

/-- Nothing is ever removed from a forest. -/
theorem mem_after {step : ForestStep C} {f : Forest C} {n : Node C} (h : n ∈ f) :
    n ∈ step.after f := by
  cases step with
  | terminal symbol =>
      rw [after_terminal]
      exact Forest.mem_push_of_mem h
  | error symbol =>
      rw [after_error]
      exact Forest.mem_push_of_mem h
  | rule context children =>
      rw [after_rule]
      split
      · exact Forest.mem_join_of_mem h
      · exact h
  | looseRule context children =>
      rw [after_looseRule]
      exact Forest.mem_push_of_mem h
  | setParent child parent =>
      rw [after_setParent]
      split
      · exact h
      · exact Forest.mem_link.mpr h

end ForestStep

namespace Forest

theorem WellFormed.after {f : Forest C} (h : f.WellFormed) {step : ForestStep C}
    (hs : step.Within f) : (step.after f).WellFormed := by
  cases step with
  | terminal symbol =>
      rw [ForestStep.after_terminal]
      exact h.push rfl (by simp [Node.children])
  | error symbol =>
      rw [ForestStep.after_error]
      exact h.push rfl (by simp [Node.children])
  | rule context children =>
      rw [ForestStep.after_rule]
      split
      · exact h.join context hs
      · exact h
  | looseRule context children =>
      rw [ForestStep.after_looseRule]
      apply h.push rfl
      intro c hc
      obtain ⟨s, hmem, rfl⟩ := List.mem_map.mp hc
      exact hs s hmem
  | setParent child parent =>
      rw [ForestStep.after_setParent]
      split
      · exact h
      · exact h.link child parent

theorem Linked.after {f : Forest C} (h : f.Linked) {step : ForestStep C} (hs : step.Within f)
    (ho : step.Orderly) : (step.after f).Linked := by
  cases step with
  | terminal symbol =>
      rw [ForestStep.after_terminal]
      exact h.push_leaf rfl
  | error symbol =>
      rw [ForestStep.after_error]
      exact h.push_leaf rfl
  | rule context children =>
      rw [ForestStep.after_rule]
      split
      · next hdet => exact h.join context hs hdet
      · exact h
  | looseRule context children => exact ho.elim
  | setParent child parent => exact ho.elim

end Forest

/-- The collected nodes belong to the forest. -/
def Builder.Within (f : Forest C) (b : Builder C) : Prop := ∀ n ∈ b.pending, n.node ∈ f

/-- The node that the step is handed, if any, belongs to the forest. -/
def BuilderStep.Within (f : Forest C) : BuilderStep C → Prop
  | .attach subtree => subtree.node ∈ f
  | _ => True

/-- A builder has moved on: the forest has changed as by an orderly step, if at
all, and what is collected now belongs to it. -/
structure Assembly.Advance (a a' : Assembly C) : Prop where
  forest : a'.forest = a.forest ∨
    ∃ change : ForestStep C, change.Within a.forest ∧ change.Orderly ∧
      a'.forest = change.after a.forest
  within : a'.builder.Within a'.forest

namespace Assembly

/-- As long as the forest stays, it only matters what has been collected. -/
theorem Advance.of_pending {a a' : Assembly C} (hb : a.builder.Within a.forest)
    (hf : a'.forest = a.forest)
    (hp : ∀ n ∈ a'.builder.pending, n ∈ a.builder.pending ∨ n.node ∈ a.forest) :
    Advance a a' where
  forest := .inl hf
  within n hn := by
    rw [hf]
    rcases hp n hn with hold | hnew
    · exact hb n hold
    · exact hnew

/-- Nothing has changed if the builder refused. -/
theorem Advance.of_error {a : Assembly C} (hb : a.builder.Within a.forest) {α : Type}
    {work : AssemblyM C α} {e : BuildError} (hrun : work.run a = .error e a) :
    Advance a (stateAfter work a) := by
  rw [stateAfter_of_error hrun]
  exact .of_pending hb rfl fun n hn => .inl hn

/-- A new leaf of the builder is a new leaf of the forest. -/
theorem advance_addLeaf {a : Assembly C} (hb : a.builder.Within a.forest)
    {make : NodeId → Spanned C} {addition : Addition} (change : ForestStep C)
    (hid : ∀ id, (make id).id = id) (hw : change.Within a.forest) (ho : change.Orderly)
    (hchange : change.after a.forest = a.forest.push (make a.forest.size)) :
    Advance a (stateAfter (addLeaf (Forest.insert make) addition) a) := by
  have hrun := run_addLeaf make addition a
  cases h : a.builder.openRules with
  | nil =>
      rw [h] at hrun
      exact .of_error hb hrun
  | cons r outer =>
      rw [h] at hrun
      rw [stateAfter_of_ok hrun]
      refine ⟨.inr ⟨change, hw, ho, hchange.symm⟩, fun n hn => ?_⟩
      rcases Builder.mem_pending_collect h hn with rfl | hold
      · exact Forest.mem_push_self (hid _)
      · exact Forest.mem_push_of_mem (hb n hold)

theorem advance_startRule [RuleContext C] {a : Assembly C} (hb : a.builder.Within a.forest)
    (context : C) : Advance a (stateAfter (startRule context) a) := by
  have hrun := run_startRule context a
  split at hrun
  · exact .of_error hb hrun
  · rw [stateAfter_of_ok hrun]
    exact .of_pending hb rfl fun n hn => .inl (by simpa [Builder.pending] using hn)

theorem advance_attach {a : Assembly C} (hb : a.builder.Within a.forest) {subtree : Spanned C}
    (hs : subtree.node ∈ a.forest) : Advance a (stateAfter (attach subtree) a) := by
  have hrun := run_attach subtree a
  split at hrun
  · exact .of_error hb hrun
  · split at hrun
    · exact .of_error hb hrun
    · next r outer h =>
        rw [stateAfter_of_ok hrun]
        refine .of_pending hb rfl fun n hn => ?_
        rcases Builder.mem_pending_collect h hn with rfl | hold
        · exact .inr hs
        · exact .inl hold

theorem advance_removeLastChild {a : Assembly C} (hb : a.builder.Within a.forest) :
    Advance a (stateAfter removeLastChild a) := by
  have hrun := run_removeLastChild a
  split at hrun
  · next context child collected outer h =>
      rw [stateAfter_of_ok hrun]
      refine .of_pending hb rfl fun n hn => .inl ?_
      have hn' : n ∈ collected ∨ n ∈ outer.flatMap OpenRule.collected := by
        simpa [Builder.pending] using hn
      rw [Builder.pending_of_openRules h, List.mem_append]
      exact hn'.imp_left (List.mem_cons_of_mem child)
  · rw [stateAfter_of_ok hrun]
    exact .of_pending hb rfl fun n hn => .inl hn

/-- A closed rule is a new rule over the nodes that the builder had collected. -/
theorem advance_finishRule [RuleContext C] {a : Assembly C} (hb : a.builder.Within a.forest) :
    Advance a (stateAfter finishRule a) := by
  have hrun := run_finishRule a
  split at hrun
  · exact .of_error hb hrun
  · next r outer h =>
      have hpending := Builder.pending_of_openRules h
      have hchildren : ∀ c ∈ r.children, c.node ∈ a.forest := by
        intro c hc
        apply hb
        rw [hpending]
        exact List.mem_append_left _ (List.mem_reverse.mp hc)
      split at hrun
      · next hdet =>
          rw [stateAfter_of_ok hrun]
          refine ⟨.inr ⟨.rule r.context r.children, hchildren, trivial, ?_⟩, fun n hn => ?_⟩
          · rw [ForestStep.after_rule, if_pos hdet]
          · rcases Builder.mem_pending_complete hn with rfl | hold
            · exact Forest.mem_adopt.mpr (Forest.mem_push_self rfl)
            · apply Forest.mem_join_of_mem
              apply hb
              rw [hpending]
              exact List.mem_append_right _ hold
      · exact .of_error hb hrun

theorem advance_finish {a : Assembly C} (hb : a.builder.Within a.forest) :
    Advance a (stateAfter finish a) := by
  have hrun := run_finish a
  split at hrun
  · split at hrun
    · exact .of_error hb hrun
    · rw [stateAfter_of_ok hrun]
      exact .of_pending hb rfl fun n hn => .inl hn
  · exact .of_error hb hrun

end Assembly

theorem BuilderStep.advance [RuleContext C] {step : BuilderStep C} (a : Assembly C)
    (hs : step.Within a.forest) (hb : a.builder.Within a.forest) :
    Assembly.Advance a (stateAfter step.run a) := by
  cases step with
  | startRule context =>
      rw [run, stateAfter_bind_pure]
      exact Assembly.advance_startRule hb context
  | token symbol =>
      rw [run, stateAfter_map]
      exact Assembly.advance_addLeaf hb (.terminal (some symbol)) (fun _ => rfl) trivial trivial
        (ForestStep.after_terminal _ _)
  | missingToken =>
      rw [run, stateAfter_map]
      exact Assembly.advance_addLeaf hb (.terminal none) (fun _ => rfl) trivial trivial
        (ForestStep.after_terminal _ _)
  | errorToken symbol =>
      rw [run, stateAfter_map]
      exact Assembly.advance_addLeaf hb (.error symbol) (fun _ => rfl) trivial trivial
        (ForestStep.after_error _ _)
  | attach subtree =>
      rw [run, stateAfter_bind_pure]
      exact Assembly.advance_attach hb hs
  | removeLastChild => exact Assembly.advance_removeLastChild hb
  | finishRule =>
      rw [run, stateAfter_map]
      exact Assembly.advance_finishRule hb
  | finish =>
      rw [run, stateAfter_map]
      exact Assembly.advance_finish hb

end ParseTree
