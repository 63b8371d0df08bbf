import ParseTree.Builder.Session
import ParseTree.Proofs.Forest.Adoption

/-!
# The operations of a builder at a glance

Each operation reads the builder, decides, and changes the forest, the builder and
the report in turn. Here every operation is one equation on the state it meets: a
refusal that ends in that very state, or a success with the state that follows.
All that is proved about builders starts from these equations.
-/

namespace ParseTree.Assembly

variable {C : Type}

theorem run_inForest {α : Type} (work : ForestM C α) (a : Assembly C) :
    (inForest work).run a =
      match work.run a.forest with
      | .ok x forest => .ok x { a with forest }
      | .error e forest => .error e { a with forest } := rfl

theorem run_emit (event : BuildEvent) (a : Assembly C) :
    (emit event).run a = .ok () { a with report := a.report.push event } := rfl

theorem run_setBuilder (builder : Builder C) (a : Assembly C) :
    (setBuilder builder).run a = .ok () { a with builder } := rfl

theorem run_discard_of_ok {ε σ α : Type} {work : EStateM ε σ α} {s s' : σ} {a : α}
    (h : work.run s = .ok a s') : (discard work).run s = .ok () s' := by
  rw [EStateM.run] at h
  change EStateM.map _ work s = _
  rw [EStateM.map, h]

theorem run_startRule [RuleContext C] (context : C) (a : Assembly C) :
    (startRule context).run a =
      if a.builder.openRules.isEmpty && a.builder.root.isSome then .error .rootAlreadyBuilt a
      else .ok ()
        { a with
          builder := { a.builder with openRules := { context } :: a.builder.openRules }
          report := a.report.push
            (.ruleStarted (RuleContext.ruleIndex context) a.builder.depth) } := by
  rw [startRule, EStateM.run_bind, EStateM.run_get]
  dsimp only
  split
  · rfl
  · rfl

/-- The three kinds of leaves differ in the node that is made. -/
theorem run_addLeaf (make : NodeId → Spanned C) (addition : Addition) (a : Assembly C) :
    (addLeaf (Forest.insert make) addition).run a =
      match a.builder.openRules with
      | [] => .error (.noOpenRule addition) a
      | r :: outer =>
          let node := make a.forest.size
          .ok node
            { a with
              forest := a.forest.push node
              builder := { a.builder with
                openRules := r.collect node :: outer
                nodeCount := a.builder.nodeCount + 1 } } := by
  obtain ⟨forest, ⟨rules, root, count⟩, report⟩ := a
  cases rules with
  | nil => rfl
  | cons r outer => rfl

theorem run_attach (subtree : Spanned C) (a : Assembly C) :
    (attach subtree).run a =
      if a.builder.collects subtree.id || (a.forest.parent? subtree.id).isSome then
        .error .alreadyAttached a
      else
        match a.builder.openRules with
        | [] => .error (.noOpenRule .subtree) a
        | r :: outer =>
            .ok ()
              { a with
                builder := { a.builder with
                  openRules := r.collect subtree :: outer
                  nodeCount := a.builder.nodeCount + subtree.node.size } } := by
  rw [attach, EStateM.run_bind, EStateM.run_get]
  dsimp only
  split
  · rfl
  · obtain ⟨forest, ⟨rules, root, count⟩, report⟩ := a
    cases rules with
    | nil => rfl
    | cons r outer => rfl

theorem run_removeLastChild (a : Assembly C) :
    removeLastChild.run a =
      match a.builder.openRules with
      | ⟨context, n :: collected⟩ :: outer =>
          .ok (some n)
            { a with
              builder := { a.builder with
                openRules := ⟨context, collected⟩ :: outer
                nodeCount := a.builder.nodeCount - n.node.size } }
      | _ => .ok none a := by
  obtain ⟨forest, ⟨rules, root, count⟩, report⟩ := a
  rcases rules with _ | ⟨⟨context, _ | ⟨n, collected⟩⟩, outer⟩
  · rfl
  · rfl
  · rfl

/-- The children are checked before the rule is taken off the stack, and the check
is all that the forest asks for when it makes the node. -/
theorem run_finishRule [RuleContext C] (a : Assembly C) :
    finishRule.run a =
      match a.builder.openRules with
      | [] => .error (.noOpenRule .ruleEnd) a
      | r :: outer =>
          if a.forest.detached r.children then
            let node := Spanned.rule a.forest.size r.context r.children
            .ok node
              { forest := a.forest.join r.context r.children
                builder := Builder.complete { a.builder with openRules := outer } node
                report := a.report.push (.ruleFinished (RuleContext.ruleIndex r.context)
                  r.collected.length node.span) }
          else .error .alreadyAttached a := by
  rw [finishRule, EStateM.run_bind, EStateM.run_get]
  obtain ⟨forest, ⟨rules, root, count⟩, report⟩ := a
  cases rules with
  | nil => rfl
  | cons r outer =>
      dsimp only
      rw [EStateM.run_bind, run_inForest, Forest.run_checkDetached]
      by_cases hdet : forest.detached r.children = true
      · simp only [if_pos hdet, EStateM.run_bind, run_setBuilder, run_inForest,
          Forest.run_rule, run_emit]
        rfl
      · simp only [if_neg hdet]

theorem run_finish (a : Assembly C) :
    finish.run a =
      if a.builder.openRules.isEmpty then
        match a.builder.root with
        | none => .error .emptyTree a
        | some root =>
            .ok root { a with report := a.report.push (.treeBuilt a.builder.nodeCount) }
      else .error (.unclosedRules a.builder.depth) a := by
  obtain ⟨forest, ⟨rules, root, count⟩, report⟩ := a
  cases rules with
  | nil =>
      cases root with
      | none => rfl
      | some root => rfl
  | cons r outer => rfl

end ParseTree.Assembly
