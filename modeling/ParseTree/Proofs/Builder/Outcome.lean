import ParseTree.Proofs.Session.Steps

/-!
# Outcomes of calls

What a call on a builder comes to depends on little of the state it meets. For each
operation the outcome is one equation, beside the one that gives the whole state, and
the conditions under which it is refused are read off from that.
-/

namespace ParseTree

/-- What some work answers, apart from what it does to the state. -/
def answerOf {ε σ α : Type} (work : EStateM ε σ α) (s : σ) : Except ε α :=
  match work.run s with
  | .ok a _ => .ok a
  | .error e _ => .error e

section AnswerOf

variable {ε σ α β : Type} {work : EStateM ε σ α} {s s' : σ}

theorem answerOf_of_ok {a : α} (h : work.run s = .ok a s') : answerOf work s = .ok a := by
  rw [answerOf, h]

theorem answerOf_of_error {e : ε} (h : work.run s = .error e s') : answerOf work s = .error e := by
  rw [answerOf, h]

theorem answerOf_bind_pure (g : α → β) :
    answerOf (work >>= fun a => pure (g a)) s = (answerOf work s).map g := by
  unfold answerOf
  rw [EStateM.run_bind]
  cases work.run s with
  | ok a s' => rfl
  | error e s' => rfl

theorem answerOf_map (g : α → β) : answerOf (g <$> work) s = (answerOf work s).map g :=
  answerOf_bind_pure g

end AnswerOf

variable {C : Type}

namespace Builder

theorem collects_iff {b : Builder C} {id : NodeId} :
    b.collects id = true ↔ ∃ r ∈ b.openRules, ∃ c ∈ r.children, c.id = id := by
  simp [collects, OpenRule.children]

theorem collects_iff_mem_pending {b : Builder C} {id : NodeId} :
    b.collects id = true ↔ id ∈ b.pending.map Spanned.id := by
  simp only [collects, pending, List.any_eq_true, beq_iff_eq, List.mem_map, List.mem_flatMap]
  constructor
  · rintro ⟨r, hr, c, hc, hid⟩
    exact ⟨c, ⟨r, hr, hc⟩, hid⟩
  · rintro ⟨c, ⟨r, hr, hc⟩, hid⟩
    exact ⟨r, hr, c, hc, hid⟩

theorem depth_eq_zero_iff {b : Builder C} : b.depth = 0 ↔ b.openRules = [] :=
  List.length_eq_zero_iff

theorem depth_pos_of_openRules {b : Builder C} {r : OpenRule C} {outer : List (OpenRule C)}
    (hopen : b.openRules = r :: outer) : 0 < b.depth := by
  rw [depth, hopen]
  exact Nat.succ_pos outer.length

end Builder

/-- What a call comes to. -/
def BuilderStep.outcome [RuleContext C] (step : BuilderStep C) (a : Assembly C) :
    Except BuildError (Option (Spanned C)) := answerOf step.run a

/-- The three kinds of leaves are refused alike. -/
theorem answerOf_addLeaf (make : NodeId → Spanned C) (addition : Addition) (a : Assembly C) :
    answerOf (some <$> Assembly.addLeaf (Forest.insert make) addition) a =
      match a.builder.openRules with
      | [] => .error (.noOpenRule addition)
      | _ :: _ => .ok (some (make a.forest.size)) := by
  rw [answerOf_map, answerOf, Assembly.run_addLeaf]
  cases a.builder.openRules with
  | nil => rfl
  | cons r outer => rfl

theorem answerOf_addLeaf_eq_error_iff {make : NodeId → Spanned C} {addition : Addition}
    {a : Assembly C} {e : BuildError} :
    answerOf (some <$> Assembly.addLeaf (Forest.insert make) addition) a = .error e ↔
      a.builder.depth = 0 ∧ e = .noOpenRule addition := by
  rw [answerOf_addLeaf]
  cases hopen : a.builder.openRules with
  | nil =>
      have hdepth := Builder.depth_eq_zero_iff.mpr hopen
      simp [hdepth, eq_comm]
  | cons r outer =>
      have hpos := Builder.depth_pos_of_openRules hopen
      simp [Nat.ne_of_gt hpos]

namespace BuilderStep

variable [RuleContext C] (a : Assembly C)

theorem outcome_startRule (context : C) :
    (startRule context).outcome a =
      if a.builder.openRules.isEmpty && a.builder.root.isSome then .error .rootAlreadyBuilt
      else .ok none := by
  rw [outcome, run, answerOf_bind_pure, answerOf, Assembly.run_startRule]
  by_cases h : (a.builder.openRules.isEmpty && a.builder.root.isSome) = true
  · rw [if_pos h, if_pos h]
    rfl
  · rw [if_neg h, if_neg h]
    rfl

theorem outcome_startRule_eq_error_iff {context : C} {e : BuildError} :
    (startRule context).outcome a = .error e ↔
      a.builder.depth = 0 ∧ a.builder.root.isSome ∧ e = .rootAlreadyBuilt := by
  rw [outcome_startRule, Builder.depth_eq_zero_iff]
  split
  · next h =>
      rw [Bool.and_eq_true, List.isEmpty_iff] at h
      simp [h, eq_comm]
  · next h =>
      rw [Bool.and_eq_true, List.isEmpty_iff] at h
      simp only [reduceCtorEq, false_iff]
      exact fun hall => h ⟨hall.1, hall.2.1⟩

theorem outcome_attach (subtree : Spanned C) :
    (attach subtree).outcome a =
      if a.builder.collects subtree.id || (a.forest.parent? subtree.id).isSome then
        .error .alreadyAttached
      else
        match a.builder.openRules with
        | [] => .error (.noOpenRule .subtree)
        | _ :: _ => .ok none := by
  rw [outcome, run, answerOf_bind_pure, answerOf, Assembly.run_attach]
  by_cases h : (a.builder.collects subtree.id || (a.forest.parent? subtree.id).isSome) = true
  · rw [if_pos h, if_pos h]
    rfl
  · rw [if_neg h, if_neg h]
    cases a.builder.openRules with
    | nil => rfl
    | cons r outer => rfl

/-- That a node is taken comes before the question whether a rule is open. -/
theorem outcome_attach_eq_error_iff {subtree : Spanned C} {e : BuildError} :
    let taken := (a.forest.parent? subtree.id).isSome ∨
      ∃ r ∈ a.builder.openRules, ∃ c ∈ r.children, c.id = subtree.id
    (attach subtree).outcome a = .error e ↔
      taken ∧ e = .alreadyAttached ∨
        ¬ taken ∧ a.builder.depth = 0 ∧ e = .noOpenRule .subtree := by
  intro taken
  have htaken : (a.builder.collects subtree.id || (a.forest.parent? subtree.id).isSome) = true ↔
      taken := by
    rw [Bool.or_eq_true, Builder.collects_iff, or_comm]
  rw [outcome_attach]
  by_cases h : taken
  · rw [if_pos (htaken.mpr h)]
    simp [h, eq_comm]
  · rw [if_neg fun hc => h (htaken.mp hc)]
    cases hopen : a.builder.openRules with
    | nil =>
        have hdepth := Builder.depth_eq_zero_iff.mpr hopen
        simp [h, hdepth, eq_comm]
    | cons r outer =>
        have hpos := Builder.depth_pos_of_openRules hopen
        simp [h, Nat.ne_of_gt hpos]

theorem outcome_removeLastChild :
    removeLastChild.outcome a =
      .ok (a.builder.openRules.head?.bind fun r => r.children.getLast?) := by
  rw [outcome, run, answerOf, Assembly.run_removeLastChild]
  rcases a.builder.openRules with _ | ⟨⟨context, _ | ⟨n, collected⟩⟩, outer⟩
  · rfl
  · rfl
  · simp [OpenRule.children]

theorem forest_removeLastChild :
    (stateAfter (removeLastChild (C := C)).run a).forest = a.forest := by
  have hrun := Assembly.run_removeLastChild a
  rw [run]
  split at hrun
  · rw [stateAfter_of_ok hrun]
  · rw [stateAfter_of_ok hrun]

theorem outcome_finishRule :
    finishRule.outcome a =
      match a.builder.openRules with
      | [] => .error (.noOpenRule .ruleEnd)
      | r :: _ =>
          if a.forest.detached r.children then
            .ok (some (.rule a.forest.size r.context r.children))
          else .error .alreadyAttached := by
  rw [outcome, run, answerOf_map, answerOf, Assembly.run_finishRule]
  cases a.builder.openRules with
  | nil => rfl
  | cons r outer =>
      dsimp only
      by_cases h : a.forest.detached r.children = true
      · rw [if_pos h, if_pos h]
        rfl
      · rw [if_neg h, if_neg h]
        rfl

theorem outcome_finish :
    finish.outcome a =
      if a.builder.openRules.isEmpty then
        match a.builder.root with
        | none => .error .emptyTree
        | some root => .ok (some root)
      else .error (.unclosedRules a.builder.depth) := by
  rw [outcome, run, answerOf_map, answerOf, Assembly.run_finish]
  by_cases h : a.builder.openRules.isEmpty = true
  · rw [if_pos h, if_pos h]
    cases a.builder.root with
    | none => rfl
    | some root => rfl
  · rw [if_neg h, if_neg h]
    rfl

theorem forest_finish : (stateAfter (finish (C := C)).run a).forest = a.forest := by
  have hrun := Assembly.run_finish a
  rw [run, stateAfter_map]
  split at hrun
  · split at hrun
    · rw [stateAfter_of_error hrun]
    · rw [stateAfter_of_ok hrun]
  · rw [stateAfter_of_error hrun]

end BuilderStep

end ParseTree
