import ParseTree.Node.Order
import ParseTree.Proofs.Builder.Count
import ParseTree.Proofs.Session.Runs

/-!
# Node counts in a session

Every builder of a session has counted what it holds, whatever the other builders
and the forest have done in between. So a child that is taken back can always be
subtracted, and the count that is reported with a finished tree is its number of
nodes.
-/

namespace ParseTree

variable {C : Type}

namespace Assembly

/-- A refusal changes no count. -/
theorem counted_of_error {a : Assembly C} (h : a.builder.Counted) {α : Type}
    {work : AssemblyM C α} {e : BuildError} (hrun : work.run a = .error e a) :
    (stateAfter work a).builder.Counted := by
  rw [stateAfter_of_error hrun]
  exact h

theorem counted_startRule [RuleContext C] {a : Assembly C} (h : a.builder.Counted) (context : C) :
    (stateAfter (startRule context) a).builder.Counted := by
  have hrun := run_startRule context a
  split at hrun
  · exact counted_of_error h hrun
  · next hallowed =>
      rw [stateAfter_of_ok hrun]
      refine ⟨h.nodeCount_eq, fun hroot => ?_⟩
      -- beside a root no rule would have been open, and the new one is refused
      obtain ⟨root, hsome⟩ := Option.ne_none_iff_exists'.mp hroot
      have hnil := h.openRules_eq_nil hroot
      simp [hnil, show a.builder.root = some root from hsome] at hallowed

theorem counted_addLeaf {a : Assembly C} (h : a.builder.Counted) {make : NodeId → Spanned C}
    (addition : Addition) (hsize : ∀ id, (make id).node.size = 1) :
    (stateAfter (addLeaf (Forest.insert make) addition) a).builder.Counted := by
  have hrun := run_addLeaf make addition a
  split at hrun
  · exact counted_of_error h hrun
  · next r outer hopen =>
      rw [stateAfter_of_ok hrun]
      have hcollect := h.collect hopen (make a.forest.size)
      rwa [hsize] at hcollect

theorem counted_attach {a : Assembly C} (h : a.builder.Counted) (subtree : Spanned C) :
    (stateAfter (attach subtree) a).builder.Counted := by
  have hrun := run_attach subtree a
  split at hrun
  · exact counted_of_error h hrun
  · split at hrun
    · exact counted_of_error h hrun
    · next r outer hopen =>
        rw [stateAfter_of_ok hrun]
        exact h.collect hopen subtree

theorem counted_removeLastChild {a : Assembly C} (h : a.builder.Counted) :
    (stateAfter removeLastChild a).builder.Counted := by
  have hrun := run_removeLastChild a
  split at hrun
  · next context n collected outer hopen =>
      rw [stateAfter_of_ok hrun]
      exact h.takeBack hopen
  · rw [stateAfter_of_ok hrun]
    exact h

theorem counted_finishRule [RuleContext C] {a : Assembly C} (h : a.builder.Counted) :
    (stateAfter finishRule a).builder.Counted := by
  have hrun := run_finishRule a
  split at hrun
  · exact counted_of_error h hrun
  · next r outer hopen =>
      split at hrun
      · rw [stateAfter_of_ok hrun]
        exact h.close hopen _
      · exact counted_of_error h hrun

theorem counted_finish {a : Assembly C} (h : a.builder.Counted) :
    (stateAfter finish a).builder.Counted := by
  have hrun := run_finish a
  split at hrun
  · split at hrun
    · exact counted_of_error h hrun
    · rw [stateAfter_of_ok hrun]
      exact h
  · exact counted_of_error h hrun

/-- What is taken back is subtracted in full. -/
theorem nodeCount_of_removeLastChild {a a' : Assembly C} (h : a.builder.Counted) {n : Spanned C}
    (hrun : removeLastChild.run a = .ok (some n) a') :
    n.node.size ≤ a.builder.nodeCount ∧
      a'.builder.nodeCount + n.node.size = a.builder.nodeCount := by
  rw [run_removeLastChild] at hrun
  split at hrun
  · next context n collected outer hopen =>
      cases hrun
      have hle := h.size_le_nodeCount hopen
      exact ⟨hle, Nat.sub_add_cancel hle⟩
  · cases hrun

/-- A finished tree is all that its builder holds. -/
theorem report_of_finish {a a' : Assembly C} (h : a.builder.Counted) {root : Spanned C}
    (hrun : finish.run a = .ok root a') :
    a'.report = a.report.push (.treeBuilt root.node.size) := by
  rw [run_finish] at hrun
  split at hrun
  · next hempty =>
      split at hrun
      · cases hrun
      · next found hroot =>
          cases hrun
          have hcount : a.builder.nodeCount = root.node.size := by
            rw [h.nodeCount_eq, Builder.held, Builder.pending, List.isEmpty_iff.mp hempty, hroot]
            simp
          rw [hcount]
  · cases hrun

end Assembly

theorem BuilderStep.counted [RuleContext C] (step : BuilderStep C) {a : Assembly C}
    (h : a.builder.Counted) : (stateAfter step.run a).builder.Counted := by
  cases step with
  | startRule context =>
      rw [run, stateAfter_bind_pure]
      exact Assembly.counted_startRule h context
  | token symbol =>
      rw [run, stateAfter_map]
      exact Assembly.counted_addLeaf h .token fun _ => rfl
  | missingToken =>
      rw [run, stateAfter_map]
      exact Assembly.counted_addLeaf h .missingToken fun _ => rfl
  | errorToken symbol =>
      rw [run, stateAfter_map]
      exact Assembly.counted_addLeaf h .errorToken fun _ => rfl
  | attach subtree =>
      rw [run, stateAfter_bind_pure]
      exact Assembly.counted_attach h subtree
  | removeLastChild => exact Assembly.counted_removeLastChild h
  | finishRule =>
      rw [run, stateAfter_map]
      exact Assembly.counted_finishRule h
  | finish =>
      rw [run, stateAfter_map]
      exact Assembly.counted_finish h

namespace Session

variable [RuleContext C]

theorem Reachable.counted {allowed : SessionStep C → Prop} {s : Session C}
    (h : Reachable allowed s) (number : Nat) : (s.builder number).Counted :=
  h.of_builder_steps Builder.counted_empty (fun step _ _ _ hcounted => step.counted hcounted) number

/-- Whatever steps builders and the forest have taken, loose rules and parents given
by hand included, every builder has counted the nodes of the trees that its open
rules have collected and of its root. What is taken back never exceeds the count,
and a finished tree is reported with its number of nodes. -/
theorem nodeCount_eq_sum_descendants {s : Session C} (h : Reachable (fun _ => True) s)
    (number : Nat) :
    let b := s.builder number
    let a : Assembly C := { forest := s.forest, builder := b }
    b.nodeCount =
        (b.openRules.map fun r => (r.children.map fun c => c.node.descendants.length).sum).sum +
          (b.root.map fun root => root.node.descendants.length).getD 0 ∧
      (∀ n a', Assembly.removeLastChild.run a = .ok (some n) a' →
        n.node.descendants.length ≤ b.nodeCount ∧
          a'.builder.nodeCount + n.node.descendants.length = b.nodeCount) ∧
      ∀ root a', Assembly.finish.run a = .ok root a' →
        a'.report = #[.treeBuilt root.node.descendants.length] := by
  intro b a
  have hcounted : b.Counted := h.counted number
  simp only [Node.descendants_eq_preorder, Node.length_preorder]
  refine ⟨?_, fun n a' => Assembly.nodeCount_of_removeLastChild hcounted,
    fun root a' => Assembly.report_of_finish hcounted⟩
  have hroot : Spanned.total b.root.toList = (b.root.map fun root => root.node.size).getD 0 := by
    cases b.root with
    | none => rfl
    | some root => rfl
  calc
    b.nodeCount = Spanned.total (b.pending ++ b.root.toList) := hcounted.nodeCount_eq
    _ = Spanned.total b.pending + Spanned.total b.root.toList := Spanned.total_append _ _
    _ = _ := by
      rw [Builder.total_pending, hroot]
      simp only [Spanned.total_eq_sum]

/-- A loose rule that has one leaf twice counts as three nodes when it is grafted.
Another rule becomes its parent, and the builder takes it back, closes its own rule
over a single leaf and reports two nodes. -/
theorem nodeCount_of_grafted_twins :
    let leaf : Spanned Invocation := .terminal ⟨0, none⟩
    let twins : Spanned Invocation := .rule 1 ⟨5, 0⟩ [leaf, leaf]
    let made := (({} : Session Invocation).after (.forest (.terminal none))).after
      (.forest (.looseRule ⟨5, 0⟩ [leaf, leaf]))
    let filled := (made.after (.builder 0 (.startRule ⟨0, 0⟩))).after (.builder 0 .missingToken)
    let taken := (filled.after (.builder 0 (.attach twins))).after (.forest (.rule ⟨6, 0⟩ [twins]))
    let closed := (taken.after (.builder 0 .removeLastChild)).after (.builder 0 .finishRule)
    Reachable (fun _ => True) taken ∧ (taken.builder 0).nodeCount = 1 + 3 ∧
      Reachable (fun _ => True) closed ∧
      ∃ root a', Assembly.finish.run { forest := closed.forest, builder := closed.builder 0 } =
        .ok root a' ∧ a'.report = #[.treeBuilt 2] := by
  intro leaf twins made filled taken closed
  let own : Spanned Invocation := .terminal ⟨2, none⟩
  have hmade : made.forest = (({} : Forest Invocation).push leaf).push twins ∧
      made.builder 0 = {} := by
    unfold made
    rw [forest_after_forest, forest_after_forest, builder_after_forest, builder_after_forest]
    exact ⟨rfl, builder_empty 0⟩
  have hfilled : filled.forest = made.forest.push own ∧
      filled.builder 0 = ⟨[⟨⟨0, 0⟩, [own]⟩], none, 1⟩ := by
    unfold filled
    simp only [forest_after_builder, builder_after_builder, hmade]
    exact ⟨rfl, rfl⟩
  have htaken : taken.forest = filled.forest.join ⟨6, 0⟩ [twins] ∧
      taken.builder 0 = ⟨[⟨⟨0, 0⟩, [twins, own]⟩], none, 4⟩ := by
    unfold taken
    simp only [forest_after_forest, builder_after_forest, forest_after_builder,
      builder_after_builder, hfilled, hmade]
    exact ⟨rfl, rfl⟩
  have hclosed : closed.builder 0 = ⟨[], some (.rule 4 ⟨0, 0⟩ [own]), 2⟩ := by
    unfold closed
    simp only [forest_after_builder, builder_after_builder, htaken, hfilled, hmade]
    rfl
  have hmadeRun : Reachable (fun _ => True) made := by
    refine .step _ (.step _ .refl trivial trivial) trivial fun c hc => ?_
    rw [forest_after_forest, show c = leaf by simpa using hc]
    rfl
  have hfilledRun : Reachable (fun _ => True) filled :=
    .step _ (.step _ hmadeRun trivial trivial) trivial trivial
  have htwins : twins.node ∈ filled.forest := by
    rw [hfilled.1, hmade.1]
    rfl
  have htakenRun : Reachable (fun _ => True) taken := by
    have hattach : SessionStep.Within filled.forest (.builder 0 (.attach twins)) := htwins
    refine .step _ (.step _ hfilledRun trivial hattach) trivial fun c hc => ?_
    rw [List.mem_singleton.mp hc]
    exact mem_forest_after hfilledRun.sound hattach htwins
  have hclosedRun : Reachable (fun _ => True) closed :=
    .step _ (.step _ htakenRun trivial trivial) trivial trivial
  refine ⟨htakenRun, ?_, hclosedRun, ?_⟩
  · rw [(nodeCount_eq_sum_descendants htakenRun 0).1, htaken.2]
    simp only [Node.descendants_eq_preorder]
    rfl
  · have hrun : Assembly.finish.run { forest := closed.forest, builder := closed.builder 0 } =
        .ok (.rule 4 ⟨0, 0⟩ [own]) ⟨closed.forest, closed.builder 0, #[.treeBuilt 2]⟩ := by
      rw [hclosed]
      rfl
    refine ⟨_, _, hrun, ?_⟩
    rw [(nodeCount_eq_sum_descendants hclosedRun 0).2.2 _ _ hrun, Node.descendants_eq_preorder]
    rfl

end Session

end ParseTree
