import ParseTree.Proofs.Session.Count

/-!
# Attaching and taking back

A subtree that has just been attached can be taken back, and a child that has just been
taken back can be attached again. Both times the builder is what it was before. The first
needs nothing but the two operations. The second is refused if the child is still
collected elsewhere in the builder, which never happens: whatever a builder collects, it
has not collected before, so its open rules never have a node twice.
-/

namespace ParseTree

variable {C : Type}

namespace Builder

/-- The open rules have collected no node twice, be it in one rule or in two. -/
def Distinct (b : Builder C) : Prop := (b.pending.map Spanned.id).Nodup

/-- All that a builder can do to what it has collected: give up some of it, and collect
one node that it does not have. -/
inductive Turnover (b b' : Builder C) : Prop
  | kept (hkept : b'.pending.Sublist b.pending)
  | gained (n : Spanned C) {rest : List (Spanned C)} (hrest : rest.Sublist b.pending)
      (hnew : n.id ∉ rest.map Spanned.id) (hpending : b'.pending = n :: rest)

theorem distinct_empty : ({} : Builder C).Distinct := List.nodup_nil

theorem Turnover.distinct {b b' : Builder C} (h : Turnover b b') (hb : b.Distinct) :
    b'.Distinct := by
  cases h with
  | kept hkept => exact hb.sublist (hkept.map Spanned.id)
  | gained n hrest hnew hpending =>
      rw [Distinct, hpending, List.map_cons, List.nodup_cons]
      exact ⟨hnew, hb.sublist (hrest.map Spanned.id)⟩

/-- The same open rules have collected the same nodes. -/
theorem Turnover.of_openRules_eq {b b' : Builder C} (h : b'.openRules = b.openRules) :
    Turnover b b' := by
  apply kept
  rw [pending, pending, h]

theorem Turnover.collect {b b' : Builder C} {r : OpenRule C} {outer : List (OpenRule C)}
    {n : Spanned C} (hopen : b.openRules = r :: outer)
    (hopen' : b'.openRules = r.collect n :: outer) (hnew : n.id ∉ b.pending.map Spanned.id) :
    Turnover b b' := by
  refine gained n (List.Sublist.refl b.pending) hnew ?_
  rw [pending_of_openRules hopen, pending_of_openRules hopen']
  rfl

/-- A node with the next identity has not been collected from the forest. -/
theorem Within.size_notMem {f : Forest C} {b : Builder C} (h : b.Within f)
    {rest : List (Spanned C)} (hrest : rest.Sublist b.pending) :
    f.size ∉ rest.map Spanned.id :=
  Forest.size_notMem_ids fun n hn => h n (hrest.subset hn)

end Builder

namespace Assembly

open Builder

variable {a : Assembly C}

theorem turnover_of_error {α : Type} {work : AssemblyM C α} {e : BuildError}
    (hrun : work.run a = .error e a) : Turnover a.builder (stateAfter work a).builder := by
  apply Turnover.of_openRules_eq
  rw [stateAfter_of_error hrun]

theorem turnover_startRule [RuleContext C] (context : C) :
    Turnover a.builder (stateAfter (startRule context) a).builder := by
  have hrun := run_startRule context a
  split at hrun
  · exact turnover_of_error hrun
  · rw [stateAfter_of_ok hrun]
    exact .kept (List.Sublist.refl a.builder.pending)

theorem turnover_addLeaf (hb : a.builder.Within a.forest) {make : NodeId → Spanned C}
    (hid : ∀ id, (make id).id = id) (addition : Addition) :
    Turnover a.builder (stateAfter (addLeaf (Forest.insert make) addition) a).builder := by
  have hrun := run_addLeaf make addition a
  split at hrun
  · exact turnover_of_error hrun
  · next r outer hopen =>
      rw [stateAfter_of_ok hrun]
      apply Turnover.collect hopen rfl
      rw [hid]
      exact hb.size_notMem (List.Sublist.refl a.builder.pending)

theorem turnover_attach (subtree : Spanned C) :
    Turnover a.builder (stateAfter (attach subtree) a).builder := by
  have hrun := run_attach subtree a
  split at hrun
  · exact turnover_of_error hrun
  · next hfree =>
      split at hrun
      · exact turnover_of_error hrun
      · next r outer hopen =>
          rw [stateAfter_of_ok hrun]
          apply Turnover.collect hopen rfl
          intro hmem
          apply hfree
          rw [collects_iff_mem_pending.mpr hmem, Bool.true_or]

theorem turnover_removeLastChild :
    Turnover a.builder (stateAfter removeLastChild a).builder := by
  have hrun := run_removeLastChild a
  split at hrun
  · next context n collected outer hopen =>
      rw [stateAfter_of_ok hrun]
      apply Turnover.kept
      rw [pending_of_openRules hopen]
      exact List.sublist_cons_self n (collected ++ outer.flatMap OpenRule.collected)
  · rw [stateAfter_of_ok hrun]
    exact .kept (List.Sublist.refl a.builder.pending)

/-- A closed rule gives up its children and is collected in turn, unless it is the root. -/
theorem turnover_finishRule [RuleContext C] (hb : a.builder.Within a.forest) :
    Turnover a.builder (stateAfter finishRule a).builder := by
  have hrun := run_finishRule a
  split at hrun
  · exact turnover_of_error hrun
  · next r outer hopen =>
      split at hrun
      · rw [stateAfter_of_ok hrun]
        have hrest : (outer.flatMap OpenRule.collected).Sublist a.builder.pending := by
          rw [pending_of_openRules hopen]
          exact List.sublist_append_right _ _
        cases outer with
        | nil => exact .kept (List.nil_sublist _)
        | cons q outer =>
            exact .gained (.rule a.forest.size r.context r.children) hrest
              (hb.size_notMem hrest) rfl
      · exact turnover_of_error hrun

theorem turnover_finish : Turnover a.builder (stateAfter finish a).builder := by
  have hrun := run_finish a
  split at hrun
  · split at hrun
    · exact turnover_of_error hrun
    · rw [stateAfter_of_ok hrun]
      exact .kept (List.Sublist.refl a.builder.pending)
  · exact turnover_of_error hrun

end Assembly

theorem BuilderStep.turnover [RuleContext C] (step : BuilderStep C) {a : Assembly C}
    (hb : a.builder.Within a.forest) :
    Builder.Turnover a.builder (stateAfter step.run a).builder := by
  cases step with
  | startRule context =>
      rw [run, stateAfter_bind_pure]
      exact Assembly.turnover_startRule context
  | token symbol =>
      rw [run, stateAfter_map]
      exact Assembly.turnover_addLeaf hb (fun _ => rfl) .token
  | missingToken =>
      rw [run, stateAfter_map]
      exact Assembly.turnover_addLeaf hb (fun _ => rfl) .missingToken
  | errorToken symbol =>
      rw [run, stateAfter_map]
      exact Assembly.turnover_addLeaf hb (fun _ => rfl) .errorToken
  | attach subtree =>
      rw [run, stateAfter_bind_pure]
      exact Assembly.turnover_attach subtree
  | removeLastChild => exact Assembly.turnover_removeLastChild
  | finishRule =>
      rw [run, stateAfter_map]
      exact Assembly.turnover_finishRule hb
  | finish =>
      rw [run, stateAfter_map]
      exact Assembly.turnover_finish

theorem Session.Reachable.distinct [RuleContext C] {allowed : SessionStep C → Prop}
    {s : Session C} (h : Reachable allowed s) (number : Nat) : (s.builder number).Distinct :=
  h.of_builder_steps Builder.distinct_empty
    (fun step _ _ hb hdistinct => (step.turnover hb).distinct hdistinct) number

namespace Assembly

variable {a a' : Assembly C} {x : Spanned C}

/-- What has been attached is the newest child, and counts as much when it is taken back
as it did before. -/
theorem removeLastChild_of_attach (h : (attach x).run a = .ok () a') :
    removeLastChild.run a' = .ok (some x) a := by
  rw [run_attach] at h
  split at h
  · cases h
  · split at h
    · cases h
    · next r outer hopen =>
        cases h
        rw [run_removeLastChild]
        simp only [OpenRule.collect, Nat.add_sub_cancel]
        rw [← hopen]

/-- What has been taken back is not collected any more, since it was collected only once. -/
theorem attach_of_removeLastChild (hcounted : a.builder.Counted) (hdistinct : a.builder.Distinct)
    (h : removeLastChild.run a = .ok (some x) a') (hparent : a'.forest.parent? x.id = none) :
    (attach x).run a' = .ok () a := by
  rw [run_removeLastChild] at h
  split at h
  · next context n collected outer hopen =>
      cases h
      have hcount : a.builder.nodeCount - x.node.size + x.node.size = a.builder.nodeCount :=
        Nat.sub_add_cancel (hcounted.size_le_nodeCount hopen)
      have hfree : ¬ Builder.collects { a.builder with
          openRules := ⟨context, collected⟩ :: outer
          nodeCount := a.builder.nodeCount - x.node.size } x.id = true := by
        rw [Builder.Distinct, Builder.pending_of_openRules hopen, List.cons_append, List.map_cons,
          List.nodup_cons] at hdistinct
        intro hcollects
        exact hdistinct.1 (Builder.collects_iff_mem_pending.mp hcollects)
      rw [run_attach, if_neg (by simp [hfree, hparent])]
      simp only [OpenRule.collect, hcount]
      rw [← hopen]
  · cases h

/-- Nothing is reported about a subtree. -/
theorem report_of_attach (h : (attach x).run a = .ok () a') : a'.report = a.report := by
  rw [run_attach] at h
  split at h
  · cases h
  · split at h
    · cases h
    · cases h
      rfl

end Assembly

theorem BuilderStep.run_attach_eq_ok_iff [RuleContext C] {a a' : Assembly C} {x : Spanned C} :
    (attach x).run.run a = .ok none a' ↔ (Assembly.attach x).run a = .ok () a' := by
  rw [run, EStateM.run_bind]
  cases (Assembly.attach x).run a with
  | ok _ found =>
      constructor
      · rintro ⟨⟩
        rfl
      · rintro ⟨⟩
        rfl
  | error e found =>
      constructor
      · rintro ⟨⟩
      · rintro ⟨⟩

namespace Session

variable [RuleContext C] {s s' : Session C} {number : Nat}

/-- An answer without an error comes from work that succeeded. -/
theorem exists_run_of_answer {step : BuilderStep C} {node : Option (Spanned C)}
    {report : Array BuildEvent}
    (h : (Session.step (.builder number step)).run s = (⟨.ok node, report⟩, s')) :
    s' = s.after (.builder number step) ∧
      ∃ a', step.run.run { forest := s.forest, builder := s.builder number } = .ok node a' := by
  rw [run_step_builder] at h
  have hanswer := congrArg (fun answer => answer.1.outcome) h
  refine ⟨(congrArg Prod.snd h).symm, ?_⟩
  dsimp only [BuilderStep.outcome, answerOf] at hanswer
  split at hanswer
  · next found a' hrun =>
      cases hanswer
      exact ⟨a', hrun⟩
  · cases hanswer

/-- Where one step of a builder undoes another without a word, the session is as before. -/
theorem restored_of_undone {first second : BuilderStep C} {node node' : Option (Spanned C)}
    {a' : Assembly C} (hfirst : first.endsBuilder = false) (hsecond : second.endsBuilder = false)
    (hdo : first.run.run { forest := s.forest, builder := s.builder number } = .ok node a')
    (hsilent : a'.report = #[])
    (hundo : second.run.run a' =
      .ok node' { forest := s.forest, builder := s.builder number }) :
    let between := s.after (.builder number first)
    ∃ s'', (Session.step (.builder number second)).run between = (⟨.ok node', #[]⟩, s'') ∧
      s''.forest = s.forest ∧ ∀ k, s''.builder k = s.builder k := by
  intro between
  have hbetween : ({ forest := between.forest, builder := between.builder number } :
      Assembly C) = a' := by
    unfold between
    rw [forest_after_builder, builder_after_builder, stateAfter_of_ok hdo, hfirst, ← hsilent]
    simp
  rw [← hbetween] at hundo
  refine ⟨between.after (.builder number second), ?_, ?_, fun k => ?_⟩
  · rw [run_step_builder]
    dsimp only [BuilderStep.outcome]
    rw [answerOf_of_ok hundo, stateAfter_of_ok hundo]
  · rw [forest_after_builder, stateAfter_of_ok hundo]
  · rw [builder_after_builder, stateAfter_of_ok hundo, hsecond]
    by_cases hk : number = k
    · simp [hk]
    · unfold between
      rw [if_neg hk, builder_after_builder, if_neg hk]

/-- Whatever steps builders and the forest have taken, loose rules and parents given by
hand included: if a builder attaches a subtree, its next step can take that very subtree
back, and if it takes a child back that has no parent, its next step can attach the child
again. Either way the forest and all builders are as they were, the open rules, the root
and the node count of this one included. -/
theorem attach_and_removeLastChild_undo_each_other (h : Reachable (fun _ => True) s)
    (number : Nat) (x : Spanned C) :
    (∀ s' report,
      (Session.step (.builder number (.attach x))).run s = (⟨.ok none, report⟩, s') →
      ∃ s'', (Session.step (.builder number .removeLastChild)).run s' =
          (⟨.ok (some x), #[]⟩, s'') ∧
        s''.forest = s.forest ∧ ∀ k, s''.builder k = s.builder k) ∧
    ∀ s' report,
      (Session.step (.builder number .removeLastChild)).run s =
        (⟨.ok (some x), report⟩, s') →
      s'.forest.parent? x.id = none →
      ∃ s'', (Session.step (.builder number (.attach x))).run s' = (⟨.ok none, #[]⟩, s'') ∧
        s''.forest = s.forest ∧ ∀ k, s''.builder k = s.builder k := by
  constructor
  · intro s' report hattach
    obtain ⟨rfl, a', hrun⟩ := exists_run_of_answer hattach
    have hdo := BuilderStep.run_attach_eq_ok_iff.mp hrun
    exact restored_of_undone rfl rfl hrun (Assembly.report_of_attach hdo)
      (Assembly.removeLastChild_of_attach hdo)
  · intro s' report hremove hparent
    obtain ⟨rfl, a', hrun⟩ := exists_run_of_answer hremove
    rw [forest_after_builder, stateAfter_of_ok hrun] at hparent
    have hundo := Assembly.attach_of_removeLastChild (h.counted number) (h.distinct number)
      hrun hparent
    exact restored_of_undone rfl rfl hrun (Assembly.report_of_attach hundo).symm
      (BuilderStep.run_attach_eq_ok_iff.mpr hundo)

/-- A loose rule that has one leaf twice is attached, taken back and attached again: the
builder has counted one node, and four, in turn. -/
theorem reattachment_of_loose_twins :
    let leaf : Spanned Invocation := .terminal ⟨0, none⟩
    let twins : Spanned Invocation := .rule 1 ⟨5, 0⟩ [leaf, leaf]
    let made := (({} : Session Invocation).after (.forest (.terminal none))).after
      (.forest (.looseRule ⟨5, 0⟩ [leaf, leaf]))
    let filled := (made.after (.builder 0 (.startRule ⟨0, 0⟩))).after (.builder 0 .missingToken)
    let grafted := filled.after (.builder 0 (.attach twins))
    Reachable (fun _ => True) grafted ∧ (grafted.builder 0).nodeCount = 4 ∧
      ∃ back, (Session.step (.builder 0 .removeLastChild)).run grafted =
          (⟨.ok (some twins), #[]⟩, back) ∧
        back.builder 0 = filled.builder 0 ∧ (back.builder 0).nodeCount = 1 ∧
        ∃ again, (Session.step (.builder 0 (.attach twins))).run back =
            (⟨.ok none, #[]⟩, again) ∧
          again.builder 0 = grafted.builder 0 := by
  intro leaf twins made filled grafted
  let own : Spanned Invocation := .terminal ⟨2, none⟩
  have hmade : made.forest = (({} : Forest Invocation).push leaf).push twins ∧
      made.builder 0 = {} := by
    unfold made
    simp only [forest_after_forest, builder_after_forest]
    exact ⟨rfl, builder_empty 0⟩
  have hfilled : filled.forest = made.forest.push own ∧
      filled.builder 0 = ⟨[⟨⟨0, 0⟩, [own]⟩], none, 1⟩ := by
    unfold filled
    simp only [forest_after_builder, builder_after_builder, hmade]
    exact ⟨rfl, rfl⟩
  have hgrafted : grafted.forest = filled.forest ∧
      grafted.builder 0 = ⟨[⟨⟨0, 0⟩, [twins, own]⟩], none, 4⟩ := by
    unfold grafted
    simp only [forest_after_builder, builder_after_builder, hfilled, hmade]
    exact ⟨rfl, rfl⟩
  have hmadeRun : Reachable (fun _ => True) made := by
    refine .step _ (.step _ .refl trivial trivial) trivial fun c hc => ?_
    rw [forest_after_forest, show c = leaf by simpa using hc]
    rfl
  have hfilledRun : Reachable (fun _ => True) filled :=
    .step _ (.step _ hmadeRun trivial trivial) trivial trivial
  have hgraftedRun : Reachable (fun _ => True) grafted := by
    refine .step _ hfilledRun trivial ?_
    change twins.node ∈ filled.forest
    rw [hfilled.1, hmade.1]
    rfl
  have hattach : (Session.step (.builder 0 (.attach twins))).run filled =
      (⟨.ok none, #[]⟩, grafted) := by
    rw [run_step_builder, hfilled.2, hfilled.1, hmade.1]
    rfl
  obtain ⟨back, hback, hforest, hbuilder⟩ :=
    (attach_and_removeLastChild_undo_each_other hfilledRun 0 twins).1 _ _ hattach
  have hparent : back.forest.parent? twins.id = none := by
    rw [hforest, hfilled.1, hmade.1]
    rfl
  obtain ⟨again, hagain, -, hbuilder'⟩ :=
    (attach_and_removeLastChild_undo_each_other hgraftedRun 0 twins).2 _ _ hback hparent
  refine ⟨hgraftedRun, ?_, back, hback, hbuilder 0, ?_, again, hagain, hbuilder' 0⟩
  · rw [hgrafted.2]
  · rw [hbuilder 0, hfilled.2]

end Session

end ParseTree
