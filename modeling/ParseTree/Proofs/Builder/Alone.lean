import ParseTree.Proofs.Builder.Outcome

/-!
# A builder on its own

A builder that has the forest to itself can say beforehand what a call will come to.
All that matters is how many rules are open, whether a rule has been closed, and for a
subtree whether it is taken. In particular a rule can always be closed: what open
rules have collected stays without a parent and never meets itself again, whatever
has been grafted, taken back and grafted elsewhere.
-/

namespace ParseTree

variable {C : Type}

/-- A call on a builder, and what it came to. -/
structure Call (C : Type) where
  step : BuilderStep C
  outcome : Except BuildError (Option (Spanned C))

namespace Call

/-- A rule has been opened. -/
def opens : Call C → Bool
  | ⟨.startRule _, .ok _⟩ => true
  | _ => false

/-- A rule has been closed. -/
def closes : Call C → Bool
  | ⟨.finishRule, .ok _⟩ => true
  | _ => false

end Call

/-- The call as it goes down in history. -/
def BuilderStep.call [RuleContext C] (step : BuilderStep C) (a : Assembly C) : Call C :=
  ⟨step, step.outcome a⟩

/-- The calls on a fresh builder in a forest where nobody else does anything, the newest
call first, and the state they lead to. Subtrees are nodes of the forest. -/
inductive Calls [RuleContext C] (start : Forest C) : List (Call C) → Assembly C → Prop
  | fresh : Calls start [] { forest := start }
  | call {calls : List (Call C)} {a : Assembly C} (step : BuilderStep C)
      (earlier : Calls start calls a) (hw : step.Within a.forest) :
      Calls start (step.call a :: calls) (stateAfter step.run a)

namespace Forest

theorem Free.cons {f : Forest C} {nodes : List (Spanned C)} (h : f.Free nodes) {n : Spanned C}
    (hlt : n.id < f.size) (hnone : f.parent? n.id = none) (hnew : n.id ∉ nodes.map Spanned.id) :
    f.Free (n :: nodes) where
  detached := by
    refine detached_iff.mpr ⟨?_, List.nodup_cons.mpr ⟨hnew, h.nodup⟩⟩
    intro m hm
    rcases List.mem_cons.mp hm with rfl | hold
    · exact hnone
    · exact h.parent?_eq_none hold
  lt_size m hm := by
    rcases List.mem_cons.mp hm with rfl | hold
    · exact hlt
    · exact h.lt_size m hold

theorem Free.tail {f : Forest C} {n : Spanned C} {nodes : List (Spanned C)}
    (h : f.Free (n :: nodes)) : f.Free nodes where
  detached := by
    refine detached_iff.mpr ⟨fun m hm => ?_, (List.nodup_cons.mp h.nodup).2⟩
    exact h.parent?_eq_none (List.mem_cons_of_mem n hm)
  lt_size m hm := h.lt_size m (List.mem_cons_of_mem n hm)

end Forest

/-- What holds of a builder that has the forest to itself, after so many rules have been
opened and closed: the others are open, there is a root once the last of them has
been closed, what is collected is free, and the root is a rule without a parent. -/
structure Alone (opened closed : Nat) (a : Assembly C) : Prop where
  balance : a.builder.depth + closed = opened
  root_iff : a.builder.root.isSome ↔ a.builder.openRules = [] ∧ 0 < closed
  free : a.forest.Free a.builder.pending
  root_free : ∀ root, a.builder.root = some root →
    root.node.isRule = true ∧ a.forest.parent? root.id = none

namespace Alone

theorem fresh (start : Forest C) : Alone 0 0 ({ forest := start } : Assembly C) where
  balance := rfl
  root_iff := by simp
  free := Forest.free_nil start
  root_free root h := by cases h

variable {opened closed : Nat} {a a' : Assembly C}

theorem root_eq_none (h : Alone opened closed a) {r : OpenRule C} {outer : List (OpenRule C)}
    (hopen : a.builder.openRules = r :: outer) : a.builder.root = none := by
  by_contra hroot
  have hnil := (h.root_iff.mp (Option.isSome_iff_ne_none.mpr hroot)).1
  rw [hopen] at hnil
  cases hnil

/-- While a rule is open there is no root to look after. -/
theorem of_openRules {r : OpenRule C} {outer : List (OpenRule C)}
    (hopen : a.builder.openRules = r :: outer) (hroot : a.builder.root = none)
    (hbalance : outer.length + 1 + closed = opened) (hfree : a.forest.Free a.builder.pending) :
    Alone opened closed a where
  balance := by rw [Builder.depth, hopen, List.length_cons, hbalance]
  root_iff := by simp [hroot, hopen]
  free := hfree
  root_free root hsome := by
    rw [hroot] at hsome
    cases hsome

theorem balance_of_openRules (h : Alone opened closed a) {r : OpenRule C}
    {outer : List (OpenRule C)} (hopen : a.builder.openRules = r :: outer) :
    outer.length + 1 + closed = opened := by
  have hbalance := h.balance
  rwa [Builder.depth, hopen, List.length_cons] at hbalance

theorem unmoved (h : Alone opened closed a) (hbuilder : a'.builder = a.builder)
    (hforest : a'.forest = a.forest) : Alone opened closed a' := by
  constructor
  · rw [hbuilder]
    exact h.balance
  · rw [hbuilder]
    exact h.root_iff
  · rw [hbuilder, hforest]
    exact h.free
  · rw [hbuilder, hforest]
    exact h.root_free

/-- The innermost open rule has got or lost a child, and what is collected is free. -/
theorem refilled (h : Alone opened closed a) {r r' : OpenRule C} {outer : List (OpenRule C)}
    (hopen : a.builder.openRules = r :: outer) (hopen' : a'.builder.openRules = r' :: outer)
    (hroot : a'.builder.root = a.builder.root) (hfree : a'.forest.Free a'.builder.pending) :
    Alone opened closed a' :=
  of_openRules hopen' (hroot.trans (h.root_eq_none hopen)) (h.balance_of_openRules hopen) hfree

theorem startRule (h : Alone opened closed a) {context : C}
    (hopen : a'.builder.openRules = { context } :: a.builder.openRules)
    (hroot : a'.builder.root = none) (hforest : a'.forest = a.forest) :
    Alone (opened + 1) closed a' := by
  apply of_openRules hopen hroot
  · rw [Nat.add_right_comm, ← h.balance, Builder.depth]
  · have hpending : a'.builder.pending = a.builder.pending := Builder.pending_of_openRules hopen
    rw [hpending, hforest]
    exact h.free

/-- A rule has been closed, and its node is free together with what is still collected: it
is collected by the rule around it or has become the root. -/
theorem finishRule (h : Alone opened closed a) {r : OpenRule C} {outer : List (OpenRule C)}
    (hopen : a.builder.openRules = r :: outer) {node : Spanned C}
    (hnode : node.node.isRule = true)
    (hbuilder : a'.builder = Builder.complete { a.builder with openRules := outer } node)
    (hfree : a'.forest.Free (node :: outer.flatMap OpenRule.collected)) :
    Alone opened (closed + 1) a' := by
  have hbalance := h.balance_of_openRules hopen
  cases outer with
  | nil =>
      have hrules : a'.builder.openRules = [] := by rw [hbuilder, Builder.complete]
      have hroot : a'.builder.root = some node := by rw [hbuilder, Builder.complete]
      constructor
      · rw [Builder.depth, hrules, ← hbalance]
        exact Nat.add_right_comm 0 closed 1
      · simp [hrules, hroot]
      · rw [Builder.pending, hrules]
        exact Forest.free_nil a'.forest
      · intro root hsome
        rw [hroot] at hsome
        cases hsome
        exact ⟨hnode, hfree.parent?_eq_none List.mem_cons_self⟩
  | cons q outer =>
      have hrules : a'.builder.openRules = q.collect node :: outer := by
        rw [hbuilder, Builder.complete]
      have hroot : a'.builder.root = a.builder.root := by rw [hbuilder, Builder.complete]
      apply of_openRules hrules (hroot.trans (h.root_eq_none hopen))
      · rw [← hbalance, List.length_cons]
        omega
      · rw [Builder.pending_of_openRules hrules]
        exact hfree

end Alone

namespace Alone

variable {opened closed : Nat} {a : Assembly C}

theorem after_addLeaf (h : Alone opened closed a) {make : NodeId → Spanned C}
    (hid : ∀ id, (make id).id = id) (addition : Addition) :
    Alone opened closed (stateAfter (Assembly.addLeaf (Forest.insert make) addition) a) := by
  have hrun := Assembly.run_addLeaf make addition a
  split at hrun
  · rw [stateAfter_of_error hrun]
    exact h
  · next r outer hopen =>
      rw [stateAfter_of_ok hrun]
      refine h.refilled hopen rfl rfl ?_
      have hpending := Builder.pending_of_openRules hopen
      have hfree := h.free.push (hid a.forest.size)
      rwa [hpending] at hfree

theorem after_attach (h : Alone opened closed a) {subtree : Spanned C}
    (hs : subtree.node ∈ a.forest) :
    Alone opened closed (stateAfter (Assembly.attach subtree) a) := by
  have hrun := Assembly.run_attach subtree a
  split at hrun
  · rw [stateAfter_of_error hrun]
    exact h
  · next hfree =>
      split at hrun
      · rw [stateAfter_of_error hrun]
        exact h
      · next r outer hopen =>
          rw [stateAfter_of_ok hrun]
          simp only [Bool.or_eq_true, not_or, Option.not_isSome_iff_eq_none] at hfree
          refine h.refilled hopen rfl rfl ?_
          have hcons := h.free.cons (Forest.lt_size_of_mem hs) hfree.2
            (fun hmem => hfree.1 (Builder.collects_iff_mem_pending.mpr hmem))
          rwa [Builder.pending_of_openRules hopen] at hcons

theorem after_removeLastChild (h : Alone opened closed a) :
    Alone opened closed (stateAfter Assembly.removeLastChild a) := by
  have hrun := Assembly.run_removeLastChild a
  split at hrun
  · next context n collected outer hopen =>
      rw [stateAfter_of_ok hrun]
      refine h.refilled hopen rfl rfl ?_
      have hfree := h.free
      rw [Builder.pending_of_openRules hopen] at hfree
      exact hfree.tail
  · rw [stateAfter_of_ok hrun]
    exact h

theorem after_finish (h : Alone opened closed a) :
    Alone opened closed (stateAfter Assembly.finish a) := by
  have hrun := Assembly.run_finish a
  split at hrun
  · split at hrun
    · rw [stateAfter_of_error hrun]
      exact h
    · rw [stateAfter_of_ok hrun]
      exact h.unmoved rfl rfl
  · rw [stateAfter_of_error hrun]
    exact h

/-- What the innermost open rule has collected passes the check for its node. -/
theorem detached_children (h : Alone opened closed a) {r : OpenRule C}
    {outer : List (OpenRule C)} (hopen : a.builder.openRules = r :: outer) :
    a.forest.detached r.children = true := by
  have hfree := h.free
  rw [Builder.pending_of_openRules hopen] at hfree
  exact hfree.detached_reverse

variable [RuleContext C]

theorem after_startRule (h : Alone opened closed a) (context : C) :
    Alone (opened + if ((BuilderStep.startRule context).call a).opens then 1 else 0)
      closed (stateAfter (Assembly.startRule context) a) := by
  have hrun := Assembly.run_startRule context a
  rw [BuilderStep.call, BuilderStep.outcome_startRule]
  split at hrun
  · next hrefused =>
      rw [if_pos hrefused, stateAfter_of_error hrun]
      exact h
  · next hallowed =>
      rw [if_neg hallowed, stateAfter_of_ok hrun]
      refine h.startRule rfl ?_ rfl
      by_contra hroot
      have hsome := Option.isSome_iff_ne_none.mpr hroot
      exact hallowed (by simp [(h.root_iff.mp hsome).1, hsome])

theorem after_finishRule (h : Alone opened closed a) :
    Alone opened (closed + if (BuilderStep.finishRule.call a).closes then 1 else 0)
      (stateAfter Assembly.finishRule a) := by
  have hrun := Assembly.run_finishRule a
  have houtcome := BuilderStep.outcome_finishRule a
  rw [BuilderStep.call]
  cases hopen : a.builder.openRules with
  | nil =>
      rw [hopen] at hrun houtcome
      rw [houtcome, stateAfter_of_error hrun]
      exact h
  | cons r outer =>
      rw [hopen] at hrun houtcome
      have hdet := h.detached_children hopen
      dsimp only at hrun houtcome
      rw [if_pos hdet] at hrun houtcome
      rw [houtcome, stateAfter_of_ok hrun]
      have hfree := h.free
      rw [Builder.pending_of_openRules hopen] at hfree
      exact h.finishRule hopen rfl rfl (hfree.join r.context)

/-- Whatever call is made, the builder stays as it should be. -/
theorem after_call (h : Alone opened closed a) (step : BuilderStep C)
    (hw : step.Within a.forest) :
    Alone (opened + if (step.call a).opens then 1 else 0)
      (closed + if (step.call a).closes then 1 else 0)
      (stateAfter step.run a) := by
  cases step with
  | startRule context =>
      rw [BuilderStep.run, stateAfter_bind_pure]
      exact h.after_startRule context
  | token symbol =>
      rw [BuilderStep.run, stateAfter_map]
      exact h.after_addLeaf (fun _ => rfl) .token
  | missingToken =>
      rw [BuilderStep.run, stateAfter_map]
      exact h.after_addLeaf (fun _ => rfl) .missingToken
  | errorToken symbol =>
      rw [BuilderStep.run, stateAfter_map]
      exact h.after_addLeaf (fun _ => rfl) .errorToken
  | attach subtree =>
      rw [BuilderStep.run, stateAfter_bind_pure]
      exact h.after_attach hw
  | removeLastChild => exact h.after_removeLastChild
  | finishRule =>
      rw [BuilderStep.run, stateAfter_map]
      exact h.after_finishRule
  | finish =>
      rw [BuilderStep.run, stateAfter_map]
      exact h.after_finish

end Alone

variable [RuleContext C]

theorem Calls.alone {start : Forest C} {calls : List (Call C)} {a : Assembly C}
    (h : Calls start calls a) : Alone (calls.countP Call.opens) (calls.countP Call.closes) a := by
  induction h with
  | fresh => exact .fresh start
  | call step earlier hw ih =>
      rw [List.countP_cons, List.countP_cons]
      exact ih.after_call step hw

/-- What the next call will come to, after the given ones. A call is answered with an
error `e` exactly under the condition given for it. -/
structure Decided (calls : List (Call C)) (a : Assembly C) : Prop where
  /-- The open rules are those that were opened and not closed. -/
  depth : calls.countP Call.closes ≤ calls.countP Call.opens ∧
    a.builder.depth = calls.countP Call.opens - calls.countP Call.closes
  /-- The root is complete if no rule is open and one has been closed. -/
  root : a.builder.root.isSome ↔ a.builder.depth = 0 ∧ 0 < calls.countP Call.closes
  startRule : ∀ context e, (BuilderStep.startRule context).outcome a = .error e ↔
    a.builder.depth = 0 ∧ a.builder.root.isSome ∧ e = .rootAlreadyBuilt
  token : ∀ symbol e, (BuilderStep.token symbol).outcome a = .error e ↔
    a.builder.depth = 0 ∧ e = .noOpenRule .token
  missingToken : ∀ e, BuilderStep.missingToken.outcome a = .error e ↔
    a.builder.depth = 0 ∧ e = .noOpenRule .missingToken
  errorToken : ∀ symbol e, (BuilderStep.errorToken symbol).outcome a = .error e ↔
    a.builder.depth = 0 ∧ e = .noOpenRule .errorToken
  /-- A node is taken if it has a parent or an open rule has collected it. -/
  attach : ∀ subtree e,
    let taken := (a.forest.parent? subtree.id).isSome ∨
      ∃ r ∈ a.builder.openRules, ∃ c ∈ r.children, c.id = subtree.id
    (BuilderStep.attach subtree).outcome a = .error e ↔
      taken ∧ e = .alreadyAttached ∨ ¬ taken ∧ a.builder.depth = 0 ∧ e = .noOpenRule .subtree
  /-- Nothing is refused, and the newest child of the innermost rule is given back. -/
  removeLastChild : ∃ removed : Option (Spanned C),
    BuilderStep.removeLastChild.outcome a = .ok removed ∧
      removed = (a.builder.openRules.head?.bind fun r => r.children.getLast?) ∧
      ∀ n ∈ removed,
        (stateAfter BuilderStep.removeLastChild.run a).forest.parent? n.id = none
  finishRule : ∀ e, BuilderStep.finishRule.outcome a = .error e ↔
    a.builder.depth = 0 ∧ e = .noOpenRule .ruleEnd
  finish : ∀ e, BuilderStep.finish.outcome a = .error e ↔
    0 < a.builder.depth ∧ e = .unclosedRules a.builder.depth ∨
      a.builder.depth = 0 ∧ calls.countP Call.closes = 0 ∧ e = .emptyTree
  /-- A root that is given out is a rule without a parent. -/
  finished : a.builder.depth = 0 → 0 < calls.countP Call.closes →
    ∃ root, BuilderStep.finish.outcome a = .ok (some root) ∧ root.node.isRule = true ∧
      (stateAfter BuilderStep.finish.run a).forest.parent? root.id = none

namespace Alone

variable {opened closed : Nat} {a : Assembly C}

theorem outcome_finishRule_eq_error_iff (h : Alone opened closed a) {e : BuildError} :
    BuilderStep.finishRule.outcome a = .error e ↔
      a.builder.depth = 0 ∧ e = .noOpenRule .ruleEnd := by
  rw [BuilderStep.outcome_finishRule]
  cases hopen : a.builder.openRules with
  | nil =>
      have hdepth := Builder.depth_eq_zero_iff.mpr hopen
      simp [hdepth, eq_comm]
  | cons r outer =>
      have hpos := Builder.depth_pos_of_openRules hopen
      simp [h.detached_children hopen, Nat.ne_of_gt hpos]

omit [RuleContext C] in
theorem parent?_of_removed (h : Alone opened closed a) {n : Spanned C}
    (hn : n ∈ a.builder.openRules.head?.bind fun r => r.children.getLast?) :
    a.forest.parent? n.id = none := by
  obtain ⟨r, hr, hlast⟩ := Option.bind_eq_some_iff.mp hn
  apply h.free.parent?_eq_none
  rw [Builder.pending, List.mem_flatMap]
  exact ⟨r, List.mem_of_head? hr, List.mem_reverse.mp (List.mem_of_getLast? hlast)⟩

theorem outcome_finish_eq_error_iff (h : Alone opened closed a) {e : BuildError} :
    BuilderStep.finish.outcome a = .error e ↔
      0 < a.builder.depth ∧ e = .unclosedRules a.builder.depth ∨
        a.builder.depth = 0 ∧ closed = 0 ∧ e = .emptyTree := by
  rw [BuilderStep.outcome_finish]
  cases hopen : a.builder.openRules with
  | nil =>
      have hdepth : a.builder.depth = 0 := Builder.depth_eq_zero_iff.mpr hopen
      have hroot := h.root_iff
      cases hsome : a.builder.root with
      | none =>
          have hzero : closed = 0 := by simpa [hsome, hopen] using hroot
          simp [hdepth, hzero, eq_comm]
      | some root =>
          have hpos : 0 < closed := by simpa [hsome, hopen] using hroot
          simp [hdepth, Nat.ne_of_gt hpos]
  | cons r outer =>
      have hpos := Builder.depth_pos_of_openRules hopen
      simp [hpos, Nat.ne_of_gt hpos, eq_comm]

theorem exists_finished (h : Alone opened closed a) (hdepth : a.builder.depth = 0)
    (hclosed : 0 < closed) :
    ∃ root, BuilderStep.finish.outcome a = .ok (some root) ∧ root.node.isRule = true ∧
      a.forest.parent? root.id = none := by
  have hopen := Builder.depth_eq_zero_iff.mp hdepth
  obtain ⟨root, hroot⟩ := Option.isSome_iff_exists.mp (h.root_iff.mpr ⟨hopen, hclosed⟩)
  refine ⟨root, ?_, h.root_free root hroot⟩
  rw [BuilderStep.outcome_finish, hopen, hroot]
  rfl

end Alone

/-- Whatever calls have been made on a builder that has any forest to itself, with
whatever nodes of the forest as subtrees, it is decided what the next call comes to. -/
theorem outcome_decided_by_calls {start : Forest C} {calls : List (Call C)} {a : Assembly C}
    (h : Calls start calls a) : Decided calls a := by
  have halone := h.alone
  have hbalance := halone.balance
  constructor
  case depth => omega
  case root =>
    rw [Builder.depth_eq_zero_iff]
    exact halone.root_iff
  case startRule =>
    intro context e
    exact BuilderStep.outcome_startRule_eq_error_iff a
  case token =>
    intro symbol e
    exact answerOf_addLeaf_eq_error_iff
  case missingToken =>
    intro e
    exact answerOf_addLeaf_eq_error_iff
  case errorToken =>
    intro symbol e
    exact answerOf_addLeaf_eq_error_iff
  case attach =>
    intro subtree e
    exact BuilderStep.outcome_attach_eq_error_iff a
  case removeLastChild =>
    refine ⟨_, BuilderStep.outcome_removeLastChild a, rfl, fun n hn => ?_⟩
    rw [BuilderStep.forest_removeLastChild]
    exact halone.parent?_of_removed hn
  case finishRule =>
    intro e
    exact halone.outcome_finishRule_eq_error_iff
  case finish =>
    intro e
    exact halone.outcome_finish_eq_error_iff
  case finished =>
    intro hdepth hclosed
    rw [BuilderStep.forest_finish]
    exact halone.exists_finished hdepth hclosed

/-- A leaf of the forest is grafted, taken back and grafted again. The rule can be closed,
after that the leaf is taken, and the tree can be finished. -/
theorem outcome_decided_of_moved_leaf :
    let leaf : Spanned Invocation := .terminal ⟨0, none⟩
    let start : Forest Invocation := ({} : Forest Invocation).push leaf
    let grafted := stateAfter (BuilderStep.attach leaf).run
      (stateAfter (BuilderStep.startRule ⟨1, 0⟩).run { forest := start })
    let removed := stateAfter BuilderStep.removeLastChild.run grafted
    let a := stateAfter BuilderStep.finishRule.run
      (stateAfter (BuilderStep.attach leaf).run removed)
    (∃ calls, Calls start calls a) ∧ (a.forest.parent? leaf.id).isSome ∧
      (BuilderStep.attach leaf).outcome a = .error .alreadyAttached ∧
      BuilderStep.finishRule.outcome a = .error (.noOpenRule .ruleEnd) ∧
      ∃ root, BuilderStep.finish.outcome a = .ok (some root) ∧ root.node.isRule = true ∧
        (stateAfter BuilderStep.finish.run a).forest.parent? root.id = none := by
  intro leaf start grafted removed a
  have hremoved : removed = ⟨start, ⟨[⟨⟨1, 0⟩, []⟩], none, 0⟩, #[.ruleStarted 1 0]⟩ := rfl
  have ha : a = ⟨start.join ⟨1, 0⟩ [leaf], ⟨[], some (.rule 1 ⟨1, 0⟩ [leaf]), 2⟩,
      #[.ruleStarted 1 0, .ruleFinished 1 1 .void]⟩ := by
    unfold a
    rw [hremoved]
    rfl
  have hgrafted : Calls start _ grafted :=
    .call (.attach leaf) (.call _ .fresh trivial) rfl
  have hcollected : Calls start _ removed := .call .removeLastChild hgrafted trivial
  have hleaf : leaf.node ∈ removed.forest := by
    rw [hremoved]
    rfl
  have hcalls : Calls start _ a :=
    .call .finishRule (.call (.attach leaf) hcollected hleaf) trivial
  have hdecided := outcome_decided_by_calls hcalls
  have hdepth : a.builder.depth = 0 := by rw [ha]; rfl
  have htaken : (a.forest.parent? leaf.id).isSome := by rw [ha]; rfl
  refine ⟨⟨_, hcalls⟩, htaken, ?_, ?_, ?_⟩
  · apply (hdecided.attach leaf .alreadyAttached).mpr
    exact .inl ⟨.inl htaken, rfl⟩
  · exact (hdecided.finishRule _).mpr ⟨hdepth, rfl⟩
  · have hroot : a.builder.root.isSome := by rw [ha]; rfl
    exact hdecided.finished hdepth (hdecided.root.mp hroot).2

end ParseTree
