import ParseTree.Proofs.Builder.Outcome

/-!
# What a builder reports

A builder reports that it opens a rule, that it closes one, and that it hands over the tree.
The events tell which rules are open without a look at the builder: a rule is open if it was
started and what has been reported since then is balanced. This picture is kept up by every
call, also where calls are refused and children come and go in between, because a call that
is not about an open rule reports nothing and leaves the contexts of the open rules alone.
-/

namespace ParseTree

variable {C : Type}

namespace BuildEvent

def isStarted : BuildEvent → Bool
  | .ruleStarted _ _ => true
  | _ => false

def isFinished : BuildEvent → Bool
  | .ruleFinished _ _ _ => true
  | _ => false

/-- Every rule that was started has been finished, the one started last first, and nothing
else was reported. -/
inductive Balanced : List BuildEvent → Prop
  | nil : Balanced []
  | rule {inner rest : List BuildEvent} (index : UInt64) (depth children : Nat) (span : Span)
      (hinner : Balanced inner) (hrest : Balanced rest) :
      Balanced (.ruleStarted index depth :: (inner ++ .ruleFinished index children span :: rest))

/-- The events leave the rules open, the innermost first. -/
inductive LeaveOpen : List UInt64 → List BuildEvent → Prop
  | nil : LeaveOpen [] []
  | rule {outer : List UInt64} {before inner : List BuildEvent} (index : UInt64)
      (hbefore : LeaveOpen outer before) (hinner : Balanced inner) :
      LeaveOpen (index :: outer) (before ++ .ruleStarted index outer.length :: inner)

/-- The events are those of one rule and of what was in it. -/
inductive Whole : List BuildEvent → Prop
  | rule {inner : List BuildEvent} (index : UInt64) (children : Nat) (span : Span)
      (hinner : Balanced inner) :
      Whole (.ruleStarted index 0 :: (inner ++ [.ruleFinished index children span]))

theorem Balanced.append {first second : List BuildEvent} (h : Balanced first)
    (h' : Balanced second) : Balanced (first ++ second) := by
  induction h with
  | nil => exact h'
  | rule index depth children span hinner _ _ ih =>
      rw [List.cons_append, List.append_assoc, List.cons_append]
      exact .rule index depth children span hinner ih

theorem LeaveOpen.start {rules : List UInt64} {events : List BuildEvent}
    (h : LeaveOpen rules events) (index : UInt64) :
    LeaveOpen (index :: rules) (events ++ [.ruleStarted index rules.length]) :=
  .rule index h .nil

/-- The innermost rule is the one that was started last of those that are open. -/
theorem LeaveOpen.exists_start {index : UInt64} {outer : List UInt64} {events : List BuildEvent}
    (h : LeaveOpen (index :: outer) events) :
    ∃ before depth inner, events = before ++ .ruleStarted index depth :: inner ∧
      Balanced inner := by
  cases h with
  | @rule _ before inner _ _ hinner => exact ⟨before, outer.length, inner, rfl, hinner⟩

/-- With the innermost rule finished, the others are open. -/
theorem LeaveOpen.finish {index next : UInt64} {outer : List UInt64} {events : List BuildEvent}
    (h : LeaveOpen (index :: next :: outer) events) (children : Nat) (span : Span) :
    LeaveOpen (next :: outer) (events ++ [.ruleFinished index children span]) := by
  cases h with
  | @rule _ before inner _ hbefore hinner =>
      cases hbefore with
      | @rule _ before' inner' _ hbefore' hinner' =>
          have hrule : Balanced (inner' ++ .ruleStarted index (next :: outer).length ::
              (inner ++ [.ruleFinished index children span])) :=
            hinner'.append (.rule index _ children span hinner .nil)
          have hopen := LeaveOpen.rule next hbefore' hrule
          simpa using hopen

/-- With the only rule finished, the word is whole. -/
theorem LeaveOpen.whole {index : UInt64} {events : List BuildEvent} (h : LeaveOpen [index] events)
    (children : Nat) (span : Span) : Whole (events ++ [.ruleFinished index children span]) := by
  cases h with
  | rule _ hbefore hinner =>
      cases hbefore
      exact .rule index children span hinner

theorem Balanced.treeBuilt_notMem {events : List BuildEvent} (h : Balanced events) (nodes : Nat) :
    .treeBuilt nodes ∉ events := by
  induction h with
  | nil => simp
  | rule index depth children span _ _ ih ih' => simp [ih, ih']

theorem Whole.treeBuilt_notMem {events : List BuildEvent} (h : Whole events) (nodes : Nat) :
    .treeBuilt nodes ∉ events := by
  cases h with
  | rule index children span hinner => simp [hinner.treeBuilt_notMem nodes]

theorem Balanced.countP_eq {events : List BuildEvent} (h : Balanced events) :
    events.countP isStarted = events.countP isFinished := by
  induction h with
  | nil => rfl
  | rule index depth children span _ _ ih ih' =>
      simp only [List.countP_cons, List.countP_append, isStarted, isFinished, reduceIte,
        Bool.false_eq_true, ih, ih']
      omega

/-- As many rules are open as have been started and not finished. -/
theorem LeaveOpen.countP_eq {rules : List UInt64} {events : List BuildEvent}
    (h : LeaveOpen rules events) :
    events.countP isStarted = events.countP isFinished + rules.length := by
  induction h with
  | nil => rfl
  | rule index _ hinner ih =>
      simp only [List.countP_cons, List.countP_append, isStarted, isFinished, reduceIte,
        Bool.false_eq_true, List.length_cons, ih, hinner.countP_eq]
      omega

end BuildEvent

/-- The calls that have something to report when they succeed. -/
def BuilderStep.speaks : BuilderStep C → Bool
  | .startRule _ => true
  | .finishRule => true
  | .finish => true
  | _ => false

/-- A call on a builder, with the answer to it. -/
structure AnsweredCall (C : Type) where
  step : BuilderStep C
  answer : SessionAnswer C

/-- What the builder reported meanwhile. -/
def AnsweredCall.events (c : AnsweredCall C) : List BuildEvent := c.answer.report.toList

variable [RuleContext C]

/-- What a call does to the open rules, to the root and to the report, by what it came to. -/
inductive Progress (a : Assembly C) :
    BuilderStep C → Except BuildError (Option (Spanned C)) → Assembly C → Prop
  | started {a' : Assembly C} (context : C)
      (allowed : a.builder.openRules = [] → a.builder.root = none)
      (openRules : a'.builder.openRules = { context } :: a.builder.openRules)
      (root : a'.builder.root = a.builder.root)
      (report : a'.report = a.report.push
        (.ruleStarted (RuleContext.ruleIndex context) a.builder.depth)) :
      Progress a (.startRule context) (.ok none) a'
  | finished {a' : Assembly C} {r : OpenRule C} {outer : List (OpenRule C)} {node : Spanned C}
      (openRules : a.builder.openRules = r :: outer)
      (builder : a'.builder = Builder.complete { a.builder with openRules := outer } node)
      (report : a'.report = a.report.push (.ruleFinished (RuleContext.ruleIndex r.context)
        node.node.children.length node.node.span)) :
      Progress a .finishRule (.ok (some node)) a'
  | built {a' : Assembly C} {tree : Spanned C} (openRules : a.builder.openRules = [])
      (root : a.builder.root = some tree)
      (report : a'.report = a.report.push (.treeBuilt a.builder.nodeCount)) :
      Progress a .finish (.ok (some tree)) a'
  | quiet {a' : Assembly C} {step : BuilderStep C}
      {outcome : Except BuildError (Option (Spanned C))}
      (silent : step.speaks = false ∨ ∃ e, outcome = .error e)
      (contexts : a'.builder.openRules.map OpenRule.context =
        a.builder.openRules.map OpenRule.context)
      (root : a'.builder.root = a.builder.root) (report : a'.report = a.report) :
      Progress a step outcome a'

namespace BuilderStep

variable (a : Assembly C)

theorem progress_startRule (context : C) :
    Progress a (.startRule context) ((startRule context).outcome a)
      (stateAfter (startRule context).run a) := by
  have hrun := Assembly.run_startRule context a
  rw [outcome_startRule, run, stateAfter_bind_pure]
  split at hrun
  · next hrefused =>
      rw [if_pos hrefused, stateAfter_of_error hrun]
      exact .quiet (.inr ⟨_, rfl⟩) rfl rfl rfl
  · next hallowed =>
      rw [if_neg hallowed, stateAfter_of_ok hrun]
      refine .started context (fun hnil => ?_) rfl rfl rfl
      simpa [hnil] using hallowed

/-- The three kinds of leaves are added without a word. -/
theorem progress_of_addLeaf {step : BuilderStep C} {make : NodeId → Spanned C}
    {addition : Addition} (hsilent : step.speaks = false)
    (hstep : step.run = some <$> Assembly.addLeaf (Forest.insert make) addition) :
    Progress a step (step.outcome a) (stateAfter step.run a) := by
  have hrun := Assembly.run_addLeaf make addition a
  rw [hstep, stateAfter_map]
  split at hrun
  · rw [stateAfter_of_error hrun]
    exact .quiet (.inl hsilent) rfl rfl rfl
  · next r outer hopen =>
      rw [stateAfter_of_ok hrun]
      refine .quiet (.inl hsilent) ?_ rfl rfl
      rw [hopen]
      rfl

theorem progress_attach (subtree : Spanned C) :
    Progress a (.attach subtree) ((attach subtree).outcome a)
      (stateAfter (attach subtree).run a) := by
  have hrun := Assembly.run_attach subtree a
  rw [run, stateAfter_bind_pure]
  split at hrun
  · rw [stateAfter_of_error hrun]
    exact .quiet (.inl rfl) rfl rfl rfl
  · split at hrun
    · rw [stateAfter_of_error hrun]
      exact .quiet (.inl rfl) rfl rfl rfl
    · next r outer hopen =>
        rw [stateAfter_of_ok hrun]
        refine .quiet (.inl rfl) ?_ rfl rfl
        rw [hopen]
        rfl

theorem progress_removeLastChild :
    Progress a .removeLastChild (removeLastChild.outcome a)
      (stateAfter removeLastChild.run a) := by
  have hrun := Assembly.run_removeLastChild a
  rw [run]
  split at hrun
  · next context n collected outer hopen =>
      rw [stateAfter_of_ok hrun]
      refine .quiet (.inl rfl) ?_ rfl rfl
      rw [hopen]
      rfl
  · rw [stateAfter_of_ok hrun]
    exact .quiet (.inl rfl) rfl rfl rfl

theorem progress_finishRule :
    Progress a .finishRule (finishRule.outcome a) (stateAfter finishRule.run a) := by
  have hrun := Assembly.run_finishRule a
  rw [outcome_finishRule, run, stateAfter_map]
  cases hopen : a.builder.openRules with
  | nil =>
      rw [hopen] at hrun
      rw [stateAfter_of_error hrun]
      exact .quiet (.inr ⟨_, rfl⟩) rfl rfl rfl
  | cons r outer =>
      rw [hopen] at hrun
      dsimp only at hrun ⊢
      split at hrun
      · next hdet =>
          rw [if_pos hdet, stateAfter_of_ok hrun]
          refine .finished hopen rfl ?_
          have hlength : r.collected.length =
              (Spanned.rule a.forest.size r.context r.children).node.children.length := by
            simp [Node.children, OpenRule.children]
          rw [← Spanned.span_eq, ← hlength]
      · next hdet =>
          rw [if_neg hdet, stateAfter_of_error hrun]
          exact .quiet (.inr ⟨_, rfl⟩) rfl rfl rfl

theorem progress_finish : Progress a .finish (finish.outcome a) (stateAfter finish.run a) := by
  have hrun := Assembly.run_finish a
  rw [outcome_finish, run, stateAfter_map]
  split at hrun
  · next hempty =>
      rw [if_pos hempty]
      cases hroot : a.builder.root with
      | none =>
          rw [hroot] at hrun
          rw [stateAfter_of_error hrun]
          exact .quiet (.inr ⟨_, rfl⟩) rfl rfl rfl
      | some root =>
          rw [hroot] at hrun
          rw [stateAfter_of_ok hrun]
          exact .built (List.isEmpty_iff.mp hempty) hroot rfl
  · next hopen =>
      rw [if_neg hopen, stateAfter_of_error hrun]
      exact .quiet (.inr ⟨_, rfl⟩) rfl rfl rfl

/-- Every call is one of those described. -/
theorem progress (step : BuilderStep C) :
    Progress a step (step.outcome a) (stateAfter step.run a) := by
  cases step with
  | startRule context => exact progress_startRule a context
  | token symbol => exact progress_of_addLeaf a rfl rfl
  | missingToken => exact progress_of_addLeaf a rfl rfl
  | errorToken symbol => exact progress_of_addLeaf a rfl rfl
  | attach subtree => exact progress_attach a subtree
  | removeLastChild => exact progress_removeLastChild a
  | finishRule => exact progress_finishRule a
  | finish => exact progress_finish a

end BuilderStep

open BuildEvent

/-- A call and its answer fit what has been reported before. -/
inductive AnsweredCall.Fits (before : List BuildEvent) : AnsweredCall C → Prop
  | started (context : C) {depth : Nat}
      (balance : before.countP isStarted = before.countP isFinished + depth) :
      Fits before
        ⟨.startRule context, .ok none, #[.ruleStarted (RuleContext.ruleIndex context) depth]⟩
  | finished (node : Spanned C) {index : UInt64} {depth : Nat} {outer inner : List BuildEvent}
      (latest : before = outer ++ .ruleStarted index depth :: inner) (hinner : Balanced inner) :
      Fits before
        ⟨.finishRule, .ok (some node),
          #[.ruleFinished index node.node.children.length node.node.span]⟩
  | built (tree : Spanned C) (nodes : Nat) (whole : Whole before) :
      Fits before ⟨.finish, .ok (some tree), #[.treeBuilt nodes]⟩
  | quiet {step : BuilderStep C} {outcome : Except BuildError (Option (Spanned C))}
      (silent : step.speaks = false ∨ ∃ e, outcome = .error e) :
      Fits before ⟨step, outcome, #[]⟩

namespace Builder

/-- The rules that are open, the innermost first. -/
def openIndices (b : Builder C) : List UInt64 :=
  (b.openRules.map OpenRule.context).map RuleContext.ruleIndex

/-- The events are what the builder has reported so far. -/
inductive Told (events : List BuildEvent) (b : Builder C) : Prop
  | underway (root : b.root = none) (openRules : LeaveOpen b.openIndices events)
  | complete (root : b.root ≠ none) (openRules : b.openRules = []) (whole : Whole events)

theorem told_empty : Told [] ({} : Builder C) := .underway rfl .nil

variable {events : List BuildEvent} {a a' : Assembly C} {step : BuilderStep C}
  {outcome : Except BuildError (Option (Spanned C))}

theorem Told.fits (h : Told events a.builder) (hreport : a.report = #[])
    (hp : Progress a step outcome a') :
    AnsweredCall.Fits events ⟨step, outcome, a'.report⟩ := by
  cases hp with
  | started context allowed openRules root report =>
      rw [report, hreport]
      cases h with
      | underway _ hopen =>
          refine .started context ?_
          rw [hopen.countP_eq, openIndices, List.length_map, List.length_map, depth]
      | complete hroot hopen _ => exact absurd (allowed hopen) hroot
  | @finished _ r outer node openRules builder report =>
      rw [report, hreport]
      cases h with
      | underway _ hopen =>
          rw [openIndices, openRules] at hopen
          obtain ⟨before, depth, inner, hevents, hinner⟩ := hopen.exists_start
          exact .finished node hevents hinner
      | complete _ hopen _ =>
          rw [openRules] at hopen
          cases hopen
  | built openRules root report =>
      rw [report, hreport]
      cases h with
      | underway hroot _ =>
          rw [hroot] at root
          cases root
      | complete _ _ whole => exact .built _ _ whole
  | quiet silent contexts root report =>
      rw [report, hreport]
      exact .quiet silent

/-- The picture is kept up as long as the builder is in use. -/
theorem Told.after (h : Told events a.builder) (hreport : a.report = #[])
    (hp : Progress a step outcome a') (hends : step.endsBuilder = false) :
    Told (events ++ a'.report.toList) a'.builder := by
  cases hp with
  | started context allowed openRules root report =>
      rw [report, hreport]
      cases h with
      | underway hroot hopen =>
          refine .underway (root.trans hroot) ?_
          have hstart := hopen.start (RuleContext.ruleIndex context)
          rw [openIndices, List.length_map, List.length_map] at hstart
          rw [openIndices, openRules]
          exact hstart
      | complete hroot hopen _ => exact absurd (allowed hopen) hroot
  | @finished _ r outer node openRules builder report =>
      rw [report, hreport]
      cases h with
      | underway hroot hopen =>
          rw [openIndices, openRules] at hopen
          -- the outermost rule becomes the root, any other one goes to the rule around it
          cases outer with
          | nil =>
              rw [builder]
              exact .complete (by simp [Builder.complete]) rfl (hopen.whole _ _)
          | cons q outer =>
              rw [builder]
              exact .underway hroot (hopen.finish _ _)
      | complete _ hopen _ =>
          rw [openRules] at hopen
          cases hopen
  | built openRules root report => cases hends
  | quiet silent contexts root report =>
      have hindices : a'.builder.openIndices = a.builder.openIndices := by
        rw [openIndices, openIndices, contexts]
      rw [report, hreport, List.append_nil]
      cases h with
      | underway hroot hopen => exact .underway (root.trans hroot) (hindices ▸ hopen)
      | complete hroot hopen whole =>
          refine .complete (root ▸ hroot) ?_ whole
          rw [hopen] at contexts
          exact List.map_eq_nil_iff.mp contexts

end Builder

end ParseTree
