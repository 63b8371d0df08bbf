import ParseTree.Proofs.Builder.Reports
import ParseTree.Proofs.Session.Runs

/-!
# The reports of one builder among others

A builder's events are told by the answers to its own calls, and between two of them anything
may happen in the forest. A child that waits for its rule may get a parent from elsewhere, so
that the rule cannot be closed and stays open. None of this shows in the events but as a
silence: they tell of rules that are opened and closed like brackets, and of one tree.
-/

namespace ParseTree

variable {C : Type}

/-- The call on the builder of the given number, if the step is one. -/
def SessionStep.callOn? (number : Nat) : SessionStep C → Option (BuilderStep C)
  | .builder moved call => if moved = number then some call else none
  | .forest _ => none

theorem SessionStep.eq_builder_of_callOn? {number : Nat} {step : SessionStep C}
    {call : BuilderStep C} (h : step.callOn? number = some call) : step = .builder number call := by
  cases step with
  | forest step => cases h
  | builder moved call' =>
      rw [callOn?] at h
      split at h
      · next hmoved =>
          cases h
          rw [hmoved]
      · cases h

namespace Session

variable [RuleContext C]

/-- The calls on the builder that has the number, while steps are taken and until the builder
is used up, each with the answer to it. -/
def history (number : Nat) : Session C → List (SessionStep C) → List (AnsweredCall C)
  | _, [] => []
  | s, step :: rest =>
      match step.callOn? number with
      | none => history number (s.after step) rest
      | some call =>
          ⟨call, ((Session.step step).run s).1⟩ ::
            if call.endsBuilder then [] else history number (s.after step) rest

theorem history_cons_of_none (s : Session C) {number : Nat} {step : SessionStep C}
    (h : step.callOn? number = none) (rest : List (SessionStep C)) :
    s.history number (step :: rest) = (s.after step).history number rest := by
  rw [history, h]

theorem history_cons_call (s : Session C) (number : Nat) (call : BuilderStep C)
    (rest : List (SessionStep C)) :
    s.history number (.builder number call :: rest) =
      let a : Assembly C := { forest := s.forest, builder := s.builder number }
      ⟨call, call.outcome a, (stateAfter call.run a).report⟩ ::
        if call.endsBuilder then [] else (s.after (.builder number call)).history number rest := by
  have hcall : (SessionStep.builder number call).callOn? number = some call := if_pos rfl
  rw [history, hcall, run_step_builder]

/-- A step that is no call on a builder leaves it as it was. -/
theorem builder_after_of_callOn? {s : Session C} {step : SessionStep C} {number : Nat}
    (h : step.callOn? number = none) : (s.after step).builder number = s.builder number := by
  cases step with
  | forest step => exact builder_after_forest s step number
  | builder moved call =>
      have hne : moved ≠ number := by
        rintro rfl
        simp [SessionStep.callOn?] at h
      rw [builder_after_builder, if_neg hne]

end Session

namespace AnsweredCall

/-- Everything that was reported in the course of some calls. -/
def reported (calls : List (AnsweredCall C)) : List BuildEvent := calls.flatMap events

theorem reported_cons (c : AnsweredCall C) (rest : List (AnsweredCall C)) :
    reported (c :: rest) = c.events ++ reported rest := List.flatMap_cons

/-- As long as no call reports twice, an event belongs to a call, and what was reported before
is what earlier calls reported. -/
theorem exists_call_of_reported {calls : List (AnsweredCall C)}
    (hone : ∀ c ∈ calls, c.events.length ≤ 1) {before after : List BuildEvent}
    {event : BuildEvent} (h : reported calls = before ++ event :: after) :
    ∃ earlier c later, calls = earlier ++ c :: later ∧ reported earlier = before ∧
      c.events = [event] := by
  induction calls generalizing before with
  | nil => simp [reported] at h
  | cons c rest ih =>
      -- a later call is found among the rest, once the events of the first are taken off
      have hlater : ∀ {before'}, reported rest = before' ++ event :: after →
          ∃ earlier d later, c :: rest = earlier ++ d :: later ∧
            reported earlier = c.events ++ before' ∧ d.events = [event] := by
        intro before' hrest
        obtain ⟨earlier, d, later, rfl, rfl, hd⟩ :=
          ih (fun d hd => hone d (List.mem_cons_of_mem c hd)) hrest
        exact ⟨c :: earlier, d, later, rfl, reported_cons c earlier, hd⟩
      have hlength := hone c List.mem_cons_self
      rw [reported_cons] at h
      rcases hevents : c.events with _ | ⟨x, _ | ⟨y, more⟩⟩
      · rw [hevents] at h hlater
        exact hlater h
      · rw [hevents] at h hlater
        cases before with
        | nil =>
            obtain ⟨rfl, -⟩ := List.cons.inj h
            exact ⟨[], c, rest, rfl, rfl, hevents⟩
        | cons y before =>
            obtain ⟨rfl, hrest⟩ := List.cons.inj h
            exact hlater hrest
      · simp [hevents] at hlength

variable [RuleContext C]

/-- What a call reports, by what it came to: a success to open a rule, to close one or to
finish is reported once, and nothing else is. -/
def Reports (c : AnsweredCall C) : Prop :=
  match c.step, c.answer.outcome with
  | .startRule context, .ok _ =>
      ∃ depth, c.events = [.ruleStarted (RuleContext.ruleIndex context) depth]
  | .finishRule, .ok _ => ∃ index children span, c.events = [.ruleFinished index children span]
  | .finish, .ok _ => ∃ nodes, c.events = [.treeBuilt nodes]
  | _, _ => c.events = []

open BuildEvent

variable {before : List BuildEvent} {c : AnsweredCall C}

theorem Fits.reports (h : c.Fits before) : c.Reports := by
  cases h with
  | started context balance => exact ⟨_, rfl⟩
  | finished node latest hinner => exact ⟨_, _, _, rfl⟩
  | built tree nodes whole => exact ⟨_, rfl⟩
  | @quiet step outcome silent =>
      rcases silent with hspeaks | ⟨e, rfl⟩
      · cases step with
        | startRule context => cases hspeaks
        | finishRule => cases hspeaks
        | finish => cases hspeaks
        | _ => rfl
      · cases step with
        | _ => rfl

theorem Fits.length_events_le (h : c.Fits before) : c.events.length ≤ 1 := by
  cases h with
  | quiet => exact Nat.zero_le 1
  | _ => exact Nat.le_refl 1

theorem Fits.countP_of_started (h : c.Fits before) {index : UInt64} {depth : Nat}
    (hevents : c.events = [.ruleStarted index depth]) :
    before.countP isStarted = before.countP isFinished + depth := by
  cases h with
  | started context balance =>
      cases hevents
      exact balance
  | finished node latest hinner => cases hevents
  | built tree nodes whole => cases hevents
  | quiet silent => cases hevents

theorem Fits.of_finished (h : c.Fits before) {index : UInt64} {children : Nat} {span : Span}
    (hevents : c.events = [.ruleFinished index children span]) :
    (∃ outer depth inner, before = outer ++ .ruleStarted index depth :: inner ∧ Balanced inner) ∧
      ∃ node, c.step = .finishRule ∧ c.answer.outcome = .ok (some node) ∧
        children = node.node.children.length ∧ span = node.node.span := by
  cases h with
  | started context balance => cases hevents
  | finished node latest hinner =>
      cases hevents
      exact ⟨⟨_, _, _, latest, hinner⟩, node, rfl, rfl, rfl, rfl⟩
  | built tree nodes whole => cases hevents
  | quiet silent => cases hevents

theorem Fits.of_finish (h : c.Fits before) (hstep : c.step = .finish)
    {tree : Option (Spanned C)} (houtcome : c.answer.outcome = .ok tree) :
    Whole before ∧ ∃ nodes, c.events = [.treeBuilt nodes] := by
  cases h with
  | started context balance => cases hstep
  | finished node latest hinner => cases hstep
  | built tree nodes whole => exact ⟨whole, nodes, rfl⟩
  | quiet silent =>
      cases hstep
      rcases silent with hspeaks | ⟨e, he⟩
      · cases hspeaks
      · cases he.symm.trans houtcome

end AnsweredCall

open AnsweredCall BuildEvent

namespace Session

variable [RuleContext C]

/-- Whatever steps are taken, each call on the builder fits what the builder has reported
before, and none comes after the one that used the builder up. -/
theorem fits_of_history {number : Nat} {s : Session C} {events : List BuildEvent}
    (h : (s.builder number).Told events) {steps : List (SessionStep C)}
    {earlier later : List (AnsweredCall C)} {c : AnsweredCall C}
    (hsplit : s.history number steps = earlier ++ c :: later) :
    c.Fits (events ++ reported earlier) ∧ (c.step.endsBuilder = true → later = []) := by
  induction steps generalizing s events earlier with
  | nil => simp [history] at hsplit
  | cons step rest ih =>
      cases hcall : step.callOn? number with
      | none =>
          rw [history_cons_of_none s hcall] at hsplit
          exact ih (by rwa [builder_after_of_callOn? hcall]) hsplit
      | some call =>
          obtain rfl := SessionStep.eq_builder_of_callOn? hcall
          have hprogress := BuilderStep.progress
            { forest := s.forest, builder := s.builder number } call
          rw [history_cons_call] at hsplit
          -- either this is the call in question, or the call is one of those that come after
          cases earlier with
          | nil =>
              obtain ⟨rfl, hlater⟩ := List.cons.inj hsplit
              refine ⟨?_, fun hends => ?_⟩
              · rw [reported, List.flatMap_nil, List.append_nil]
                exact h.fits rfl hprogress
              · rw [← hlater]
                exact if_pos hends
          | cons first earlier =>
              obtain ⟨rfl, hrest⟩ := List.cons.inj hsplit
              cases hends : call.endsBuilder with
              | true =>
                  -- no call comes after one that uses the builder up
                  rw [hends] at hrest
                  simp at hrest
              | false =>
                  rw [hends] at hrest
                  have htold := h.after rfl hprogress hends
                  have hnext : (s.after (.builder number call)).builder number =
                      (stateAfter call.run ⟨s.forest, s.builder number, #[]⟩).builder := by
                    rw [builder_after_builder, if_pos rfl, hends]
                    rfl
                  rw [← hnext] at htold
                  rw [reported_cons, ← List.append_assoc]
                  exact ih htold hrest

end Session

/-- The calls on one builder and what was reported make sense together. -/
structure Consistent [RuleContext C] (calls : List (AnsweredCall C)) : Prop where
  /-- A call is reported if it should be, and then once. -/
  reports : ∀ c ∈ calls, c.Reports
  /-- A rule is started at the depth that the rules started and not finished make up. -/
  started : ∀ before index depth after,
    reported calls = before ++ .ruleStarted index depth :: after →
      before.countP isFinished ≤ before.countP isStarted ∧
        depth = before.countP isStarted - before.countP isFinished
  /-- The rule that is finished is the one started last of those not finished yet, and the
  node has so many children and this span. -/
  finished : ∀ before index children span after,
    reported calls = before ++ .ruleFinished index children span :: after →
      (∃ outer depth inner, before = outer ++ .ruleStarted index depth :: inner ∧
        Balanced inner) ∧
      ∃ earlier c later node, calls = earlier ++ c :: later ∧ reported earlier = before ∧
        c.step = .finishRule ∧ c.answer.outcome = .ok (some node) ∧
        children = node.node.children.length ∧ span = node.node.span
  /-- With a finished tree, everything ends. What was reported is one rule with what was in it,
  and then the tree, which had not been reported before. -/
  built : ∀ earlier c later tree, calls = earlier ++ c :: later → c.step = .finish →
    c.answer.outcome = .ok tree →
      later = [] ∧ ∃ word nodes, Whole word ∧ reported calls = word ++ [.treeBuilt nodes] ∧
        ∀ k, .treeBuilt k ∉ word

namespace Session

variable [RuleContext C]

/-- Whatever steps are taken in a session by other builders and in the forest, a builder that
begins afresh reports what makes sense: the depth of each rule it opens, the latest open rule
and its node where it closes one, and for a finished tree the word of one rule, with the tree
reported once and last. -/
theorem reports_consistent_amid_other_steps {s : Session C} {number : Nat}
    (hfresh : s.builder number = {}) (steps : List (SessionStep C)) :
    Consistent (s.history number steps) := by
  have htold : (s.builder number).Told [] := hfresh ▸ Builder.told_empty
  have hfits : ∀ {earlier c later}, s.history number steps = earlier ++ c :: later →
      c.Fits (reported earlier) := fun hsplit => (fits_of_history htold hsplit).1
  have hmem : ∀ c ∈ s.history number steps, ∃ before, c.Fits before := by
    intro c hc
    obtain ⟨earlier, later, hsplit⟩ := List.append_of_mem hc
    exact ⟨_, hfits hsplit⟩
  have hone : ∀ c ∈ s.history number steps, c.events.length ≤ 1 := by
    intro c hc
    obtain ⟨before, hbefore⟩ := hmem c hc
    exact hbefore.length_events_le
  constructor
  case reports =>
    intro c hc
    obtain ⟨before, hbefore⟩ := hmem c hc
    exact hbefore.reports
  case started =>
    intro before index depth after h
    obtain ⟨earlier, c, later, hsplit, rfl, hevents⟩ := exists_call_of_reported hone h
    have hbalance := (hfits hsplit).countP_of_started hevents
    omega
  case finished =>
    intro before index children span after h
    obtain ⟨earlier, c, later, hsplit, rfl, hevents⟩ := exists_call_of_reported hone h
    obtain ⟨hlatest, node, hnode⟩ := (hfits hsplit).of_finished hevents
    exact ⟨hlatest, earlier, c, later, node, hsplit, rfl, hnode⟩
  case built =>
    intro earlier c later tree hsplit hstep houtcome
    obtain ⟨hwhole, nodes, hevents⟩ := (hfits hsplit).of_finish hstep houtcome
    have hlast : later = [] := by
      apply (fits_of_history htold hsplit).2
      rw [hstep]
      rfl
    refine ⟨hlast, reported earlier, nodes, hwhole, ?_, hwhole.treeBuilt_notMem⟩
    rw [hsplit, hlast, reported, List.flatMap_append, List.flatMap_singleton, hevents]
    rfl

/-- A leaf gets its parent from elsewhere while it waits for its rule, and another builder of
the session opens a rule. The rule of the leaf cannot be closed, which is not reported, and is
closed when the leaf has been taken back. -/
theorem reports_consistent_of_taken_leaf :
    let leaf : Spanned Invocation := .terminal ⟨0, none⟩
    let steps : List (SessionStep Invocation) :=
      [.builder 0 (.startRule ⟨4, 0⟩), .builder 0 .missingToken, .builder 1 (.startRule ⟨9, 0⟩),
        .forest (.rule ⟨7, 0⟩ [leaf]), .builder 0 .finishRule, .builder 0 .removeLastChild,
        .builder 0 .finishRule, .builder 0 .finish]
    ({} : Session Invocation).builder 0 = {} ∧
      Consistent (({} : Session Invocation).history 0 steps) ∧
      reported (({} : Session Invocation).history 0 steps) =
        [.ruleStarted 4 0, .ruleFinished 4 0 .void, .treeBuilt 1] := by
  intro leaf steps
  refine ⟨builder_empty 0, reports_consistent_amid_other_steps (builder_empty 0) steps, ?_⟩
  unfold steps
  rw [history_cons_call, history_cons_call, history_cons_of_none _ rfl,
    history_cons_of_none _ rfl, history_cons_call, history_cons_call, history_cons_call,
    history_cons_call]
  simp only [forest_after_builder, forest_after_forest, builder_after_builder,
    builder_after_forest, builder_empty]
  rfl

end Session

end ParseTree
