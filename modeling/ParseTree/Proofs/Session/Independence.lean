import Mathlib.Logic.Function.Basic
import ParseTree.Proofs.Builder.Likeness
import ParseTree.Proofs.Session.Runs

/-!
# Builders that share a forest

Builders that share a forest share its identities and nothing else, as long as each grafts
only what it has been given itself. A script says what builders do, turn by turn; a
subtree is named by the earlier turn of the same builder that gave it, since its
identity depends on what the others do. What can be seen of the answers leaves
identities out. The answers to one builder are then the same whether or not the others
have turns in between.
-/

namespace ParseTree

variable {C : Type}

/-- What a builder is told to do. A subtree is what the builder was given in the earlier turn
of that place among its own turns, counted from 0. -/
inductive Instruction (C : Type) where
  | startRule (context : C)
  | token (symbol : Token)
  | missingToken
  | errorToken (symbol : Option Token)
  | attach (earlier : Nat)
  | removeLastChild
  | finishRule
  | finish

/-- The step that an instruction comes to, if its subtree was given. -/
def Instruction.step? (given : List (Option (Spanned C))) : Instruction C → Option (BuilderStep C)
  | .startRule context => some (.startRule context)
  | .token symbol => some (.token symbol)
  | .missingToken => some .missingToken
  | .errorToken symbol => some (.errorToken symbol)
  | .attach earlier =>
      match given[earlier]? with
      | some (some subtree) => some (.attach subtree)
      | _ => none
  | .removeLastChild => some .removeLastChild
  | .finishRule => some .finishRule
  | .finish => some .finish

/-- An instruction to the builder of the given number. -/
structure Turn (C : Type) where
  number : Nat
  instruction : Instruction C

/-- A node without its identity: its shape, the spans of everything below it in order, and
whether it has a parent. -/
structure NodeView (C : Type) where
  shape : Shape C
  spans : List Span
  attached : Bool

def Forest.view (f : Forest C) (n : Spanned C) : NodeView C where
  shape := n.node.shape
  spans := n.node.descendants.map Node.span
  attached := (f.parent? n.id).isSome

/-- What the owner of a builder sees of the answer to a turn, and of everything that the
builder has given so far. -/
structure TurnView (C : Type) where
  outcome : Except BuildError (Option (NodeView C))
  depth : Nat
  report : Array BuildEvent
  given : List (Option (NodeView C))

/-- A session, with what each builder has given in its turns. -/
structure Bench (C : Type) where
  session : Session C := {}
  given : Nat → List (Option (Spanned C)) := fun _ => []

namespace Bench

/-- Take note of what a builder has given. -/
def note (w : Bench C) (session : Session C) (number : Nat) (node : Option (Spanned C)) :
    Bench C where
  session := session
  given := Function.update w.given number (w.given number ++ [node])

/-- What the owner of a builder sees after a turn that was answered. -/
def see (w : Bench C) (number : Nat) (answer : SessionAnswer C) : TurnView C where
  outcome := answer.outcome.map (Option.map w.session.forest.view)
  depth := (w.session.builder number).depth
  report := answer.report
  given := (w.given number).map (Option.map w.session.forest.view)

variable [RuleContext C]

/-- Take a turn. One whose subtree was never given is passed over. -/
def turn (w : Bench C) (t : Turn C) : Option (TurnView C) × Bench C :=
  match t.instruction.step? (w.given t.number) with
  | none => (none, w.note w.session t.number none)
  | some step =>
      let (answer, session) := (Session.step (.builder t.number step)).run w.session
      let w' := w.note session t.number (answer.outcome.toOption.join)
      (some (w'.see t.number answer), w')

/-- What is seen in each turn, with the number of the builder. -/
def play (w : Bench C) : List (Turn C) → List (Nat × Option (TurnView C))
  | [] => []
  | t :: rest => (t.number, (w.turn t).1) :: (w.turn t).2.play rest

end Bench

section View

variable {f g : Forest C} {same : Pairing}

theorem Forest.Paired.view_eq (h : f.Paired g same) {n m : Spanned C} (hn : n.Alike same m) :
    f.view n = g.view m := by
  unfold Forest.view
  rw [Node.descendants_eq_preorder, Node.descendants_eq_preorder, hn.shape, hn.spans_eq,
    h.attached hn.id]

theorem Forest.Paired.map_view_eq (h : f.Paired g same) {x y : Option (Spanned C)}
    (hxy : Option.Rel (Spanned.Alike same) x y) : x.map f.view = y.map g.view := by
  cases hxy with
  | none => rfl
  | some hn => exact congrArg some (h.view_eq hn)

theorem Forest.Paired.map_map_view_eq (h : f.Paired g same)
    {given given' : List (Option (Spanned C))}
    (hgiven : List.Forall₂ (Option.Rel (Spanned.Alike same)) given given') :
    given.map (Option.map f.view) = given'.map (Option.map g.view) := by
  induction hgiven with
  | nil => rfl
  | cons hxy _ ih => rw [List.map_cons, List.map_cons, h.map_view_eq hxy, ih]

theorem Forest.Paired.outcome_view_eq (h : f.Paired g same)
    {x y : Except BuildError (Option (Spanned C))}
    (hxy : OutcomeAlike (Option.Rel (Spanned.Alike same)) x y) :
    x.map (Option.map f.view) = y.map (Option.map g.view) := by
  cases hxy with
  | refused e => rfl
  | given hxy => exact congrArg Except.ok (h.map_view_eq hxy)

end View

/-- What has been given in a place is alike on both sides. -/
theorem forall₂_getElem? {α β : Type} {r : α → β → Prop} {l : List α} {l' : List β}
    (h : List.Forall₂ r l l') (i : Nat) : Option.Rel r l[i]? l'[i]? := by
  induction h generalizing i with
  | nil => exact .none
  | cons hxy _ ih =>
      cases i with
      | zero => exact .some hxy
      | succ i => exact ih i

/-- An instruction comes to the same step on both sides. -/
theorem Instruction.step?_alike {same : Pairing} {given given' : List (Option (Spanned C))}
    (h : List.Forall₂ (Option.Rel (Spanned.Alike same)) given given')
    (instruction : Instruction C) :
    Option.Rel (BuilderStep.Alike same) (instruction.step? given) (instruction.step? given') := by
  cases instruction with
  | startRule context => exact .some (.startRule context)
  | token symbol => exact .some (.token symbol)
  | missingToken => exact .some .missingToken
  | errorToken symbol => exact .some (.errorToken symbol)
  | attach earlier =>
      have hplace := forall₂_getElem? h earlier
      simp only [step?]
      generalize given[earlier]? = x at hplace
      generalize given'[earlier]? = y at hplace
      rcases hplace with ⟨⟨hn⟩ | _⟩ | _
      · exact .some (.attach hn)
      · exact .none
      · exact .none
  | removeLastChild => exact .some .removeLastChild
  | finishRule => exact .some .finishRule
  | finish => exact .some .finish

theorem OutcomeAlike.join {same : Pairing} {x y : Except BuildError (Option (Spanned C))}
    (h : OutcomeAlike (Option.Rel (Spanned.Alike same)) x y) :
    Option.Rel (Spanned.Alike same) x.toOption.join y.toOption.join := by
  cases h with
  | refused e => exact .none
  | given hxy => exact hxy

namespace Bench

variable {w s : Bench C} {number : Nat} {same same' : Pairing}

/-- Of a builder at the bench, nothing but identities differs from what the builder of
that number has become at another bench. -/
structure Follows (w : Bench C) (number : Nat) (s : Bench C) (same : Pairing) : Prop where
  forest : w.session.forest.Paired s.session.forest same
  builder : (w.session.builder number).Alike same (s.session.builder number)
  given : List.Forall₂ (Option.Rel (Spanned.Alike same)) (w.given number) (s.given number)

section Notes

variable (w : Bench C) (session : Session C) (number : Nat) (node : Option (Spanned C))

@[simp] theorem session_note : (w.note session number node).session = session := rfl

theorem given_note_self :
    (w.note session number node).given number = w.given number ++ [node] :=
  Function.update_self ..

theorem given_note_of_ne {other : Nat} (h : other ≠ number) :
    (w.note session number node).given other = w.given other :=
  Function.update_of_ne h ..

end Notes

/-- A node that has been given on both sides is noted on both sides. -/
theorem Follows.note {session session' : Session C}
    (hgiven : List.Forall₂ (Option.Rel (Spanned.Alike same)) (w.given number) (s.given number))
    (hforest : session.forest.Paired session'.forest same)
    (hbuilder : (session.builder number).Alike same (session'.builder number))
    {node node' : Option (Spanned C)} (hnode : Option.Rel (Spanned.Alike same) node node') :
    (w.note session number node).Follows number (s.note session' number node') same where
  forest := hforest
  builder := hbuilder
  given := by
    rw [given_note_self, given_note_self]
    exact List.rel_append hgiven (.cons hnode .nil)

/-- The owners of builders that are alike see the same. -/
theorem Follows.see_eq (h : w.Follows number s same) {answer answer' : SessionAnswer C}
    (houtcome : OutcomeAlike (Option.Rel (Spanned.Alike same)) answer.outcome answer'.outcome)
    (hreport : answer.report = answer'.report) :
    w.see number answer = s.see number answer' := by
  unfold see
  rw [h.forest.outcome_view_eq houtcome, h.builder.depth_eq, hreport,
    h.forest.map_map_view_eq h.given]

variable [RuleContext C]

theorem turn_of_none {w : Bench C} {t : Turn C}
    (h : t.instruction.step? (w.given t.number) = none) :
    w.turn t = (none, w.note w.session t.number none) := by
  rw [turn, h]

theorem turn_of_some {w : Bench C} {t : Turn C} {step : BuilderStep C}
    (h : t.instruction.step? (w.given t.number) = some step) :
    w.turn t =
      let a : Assembly C := { forest := w.session.forest, builder := w.session.builder t.number }
      let w' := w.note (w.session.after (.builder t.number step)) t.number
        (step.outcome a).toOption.join
      (some (w'.see t.number ⟨step.outcome a, (stateAfter step.run a).report⟩), w') := by
  rw [turn, h]
  dsimp only
  rw [Session.run_step_builder]

/-- What a turn of a builder has come to, next to the same turn at another bench. -/
structure TurnAlike (w s : Bench C) (t : Turn C) (same same' : Pairing) : Prop where
  follows : (w.turn t).2.Follows t.number (s.turn t).2 same'
  seen : (w.turn t).1 = (s.turn t).1
  new : ∀ {x y}, same' x y → same x y ∨ x = w.session.forest.size
  size_le : w.session.forest.size ≤ (w.turn t).2.session.forest.size
  frame : ∀ {x}, x < w.session.forest.size → (∀ y, ¬ same x y) →
    (w.turn t).2.session.forest.parent? x = w.session.forest.parent? x

theorem builder_after_alike {step step' : BuilderStep C}
    (hends : step.endsBuilder = step'.endsBuilder)
    (h : (stateAfter step.run ⟨w.session.forest, w.session.builder number, #[]⟩).Alike same'
      (stateAfter step'.run ⟨s.session.forest, s.session.builder number, #[]⟩)) :
    ((w.session.after (.builder number step)).builder number).Alike same'
      ((s.session.after (.builder number step')).builder number) := by
  rw [Session.builder_after_builder, Session.builder_after_builder, if_pos rfl, if_pos rfl, hends]
  split
  · exact Builder.alike_empty _
  · exact h.builder

/-- Builders that are alike stay alike through a turn of theirs, and the turn touches no other
node. -/
theorem Follows.turn {t : Turn C} (h : w.Follows t.number s same) :
    ∃ same', TurnAlike w s t same same' := by
  have hstep := Instruction.step?_alike h.given t.instruction
  generalize hw : t.instruction.step? (w.given t.number) = x at hstep
  generalize hs : t.instruction.step? (s.given t.number) = y at hstep
  cases hstep with
  | none =>
      have hwt := turn_of_none hw
      have hst := turn_of_none hs
      refine ⟨same, ?_, ?_, .inl, ?_, ?_⟩
      · rw [hwt, hst]
        exact .note h.given h.forest h.builder .none
      · rw [hwt, hst]
      · rw [hwt]
        exact Nat.le_refl _
      · intro x _ _
        rw [hwt]
        rfl
  | @some step step' halike =>
      -- the step is taken by builders that are alike, with nothing reported yet
      have hassembly : Assembly.Alike same ⟨w.session.forest, w.session.builder t.number, #[]⟩
          ⟨s.session.forest, s.session.builder t.number, #[]⟩ := ⟨h.forest, h.builder, rfl⟩
      obtain ⟨same', hwork⟩ := halike.inStep hassembly
      have hwt := turn_of_some hw
      have hst := turn_of_some hs
      have hforest : (w.turn t).2.session.forest = (stateAfter step.run
          ⟨w.session.forest, w.session.builder t.number, #[]⟩).forest := by
        rw [hwt]
        exact Session.forest_after_builder ..
      have hfollows : (w.turn t).2.Follows t.number (s.turn t).2 same' := by
        rw [hwt, hst]
        refine .note ?_ ?_ ?_ ?_
        · exact h.given.imp fun _ _ hnode => rel_imp (fun _ _ hn => hn.mono hwork.mono) hnode
        · rw [Session.forest_after_builder, Session.forest_after_builder]
          exact hwork.state.forest
        · exact builder_after_alike halike.endsBuilder_eq hwork.state
        · exact hwork.outcome.join
      refine ⟨same', hfollows, ?_, hwork.new _ _, ?_, ?_⟩
      · rw [hwt, hst] at hfollows ⊢
        exact congrArg some (hfollows.see_eq hwork.outcome hwork.state.report)
      · rw [hforest]
        exact hwork.size_le
      · rw [hforest]
        exact hwork.frame _

/-- A turn leaves the other builders and what they have given as they are. -/
theorem turn_of_ne (w : Bench C) (t : Turn C) {other : Nat} (h : other ≠ t.number) :
    (w.turn t).2.session.builder other = w.session.builder other ∧
      (w.turn t).2.given other = w.given other := by
  cases hstep : t.instruction.step? (w.given t.number) with
  | none =>
      rw [turn_of_none hstep]
      exact ⟨rfl, given_note_of_ne _ _ _ _ h⟩
  | some step =>
      rw [turn_of_some hstep]
      refine ⟨?_, given_note_of_ne _ _ _ _ h⟩
      rw [session_note, Session.builder_after_builder, if_neg h.symm]

/-- A builder does not notice the turns of another one that has nodes of its own. -/
theorem Follows.turn_of_ne {k : Bench C} {t : Turn C} (h : w.Follows number k same)
    {own own' : Pairing} (hturn : TurnAlike w s t own own') (hne : number ≠ t.number)
    (hapart : ∀ {x y z}, same x y → ¬ own x z) : (w.turn t).2.Follows number k same := by
  obtain ⟨hbuilder, hgiven⟩ := Bench.turn_of_ne w t hne
  refine ⟨⟨?_, h.forest.unique, ?_⟩, hbuilder ▸ h.builder, hgiven ▸ h.given⟩
  · intro x y hxy
    obtain ⟨hx, hy⟩ := h.forest.lt_size hxy
    exact ⟨Nat.lt_of_lt_of_le hx hturn.size_le, hy⟩
  · intro x y hxy
    rw [hturn.frame (h.forest.lt_size hxy).1 fun _ => hapart hxy]
    exact h.forest.attached hxy

/-- Every builder follows the one of its number that has a bench to itself, and no two of
them have a node in common. -/
structure Independent (w : Bench C) (solo : Nat → Bench C) (same : Nat → Pairing) : Prop where
  follows : ∀ i, w.Follows i (solo i) (same i)
  apart : ∀ {i j x y z}, same i x y → same j x z → i = j

omit [RuleContext C] in
theorem independent_empty : Independent ({} : Bench C) (fun _ => {}) (fun _ _ _ => False) where
  follows i := by
    refine ⟨Forest.paired_empty, ?_, .nil⟩
    rw [Session.builder_empty]
    exact Builder.alike_empty _
  apart h := h.elim

/-- Whoever has a turn, the builders stay independent, and the owner sees what there is to see
at the bench of its own. -/
theorem Independent.turn {solo : Nat → Bench C} {same : Nat → Pairing}
    (h : Independent w solo same) (t : Turn C) :
    (w.turn t).1 = ((solo t.number).turn t).1 ∧
      ∃ same', Independent (w.turn t).2
        (Function.update solo t.number ((solo t.number).turn t).2) same' := by
  obtain ⟨own, hturn⟩ := (h.follows t.number).turn
  refine ⟨hturn.seen, Function.update same t.number own, ?_, ?_⟩
  · intro i
    by_cases hi : i = t.number
    · subst hi
      rw [Function.update_self, Function.update_self]
      exact hturn.follows
    · rw [Function.update_of_ne hi, Function.update_of_ne hi]
      exact (h.follows i).turn_of_ne hturn hi fun hxy hxz => hi (h.apart hxy hxz)
  · intro i j x y z hx hy
    -- the node made in this turn has no pair yet
    have hown : ∀ {k y z}, same k x y → own x z → k = t.number := by
      intro k y z hk hown
      rcases hturn.new hown with hold | rfl
      · exact h.apart hk hold
      · exact absurd ((h.follows k).forest.lt_size hk).1 (Nat.lt_irrefl _)
    by_cases hi : i = t.number
    · by_cases hj : j = t.number
      · rw [hi, hj]
      · rw [hi, Function.update_self] at hx
        rw [Function.update_of_ne hj] at hy
        exact absurd (hown hy hx) hj
    · rw [Function.update_of_ne hi] at hx
      by_cases hj : j = t.number
      · rw [hj, Function.update_self] at hy
        exact absurd (hown hx hy) hi
      · rw [Function.update_of_ne hj] at hy
        exact h.apart hx hy

theorem Independent.filter_play {solo : Nat → Bench C} {same : Nat → Pairing}
    (h : Independent w solo same) (turns : List (Turn C)) (number : Nat) :
    (w.play turns).filter (·.1 = number) =
      (solo number).play (turns.filter (·.number = number)) := by
  induction turns generalizing w solo same with
  | nil => rfl
  | cons t rest ih =>
      obtain ⟨hseen, same', hnext⟩ := h.turn t
      have hrest := ih hnext
      by_cases ht : t.number = number
      · subst ht
        rw [Function.update_self] at hrest
        rw [play, List.filter_cons_of_pos (by simp), List.filter_cons_of_pos (by simp), play, hrest,
          hseen]
      · rw [Function.update_of_ne fun heq => ht heq.symm] at hrest
        rw [play, List.filter_cons_of_neg (by simpa using ht),
          List.filter_cons_of_neg (by simpa using ht), hrest]

/-- However the turns of builders that share a forest come in between each other, what the
owner of a builder sees is what there is to see when the builder has the forest to
itself: the outcomes with their errors, the depths, the reports, and all nodes given so far,
with their trees and whether they have a parent. -/
theorem answers_independent_of_other_builders (turns : List (Turn C)) (number : Nat) :
    (({} : Bench C).play turns).filter (·.1 = number) =
      ({} : Bench C).play (turns.filter (·.number = number)) :=
  independent_empty.filter_play turns number

end Bench

end ParseTree
