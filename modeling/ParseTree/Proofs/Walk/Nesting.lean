import ParseTree.Proofs.Session.Ancestry
import ParseTree.Proofs.Walk.Events

/-!
# Nesting of a walk

At any moment of a walk some rules have been entered and not yet left. Nothing about
a listener's events says what these rules have to do with parents, which are kept by
the forest. In an orderly forest they are the ancestors of the node at hand, as far
up as the node where the walk began.
-/

namespace ParseTree

variable {C : Type}

namespace WalkEvent

/-- The rules entered and not yet left after the event, the last one entered first. -/
def leaveOpen (openRules : List (RuleNode C)) : WalkEvent C → List (RuleNode C)
  | .enter r => r :: openRules
  | .exit r => openRules.eraseP (·.id == r.id)
  | _ => openRules

/-- The rules entered and not yet left after some events. -/
def openRules (events : List (WalkEvent C)) : List (RuleNode C) := events.foldl leaveOpen []

/-- The rules that are open around the node of an event: a rule itself is not open
any more after its exit, and not yet before its entry. -/
def openAround (before : List (WalkEvent C)) (e : WalkEvent C) : List (RuleNode C) :=
  match e with
  | .exit _ => openRules (before ++ [e])
  | _ => openRules before

/-- The open rules, and above them the given ones, are the ancestors of the node of
the event. An exit is that of the innermost open rule. -/
def Fits (f : Forest C) (above stack : List (RuleNode C)) : WalkEvent C → Prop
  | .enter r => stack ++ above = f.ancestors r.id
  | .terminal leaf => stack ++ above = f.ancestors leaf.id
  | .error leaf => stack ++ above = f.ancestors leaf.id
  | .exit r => ∃ outer, stack = r :: outer ∧ outer ++ above = f.ancestors r.id
  | .enterHook _ => False
  | .exitHook _ => False

/-- Every event fits the rules that the events before it leave open. -/
def Nested (f : Forest C) (above : List (RuleNode C)) :
    List (RuleNode C) → List (WalkEvent C) → Prop
  | _, [] => True
  | stack, e :: rest => e.Fits f above stack ∧ Nested f above (leaveOpen stack e) rest

variable {f : Forest C} {above : List (RuleNode C)}

theorem nested_append {stack : List (RuleNode C)} {first second : List (WalkEvent C)} :
    Nested f above stack (first ++ second) ↔
      Nested f above stack first ∧ Nested f above (first.foldl leaveOpen stack) second := by
  induction first generalizing stack with
  | nil => simp [Nested]
  | cons e rest ih => simp only [List.cons_append, Nested, List.foldl_cons, ih, and_assoc]

/-- Events that are nested and leave open what was open before. -/
structure Enclosed (f : Forest C) (above stack : List (RuleNode C))
    (events : List (WalkEvent C)) : Prop where
  nested : Nested f above stack events
  foldl_eq : events.foldl leaveOpen stack = stack

theorem Enclosed.append {stack : List (RuleNode C)} {first second : List (WalkEvent C)}
    (h : Enclosed f above stack first) (h' : Enclosed f above stack second) :
    Enclosed f above stack (first ++ second) where
  nested := nested_append.mpr ⟨h.nested, by rw [h.foldl_eq]; exact h'.nested⟩
  foldl_eq := by rw [List.foldl_append, h.foldl_eq, h'.foldl_eq]

theorem Enclosed.flatMap {stack : List (RuleNode C)} {nodes : List (Node C)}
    (h : ∀ n ∈ nodes, Enclosed f above stack n.walkEvents) :
    Enclosed f above stack (nodes.flatMap Node.walkEvents) := by
  induction nodes with
  | nil => exact ⟨trivial, rfl⟩
  | cons n rest ih =>
      rw [List.flatMap_cons]
      exact (h n (by simp)).append (ih fun m hm => h m (List.mem_cons_of_mem n hm))

/-- What stands between the entry and the exit of a rule has the rule open. -/
theorem Enclosed.bracket {stack : List (RuleNode C)} {events : List (WalkEvent C)}
    {r : RuleNode C} (hr : stack ++ above = f.ancestors r.id)
    (h : Enclosed f above (r :: stack) events) :
    Enclosed f above stack (.enter r :: (events ++ [.exit r])) where
  nested := by
    refine ⟨hr, nested_append.mpr ⟨h.nested, ?_⟩⟩
    rw [leaveOpen, h.foldl_eq]
    exact ⟨⟨stack, rfl, hr⟩, trivial⟩
  foldl_eq := by
    rw [List.foldl_cons, List.foldl_append, leaveOpen, h.foldl_eq]
    simp [leaveOpen]

/-- The walk of a node is nested below the node's ancestors. -/
theorem enclosed_walkEvents (hf : f.Orderly) {n : Node C} (hn : n ∈ f)
    {stack : List (RuleNode C)} (hstack : stack ++ above = f.ancestors n.id) :
    Enclosed f above stack n.walkEvents := by
  induction n generalizing stack with
  | rule id context children ih =>
      rw [Node.walkEvents_rule]
      apply Enclosed.bracket hstack
      apply Enclosed.flatMap
      intro c hc
      apply ih c hc (hf.child_mem hn hc)
      rw [hf.ancestors_of_mem_children (r := ⟨id, context, children⟩) hn hc, List.cons_append,
        hstack]
      rfl
  | terminal leaf =>
      rw [Node.walkEvents_terminal]
      exact ⟨⟨hstack, trivial⟩, rfl⟩
  | error leaf =>
      rw [Node.walkEvents_error]
      exact ⟨⟨hstack, trivial⟩, rfl⟩

/-- An event that fits has the ancestors of its node around it, and an exit is that of
the innermost open rule. -/
theorem openAround_append_of_fits {before : List (WalkEvent C)} {e : WalkEvent C}
    (h : e.Fits f above (openRules before)) :
    openAround before e ++ above = f.ancestors e.id ∧
      ∀ r, e = .exit r → openRules before = r :: openAround before e := by
  cases e with
  | enter r => exact ⟨h, by rintro r ⟨⟩⟩
  | terminal leaf => exact ⟨h, by rintro r ⟨⟩⟩
  | error leaf => exact ⟨h, by rintro r ⟨⟩⟩
  | enterHook r => exact h.elim
  | exitHook r => exact h.elim
  | exit r =>
      obtain ⟨outer, hopen, houter⟩ := h
      have haround : openAround before (.exit r) = outer := by
        rw [openAround, openRules, List.foldl_append, ← openRules, hopen]
        simp [leaveOpen]
      rw [haround]
      refine ⟨houter, ?_⟩
      rintro _ ⟨⟩
      exact hopen

end WalkEvent

namespace Session

variable [RuleContext C]

/-- Whatever orderly steps have been taken, at every event of a walk the open rules
around the node, innermost first, and then the ancestors of the node where the walk
began are the ancestors of the node. A rule that is left is the innermost one that is
open, and in the end none is. -/
theorem open_rules_then_ancestors {s : Session C} (h : Reachable SessionStep.Orderly s)
    {t : Node C} (ht : t ∈ s.forest) {before after : List (WalkEvent C)} {e : WalkEvent C}
    (hwalk : t.walkEvents = before ++ e :: after) :
    e.openAround before ++ s.forest.ancestors t.id = s.forest.ancestors e.id ∧
      (∀ r, e = .exit r → WalkEvent.openRules before = r :: WalkEvent.openRules (before ++ [e])) ∧
      WalkEvent.openRules t.walkEvents = [] ∧
      (e.openAround before).length + s.forest.depth t.id = s.forest.depth e.id := by
  have henclosed : WalkEvent.Enclosed s.forest (s.forest.ancestors t.id) [] t.walkEvents :=
    WalkEvent.enclosed_walkEvents h.orderly ht rfl
  have hnested := henclosed.nested
  rw [hwalk, WalkEvent.nested_append] at hnested
  obtain ⟨haround, hexit⟩ := WalkEvent.openAround_append_of_fits hnested.2.1
  refine ⟨haround, ?_, henclosed.foldl_eq, ?_⟩
  · rintro r rfl
    exact hexit r rfl
  · rw [Forest.depth, Forest.depth, ← haround, List.length_append]

/-- A walk begins below the outermost rule. When it comes to the leaf, the inner rule
is open and the outer one is above the beginning; when it leaves the inner rule, no
other is open. -/
theorem ancestors_of_leaf_on_inner_walk :
    let leaf : Spanned Invocation := .terminal ⟨0, none⟩
    let inner : Spanned Invocation := .rule 1 ⟨1, 0⟩ [leaf]
    let r : RuleNode Invocation := ⟨1, ⟨1, 0⟩, [leaf.node]⟩
    let outer : RuleNode Invocation := ⟨2, ⟨2, 0⟩, [inner.node]⟩
    let made := (({} : Session Invocation).after (.forest (.terminal none))).after
      (.forest (.rule ⟨1, 0⟩ [leaf]))
    let s := made.after (.forest (.rule ⟨2, 0⟩ [inner]))
    Reachable SessionStep.Orderly s ∧ inner.node ∈ s.forest ∧
      inner.node.walkEvents = [.enter r, .terminal ⟨0, none⟩, .exit r] ∧
      [r] ++ s.forest.ancestors inner.id = s.forest.ancestors leaf.id ∧
      s.forest.ancestors inner.id = [outer] ∧
      WalkEvent.openRules [.enter r, .terminal ⟨0, none⟩] = [r] := by
  intro leaf inner r outer made s
  have hmade : made.forest = (({} : Forest Invocation).push leaf).join ⟨1, 0⟩ [leaf] := by
    unfold made
    rw [forest_after_forest, forest_after_forest]
    rfl
  have hs : s.forest = made.forest.join ⟨2, 0⟩ [inner] := by
    unfold s
    rw [forest_after_forest, hmade]
    rfl
  have hrun : Reachable SessionStep.Orderly s := by
    refine .step _ (.step _ (.step _ .refl trivial trivial) trivial fun c hc => ?_) trivial
      fun c hc => ?_
    · rw [List.mem_singleton.mp hc, forest_after_forest]
      rfl
    · rw [List.mem_singleton.mp hc, hmade]
      rfl
  have hinner : inner.node ∈ s.forest := by
    rw [hs, hmade]
    rfl
  have hwalk : inner.node.walkEvents = [.enter r, .terminal ⟨0, none⟩, .exit r] := by
    change (Node.rule r.id r.context [.terminal ⟨0, none⟩]).walkEvents = _
    rw [Node.walkEvents_rule, List.flatMap_singleton, Node.walkEvents_terminal]
    rfl
  have hleaf : inner.node.walkEvents = [.enter r] ++ .terminal ⟨0, none⟩ :: [.exit r] := hwalk
  have hexit : inner.node.walkEvents = [.enter r, .terminal ⟨0, none⟩] ++ .exit r :: [] := hwalk
  refine ⟨hrun, hinner, hwalk, (open_rules_then_ancestors hrun hinner hleaf).1, ?_, ?_⟩
  · rw [hs, hmade]
    rfl
  · rw [(open_rules_then_ancestors hrun hinner hexit).2.1 r rfl]
    rfl

end Session

end ParseTree
