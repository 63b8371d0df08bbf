import Mathlib.Data.List.Basic
import Mathlib.Data.List.Perm.Basic
import ParseTree.Node.Order
import ParseTree.Proofs.Walk.Tour
import ParseTree.Walk.Event

/-!
# The events of a walk

What a listener hears of a rule stands between its entry and its exit, and consists
of what it hears of the children from left to right. Every question about the order
of events can be answered from this.
-/

namespace ParseTree

variable {C σ : Type}

theorem Walk.run_visit (l : Listener C σ) (h : RuleHooks C σ) (n : Node C)
    (rest : List (Walk.Task C)) (state : σ) :
    Walk.run l h (.visit n :: rest) state = Walk.run l h rest (n.tour l h state) := by
  rw [← Walk.run_iterate_turn l h n.turns, Walk.iterate_turn_visit]

namespace Node

theorem walk_eq (l : Listener C σ) (h : RuleHooks C σ) (n : Node C) (state : σ) :
    n.walk l h state = n.tour l h state := by
  rw [walk, Walk.run_visit, Walk.run]

theorem walkEvents_eq (n : Node C) :
    n.walkEvents = (n.tour WalkEvent.recorder {} #[]).toList := by
  rw [walkEvents, walk_eq]

/-- A recording of siblings goes on where the one before ended. -/
theorem toList_tours_recorder {nodes : List (Node C)}
    (ih : ∀ n ∈ nodes, ∀ events, (n.tour WalkEvent.recorder {} events).toList =
      events.toList ++ n.walkEvents) (events : Array (WalkEvent C)) :
    (tours WalkEvent.recorder {} nodes events).toList =
      events.toList ++ nodes.flatMap walkEvents := by
  induction nodes generalizing events with
  | nil => simp [tours]
  | cons n rest ihRest =>
      rw [tours, ihRest (fun m hm => ih m (List.mem_cons_of_mem n hm)), ih n (by simp),
        List.flatMap_cons, List.append_assoc]

/-- A recording of a rule, given that recordings of its children go on as they should. -/
theorem toList_tour_rule {id : NodeId} {context : C} {children : List (Node C)}
    (ih : ∀ n ∈ children, ∀ events, (n.tour WalkEvent.recorder {} events).toList =
      events.toList ++ n.walkEvents) (events : Array (WalkEvent C)) :
    ((rule id context children).tour WalkEvent.recorder {} events).toList =
      events.toList ++ .enter ⟨id, context, children⟩ ::
        (children.flatMap walkEvents ++ [.exit ⟨id, context, children⟩]) := by
  have htour : (rule id context children).tour WalkEvent.recorder {} events =
      (tours WalkEvent.recorder {} children (events.push (.enter ⟨id, context, children⟩))).push
        (.exit ⟨id, context, children⟩) := by
    rw [tour]
    rfl
  rw [htour, Array.toList_push, toList_tours_recorder ih]
  simp

/-- What is recorded of a node does not depend on what was recorded before. -/
theorem toList_tour_recorder (n : Node C) (events : Array (WalkEvent C)) :
    (n.tour WalkEvent.recorder {} events).toList = events.toList ++ n.walkEvents := by
  induction n generalizing events with
  | rule id context children ih =>
      rw [walkEvents_eq, toList_tour_rule ih, toList_tour_rule ih]
      rfl
  | terminal leaf =>
      rw [walkEvents_eq]
      simp [tour, WalkEvent.recorder]
  | error leaf =>
      rw [walkEvents_eq]
      simp [tour, WalkEvent.recorder]

theorem walkEvents_rule (id : NodeId) (context : C) (children : List (Node C)) :
    (rule id context children).walkEvents =
      .enter ⟨id, context, children⟩ ::
        (children.flatMap walkEvents ++ [.exit ⟨id, context, children⟩]) := by
  rw [walkEvents_eq, toList_tour_rule fun n _ => toList_tour_recorder n]
  rfl

theorem walkEvents_terminal (leaf : Leaf) :
    (terminal leaf : Node C).walkEvents = [.terminal leaf] := by
  rw [walkEvents_eq]
  rfl

theorem walkEvents_error (leaf : Leaf) : (error leaf : Node C).walkEvents = [.error leaf] := by
  rw [walkEvents_eq]
  rfl

end Node

/-- The node that a walk comes to at the event: a rule at its entry, or a leaf. -/
def WalkEvent.arrival? : WalkEvent C → Option (Node C)
  | .enter r => some r.node
  | .terminal leaf => some (.terminal leaf)
  | .error leaf => some (.error leaf)
  | _ => none

namespace Node

/-- A walk comes to the nodes of the tree in pre-order. -/
theorem filterMap_arrival?_walkEvents (n : Node C) :
    n.walkEvents.filterMap WalkEvent.arrival? = n.preorder := by
  induction n with
  | rule id context children ih =>
      rw [walkEvents_rule, preorder_eq_cons_flatMap]
      simp only [List.filterMap_cons, List.filterMap_append, WalkEvent.arrival?,
        List.filterMap_nil, List.append_nil, List.filterMap_flatMap]
      exact congrArg (_ :: ·) (List.flatMap_congr ih)
  | terminal leaf =>
      rw [walkEvents_terminal]
      rfl
  | error leaf =>
      rw [walkEvents_error]
      rfl

end Node

namespace Node

/-- What a walk tells of the node itself. -/
def ownEvents : Node C → List (WalkEvent C)
  | .rule id context children =>
      [.enter ⟨id, context, children⟩, .exit ⟨id, context, children⟩]
  | .terminal leaf => [.terminal leaf]
  | .error leaf => [.error leaf]

/-- But for their order, the events of a walk are those of the nodes of the tree. -/
theorem walkEvents_perm_ownEvents (n : Node C) :
    n.walkEvents.Perm (n.preorder.flatMap ownEvents) := by
  induction n with
  | rule id context children ih =>
      rw [walkEvents_rule, preorder_eq_cons_flatMap, List.flatMap_cons, List.flatMap_assoc]
      apply List.Perm.cons
      apply (List.perm_append_singleton _ _).trans
      apply List.Perm.cons
      exact List.Perm.flatMap_left children ih
  | terminal leaf =>
      rw [walkEvents_terminal]
      exact .refl _
  | error leaf =>
      rw [walkEvents_error]
      exact .refl _

end Node

/-- What a listener and the hooks of the contexts make of an event. -/
def WalkEvent.tell (l : Listener C σ) (h : RuleHooks C σ) (state : σ) : WalkEvent C → σ
  | .enter r => Walk.enter l h r state
  | .exit r => Walk.exit l h r state
  | .terminal leaf => l.terminal leaf state
  | .error leaf => l.error leaf state
  | .enterHook _ => state
  | .exitHook _ => state

namespace Node

theorem tours_eq_foldl {l : Listener C σ} {h : RuleHooks C σ} {nodes : List (Node C)}
    (ih : ∀ n ∈ nodes, ∀ state, n.tour l h state = n.walkEvents.foldl (WalkEvent.tell l h) state)
    (state : σ) :
    tours l h nodes state = (nodes.flatMap walkEvents).foldl (WalkEvent.tell l h) state := by
  induction nodes generalizing state with
  | nil => rfl
  | cons n rest ihRest =>
      rw [tours, List.flatMap_cons, List.foldl_append, ← ih n (by simp)]
      exact ihRest (fun m hm => ih m (List.mem_cons_of_mem n hm)) _

theorem tour_eq_foldl (l : Listener C σ) (h : RuleHooks C σ) (n : Node C) (state : σ) :
    n.tour l h state = n.walkEvents.foldl (WalkEvent.tell l h) state := by
  induction n generalizing state with
  | rule id context children ih =>
      rw [walkEvents_rule, List.foldl_cons, List.foldl_append, ← tours_eq_foldl ih, tour]
      rfl
  | terminal leaf =>
      rw [walkEvents_terminal]
      rfl
  | error leaf =>
      rw [walkEvents_error]
      rfl

/-- A walk tells its listener the recorded events one after the other, whatever the
listener and the hooks do to the state. -/
theorem walk_eq_foldl (l : Listener C σ) (h : RuleHooks C σ) (n : Node C) (state : σ) :
    n.walk l h state = n.walkEvents.foldl (WalkEvent.tell l h) state := by
  rw [walk_eq, tour_eq_foldl]

end Node

end ParseTree
