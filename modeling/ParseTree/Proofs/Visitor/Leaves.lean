import Mathlib.Algebra.BigOperators.Group.List.Basic
import ParseTree.Proofs.Walk.Events
import ParseTree.Visitor.Basic

/-!
# Visitors and walks see the same leaves

A visitor asks each rule for a result and folds the results of the children into a
default result, rule by rule. A walk goes past the leaves one after the other. In a
monoid it does not matter where the parentheses are and how often the unit comes in,
so both arrive at the same product.
-/

namespace ParseTree

variable {C σ α M : Type}

namespace Visitor

/-- If a rule always goes on and results are folded without effects, visiting children
whose results are known folds these from the left. -/
theorem visitChildren_eq_foldl {v : Visitor C σ α} {r : RuleNode C} {op : α → α → α}
    {value : Node C → α} (hcontinues : ∀ a, v.continues r a = pure true)
    (haggregate : ∀ a b, v.aggregate a b = pure (op a b)) {nodes : List (Node C)}
    (hvisit : ∀ n ∈ nodes, v.visit n = pure (value n)) (result : α) :
    v.visitChildren r nodes result = pure ((nodes.map value).foldl op result) := by
  induction nodes generalizing result with
  | nil => rfl
  | cons n rest ih =>
      have hrest := ih (fun m hm => hvisit m (List.mem_cons_of_mem n hm)) (op result (value n))
      rw [visitChildren, hcontinues, pure_bind, if_pos rfl, hvisit n (by simp), pure_bind,
        haggregate, pure_bind, hrest]
      rfl

/-- Multiplies what the terminals and the errors are worth. -/
def leafProduct [Monoid M] (terminal error : Leaf → M) : Visitor C σ M where
  defaultResult := pure 1
  terminal leaf := pure (terminal leaf)
  error leaf := pure (error leaf)
  aggregate a b := pure (a * b)

end Visitor

namespace WalkEvent

/-- What an event is worth if it is that of a leaf. -/
def leafValue? (terminal error : Leaf → M) : WalkEvent C → Option M
  | .terminal leaf => some (terminal leaf)
  | .error leaf => some (error leaf)
  | _ => none

/-- Multiplies what the leaves are worth while it hears of them. -/
def multiplier [Monoid M] (terminal error : Leaf → M) : Listener C M where
  terminal leaf m := m * terminal leaf
  error leaf m := m * error leaf

theorem foldl_multiplier [Monoid M] (terminal error : Leaf → M) (events : List (WalkEvent C))
    (m : M) :
    events.foldl (tell (multiplier terminal error) {}) m =
      m * (events.filterMap (leafValue? terminal error)).prod := by
  induction events generalizing m with
  | nil => simp
  | cons e rest ih =>
      rw [List.foldl_cons, ih, List.filterMap_cons]
      cases e with
      | terminal leaf => simp [tell, multiplier, leafValue?, mul_assoc]
      | error leaf => simp [tell, multiplier, leafValue?, mul_assoc]
      | enter r => simp [tell, Walk.enter, multiplier, leafValue?]
      | exit r => simp [tell, Walk.exit, multiplier, leafValue?]
      | enterHook r => simp [tell, leafValue?]
      | exitHook r => simp [tell, leafValue?]

end WalkEvent

namespace Node

/-- The product of what the leaves are worth in the events of a walk. -/
def walkProduct [Monoid M] (terminal error : Leaf → M) (n : Node C) : M :=
  (n.walkEvents.filterMap (WalkEvent.leafValue? terminal error)).prod

theorem walkProduct_rule [Monoid M] (terminal error : Leaf → M) (id : NodeId) (context : C)
    (children : List (Node C)) :
    (rule id context children).walkProduct terminal error =
      (children.map (walkProduct terminal error)).prod := by
  calc
    (rule id context children).walkProduct terminal error =
        ((children.flatMap walkEvents).filterMap (WalkEvent.leafValue? terminal error)).prod := by
      rw [walkProduct, walkEvents_rule, List.filterMap_cons, List.filterMap_append]
      simp [WalkEvent.leafValue?, List.filterMap_cons]
    _ = (children.map (walkProduct terminal error)).prod := by
      rw [List.filterMap_flatMap, List.flatMap_def, List.prod_flatten, List.map_map]
      rfl

theorem visit_leafProduct [Monoid M] (terminal error : Leaf → M) (n : Node C) :
    (Visitor.leafProduct terminal error : Visitor C σ M).visit n =
      pure (n.walkProduct terminal error) := by
  induction n with
  | rule id context children ih =>
      have hchildren := Visitor.visitChildren_eq_foldl (r := ⟨id, context, children⟩)
        (fun _ => rfl) (fun _ _ => rfl) ih 1
      rw [Visitor.visit, walkProduct_rule, List.prod_eq_foldl]
      exact hchildren
  | terminal leaf =>
      rw [Visitor.visit, walkProduct, walkEvents_terminal]
      simp [Visitor.leafProduct, WalkEvent.leafValue?]
  | error leaf =>
      rw [Visitor.visit, walkProduct, walkEvents_error]
      simp [Visitor.leafProduct, WalkEvent.leafValue?]

/-- In every monoid, the visitor that gives each leaf its worth, starts at the unit and
multiplies returns the product over the leaf events of a walk, in their order, and that
is what a listener multiplies on the walk. -/
theorem visit_eq_prod_leaf_events [Monoid M] (terminal error : Leaf → M) (n : Node C) (s : σ) :
    ((Visitor.leafProduct terminal error).visit n).run s =
        ((n.walkEvents.filterMap (WalkEvent.leafValue? terminal error)).prod, s) ∧
      n.walk (WalkEvent.multiplier terminal error) {} 1 =
        (n.walkEvents.filterMap (WalkEvent.leafValue? terminal error)).prod := by
  constructor
  · rw [visit_leafProduct]
    rfl
  · rw [walk_eq_foldl, WalkEvent.foldl_multiplier, one_mul]

end Node

end ParseTree
