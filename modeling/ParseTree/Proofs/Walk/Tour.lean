import Mathlib.Logic.Function.Iterate
import ParseTree.Walk.Event

/-!
# A walk is a tour

A walk keeps a stack on which visits of siblings and exits of the rules around them
are mixed. A tour is what a walk amounts to, by recursion on the tree: a rule is
entered, its children are toured from left to right, and the rule is left. Taking
the tasks one at a time, a walk gets from the visit of a node to the tasks below it
on the stack in a number of turns that depends on the node alone, and by then the
listener has been on the node's tour.
-/

namespace ParseTree

variable {C σ : Type}

namespace Node

mutual

/-- Tell a listener about a node and everything below it. -/
def tour (l : Listener C σ) (h : RuleHooks C σ) : Node C → σ → σ
  | .rule id context children, state =>
      let r : RuleNode C := ⟨id, context, children⟩
      let entered := h.enter r (l.enterRule r state)
      l.exitRule r (h.exit r (tours l h children entered))
  | .terminal leaf, state => l.terminal leaf state
  | .error leaf, state => l.error leaf state

def tours (l : Listener C σ) (h : RuleHooks C σ) : List (Node C) → σ → σ
  | [], state => state
  | n :: rest, state => tours l h rest (n.tour l h state)

end

mutual

/-- The turns that the visit of a node takes, one for a leaf and two for a rule. -/
def turns : Node C → Nat
  | .rule _ _ children => 1 + allTurns children + 1
  | .terminal _ => 1
  | .error _ => 1

def allTurns : List (Node C) → Nat
  | [] => 0
  | n :: rest => allTurns rest + n.turns

end

end Node

namespace Walk

/-- One turn of the walk: the first task is taken off the stack and done. -/
def turn (l : Listener C σ) (h : RuleHooks C σ) : List (Task C) × σ → List (Task C) × σ
  | ([], state) => ([], state)
  | (.visit (.rule id context children) :: rest, state) =>
      (visits children (.exit ⟨id, context, children⟩ :: rest),
        enter l h ⟨id, context, children⟩ state)
  | (.visit (.terminal leaf) :: rest, state) => (rest, l.terminal leaf state)
  | (.visit (.error leaf) :: rest, state) => (rest, l.error leaf state)
  | (.exit r :: rest, state) => (rest, exit l h r state)

variable (l : Listener C σ) (h : RuleHooks C σ)

/-- A turn does not change where the walk will end. -/
theorem run_turn (tasks : List (Task C)) (state : σ) :
    run l h (turn l h (tasks, state)).1 (turn l h (tasks, state)).2 = run l h tasks state := by
  match tasks with
  | [] => rfl
  | .visit (.rule id context children) :: rest => simp only [turn, run]
  | .visit (.terminal leaf) :: rest => simp only [turn, run]
  | .visit (.error leaf) :: rest => simp only [turn, run]
  | .exit r :: rest => simp only [turn, run]

theorem run_iterate_turn (k : Nat) (tasks : List (Task C)) (state : σ) :
    run l h ((turn l h)^[k] (tasks, state)).1 ((turn l h)^[k] (tasks, state)).2 =
      run l h tasks state := by
  induction k with
  | zero => rfl
  | succ k ih => rw [Function.iterate_succ_apply', run_turn, ih]

/-- Visits of siblings follow each other, if each of them ends with the rest of the
stack as it was. -/
theorem iterate_turn_visits {nodes : List (Node C)}
    (ih : ∀ n ∈ nodes, ∀ rest state, (turn l h)^[n.turns] (.visit n :: rest, state) =
      (rest, n.tour l h state)) (rest : List (Task C)) (state : σ) :
    (turn l h)^[Node.allTurns nodes] (visits nodes rest, state) =
      (rest, Node.tours l h nodes state) := by
  induction nodes generalizing state with
  | nil => rfl
  | cons n nodes ihNodes =>
      have hfirst : (turn l h)^[n.turns] (visits (n :: nodes) rest, state) =
          (visits nodes rest, n.tour l h state) := ih n (by simp) _ state
      rw [Node.allTurns, Function.iterate_add_apply, hfirst, Node.tours]
      exact ihNodes (fun m hm => ih m (List.mem_cons_of_mem n hm)) _

/-- From the visit of a node, the walk comes to the tasks below it on the stack. -/
theorem iterate_turn_visit (n : Node C) (rest : List (Task C)) (state : σ) :
    (turn l h)^[n.turns] (.visit n :: rest, state) = (rest, n.tour l h state) := by
  induction n generalizing rest state with
  | rule id context children ih =>
      have hchildren := iterate_turn_visits l h ih (.exit ⟨id, context, children⟩ :: rest)
        (enter l h ⟨id, context, children⟩ state)
      rw [Node.turns, Function.iterate_succ_apply, turn, Function.iterate_add_apply, hchildren,
        Function.iterate_one, turn, Node.tour]
      rfl
  | terminal leaf => rfl
  | error leaf => rfl

end Walk

/-- For every tree, listener and hooks, the walk comes to an end with an empty
stack after the node's turns, and leaves the listener where the tour leaves it. -/
theorem walk_eq_tour (l : Listener C σ) (h : RuleHooks C σ) (n : Node C) (state : σ) :
    n.walk l h state = n.tour l h state ∧
      (Walk.turn l h)^[n.turns] ([.visit n], state) = ([], n.tour l h state) ∧
      ∀ k, let (tasks, reached) := (Walk.turn l h)^[k] ([.visit n], state)
        Walk.run l h tasks reached = n.walk l h state := by
  have hend := Walk.iterate_turn_visit l h n [] state
  have hrun := Walk.run_iterate_turn l h n.turns [.visit n] state
  rw [hend] at hrun
  refine ⟨?_, hend, fun k => Walk.run_iterate_turn l h k [.visit n] state⟩
  calc
    n.walk l h state = Walk.run l h [.visit n] state := rfl
    _ = Walk.run l h [] (n.tour l h state) := hrun.symm
    _ = n.tour l h state := by rw [Walk.run]

end ParseTree
