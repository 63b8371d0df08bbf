import ParseTree.Node.Basic

/-!
# Walks and their events

A walk tells a listener about every node. A leaf is visited once. A rule is
entered before its children and left after them: on the way in the listener hears
of it first and the hook of its context second, on the way out the other way
round. The walk keeps a stack of what is still to do, so trees may be as deep as
memory allows. Whoever wants to look at a walk as a whole has its events recorded.
-/

namespace ParseTree

/-- What a listener does to its state at each event. -/
structure Listener (C σ : Type) where
  enterRule : RuleNode C → σ → σ := fun _ state => state
  exitRule : RuleNode C → σ → σ := fun _ state => state
  terminal : Leaf → σ → σ := fun _ state => state
  error : Leaf → σ → σ := fun _ state => state

/-- What the context of a rule does to the state of a listener. -/
structure RuleHooks (C σ : Type) where
  enter : RuleNode C → σ → σ := fun _ state => state
  exit : RuleNode C → σ → σ := fun _ state => state

namespace Walk

variable {C σ : Type}

/-- Something the walk has still to do. -/
inductive Task (C : Type) where
  | visit (n : Node C)
  | exit (r : RuleNode C)

def enter (l : Listener C σ) (h : RuleHooks C σ) (r : RuleNode C) (state : σ) : σ :=
  h.enter r (l.enterRule r state)

def exit (l : Listener C σ) (h : RuleHooks C σ) (r : RuleNode C) (state : σ) : σ :=
  l.exitRule r (h.exit r state)

/-- A visit is counted twice for every node it reaches, so that it outweighs the
visits and the exit that take its place. -/
def Task.weight : Task C → Nat
  | .visit n => 2 * n.size
  | .exit _ => 1

def weights : List (Task C) → Nat
  | [] => 0
  | t :: rest => t.weight + weights rest

/-- Visit nodes in order before the other tasks. -/
def visits (nodes : List (Node C)) (rest : List (Task C)) : List (Task C) :=
  nodes.map .visit ++ rest

theorem weights_visits (nodes : List (Node C)) (rest : List (Task C)) :
    weights (visits nodes rest) = 2 * Node.sizes nodes + weights rest := by
  induction nodes with
  | nil => simp [visits, Node.sizes]
  | cons n nodes ih =>
      simp only [visits, List.map_cons, List.cons_append, weights, Task.weight, Node.sizes] at ih ⊢
      omega

def run (l : Listener C σ) (h : RuleHooks C σ) : List (Task C) → σ → σ
  | [], state => state
  | .visit (.rule id context children) :: rest, state =>
      run l h (visits children (.exit ⟨id, context, children⟩ :: rest))
        (enter l h ⟨id, context, children⟩ state)
  | .visit (.terminal leaf) :: rest, state => run l h rest (l.terminal leaf state)
  | .visit (.error leaf) :: rest, state => run l h rest (l.error leaf state)
  | .exit r :: rest, state => run l h rest (exit l h r state)
termination_by tasks => weights tasks
decreasing_by
  all_goals simp only [weights_visits, weights, Task.weight, Node.size]
  all_goals omega

end Walk

/-- Walk a tree with a listener and with the hooks of the rules' contexts. -/
def Node.walk {C σ : Type} (l : Listener C σ) (h : RuleHooks C σ) (n : Node C) (state : σ) : σ :=
  Walk.run l h [.visit n] state

/-- The events of a walk as data. A recording keeps what the listener hears and, where
contexts have hooks, what the hooks are told. -/
inductive WalkEvent (C : Type) where
  | enter (r : RuleNode C)
  | enterHook (r : RuleNode C)
  | terminal (leaf : Leaf)
  | error (leaf : Leaf)
  | exitHook (r : RuleNode C)
  | exit (r : RuleNode C)

namespace WalkEvent

variable {C : Type}

/-- The node the event is about. -/
def id : WalkEvent C → NodeId
  | .enter r => r.id
  | .enterHook r => r.id
  | .terminal leaf => leaf.id
  | .error leaf => leaf.id
  | .exitHook r => r.id
  | .exit r => r.id

/-- The number of rules entered and not yet left after the event. -/
def openAfter (openRules : Nat) : WalkEvent C → Nat
  | .enter _ => openRules + 1
  | .exit _ => openRules - 1
  | _ => openRules

/-- The largest number of rules open at once. -/
def deepest (events : List (WalkEvent C)) : Nat :=
  (events.foldl (fun (now, most) e => (e.openAfter now, max most (e.openAfter now))) (0, 0)).2

/-- Records everything a listener can hear. -/
def recorder : Listener C (Array (WalkEvent C)) where
  enterRule r events := events.push (.enter r)
  exitRule r events := events.push (.exit r)
  terminal leaf events := events.push (.terminal leaf)
  error leaf events := events.push (.error leaf)

end WalkEvent

/-- What a listener hears while it walks the tree, in order. -/
def Node.walkEvents {C : Type} (n : Node C) : List (WalkEvent C) :=
  (n.walk WalkEvent.recorder {} #[]).toList

end ParseTree
