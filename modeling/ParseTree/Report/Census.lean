import ParseTree.Visitor.Basic

/-!
# Counting the nodes of a tree

A census counts rules, terminals and errors, and gives the depth of the deepest
node below the root, which is itself at depth 0.
-/

namespace ParseTree

structure Census where
  rules : Nat := 0
  terminals : Nat := 0
  errors : Nat := 0
  maxDepth : Nat := 0
deriving DecidableEq, Repr

namespace Census

variable {C : Type}

/-- The census of trees that stand side by side. -/
def add (a b : Census) : Census where
  rules := a.rules + b.rules
  terminals := a.terminals + b.terminals
  errors := a.errors + b.errors
  maxDepth := max a.maxDepth b.maxDepth

/-- The census of a rule, given that of its children. -/
def under (r : RuleNode C) (children : Census) : Census :=
  { children with
    rules := children.rules + 1
    maxDepth := if r.children.isEmpty then 0 else children.maxDepth + 1 }

def counter : Visitor C Unit Census where
  defaultResult := return {}
  rule r children := return under r (← children)
  terminal _ := return { terminals := 1 }
  error _ := return { errors := 1 }
  aggregate a b := return a.add b

def render (c : Census) : String :=
  "rules: " ++ c.rules.repr ++ "\nterminals: " ++ c.terminals.repr ++ "\nerrors: "
    ++ c.errors.repr ++ "\nmax depth: " ++ c.maxDepth.repr ++ "\n"

end Census

namespace Node

variable {C : Type}

def census (n : Node C) : Census := (Census.counter.visit n ()).1

theorem visitChildren_counter (r : RuleNode C) (nodes : List (Node C)) (found : Census) :
    (Census.counter.visitChildren r nodes found ()).1 =
      (nodes.map census).foldl Census.add found := by
  induction nodes generalizing found with
  | nil => rfl
  | cons n rest ih =>
      rw [Visitor.visitChildren, List.map_cons, List.foldl_cons, ← ih]
      rfl

theorem census_rule (id : NodeId) (context : C) (children : List (Node C)) :
    (rule id context children).census =
      Census.under ⟨id, context, children⟩ ((children.map census).foldl Census.add {}) := by
  rw [census, Visitor.visit]
  change Census.under _ (Census.counter.visitChildren _ children {} ()).1 = _
  rw [visitChildren_counter]

end Node

end ParseTree
