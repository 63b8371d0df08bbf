import ParseTree.Node.Basic

/-!
# Visitors

A visitor computes a result for a tree. It decides for each kind of node what to
do, and a rule's turn comes with the traversal of its children as an action it
may take or leave. The traversal starts from the default result, asks before each
child whether to go on, and folds the child's result into the one so far. Three
visitors stand here for those that change at most one method.
-/

namespace ParseTree

/-- Methods with state `σ` and results in `α`. By default leaves give the default
result, rules give that of their children, the last result wins, and no child is
skipped. -/
structure Visitor (C σ α : Type) where
  defaultResult : StateM σ α
  rule : RuleNode C → StateM σ α → StateM σ α := fun _ children => children
  terminal : Leaf → StateM σ α := fun _ => defaultResult
  error : Leaf → StateM σ α := fun _ => defaultResult
  aggregate : α → α → StateM σ α := fun _ next => pure next
  continues : RuleNode C → α → StateM σ Bool := fun _ _ => pure true

namespace Visitor

variable {C σ α : Type}

mutual

def visit (v : Visitor C σ α) : Node C → StateM σ α
  | .rule id context children =>
      v.rule ⟨id, context, children⟩ do
        let seed ← v.defaultResult
        v.visitChildren ⟨id, context, children⟩ children seed
  | .terminal leaf => v.terminal leaf
  | .error leaf => v.error leaf

/-- Visit the remaining children of a rule, given the result so far. -/
def visitChildren (v : Visitor C σ α) (r : RuleNode C) : List (Node C) → α → StateM σ α
  | [], result => pure result
  | child :: rest, result => do
      if ← v.continues r result then
        let next ← v.visit child
        let result ← v.aggregate result next
        v.visitChildren r rest result
      else
        pure result

end

/-- Changes nothing: the result is always empty. -/
def bare : Visitor C Unit (List String) where
  defaultResult := return []

/-- The n-th default result, counted from 1, is `dn`. -/
def seeded : Visitor C Nat (List String) where
  defaultResult := do
    modify (· + 1)
    return ["d" ++ (← get).repr]

/-- Gives the text of a terminal. -/
def terminalText : Visitor C Unit (List String) where
  defaultResult := return []
  terminal leaf := return [leaf.text]

end Visitor

end ParseTree
