import ParseTree.Node.Label
import ParseTree.Visitor.Basic

/-!
# Searching a tree

A search lists the nodes that match a query, in pre-order: rules of one rule
index, or leaves, errors included, whose token has one type. When only the first
match is wanted the traversal stops there.
-/

namespace ParseTree

inductive Query where
  | rule (index : UInt64)
  | token (type : Int32)
deriving DecidableEq, Repr

structure Found where
  label : String
  span : Span
deriving DecidableEq, Repr

namespace Query

variable {C : Type} [RuleContext C]

def matchRule (q : Query) (names : List String) (r : RuleNode C) : List Found :=
  match q with
  | .rule index =>
      if r.ruleIndex = index then [⟨ruleLabel names r.context, r.node.span⟩] else []
  | .token _ => []

def matchLeaf (q : Query) (leaf : Leaf) : List Found :=
  match q with
  | .rule _ => []
  | .token type =>
      if leaf.hasType type then [⟨Text.escapeWhitespace leaf.display, leaf.span⟩] else []

/-- What there is to find at the node itself. -/
def matchNode (q : Query) (names : List String) : Node C → List Found
  | .rule id context children => q.matchRule names ⟨id, context, children⟩
  | .terminal leaf => q.matchLeaf leaf
  | .error leaf => q.matchLeaf leaf

/-- Collects the matches of a query, or only the first. -/
def finder (q : Query) (first : Bool) (names : List String) : Visitor C Unit (List Found) where
  defaultResult := return []
  rule r children := do
    let here := q.matchRule names r
    if first && !here.isEmpty then
      return here
    return here ++ (← children)
  terminal leaf := return q.matchLeaf leaf
  error leaf := return q.matchLeaf leaf
  aggregate found more := return found ++ more
  continues _ found := return !(first && !found.isEmpty)

/-- The matches in a tree. -/
def search (q : Query) (first : Bool) (names : List String) (root : Node C) : List Found :=
  ((q.finder first names).visit root ()).1

theorem matchNode_rule (names : List String) (index : UInt64) (d : Node C) :
    (rule index).matchNode names d =
      if d.rule?.any (·.ruleIndex == index) then [⟨d.label names, d.span⟩] else [] := by
  cases d with
  | rule id context children => simp [matchNode, matchRule, Node.rule?, Node.label, RuleNode.node]
  | terminal leaf => rfl
  | error leaf => rfl

theorem matchNode_token (names : List String) (type : Int32) (d : Node C) :
    (token type).matchNode names d =
      if d.leaf?.any (·.hasType type) then
        [⟨Text.escapeWhitespace (d.label names), d.span⟩]
      else [] := by
  cases d with
  | rule id context children => rfl
  | terminal leaf => rfl
  | error leaf => rfl

end Query

end ParseTree
