import ParseTree.Token

/-!
# Nodes

A node is a rule with its children or a leaf; a leaf is a terminal or an error that
the parser recovered from, and has no token when the parser conjured it. Every node
has an identity of its own: two nodes may look alike and still be different
occurrences. What a node is never changes. Its parent is not part of it: parents are
kept by the forest that the node belongs to.

Every rule node carries a context chosen by the parser that built it. All that trees
ask of a context is the rule's index and the number of the alternative that matched,
0 when alternatives are not tracked.

One node may be a child in many places, so a few rules over each other can reach it
along more paths than can be counted. A spanned node therefore has its span at hand.
-/

namespace ParseTree

class RuleContext (C : Type) where
  ruleIndex : C → UInt64
  altNumber : C → UInt64 := fun _ => 0

/-- The context that records a rule and an alternative and nothing else. -/
structure Invocation where
  ruleIndex : UInt64
  altNumber : UInt64 := 0
deriving DecidableEq, Repr, Inhabited

instance : RuleContext Invocation where
  ruleIndex := Invocation.ruleIndex
  altNumber := Invocation.altNumber

/-- Identities are handed out in order by a forest. -/
abbrev NodeId := Nat

structure Leaf where
  id : NodeId
  symbol : Option Token
deriving DecidableEq, Repr, Inhabited

inductive Node (C : Type) where
  | rule (id : NodeId) (context : C) (children : List (Node C))
  | terminal (leaf : Leaf)
  | error (leaf : Leaf)

/-- A node known to be a rule. -/
structure RuleNode (C : Type) where
  id : NodeId
  context : C
  children : List (Node C)

namespace Leaf

/-- What the leaf adds to the text of a tree, which is nothing without a token. -/
def text (l : Leaf) : String := (l.symbol.map Token.text).getD ""

/-- How the leaf is shown to a reader. -/
def display (l : Leaf) : String := (l.symbol.map Token.display).getD "<missing>"

def span (l : Leaf) : Span := (l.symbol.map Token.span).getD .void

/-- Whether the leaf has a token, and one of the given type. -/
def hasType (l : Leaf) (type : Int32) : Bool := l.symbol.any (·.type == type)

end Leaf

namespace RuleNode

variable {C : Type}

def node (r : RuleNode C) : Node C := .rule r.id r.context r.children

def ruleIndex [RuleContext C] (r : RuleNode C) : UInt64 := RuleContext.ruleIndex r.context

end RuleNode

namespace Node

variable {C : Type}

instance : Inhabited (Node C) := ⟨.terminal default⟩

def id : Node C → NodeId
  | .rule id _ _ => id
  | .terminal leaf => leaf.id
  | .error leaf => leaf.id

def children : Node C → List (Node C)
  | .rule _ _ children => children
  | .terminal _ => []
  | .error _ => []

def rule? : Node C → Option (RuleNode C)
  | .rule id context children => some ⟨id, context, children⟩
  | .terminal _ => none
  | .error _ => none

/-- The leaf of a terminal or of an error. -/
def leaf? : Node C → Option Leaf
  | .rule _ _ _ => none
  | .terminal leaf => some leaf
  | .error leaf => some leaf

def isRule (n : Node C) : Bool := n.rule?.isSome

/-- Errors are leaves too. -/
def isLeaf (n : Node C) : Bool := n.leaf?.isSome

def isError : Node C → Bool
  | .error _ => true
  | _ => false

@[simp] theorem rule?_node (r : RuleNode C) : r.node.rule? = some r := rfl

@[simp] theorem id_node (r : RuleNode C) : r.node.id = r.id := rfl

@[simp] theorem children_node (r : RuleNode C) : r.node.children = r.children := rfl

theorem rule?_eq_some_iff {n : Node C} {r : RuleNode C} : n.rule? = some r ↔ n = r.node := by
  cases n with
  | rule id context children =>
      cases r
      simp [rule?, RuleNode.node]
  | terminal leaf => simp [rule?, RuleNode.node]
  | error leaf => simp [rule?, RuleNode.node]

/-- A property holds of every node if it holds of the leaves, and of a rule
whenever it holds of all its children. -/
@[elab_as_elim, induction_eliminator]
theorem induct {motive : Node C → Prop}
    (rule : ∀ id context children, (∀ c ∈ children, motive c) →
      motive (.rule id context children))
    (terminal : ∀ leaf, motive (.terminal leaf))
    (error : ∀ leaf, motive (.error leaf)) (n : Node C) : motive n :=
  @Node.rec C motive (fun nodes => ∀ c ∈ nodes, motive c)
    rule terminal error (by simp) (by simp +contextual) n

mutual

/-- The span of a rule is the union of its children's, from the left. -/
def span : Node C → Span
  | .rule _ _ children => Span.unions (spans children)
  | .terminal leaf => leaf.span
  | .error leaf => leaf.span

def spans : List (Node C) → List Span
  | [] => []
  | n :: rest => n.span :: spans rest

end

theorem spans_eq_map (nodes : List (Node C)) : spans nodes = nodes.map span := by
  induction nodes with
  | nil => rfl
  | cons n rest ih => simp [spans, ih]

mutual

/-- The number of nodes, where a node that occurs twice counts twice. -/
def size : Node C → Nat
  | .rule _ _ children => sizes children + 1
  | .terminal _ => 1
  | .error _ => 1

def sizes : List (Node C) → Nat
  | [] => 0
  | n :: rest => n.size + sizes rest

end

@[simp] theorem sizes_append (l r : List (Node C)) : sizes (l ++ r) = sizes l + sizes r := by
  induction l with
  | nil => simp [sizes]
  | cons n rest ih => simp [sizes, ih, Nat.add_assoc]

theorem size_eq (n : Node C) : n.size = sizes n.children + 1 := by
  cases n <;> simp [size, children, sizes]

end Node

/-- A node with its span and the proof that it is the right one. A rule over spanned
nodes takes its span from theirs, without a look at anything below them. -/
structure Spanned (C : Type) where
  node : Node C
  span : Span
  span_eq : span = node.span

namespace Spanned

variable {C : Type}

def id (s : Spanned C) : NodeId := s.node.id

def terminal (leaf : Leaf) : Spanned C := ⟨.terminal leaf, leaf.span, rfl⟩

def error (leaf : Leaf) : Spanned C := ⟨.error leaf, leaf.span, rfl⟩

theorem map_span (nodes : List (Spanned C)) :
    nodes.map span = Node.spans (nodes.map node) := by
  induction nodes with
  | nil => rfl
  | cons s rest ih => simp only [List.map_cons, Node.spans, ih, s.span_eq]

def rule (id : NodeId) (context : C) (children : List (Spanned C)) : Spanned C where
  node := .rule id context (children.map node)
  span := Span.unions (children.map span)
  span_eq := by rw [map_span, Node.span]

/-- The span adds nothing to what a node is. -/
@[ext] theorem ext {s t : Spanned C} (h : s.node = t.node) : s = t := by
  cases s with
  | mk node span span_eq =>
      cases t with
      | mk node' span' span_eq' =>
          cases h
          subst span_eq span_eq'
          rfl

@[simp] theorem node_terminal (leaf : Leaf) : (terminal leaf : Spanned C).node = .terminal leaf :=
  rfl

@[simp] theorem node_error (leaf : Leaf) : (error leaf : Spanned C).node = .error leaf := rfl

@[simp] theorem node_rule (id : NodeId) (context : C) (children : List (Spanned C)) :
    (rule id context children).node = .rule id context (children.map node) := rfl

end Spanned

end ParseTree
