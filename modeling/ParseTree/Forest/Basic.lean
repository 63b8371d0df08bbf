import ParseTree.Node.Basic

/-!
# Forests

A forest owns nodes and knows the parent of each. A new node gets the next
identity, which is its place in the forest, and starts without a parent. Nodes
are never changed or removed, and a parent once given stays.

`rule` makes a rule node over nodes that have no parent yet and becomes their
parent. All children are checked before the forest changes at all, so a refusal
leaves it as it was. What else can go wrong while a tree is put together is listed
here too, with the messages.
-/

namespace ParseTree

/-- What was to be added when no rule was open to take it. -/
inductive Addition where
  | token
  | missingToken
  | errorToken
  | subtree
  | ruleEnd
deriving DecidableEq, Repr

inductive BuildError where
  /-- The node has a parent, or is already waiting for one. -/
  | alreadyAttached
  | noOpenRule (addition : Addition)
  | unclosedRules (count : Nat)
  | emptyTree
  | rootAlreadyBuilt
deriving DecidableEq, Repr

def Addition.render : Addition → String
  | .token => "token"
  | .missingToken => "missing token"
  | .errorToken => "error token"
  | .subtree => "subtree"
  | .ruleEnd => "rule end"

def BuildError.message : BuildError → String
  | .alreadyAttached => "Node is already attached to a parent"
  | .noOpenRule addition => "No open rule to attach " ++ addition.render ++ " to"
  | .unclosedRules count => count.repr ++ " rule(s) still open"
  | .emptyTree => "Tree has no root rule"
  | .rootAlreadyBuilt => "Root rule is already complete"

/-- A node with its span, and its parent, if it has one. -/
structure Slot (C : Type) extends Spanned C where
  parent : Option NodeId := none

structure Forest (C : Type) where
  slots : Array (Slot C) := #[]

/-- Work on a forest. After an error the forest is in whatever state it had then. -/
abbrev ForestM (C : Type) := EStateM BuildError (Forest C)

namespace Forest

variable {C : Type}

instance : Inhabited (Forest C) := ⟨{}⟩

/-- The number of nodes, which is the next identity. -/
def size (f : Forest C) : Nat := f.slots.size

def spanned? (f : Forest C) (id : NodeId) : Option (Spanned C) := f.slots[id]?.map Slot.toSpanned

def node? (f : Forest C) (id : NodeId) : Option (Node C) := (f.spanned? id).map Spanned.node

/-- The parent's identity. -/
def parent? (f : Forest C) (id : NodeId) : Option NodeId := f.slots[id]?.bind Slot.parent

def rule? (f : Forest C) (id : NodeId) : Option (RuleNode C) := (f.node? id).bind Node.rule?

instance : Membership (Node C) (Forest C) := ⟨fun f n => f.node? n.id = some n⟩

/-- The forest with one more node, which has no parent. -/
def push (f : Forest C) (node : Spanned C) : Forest C := ⟨f.slots.push { toSpanned := node }⟩

/-- The forest in which a node has the given parent. -/
def link (f : Forest C) (child parent : NodeId) : Forest C :=
  ⟨f.slots.modify child fun slot => { slot with parent := some parent }⟩

theorem spanned?_push (f : Forest C) (node : Spanned C) (id : NodeId) :
    (f.push node).spanned? id = if id = f.size then some node else f.spanned? id := by
  simp only [spanned?, push, size, Array.getElem?_push]
  by_cases hid : id = f.slots.size
  · simp [hid]
  · simp [hid]

theorem node?_push (f : Forest C) (node : Spanned C) (id : NodeId) :
    (f.push node).node? id = if id = f.size then some node.node else f.node? id := by
  simp only [node?, spanned?_push]
  split
  · rfl
  · rfl

theorem parent?_push (f : Forest C) (node : Spanned C) (id : NodeId) :
    (f.push node).parent? id = f.parent? id := by
  simp only [parent?, push, Array.getElem?_push]
  split
  · next h => simp [h]
  · rfl

theorem spanned?_link (f : Forest C) (child parent id : NodeId) :
    (f.link child parent).spanned? id = f.spanned? id := by
  simp only [spanned?, link, Array.getElem?_modify]
  split
  · cases f.slots[id]? <;> rfl
  · rfl

theorem node?_link (f : Forest C) (child parent id : NodeId) :
    (f.link child parent).node? id = f.node? id := by
  rw [node?, node?, spanned?_link]

theorem parent?_link (f : Forest C) (child parent id : NodeId) :
    (f.link child parent).parent? id =
      if child = id ∧ id < f.size then some parent else f.parent? id := by
  simp only [parent?, link, size, Array.getElem?_modify]
  by_cases hid : child = id
  · by_cases hlt : id < f.slots.size
    · simp [hid, hlt]
    · simp [hid, hlt]
  · simp [hid]

/-- Add a node that is told its identity. -/
def insert (make : NodeId → Spanned C) : ForestM C (Spanned C) :=
  modifyGet fun f =>
    let node := make f.size
    (node, f.push node)

def terminal (symbol : Option Token) : ForestM C (Spanned C) :=
  insert fun id => .terminal { id, symbol }

def error (symbol : Option Token) : ForestM C (Spanned C) :=
  insert fun id => .error { id, symbol }

/-- Add a rule node over any nodes and leave their parents alone. -/
def looseRule (context : C) (children : List (Spanned C)) : ForestM C (Spanned C) :=
  insert fun id => .rule id context children

/-- Give a node its parent, which it must not have yet. -/
def setParent (child parent : NodeId) : ForestM C Unit := fun f =>
  if (f.parent? child).isSome then .error .alreadyAttached f
  else .ok () (f.link child parent)

/-- No node has a parent and none occurs twice. -/
def detached (f : Forest C) : List (Spanned C) → Bool
  | [] => true
  | n :: rest =>
      (f.parent? n.id).isNone && rest.all (·.id != n.id) && f.detached rest

def checkDetached (children : List (Spanned C)) : ForestM C Unit := fun f =>
  if f.detached children then .ok () f else .error .alreadyAttached f

/-- Add a rule node and become the parent of its children. -/
def rule (context : C) (children : List (Spanned C)) : ForestM C (Spanned C) := do
  checkDetached children
  let node ← looseRule context children
  children.forM fun child => setParent child.id node.id
  return node

end Forest

end ParseTree
