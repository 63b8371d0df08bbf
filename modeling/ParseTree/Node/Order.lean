import ParseTree.Node.Basic

/-!
# Pre-order

`descendants` lists a node and everything below it, parents before children and
left before right, with a stack of the nodes still to be listed. `preorder` says
the same by recursion on the tree: what is below a node is the node itself and what
is below its children.
-/

namespace ParseTree.Node

variable {C : Type}

/-- List the nodes on the stack, each followed by what is below it. -/
def listing (done : Array (Node C)) : List (Node C) → Array (Node C)
  | [] => done
  | n :: stack => listing (done.push n) (n.children ++ stack)
termination_by stack => sizes stack
decreasing_by
  simp only [sizes, sizes_append, size_eq n]
  omega

/-- The node itself, then everything below it. -/
def descendants (n : Node C) : List (Node C) := (listing #[] [n]).toList

/-- Everything below the node. -/
def properDescendants (n : Node C) : List (Node C) := (listing #[] n.children).toList

mutual

def preorder : Node C → List (Node C)
  | .rule id context children => .rule id context children :: preorders children
  | .terminal leaf => [.terminal leaf]
  | .error leaf => [.error leaf]

def preorders : List (Node C) → List (Node C)
  | [] => []
  | n :: rest => n.preorder ++ preorders rest

end

theorem preorder_eq (n : Node C) : n.preorder = n :: preorders n.children := by
  cases n <;> simp [preorder, children, preorders]

theorem preorders_append (l r : List (Node C)) :
    preorders (l ++ r) = preorders l ++ preorders r := by
  induction l with
  | nil => rfl
  | cons n rest ih => simp [preorders, ih]

/-- The stack lists exactly the pre-orders of the nodes on it. -/
theorem toList_listing (done : Array (Node C)) (stack : List (Node C)) :
    (listing done stack).toList = done.toList ++ preorders stack := by
  fun_induction listing done stack with
  | case1 done => simp [preorders]
  | case2 done n stack ih =>
      rw [ih, Array.toList_push, preorders_append, preorders, preorder_eq]
      simp

theorem length_preorders_of_forall {nodes : List (Node C)}
    (h : ∀ n ∈ nodes, n.preorder.length = n.size) : (preorders nodes).length = sizes nodes := by
  induction nodes with
  | nil => rfl
  | cons n rest ih =>
      rw [preorders, sizes, List.length_append, h n (by simp), ih fun m hm => h m (by simp [hm])]

@[simp] theorem length_preorder (n : Node C) : n.preorder.length = n.size := by
  induction n with
  | rule id context children ih => simp [preorder, size, length_preorders_of_forall ih]
  | terminal leaf => rfl
  | error leaf => rfl

@[simp] theorem descendants_eq_preorder (n : Node C) : n.descendants = n.preorder := by
  simp [descendants, toList_listing, preorders]

/-- The leaves below the node, itself included, from left to right. -/
def leaves (n : Node C) : List Leaf := n.descendants.filterMap leaf?

/-- The nodes whose token has the given type, errors included, in pre-order. -/
def withTokenType (n : Node C) (type : Int32) : List (Node C) :=
  n.descendants.filter fun d => d.leaf?.any (·.hasType type)

/-- The rule nodes of the given rule, in pre-order. -/
def withRule [RuleContext C] (n : Node C) (index : UInt64) : List (Node C) :=
  n.descendants.filter fun d => d.rule?.any (·.ruleIndex == index)

/-- The texts of all leaves, joined from left to right. -/
def text (n : Node C) : String :=
  match n.leaf? with
  | some leaf => leaf.text
  | none => n.properDescendants.foldl (fun text d => text ++ (d.leaf?.map Leaf.text).getD "") ""

/-- A property holds of every node if it holds of a node whenever it holds of its
children. -/
theorem induct_children {motive : Node C → Prop}
    (step : ∀ n : Node C, (∀ c ∈ n.children, motive c) → motive n) (n : Node C) : motive n := by
  induction n with
  | rule id context children ih => exact step _ ih
  | terminal leaf => exact step _ (by simp [children])
  | error leaf => exact step _ (by simp [children])

/-- Only rules have children. -/
theorem exists_rule_of_mem_children {n c : Node C} (h : c ∈ n.children) :
    ∃ r : RuleNode C, n = r.node ∧ c ∈ r.children := by
  cases n with
  | rule id context children => exact ⟨⟨id, context, children⟩, rfl, h⟩
  | terminal leaf => cases h
  | error leaf => cases h

theorem preorders_eq_flatMap (nodes : List (Node C)) :
    preorders nodes = nodes.flatMap preorder := by
  induction nodes with
  | nil => rfl
  | cons n rest ih => rw [preorders, ih, List.flatMap_cons]

theorem preorder_eq_cons_flatMap (n : Node C) :
    n.preorder = n :: n.children.flatMap preorder := by
  rw [preorder_eq, preorders_eq_flatMap]

theorem mem_preorder_iff {n m : Node C} :
    n ∈ m.preorder ↔ n = m ∨ ∃ c ∈ m.children, n ∈ c.preorder := by
  rw [preorder_eq_cons_flatMap, List.mem_cons, List.mem_flatMap]

theorem mem_preorder_self (n : Node C) : n ∈ n.preorder := mem_preorder_iff.mpr (.inl rfl)

theorem mem_preorder_of_mem_children {n m : Node C} (h : n ∈ m.children) : n ∈ m.preorder :=
  mem_preorder_iff.mpr (.inr ⟨n, h, n.mem_preorder_self⟩)

theorem mem_preorder_trans {l m n : Node C} (h : l ∈ m.preorder) (h' : m ∈ n.preorder) :
    l ∈ n.preorder := by
  induction n using induct_children with
  | step n ih =>
      rcases mem_preorder_iff.mp h' with rfl | ⟨c, hc, hm⟩
      · exact h
      · exact mem_preorder_iff.mpr (.inr ⟨c, hc, ih c hc hm⟩)

end ParseTree.Node
