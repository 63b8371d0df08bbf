import ParseTree.Forest.Basic

/-!
# Ancestors

Ancestors are found by following parent links upward. No chain of parents is
longer than the forest unless it runs in a circle, so as many steps as there are
nodes are enough. A lineage is such a chain that has come to its end.
-/

namespace ParseTree.Forest

variable {C : Type}

/-- The rule that is the parent of a node. -/
def parentRule? (f : Forest C) (id : NodeId) : Option (RuleNode C) :=
  (f.parent? id).bind f.rule?

/-- At most so many ancestors, nearest first. -/
def climb (f : Forest C) : Nat → NodeId → List (RuleNode C)
  | 0, _ => []
  | steps + 1, id =>
      match f.parentRule? id with
      | none => []
      | some parent => parent :: f.climb steps parent.id

/-- All ancestors, nearest first. -/
def ancestors (f : Forest C) (id : NodeId) : List (RuleNode C) := f.climb f.size id

def depth (f : Forest C) (id : NodeId) : Nat := (f.ancestors id).length

def isAncestor (f : Forest C) (ancestor id : NodeId) : Bool :=
  (f.ancestors id).any (·.id == ancestor)

/-- The outermost ancestor of a rule, itself when it has no parent. -/
def root (f : Forest C) (r : RuleNode C) : RuleNode C := (f.ancestors r.id).getLast?.getD r

/-- These are all the ancestors of a node, nearest first, up to one without a parent. -/
inductive Lineage (f : Forest C) : NodeId → List (RuleNode C) → Prop
  | root {id : NodeId} (h : f.parent? id = none) : Lineage f id []
  | step {id : NodeId} {p : RuleNode C} {above : List (RuleNode C)}
      (h : f.parentRule? id = some p) (rest : Lineage f p.id above) : Lineage f id (p :: above)

theorem parentRule?_eq_none_of_parent?_eq_none {f : Forest C} {id : NodeId}
    (h : f.parent? id = none) : f.parentRule? id = none := by
  rw [parentRule?, h]
  rfl

/-- There is one way up. -/
theorem Lineage.unique {f : Forest C} {id : NodeId} {above above' : List (RuleNode C)}
    (h : f.Lineage id above) (h' : f.Lineage id above') : above = above' := by
  induction h generalizing above' with
  | root hnone =>
      cases h' with
      | root _ => rfl
      | step hp _ =>
          rw [parentRule?_eq_none_of_parent?_eq_none hnone] at hp
          cases hp
  | step hp rest ih =>
      cases h' with
      | root hnone =>
          rw [parentRule?_eq_none_of_parent?_eq_none hnone] at hp
          cases hp
      | step hp' rest' =>
          rw [hp] at hp'
          cases hp'
          rw [ih rest']

/-- The identities of a node and of everything above it. -/
def line (f : Forest C) (id : NodeId) : List NodeId := id :: (f.ancestors id).map RuleNode.id

theorem length_line (f : Forest C) (id : NodeId) : (f.line id).length = f.depth id + 1 := by
  simp [line, depth]

end ParseTree.Forest
