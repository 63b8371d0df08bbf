import Mathlib.Algebra.GroupWithZero.Nat
import ParseTree.Proofs.Builder.Pending

/-!
# Counting nodes while they are collected

A builder counts as it goes: a leaf and a closed rule count one, a finished subtree
counts as many nodes as it has, and a child that is taken back is subtracted again.
The count is always that of the trees the builder holds, which are the collected
ones while rules are open and the root afterwards. It cannot be upset from outside,
since trees never change.
-/

namespace ParseTree

variable {C : Type}

namespace Node

theorem sizes_reverse (nodes : List (Node C)) : sizes nodes.reverse = sizes nodes := by
  induction nodes with
  | nil => rfl
  | cons n rest ih =>
      rw [List.reverse_cons, sizes_append, ih, sizes, sizes, sizes, Nat.add_zero, Nat.add_comm]

end Node

/-- The number of nodes in trees that stand side by side. -/
def Spanned.total (nodes : List (Spanned C)) : Nat := Node.sizes (nodes.map Spanned.node)

namespace Spanned

@[simp] theorem total_nil : total ([] : List (Spanned C)) = 0 := rfl

@[simp] theorem total_cons (n : Spanned C) (rest : List (Spanned C)) :
    total (n :: rest) = n.node.size + total rest := rfl

@[simp] theorem total_append (l r : List (Spanned C)) : total (l ++ r) = total l + total r := by
  simp [total]

@[simp] theorem total_reverse (nodes : List (Spanned C)) : total nodes.reverse = total nodes := by
  rw [total, List.map_reverse, Node.sizes_reverse, total]

theorem total_eq_sum (nodes : List (Spanned C)) :
    total nodes = (nodes.map fun n => n.node.size).sum := by
  induction nodes with
  | nil => rfl
  | cons n rest ih => rw [total_cons, ih, List.map_cons, List.sum_cons]

theorem size_node_rule (id : NodeId) (context : C) (children : List (Spanned C)) :
    (rule id context children).node.size = total children + 1 := rfl

end Spanned

namespace Builder

/-- The trees that a builder holds, which are the collected ones and the root. -/
def held (b : Builder C) : List (Spanned C) := b.pending ++ b.root.toList

theorem total_pending (b : Builder C) :
    Spanned.total b.pending = (b.openRules.map fun r => Spanned.total r.children).sum := by
  rw [pending]
  induction b.openRules with
  | nil => rfl
  | cons r outer ih =>
      rw [List.flatMap_cons, Spanned.total_append, ih, List.map_cons, List.sum_cons,
        OpenRule.children, Spanned.total_reverse]

/-- The builder has counted what it holds, and no rule is open beside the root. -/
structure Counted (b : Builder C) : Prop where
  nodeCount_eq : b.nodeCount = Spanned.total b.held
  openRules_eq_nil : b.root ≠ none → b.openRules = []

theorem counted_empty : ({} : Builder C).Counted where
  nodeCount_eq := rfl
  openRules_eq_nil h := absurd rfl h

theorem Counted.root_eq_none {b : Builder C} (h : b.Counted) {r : OpenRule C}
    {outer : List (OpenRule C)} (hopen : b.openRules = r :: outer) : b.root = none := by
  by_contra hroot
  rw [h.openRules_eq_nil hroot] at hopen
  cases hopen

/-- What an open rule and the rules around it have collected is all there is. -/
theorem Counted.nodeCount_of_openRules {b : Builder C} (h : b.Counted) {r : OpenRule C}
    {outer : List (OpenRule C)} (hopen : b.openRules = r :: outer) :
    b.nodeCount =
      Spanned.total r.collected + Spanned.total (outer.flatMap OpenRule.collected) := by
  rw [h.nodeCount_eq, held, pending_of_openRules hopen, h.root_eq_none hopen]
  simp

/-- While a rule is open, the count has to match the collected trees. -/
theorem counted_of_openRules {r : OpenRule C} {outer : List (OpenRule C)} {count : Nat}
    (h : count =
      Spanned.total r.collected + Spanned.total (outer.flatMap OpenRule.collected)) :
    Counted ⟨r :: outer, none, count⟩ where
  nodeCount_eq := by simp [h, held, pending]
  openRules_eq_nil hroot := absurd rfl hroot

/-- A child adds all its nodes. -/
theorem Counted.collect {b : Builder C} (h : b.Counted) {r : OpenRule C}
    {outer : List (OpenRule C)} (hopen : b.openRules = r :: outer) (n : Spanned C) :
    Counted { b with
      openRules := r.collect n :: outer
      nodeCount := b.nodeCount + n.node.size } := by
  rw [h.root_eq_none hopen]
  apply counted_of_openRules
  rw [h.nodeCount_of_openRules hopen, OpenRule.collect, Spanned.total_cons]
  omega

/-- The nodes of a child that is taken back were counted when it was added. -/
theorem Counted.size_le_nodeCount {b : Builder C} (h : b.Counted) {context : C} {n : Spanned C}
    {collected : List (Spanned C)} {outer : List (OpenRule C)}
    (hopen : b.openRules = ⟨context, n :: collected⟩ :: outer) :
    n.node.size ≤ b.nodeCount := by
  rw [h.nodeCount_of_openRules hopen, Spanned.total_cons]
  omega

theorem Counted.takeBack {b : Builder C} (h : b.Counted) {context : C} {n : Spanned C}
    {collected : List (Spanned C)} {outer : List (OpenRule C)}
    (hopen : b.openRules = ⟨context, n :: collected⟩ :: outer) :
    Counted { b with
      openRules := ⟨context, collected⟩ :: outer
      nodeCount := b.nodeCount - n.node.size } := by
  rw [h.root_eq_none hopen]
  apply counted_of_openRules
  rw [h.nodeCount_of_openRules hopen, Spanned.total_cons, Nat.add_assoc,
    Nat.add_sub_cancel_left]

/-- A closed rule has the nodes of its children and itself. -/
theorem Counted.close {b : Builder C} (h : b.Counted) {r : OpenRule C}
    {outer : List (OpenRule C)} (hopen : b.openRules = r :: outer) (id : NodeId) :
    (complete { b with openRules := outer } (.rule id r.context r.children)).Counted := by
  have hcount := h.nodeCount_of_openRules hopen
  have hsize : (Spanned.rule id r.context r.children).node.size =
      Spanned.total r.collected + 1 := by
    rw [Spanned.size_node_rule, OpenRule.children, Spanned.total_reverse]
  cases outer with
  | nil =>
      refine ⟨?_, fun _ => rfl⟩
      change b.nodeCount + 1 = (Spanned.rule id r.context r.children).node.size
      rw [hsize, hcount]
      rfl
  | cons q outer =>
      rw [complete, h.root_eq_none hopen]
      apply counted_of_openRules
      rw [List.flatMap_cons, Spanned.total_append] at hcount
      rw [OpenRule.collect, Spanned.total_cons, hsize, hcount]
      omega

end Builder

end ParseTree
