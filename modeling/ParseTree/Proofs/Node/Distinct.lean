import Mathlib.Data.List.Nodup
import Mathlib.Data.List.Pairwise
import ParseTree.Node.Order

/-!
# Trees without repeated nodes

Where every identity occurs once in a tree, a node is a child of one rule only, and what
is below one child is not below another.
-/

namespace ParseTree.Node

variable {C : Type}

theorem flatMap_preorder_perm {nodes : List (Node C)}
    (ih : ∀ n ∈ nodes, n.preorder.Perm (n :: n.preorder.flatMap children)) :
    (nodes.flatMap preorder).Perm (nodes ++ (nodes.flatMap preorder).flatMap children) := by
  induction nodes with
  | nil => exact .refl _
  | cons n rest ihRest =>
      have hrest := ihRest fun m hm => ih m (List.mem_cons_of_mem n hm)
      rw [List.flatMap_cons, List.flatMap_append]
      refine ((ih n (by simp)).append hrest).trans ?_
      rw [List.cons_append, List.cons_append]
      exact .cons n (List.perm_append_comm_assoc _ _ _)

/-- The nodes of a tree are its root and the children of its nodes. -/
theorem preorder_perm_children (n : Node C) :
    n.preorder.Perm (n :: n.preorder.flatMap children) := by
  induction n using induct_children with
  | step n ih =>
      rw [preorder_eq_cons_flatMap, List.flatMap_cons]
      exact .cons n (flatMap_preorder_perm ih)

theorem nodup_flatMap_children {n : Node C} (h : (n.preorder.map id).Nodup) :
    (n.preorder.flatMap fun d => d.children.map id).Nodup := by
  have hperm := (n.preorder_perm_children.map id).nodup_iff.mp h
  rw [List.map_cons, List.nodup_cons, List.map_flatMap] at hperm
  exact hperm.2

/-- A node is a child of one node of the tree only. -/
theorem eq_of_mem_children {n p q m : Node C} (h : (n.preorder.map id).Nodup)
    (hp : p ∈ n.preorder) (hq : q ∈ n.preorder) (hmp : m ∈ p.children) (hmq : m ∈ q.children) :
    p = q := by
  by_contra hne
  let ids : Node C → List NodeId := fun d => d.children.map id
  have : Std.Symm (Function.onFun List.Disjoint ids) := ⟨fun _ _ => List.disjoint_symm⟩
  have hpairwise := (List.nodup_flatMap.mp (nodup_flatMap_children h)).2
  have hdisjoint : (ids p).Disjoint (ids q) := hpairwise.forall hp hq hne
  exact hdisjoint (List.mem_map_of_mem hmp) (List.mem_map_of_mem hmq)

/-- What is below a node is below the siblings that have the node below them. -/
theorem map_id_preorder_subset {m : Node C} {nodes : List (Node C)}
    (h : m ∈ nodes.flatMap preorder) :
    m.preorder.map Node.id ⊆ (nodes.flatMap preorder).map Node.id := by
  obtain ⟨n, hn, hm⟩ := List.mem_flatMap.mp h
  apply List.map_subset
  intro d hd
  exact List.mem_flatMap.mpr ⟨n, hn, mem_preorder_trans hd hm⟩

/-- What follows for a child and for its later siblings if no identity occurs twice in
the rule and below them. -/
theorem nodup_siblings {id : NodeId} {n : Node C} {rest : List (Node C)}
    (h : (id :: ((n :: rest).flatMap preorder).map Node.id).Nodup) :
    (n.preorder.map Node.id).Nodup ∧ (id :: (rest.flatMap preorder).map Node.id).Nodup ∧
      ∀ i ∈ id :: (rest.flatMap preorder).map Node.id, i ∉ n.preorder.map Node.id := by
  rw [List.flatMap_cons, List.map_append] at h
  have hsplit := List.nodup_append.mp (List.perm_middle.nodup_iff.mpr h)
  refine ⟨hsplit.1, hsplit.2.1, fun i hi hn => ?_⟩
  exact hsplit.2.2 i hn i hi rfl

end ParseTree.Node
