import ParseTree.Node.Order
import ParseTree.Proofs.Visitor.Course

/-!
# Stopping at the first find

A visitor that is content with the first find has nobody to tell but the rule it is in.
That rule stops before its next child and hands the find up as its result, by which the
rule around it learns that it has to stop too. A rule below which nothing was found hands
up nothing, and the visit goes on behind it. So the visit as a whole passes the leaves
from left to right and ends at the first at which something is found.
-/

namespace ParseTree

variable {C α : Type}

namespace Node

/-- The leaves below the node, itself included, from left to right, each as the terminal or
the error that it is. -/
def leafNodes (n : Node C) : List (Node C) := n.descendants.filter isLeaf

theorem leafNodes_rule (id : NodeId) (context : C) (children : List (Node C)) :
    (rule id context children).leafNodes = children.flatMap leafNodes := by
  have hrule : ¬ (rule id context children).isLeaf = true := Bool.false_ne_true
  unfold leafNodes
  simp only [descendants_eq_preorder]
  rw [preorder_eq_cons_flatMap, List.filter_cons_of_neg hrule, List.filter_flatMap]
  rfl

theorem leafNodes_terminal (leaf : Leaf) :
    (terminal leaf : Node C).leafNodes = [.terminal leaf] := by
  rw [leafNodes, descendants_eq_preorder]
  rfl

theorem leafNodes_error (leaf : Leaf) : (error leaf : Node C).leafNodes = [.error leaf] := by
  rw [leafNodes, descendants_eq_preorder]
  rfl

end Node

section UpToFound

variable (found? : Node C → Option α)

/-- The nodes before the first at which something is found, and that one, if there is one. -/
def upToFound (nodes : List (Node C)) : List (Node C) :=
  nodes.takeWhile (fun n => (found? n).isNone) ++ (nodes.find? fun n => (found? n).isSome).toList

theorem upToFound_cons (n : Node C) (rest : List (Node C)) :
    upToFound found? (n :: rest) =
      n :: if (found? n).isSome then [] else upToFound found? rest := by
  unfold upToFound
  cases hn : found? n with
  | none => simp [hn]
  | some a => simp [hn]

theorem upToFound_singleton (n : Node C) : upToFound found? [n] = [n] := by
  rw [upToFound_cons]
  split
  · rfl
  · rfl

/-- Nodes that come after a find are not reached. -/
theorem upToFound_append (nodes more : List (Node C)) :
    upToFound found? (nodes ++ more) =
      upToFound found? nodes ++
        if (nodes.findSome? found?).isSome then [] else upToFound found? more := by
  induction nodes with
  | nil => rfl
  | cons n rest ih =>
      rw [List.cons_append, upToFound_cons, upToFound_cons, ih, List.findSome?_cons]
      cases hn : found? n with
      | none => simp
      | some a => simp

end UpToFound

namespace Visitor

/-- Looks for something at the leaves. A result that is there is kept, and no further child
is visited then. The leaves that have been visited are noted. -/
def firstFound (found? : Node C → Option α) : Visitor C (List (Node C)) (Option α) where
  defaultResult := pure none
  terminal leaf := do
    modify (· ++ [.terminal leaf])
    return found? (.terminal leaf)
  error leaf := do
    modify (· ++ [.error leaf])
    return found? (.error leaf)
  aggregate result next := pure (result.or next)
  continues _ result := pure result.isNone

variable {found? : Node C → Option α}

/-- With a result at hand no child that is left is visited, and without one the leaves of
the children that are left are gone through. -/
theorem run_visitChildren_firstFound (r : RuleNode C) {nodes : List (Node C)}
    (ih : ∀ n ∈ nodes, ∀ visited, ((firstFound found?).visit n).run visited =
      (n.leafNodes.findSome? found?, visited ++ upToFound found? n.leafNodes))
    (result : Option α) (visited : List (Node C)) :
    ((firstFound found?).visitChildren r nodes result).run visited =
      (result.or ((nodes.flatMap Node.leafNodes).findSome? found?),
        visited ++
          if result.isSome then [] else upToFound found? (nodes.flatMap Node.leafNodes)) := by
  induction nodes generalizing result visited with
  | nil =>
      rw [visitChildren]
      change (result, visited) = _
      cases result with
      | none => simp [upToFound]
      | some a => simp
  | cons n rest ihRest =>
      cases result with
      | some a =>
          rw [run_visitChildren_of_stopped rfl]
          simp
      | none =>
          have hrest := ihRest fun m hm => ih m (List.mem_cons_of_mem n hm)
          rw [run_visitChildren_of_continued rfl (ih n (by simp) visited) rfl, hrest,
            List.flatMap_cons, List.findSome?_append, upToFound_append]
          simp

theorem run_visit_firstFound (n : Node C) (visited : List (Node C)) :
    ((firstFound found?).visit n).run visited =
      (n.leafNodes.findSome? found?, visited ++ upToFound found? n.leafNodes) := by
  induction n generalizing visited with
  | rule id context children ih =>
      have hchildren := run_visitChildren_firstFound ⟨id, context, children⟩ ih none visited
      rw [visit, Node.leafNodes_rule]
      exact hchildren
  | terminal leaf =>
      rw [visit, Node.leafNodes_terminal, upToFound_singleton, List.findSome?_singleton]
      rfl
  | error leaf =>
      rw [visit, Node.leafNodes_error, upToFound_singleton, List.findSome?_singleton]
      rfl

end Visitor

/-- For every tree and whatever is to be found at its leaves, the visitor that keeps the
first find and stops there returns what is found at the first leaf, from left to right, at
which something is found, and nothing if there is no such leaf. It has visited the leaves
before that one and that one, or all leaves. -/
theorem Node.visit_eq_first_found (found? : Node C → Option α) (n : Node C) :
    let leaves := n.descendants.filter isLeaf
    ((Visitor.firstFound found?).visit n).run [] =
      (leaves.findSome? found?,
        leaves.takeWhile (fun leaf => (found? leaf).isNone) ++
          (leaves.find? fun leaf => (found? leaf).isSome).toList) :=
  Visitor.run_visit_firstFound n []

end ParseTree
