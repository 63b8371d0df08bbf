import Mathlib.Data.Nat.SuccPred
import Mathlib.Logic.Function.Iterate
import ParseTree.Node.Order
import ParseTree.Visitor.Basic

/-!
# Default results in pre-order

The default result is asked for in two places: it is the result of a leaf, and it is where
the traversal of a rule's children starts. If nothing else is changed, every other result is
one of these, handed on. So there is one default result for each node, they come in the order
in which the nodes are visited, and the last one is the result of the visit, even if it was
the start of a rule without children.
-/

namespace ParseTree

variable {C σ α : Type}

namespace Visitor

/-- The visitor does something when it comes to a node and otherwise leaves every method but
the default result as it is by default. -/
structure Plain (v : Visitor C σ α) (arrive : Node C → StateM σ PUnit) : Prop where
  rule : ∀ r children, v.rule r children = do arrive r.node; children
  terminal : ∀ leaf, v.terminal leaf = do arrive (.terminal leaf); v.defaultResult
  error : ∀ leaf, v.error leaf = do arrive (.error leaf); v.defaultResult
  aggregate : ∀ result next, v.aggregate result next = pure next
  continues : ∀ r result, v.continues r result = pure true

namespace Plain

variable {v : Visitor C σ α} {arrive : Node C → StateM σ PUnit}

/-- The children that are left come one after the other, if this is known of what is below
each of them. -/
theorem visitChildren_eq_foldlM (h : v.Plain arrive) (r : RuleNode C) {nodes : List (Node C)}
    (ih : ∀ n ∈ nodes, ∀ result, v.visit n =
      n.preorder.foldlM (fun _ d => do arrive d; v.defaultResult) result) (result : α) :
    v.visitChildren r nodes result =
      (Node.preorders nodes).foldlM (fun _ d => do arrive d; v.defaultResult) result := by
  induction nodes generalizing result with
  | nil =>
      rw [visitChildren, Node.preorders, List.foldlM_nil]
  | cons n rest ihRest =>
      have hrest := ihRest fun m hm => ih m (List.mem_cons_of_mem n hm)
      rw [visitChildren, h.continues, pure_bind, if_pos rfl, ih n (by simp) result,
        Node.preorders, List.foldlM_append]
      simp only [h.aggregate, pure_bind, hrest]

/-- A visit goes through the nodes in pre-order and takes a default result at each. What the
result was before is of no importance, since the node itself has one. -/
theorem visit_eq_foldlM (h : v.Plain arrive) (n : Node C) (result : α) :
    v.visit n = n.preorder.foldlM (fun _ d => do arrive d; v.defaultResult) result := by
  induction n generalizing result with
  | rule id context children ih =>
      rw [visit, h.rule, Node.preorder, List.foldlM_cons, bind_assoc]
      simp only [h.visitChildren_eq_foldlM ⟨id, context, children⟩ ih]
      rfl
  | terminal leaf =>
      rw [visit, h.terminal, Node.preorder, List.foldlM_cons]
      simp
  | error leaf =>
      rw [visit, h.error, Node.preorder, List.foldlM_cons]
      simp

/-- If the result of a turn can be read off the state, a visit is a fold of the states. -/
theorem run_visit_of_turns (h : v.Plain arrive) {value : σ → α} {turn : σ → Node C → σ}
    (hturn : ∀ d s, (do arrive d; v.defaultResult).run s = (value (turn s d), turn s d))
    (n : Node C) (s : σ) :
    (v.visit n).run s = (value (n.preorder.foldl turn s), n.preorder.foldl turn s) := by
  rw [h.visit_eq_foldlM n (value s)]
  induction n.preorder generalizing s with
  | nil => rfl
  | cons d rest ih =>
      rw [List.foldlM_cons, StateT.run_bind, hturn]
      exact ih (turn s d)

end Plain

/-- The default results are the numbers from 1 on, one for each call. The state is the number
of calls so far, and no other method is changed. -/
def numbering : Visitor C Nat Nat where
  defaultResult := do
    modify (· + 1)
    get

theorem plain_numbering : (numbering : Visitor C Nat Nat).Plain fun _ => pure () where
  rule _ _ := rfl
  terminal _ := rfl
  error _ := rfl
  aggregate _ _ := rfl
  continues _ _ := rfl

theorem run_visit_numbering (n : Node C) (number : Nat) :
    (numbering.visit n).run number = (number + n.size, number + n.size) := by
  have hrun : (numbering.visit n).run number =
      (id (n.preorder.foldl (fun k _ => k + 1) number),
        n.preorder.foldl (fun k _ => k + 1) number) :=
    plain_numbering.run_visit_of_turns (fun _ _ => rfl) n number
  have hcount : n.preorder.foldl (fun k _ => k + 1) number = number + n.size := by
    rw [List.foldl_const, Nat.succ_iterate, Node.length_preorder]
  rw [hrun, hcount]
  rfl

end Visitor

/-- A call on a visitor that gives out numbers. -/
inductive NumberingCall (C : Type) where
  /-- The method for the kind of the node. -/
  | node (n : Node C)
  /-- The default result, with the number that it gives. -/
  | defaultResult (number : Nat)

namespace NumberingCall

/-- Put on record that the visit has come to a node. -/
def noteNode (n : Node C) : StateM (Nat × List (NumberingCall C)) PUnit :=
  modify fun (number, calls) => (number, calls ++ [.node n])

/-- Give out the next number, and put it on record. -/
def nextNumber : StateM (Nat × List (NumberingCall C)) Nat :=
  modifyGet fun (number, calls) =>
    (number + 1, number + 1, calls ++ [.defaultResult (number + 1)])

/-- Gives out numbers as `Visitor.numbering` does, with all calls on record. -/
def recorder : Visitor C (Nat × List (NumberingCall C)) Nat where
  defaultResult := nextNumber
  rule r children := do noteNode r.node; children
  terminal leaf := do noteNode (.terminal leaf); nextNumber
  error leaf := do noteNode (.error leaf); nextNumber

theorem plain_recorder : (recorder : Visitor C _ _).Plain noteNode where
  rule _ _ := rfl
  terminal _ := rfl
  error _ := rfl
  aggregate _ _ := rfl
  continues _ _ := rfl

/-- The calls at nodes that are visited one after the other, from a number on. -/
def atNodes (nodes : List (Node C)) (number : Nat) : List (NumberingCall C) :=
  (nodes.zipIdx number).flatMap fun (d, k) => [.node d, .defaultResult k]

theorem atNodes_cons (d : Node C) (rest : List (Node C)) (number : Nat) :
    atNodes (d :: rest) number =
      [.node d, .defaultResult number] ++ atNodes rest (number + 1) := by
  rw [atNodes, List.zipIdx_cons, List.flatMap_cons]
  rfl

/-- The number given out last, and the calls on record, after one more node. -/
def turn : Nat × List (NumberingCall C) → Node C → Nat × List (NumberingCall C)
  | (number, calls), d => (number + 1, calls ++ [.node d, .defaultResult (number + 1)])

theorem foldl_turn (nodes : List (Node C)) (number : Nat) (calls : List (NumberingCall C)) :
    nodes.foldl turn (number, calls) =
      (number + nodes.length, calls ++ atNodes nodes (number + 1)) := by
  induction nodes generalizing number calls with
  | nil => simp [atNodes]
  | cons d rest ih =>
      rw [List.foldl_cons, turn, ih, atNodes_cons, List.length_cons, List.append_assoc,
        Nat.add_assoc, Nat.add_comm 1]

theorem run_visit_recorder (n : Node C) :
    (recorder.visit n).run (0, []) = (n.size, n.size, atNodes n.preorder 1) := by
  have hturn : ∀ (d : Node C) s, (do noteNode d; recorder.defaultResult).run s =
      ((turn s d).1, turn s d) := by
    rintro d ⟨number, calls⟩
    change (number + 1, number + 1, (calls ++ [.node d]) ++ [.defaultResult (number + 1)]) = _
    rw [List.append_assoc]
    rfl
  rw [plain_recorder.run_visit_of_turns hturn, foldl_turn, Node.length_preorder]
  simp

end NumberingCall

/-- For every tree, a visitor whose default results are the numbers from 1 on, and that is
otherwise as by default, returns the number of nodes of the tree and has given out so many
numbers. The calls on record show where: the method for a node is called and next the default
result for that node, node after node in pre-order. The result is the number of the last
node. -/
theorem Node.visit_eq_number_of_last_node (n : Node C) :
    let count := n.descendants.length
    (Visitor.numbering.visit n).run 0 = (count, count) ∧
      (NumberingCall.recorder.visit n).run (0, []) =
        (count, count,
          (n.descendants.zipIdx 1).flatMap fun (d, k) => [.node d, .defaultResult k]) := by
  rw [descendants_eq_preorder, length_preorder]
  constructor
  · rw [Visitor.run_visit_numbering, Nat.zero_add]
  · exact NumberingCall.run_visit_recorder n

end ParseTree
