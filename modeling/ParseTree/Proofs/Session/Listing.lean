import ParseTree.Proofs.Forest.Ancestry
import ParseTree.Proofs.Node.Reading
import ParseTree.Proofs.Session.Runs

/-!
# Listing what is below a node

Descendants are listed with a stack: the node on top is handed out, and its children take
its place. Seen from the forest this is a walk along links from identity to identity, in
which nodes may be shared and met again on many ways, and nothing in a turn keeps it from
going on forever. It comes to an end because every node of the forest is a finite tree over
nodes of the forest, and what it has handed out by then is the pre-order.
-/

namespace ParseTree

variable {C : Type}

namespace Forest

/-- The children of a node, as the forest knows them. -/
def childIds (f : Forest C) (id : NodeId) : List NodeId :=
  ((f.node? id).map fun n => n.children.map Node.id).getD []

/-- One turn: the identity on top of the stack is handed out, and those of its children
take its place. -/
def next? (f : Forest C) : List NodeId → Option (NodeId × List NodeId)
  | [] => none
  | id :: stack => some (id, f.childIds id ++ stack)

/-- From the stack, turn after turn hands out these identities, and then there is none
left. -/
inductive Yields (f : Forest C) : List NodeId → List NodeId → Prop
  | done {stack : List NodeId} (h : f.next? stack = none) : Yields f stack []
  | turn {stack rest out : List NodeId} {id : NodeId} (h : f.next? stack = some (id, rest))
      (later : Yields f rest out) : Yields f stack (id :: out)

theorem childIds_of_mem {f : Forest C} {n : Node C} (h : n ∈ f) :
    f.childIds n.id = n.children.map Node.id := by
  rw [childIds, mem_iff.mp h, Option.map_some, Option.getD_some]

theorem Yields.unique {f : Forest C} {stack out out' : List NodeId} (h : f.Yields stack out)
    (h' : f.Yields stack out') : out = out' := by
  induction h generalizing out' with
  | done hnone =>
      cases h' with
      | done _ => rfl
      | turn hsome _ =>
          rw [hnone] at hsome
          cases hsome
  | turn hsome _ ih =>
      cases h' with
      | done hnone =>
          rw [hsome] at hnone
          cases hnone
      | turn hsome' later' =>
          rw [hsome] at hsome'
          cases hsome'
          rw [ih later']

/-- The pre-orders of the nodes on the stack are handed out, one after the other. Every
turn leaves one node less to be handed out, however much the stack grows. -/
theorem WellFormed.yields_preorders {f : Forest C} (h : f.WellFormed) {stack : List (Node C)}
    (hstack : ∀ n ∈ stack, n ∈ f) :
    f.Yields (stack.map Node.id) ((Node.preorders stack).map Node.id) := by
  induction hsize : Node.sizes stack using Nat.strongRecOn generalizing stack with
  | ind size ih =>
      cases stack with
      | nil => exact .done rfl
      | cons n rest =>
          have hn : n ∈ f := hstack n List.mem_cons_self
          have hmem : ∀ m ∈ n.children ++ rest, m ∈ f := by
            intro m hm
            rcases List.mem_append.mp hm with hchild | hrest
            · exact h.child_mem hn hchild
            · exact hstack m (List.mem_cons_of_mem n hrest)
          have hless : Node.sizes (n.children ++ rest) < size := by
            rw [← hsize, Node.sizes_append, Node.sizes, Node.size_eq]
            omega
          have hlater := ih _ hless hmem rfl
          rw [Node.preorders, Node.preorder_eq, List.cons_append, List.map_cons,
            ← Node.preorders_append]
          refine .turn ?_ hlater
          rw [next?, childIds_of_mem hn, List.map_append]

theorem WellFormed.yields_iff {f : Forest C} (h : f.WellFormed) {stack : List (Node C)}
    (hstack : ∀ n ∈ stack, n ∈ f) {out : List NodeId} :
    f.Yields (stack.map Node.id) out ↔ out = (Node.preorders stack).map Node.id := by
  constructor
  · intro hyields
    exact hyields.unique (h.yields_preorders hstack)
  · rintro rfl
    exact h.yields_preorders hstack

end Forest

namespace Node

theorem properDescendants_eq_flatMap (n : Node C) :
    n.properDescendants = n.children.flatMap descendants := by
  rw [properDescendants, toList_listing, preorders_eq_flatMap, funext descendants_eq_preorder]
  rfl

theorem descendants_eq_cons (n : Node C) : n.descendants = n :: n.properDescendants := by
  rw [properDescendants_eq_flatMap, funext descendants_eq_preorder]
  exact n.preorder_eq_cons_flatMap

theorem text_of_rule {n : Node C} {r : RuleNode C} (h : n.rule? = some r) :
    n.text = String.join (r.children.map text) := by
  rw [rule?_eq_some_iff.mp h]
  exact answers_text.rule r.id r.context r.children

theorem text_of_leaf {n : Node C} {leaf : Leaf} (h : n.leaf? = some leaf) :
    n.text = (leaf.symbol.map Token.text).getD "" := by
  rw [text, h]
  rfl

end Node

namespace Session

variable [RuleContext C]

/-- Whatever steps builders and the forest have taken, loose rules over shared or repeated
children included: listing what is below a node comes to an end and hands out the node and
then what is below its children, from left to right, a shared child each time it is met;
started from the children, it hands out the same without the node. The text of a rule is
that of its children, one after the other. The text of a leaf, be it an error or the end of
the input, is that of its token, and empty without one. -/
theorem descendants_in_preorder_and_text_joined {s : Session C} (h : Reachable (fun _ => True) s)
    {n : Node C} (hn : n ∈ s.forest) :
    (∀ out, s.forest.Yields [n.id] out ↔ out = n.descendants.map Node.id) ∧
      (∀ out, s.forest.Yields (n.children.map Node.id) out ↔
        out = n.properDescendants.map Node.id) ∧
      n.descendants = n :: n.children.flatMap Node.descendants ∧
      n.properDescendants = n.children.flatMap Node.descendants ∧
      (∀ d ∈ n.descendants, d ∈ s.forest) ∧
      (∀ r, n.rule? = some r → n.text = String.join (r.children.map Node.text)) ∧
      ∀ leaf, n.leaf? = some leaf → n.text = (leaf.symbol.map Token.text).getD "" := by
  have hforest := h.sound.forest
  have hbelow := n.properDescendants_eq_flatMap
  refine ⟨fun out => ?_, fun out => ?_, ?_, hbelow, fun d hd => ?_, fun r => Node.text_of_rule,
    fun leaf => Node.text_of_leaf⟩
  · have hstack : ∀ m ∈ [n], m ∈ s.forest := by simpa using hn
    rw [Node.descendants, Node.toList_listing]
    exact hforest.yields_iff hstack
  · have hstack : ∀ m ∈ n.children, m ∈ s.forest := fun m hm => hforest.child_mem hn hm
    rw [Node.properDescendants, Node.toList_listing]
    exact hforest.yields_iff hstack
  · rw [← hbelow]
    exact n.descendants_eq_cons
  · rw [Node.descendants_eq_preorder] at hd
    exact (hforest.id_le_of_mem_preorder hn hd).1

/-- A loose rule has the leaf of the end of the input twice, and another one has that rule
twice with the leaf between: the rule is listed once for each time, the leaf once for each
way to it, and as often is its text in that of the outer rule. -/
theorem listing_of_shared_twins :
    let last : Token := { type := -1, text := "x" }
    let leaf : Spanned Invocation := .terminal ⟨0, some last⟩
    let twins : Spanned Invocation := .rule 1 ⟨5, 0⟩ [leaf, leaf]
    let outer : Spanned Invocation := .rule 2 ⟨6, 0⟩ [twins, leaf, twins]
    let made := (({} : Session Invocation).after (.forest (.terminal (some last)))).after
      (.forest (.looseRule ⟨5, 0⟩ [leaf, leaf]))
    let s := made.after (.forest (.looseRule ⟨6, 0⟩ [twins, leaf, twins]))
    Reachable (fun _ => True) s ∧ outer.node ∈ s.forest ∧
      s.forest.Yields [2] [2, 1, 0, 0, 0, 1, 0, 0] ∧
      outer.node.text = String.join [twins.node.text, leaf.node.text, twins.node.text] ∧
      leaf.node.text = "x" := by
  intro last leaf twins outer made s
  have hmade : made.forest = (({} : Forest Invocation).push leaf).push twins := by
    unfold made
    simp only [forest_after_forest]
    rfl
  have hs : s.forest = made.forest.push outer := by
    unfold s
    rw [forest_after_forest, hmade]
    rfl
  have hmadeRun : Reachable (fun _ => True) made := by
    refine .step _ (.step _ .refl trivial trivial) trivial fun c hc => ?_
    rw [forest_after_forest, show c = leaf by simpa using hc]
    rfl
  have hrun : Reachable (fun _ => True) s := by
    refine .step _ hmadeRun trivial fun c hc => ?_
    rw [hmade]
    simp only [List.mem_cons, List.not_mem_nil, or_false] at hc
    rcases hc with rfl | rfl | rfl
    · rfl
    · rfl
    · rfl
  have houter : outer.node ∈ s.forest := by
    rw [hs, hmade]
    rfl
  have hleaf : leaf.node ∈ s.forest := by
    rw [hs, hmade]
    rfl
  obtain ⟨hyields, -, -, -, -, htext, -⟩ := descendants_in_preorder_and_text_joined hrun houter
  obtain ⟨-, -, -, -, -, -, hown⟩ := descendants_in_preorder_and_text_joined hrun hleaf
  refine ⟨hrun, houter, (hyields _).mpr ?_, htext _ rfl, hown _ rfl⟩
  rw [Node.descendants_eq_preorder]
  rfl

end Session

end ParseTree
