import Mathlib.Data.List.Nodup
import ParseTree.Forest.Ancestry
import ParseTree.Node.Order
import ParseTree.Proofs.Forest.Links

/-!
# The way up and the way down

Where the two views of a forest agree, a rule is younger than its children. A chain
of parents therefore goes up in the order in which nodes were made and ends before
the forest does. The line of a node is the node with everything above it. Going down
from a node to anything below it only makes the line longer at its lower end, and
that is why two different nodes that share a parent, or that have none, have nothing
below them in common.
-/

namespace ParseTree

variable {C : Type}

namespace Forest

/-- What is below a node belongs to the forest too and is not younger. -/
theorem WellFormed.id_le_of_mem_preorder {f : Forest C} (h : f.WellFormed) {m n : Node C}
    (hm : m ∈ f) (hn : n ∈ m.preorder) : n ∈ f ∧ n.id ≤ m.id := by
  induction m using Node.induct_children with
  | step m ih =>
      rcases Node.mem_preorder_iff.mp hn with rfl | ⟨c, hc, hbelow⟩
      · exact ⟨hm, Nat.le_refl _⟩
      · obtain ⟨hnf, hle⟩ := ih c hc (h.child_mem hm hc) hbelow
        exact ⟨hnf, Nat.le_trans hle (Nat.le_of_lt (h.child_lt hm hc))⟩

/-- The nodes are in order and the two views agree. -/
structure Orderly (f : Forest C) : Prop extends f.WellFormed, f.Linked

namespace Orderly

variable {f : Forest C} (h : f.Orderly)

include h

/-- The parent of a node is the rule that has it as a child. -/
theorem parentRule?_eq_some_iff {id : NodeId} {p : RuleNode C} :
    f.parentRule? id = some p ↔ p.node ∈ f ∧ id ∈ p.children.map Node.id := by
  have hid : ∀ {q : NodeId}, f.rule? q = some p → p.id = q :=
    fun hq => h.id_eq (rule?_eq_some_iff.mp hq)
  rw [parentRule?, Option.bind_eq_some_iff]
  constructor
  · rintro ⟨q, hq, hp⟩
    obtain ⟨r, hr, hmem⟩ := h.parent?_eq_some_iff.mp hq
    rw [hp] at hr
    cases hr
    refine ⟨?_, hmem⟩
    rw [mem_iff, Node.id_node, hid hp]
    exact rule?_eq_some_iff.mp hp
  · rintro ⟨hp, hmem⟩
    have hrule : f.rule? p.id = some p := rule?_eq_some_iff.mpr hp
    exact ⟨p.id, h.parent?_eq_some_iff.mpr ⟨p, hrule, hmem⟩, hrule⟩

theorem parentRule?_of_mem_children {r : RuleNode C} (hr : r.node ∈ f) {n : Node C}
    (hn : n ∈ r.children) : f.parentRule? n.id = some r :=
  h.parentRule?_eq_some_iff.mpr ⟨hr, List.mem_map_of_mem hn⟩

theorem parent?_eq_none_of_parentRule?_eq_none {id : NodeId} (hnone : f.parentRule? id = none) :
    f.parent? id = none := by
  by_contra hsome
  obtain ⟨p, hp⟩ := Option.ne_none_iff_exists'.mp hsome
  obtain ⟨r, hr, -⟩ := h.parent?_eq_some_iff.mp hp
  rw [parentRule?, hp, Option.bind_some, hr] at hnone
  cases hnone

/-- A parent is younger than its child. -/
theorem lt_of_parentRule?_eq_some {id : NodeId} {p : RuleNode C}
    (hp : f.parentRule? id = some p) : id < p.id := by
  obtain ⟨hmem, hid⟩ := h.parentRule?_eq_some_iff.mp hp
  obtain ⟨c, hc, rfl⟩ := List.mem_map.mp hid
  exact h.child_lt hmem hc

/-- A climb ends in time if it may take as many steps as there are younger nodes. -/
theorem lineage_climb {steps : Nat} {id : NodeId} (hsteps : f.size ≤ id + steps) :
    f.Lineage id (f.climb steps id) := by
  induction steps generalizing id with
  | zero => exact .root (parent?_eq_none_of_size_le hsteps)
  | succ steps ih =>
      rw [climb]
      cases hp : f.parentRule? id with
      | none => exact .root (h.parent?_eq_none_of_parentRule?_eq_none hp)
      | some p =>
          have hlt := h.lt_of_parentRule?_eq_some hp
          refine .step hp (ih ?_)
          calc
            f.size ≤ id + steps + 1 := hsteps
            _ = id + 1 + steps := Nat.add_right_comm id steps 1
            _ ≤ p.id + steps := Nat.add_le_add_right hlt steps

/-- No ancestor is left out. -/
theorem lineage (id : NodeId) : f.Lineage id (f.ancestors id) :=
  h.lineage_climb (Nat.le_add_left f.size id)

theorem ancestors_of_parent?_eq_none {id : NodeId} (hnone : f.parent? id = none) :
    f.ancestors id = [] :=
  (h.lineage id).unique (.root hnone)

theorem ancestors_of_mem_children {r : RuleNode C} (hr : r.node ∈ f) {n : Node C}
    (hn : n ∈ r.children) : f.ancestors n.id = r :: f.ancestors r.id :=
  (h.lineage n.id).unique (.step (h.parentRule?_of_mem_children hr hn) (h.lineage r.id))

theorem depth_of_mem_children {m n : Node C} (hm : m ∈ f) (hn : n ∈ m.children) :
    f.depth n.id = f.depth m.id + 1 := by
  obtain ⟨r, rfl, hn⟩ := Node.exists_rule_of_mem_children hn
  rw [depth, h.ancestors_of_mem_children hm hn, List.length_cons, depth, Node.id_node]

theorem depth_of_parent?_eq_none {id : NodeId} (hnone : f.parent? id = none) :
    f.depth id = 0 := by
  rw [depth, h.ancestors_of_parent?_eq_none hnone, List.length_nil]

/-- What is above a node has the node below it. -/
theorem mem_preorder_of_lineage {n : Node C} (hn : n ∈ f) {above : List (RuleNode C)}
    (hline : f.Lineage n.id above) {p : RuleNode C} (hp : p ∈ above) :
    p.node ∈ f ∧ n ∈ p.node.preorder ∧ n.id < p.id := by
  generalize hid : n.id = id at hline
  induction hline generalizing n with
  | root hnone => cases hp
  | @step id q above hq rest ih =>
      subst hid
      have hlt := h.lt_of_parentRule?_eq_some hq
      obtain ⟨hqf, hmem⟩ := h.parentRule?_eq_some_iff.mp hq
      have hchild : n ∈ q.node.preorder :=
        Node.mem_preorder_of_mem_children ((h.mem_children_iff hn hqf).mpr hmem)
      rcases List.mem_cons.mp hp with rfl | hp
      · exact ⟨hqf, hchild, hlt⟩
      · obtain ⟨hpf, hbelow, hlt'⟩ := ih hqf hp rfl
        exact ⟨hpf, Node.mem_preorder_trans hchild hbelow, Nat.lt_trans hlt hlt'⟩

theorem line_of_mem_children {m n : Node C} (hm : m ∈ f) (hn : n ∈ m.children) :
    f.line n.id = n.id :: f.line m.id := by
  obtain ⟨r, rfl, hn⟩ := Node.exists_rule_of_mem_children hn
  rw [line, h.ancestors_of_mem_children hm hn, List.map_cons, line, Node.id_node]

/-- From a node down to anything below it, the line gets longer at the lower end. -/
theorem line_suffix_line {m n : Node C} (hm : m ∈ f) (hn : n ∈ m.preorder) :
    f.line m.id <:+ f.line n.id := by
  induction m using Node.induct_children with
  | step m ih =>
      rcases Node.mem_preorder_iff.mp hn with rfl | ⟨c, hc, hbelow⟩
      · exact List.suffix_refl _
      · have hlonger : f.line m.id <:+ f.line c.id := by
          rw [h.line_of_mem_children hm hc]
          exact List.suffix_cons c.id _
        exact hlonger.trans (ih c hc (h.child_mem hm hc) hbelow)

/-- What is below a node is known by its identity. -/
theorem mem_preorder_iff_mem_ids {m n : Node C} (hm : m ∈ f) (hn : n ∈ f) :
    n ∈ m.preorder ↔ n.id ∈ m.preorder.map Node.id := by
  constructor
  · exact List.mem_map_of_mem
  · intro hid
    obtain ⟨l, hl, heq⟩ := List.mem_map.mp hid
    rwa [eq_of_id_eq hn (h.id_le_of_mem_preorder hm hl).1 heq.symm]

/-- A rule is above exactly the nodes that are below it. -/
theorem isAncestor_iff {a : RuleNode C} (ha : a.node ∈ f) {n : Node C} (hn : n ∈ f) :
    f.isAncestor a.id n.id = true ↔ n ∈ a.node.preorder ∧ n ≠ a.node := by
  rw [isAncestor, List.any_eq_true]
  constructor
  · rintro ⟨p, hp, hid⟩
    obtain ⟨hpf, hbelow, hlt⟩ := h.mem_preorder_of_lineage hn (h.lineage n.id) hp
    have hpa : p.node = a.node := eq_of_id_eq hpf ha (beq_iff_eq.mp hid)
    refine ⟨hpa ▸ hbelow, fun heq => ?_⟩
    rw [heq, ← hpa] at hlt
    exact Nat.lt_irrefl _ hlt
  · rintro ⟨hbelow, hne⟩
    have hline : a.id ∈ f.line n.id :=
      (h.line_suffix_line ha hbelow).mem List.mem_cons_self
    rcases List.mem_cons.mp hline with hid | hmem
    · exact absurd (eq_of_id_eq hn ha hid.symm) hne
    · obtain ⟨p, hp, hid⟩ := List.mem_map.mp hmem
      exact ⟨p, hp, beq_iff_eq.mpr hid⟩

/-- Nodes of the same depth have nothing below them in common: their lines are
equally long, and the line of what is below both would end in either. -/
theorem eq_of_depth_eq {m m' n : Node C} (hm : m ∈ f) (hm' : m' ∈ f)
    (hdepth : f.depth m.id = f.depth m'.id) (hn : n ∈ m.preorder) (hn' : n ∈ m'.preorder) :
    m = m' := by
  have hlength : (f.line m.id).length = (f.line m'.id).length := by
    rw [length_line, length_line, hdepth]
  have hsuffix : f.line m.id <:+ f.line m'.id :=
    List.suffix_of_suffix_length_le (h.line_suffix_line hm hn) (h.line_suffix_line hm' hn')
      (Nat.le_of_eq hlength)
  have hline := hsuffix.eq_of_length hlength
  exact eq_of_id_eq hm hm' (List.cons.inj hline).1

theorem disjoint_preorder {n c c' : Node C} (hn : n ∈ f) (hc : c ∈ n.children)
    (hc' : c' ∈ n.children) (hne : c.id ≠ c'.id) :
    List.Disjoint (c.preorder.map Node.id) (c'.preorder.map Node.id) := by
  intro id hid hid'
  obtain ⟨m, hm, rfl⟩ := List.mem_map.mp hid
  obtain ⟨m', hm', heq⟩ := List.mem_map.mp hid'
  have hcf := h.child_mem hn hc
  have hcf' := h.child_mem hn hc'
  obtain rfl : m' = m :=
    eq_of_id_eq (h.id_le_of_mem_preorder hcf' hm').1 (h.id_le_of_mem_preorder hcf hm).1 heq
  have hdepth : f.depth c.id = f.depth c'.id := by
    rw [h.depth_of_mem_children hn hc, h.depth_of_mem_children hn hc']
  exact hne (congrArg Node.id (h.eq_of_depth_eq hcf hcf' hdepth hm hm'))

theorem nodup_children_ids {n : Node C} (hn : n ∈ f) : (n.children.map Node.id).Nodup := by
  cases n with
  | rule id context children =>
      exact h.nodup_children (r := ⟨id, context, children⟩) (rule?_eq_some_iff.mpr hn)
  | terminal leaf => exact List.nodup_nil
  | error leaf => exact List.nodup_nil

/-- Nothing is listed twice below a node. -/
theorem nodup_preorder {n : Node C} (hn : n ∈ f) : (n.preorder.map Node.id).Nodup := by
  induction n using Node.induct_children with
  | step n ih =>
      rw [Node.preorder_eq, Node.preorders_eq_flatMap, List.map_cons, List.map_flatMap,
        List.nodup_cons, List.nodup_flatMap]
      refine ⟨fun hmem => ?_, fun c hc => ih c hc (h.child_mem hn hc), ?_⟩
      · obtain ⟨c, hc, hmem⟩ := List.mem_flatMap.mp hmem
        obtain ⟨m, hm, hid⟩ := List.mem_map.mp hmem
        have hle := (h.id_le_of_mem_preorder (h.child_mem hn hc) hm).2
        exact Nat.lt_irrefl _ (hid ▸ Nat.lt_of_le_of_lt hle (h.child_lt hn hc))
      · have hpairwise := List.pairwise_map.mp (h.nodup_children_ids hn)
        exact hpairwise.imp_of_mem fun hc hc' hne => h.disjoint_preorder hn hc hc' hne

/-- The outermost rule around a rule has no parent, and has the rule below it. -/
theorem root_of_lineage {r : RuleNode C} (hr : r.node ∈ f) {above : List (RuleNode C)}
    (hline : f.Lineage r.id above) :
    (above.getLast?.getD r).node ∈ f ∧ f.parent? (above.getLast?.getD r).id = none ∧
      r.node ∈ (above.getLast?.getD r).node.preorder := by
  generalize hid : r.id = id at hline
  induction hline generalizing r with
  | root hnone =>
      subst hid
      exact ⟨hr, hnone, r.node.mem_preorder_self⟩
  | @step id p above hp rest ih =>
      subst hid
      obtain ⟨hpf, hmem⟩ := h.parentRule?_eq_some_iff.mp hp
      have hchild : r.node ∈ p.node.preorder :=
        Node.mem_preorder_of_mem_children ((h.mem_children_iff hr hpf).mpr hmem)
      obtain ⟨hrootf, hnone, hbelow⟩ := ih hpf rfl
      rw [List.getLast?_cons, Option.getD_some]
      exact ⟨hrootf, hnone, Node.mem_preorder_trans hchild hbelow⟩

end Orderly

end Forest

end ParseTree
