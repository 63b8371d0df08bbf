import ParseTree.Proofs.Forest.Ancestry
import ParseTree.Proofs.Session.Runs

/-!
# Parents and ancestors in a session

Children get their parent when a rule is closed, and until then the same node may
wait in several builders or be given away behind a builder's back. Whatever the
order of the steps, no node ends up below two rules, and the parent that a node
knows is the rule that lists it. So what is above a node and what is below it are
the same relation, and every rule belongs to exactly one tree.
-/

namespace ParseTree.Session

variable {C : Type} [RuleContext C]

/-- Orderly steps keep the two views of the forest in agreement. -/
theorem Run.linked {start s : Session C} (run : Run SessionStep.Orderly start s)
    (h : start.Sound) (hl : start.forest.Linked) : s.forest.Linked := by
  induction run with
  | refl => exact hl
  | step step run ho hw ih =>
      rcases forest_after (run.sound h) hw with heq | ⟨change, hcw, hco, heq⟩
      · rw [heq]
        exact ih
      · rw [heq]
        exact ih.after hcw (hco ho)

theorem Reachable.linked {s : Session C} (h : Reachable SessionStep.Orderly s) :
    s.forest.Linked :=
  Run.linked h sound_empty Forest.linked_empty

/-- Whatever steps builders and the forest have taken, in whatever order, the
parent of a node is the one rule that has it as a child, and has it once. Children
are told apart by their identities. -/
theorem parent?_eq_some_iff_mem_children {s : Session C} (h : Reachable SessionStep.Orderly s)
    {n : Node C} (hn : n ∈ s.forest) {r : RuleNode C} (hr : r.node ∈ s.forest) :
    (s.forest.parent? n.id = some r.id ↔ n ∈ r.children) ∧
      (n ∈ r.children ↔ n.id ∈ r.children.map Node.id) ∧
      (n ∈ r.children → (r.children.map Node.id).count n.id = 1) ∧
      ∀ r' : RuleNode C, r'.node ∈ s.forest → n ∈ r.children → n ∈ r'.children → r' = r := by
  have hwf := h.sound.forest
  have hlinked := h.linked
  have hparent : ∀ q : RuleNode C, q.node ∈ s.forest →
      (s.forest.parent? n.id = some q.id ↔ n ∈ q.children) := by
    intro q hq
    have hrule : s.forest.rule? q.id = some q := Forest.rule?_eq_some_iff.mpr hq
    have hchild : n ∈ q.children ↔ n.id ∈ q.children.map Node.id := hwf.mem_children_iff hn hq
    rw [hlinked.parent?_eq_some_iff, hrule, hchild]
    simp
  refine ⟨hparent r hr, hwf.mem_children_iff hn hr, fun hmem => ?_, fun r' hr' hmem hmem' => ?_⟩
  · apply List.count_eq_one_of_mem
    · exact hlinked.nodup_children (Forest.rule?_eq_some_iff.mpr hr)
    · exact List.mem_map_of_mem hmem
  · -- both rules are the parent, and a rule is known by its identity
    have hid : some r'.id = some r.id :=
      calc
        some r'.id = s.forest.parent? n.id := ((hparent r' hr').mpr hmem').symm
        _ = some r.id := (hparent r hr).mpr hmem
    have hsame : some r.node = some r'.node :=
      calc
        some r.node = s.forest.node? r.id := hr.symm
        _ = s.forest.node? r'.id := by rw [Option.some.inj hid]
        _ = some r'.node := hr'
    have hrules := congrArg Node.rule? (Option.some.inj hsame)
    simpa using hrules.symm

/-- A leaf that a builder has collected gets its parent from elsewhere, and the
builder cannot close its rule: the leaf stays below the one rule. -/
theorem parent?_of_taken_leaf :
    let leaf : Spanned Invocation := .terminal ⟨0, some { type := 1 }⟩
    let opened := ({} : Session Invocation).after (.builder 0 (.startRule ⟨0, 0⟩))
    let collected := opened.after (.builder 0 (.token { type := 1 }))
    let taken := collected.after (.forest (.rule ⟨2, 0⟩ [leaf]))
    let s := taken.after (.builder 0 .finishRule)
    let r : RuleNode Invocation := ⟨1, ⟨2, 0⟩, [leaf.node]⟩
    Reachable SessionStep.Orderly s ∧ leaf.node ∈ s.forest ∧ r.node ∈ s.forest ∧
      s.forest.parent? leaf.id = some r.id := by
  intro leaf opened collected taken s r
  have hopened : opened.forest = {} ∧ opened.builder 0 = { openRules := [⟨⟨0, 0⟩, []⟩] } := by
    unfold opened
    rw [builder_after_builder, after_builder, builder_empty]
    exact ⟨rfl, rfl⟩
  have hcollected : collected.forest = ({} : Forest Invocation).push leaf ∧
      collected.builder 0 = ⟨[⟨⟨0, 0⟩, [leaf]⟩], none, 1⟩ := by
    unfold collected
    rw [builder_after_builder, after_builder, hopened.1, hopened.2]
    exact ⟨rfl, rfl⟩
  have htaken : taken.forest = (({} : Forest Invocation).push leaf).join ⟨2, 0⟩ [leaf] ∧
      taken.builder 0 = ⟨[⟨⟨0, 0⟩, [leaf]⟩], none, 1⟩ := by
    unfold taken
    rw [after_forest, hcollected.1, ← hcollected.2]
    exact ⟨rfl, rfl⟩
  have hs : s.forest = (({} : Forest Invocation).push leaf).join ⟨2, 0⟩ [leaf] := by
    unfold s
    rw [after_builder, htaken.1, htaken.2]
    rfl
  have hrun : Reachable SessionStep.Orderly s := by
    refine .step _ (.step _ (.step _ (.step _ .refl trivial trivial) trivial trivial) trivial ?_)
      trivial trivial
    intro c hc
    rw [List.mem_singleton.mp hc, hcollected.1]
    exact Forest.mem_push_self rfl
  have hleaf : leaf.node ∈ s.forest := by
    rw [hs]
    rfl
  have hr : r.node ∈ s.forest := by
    rw [hs]
    rfl
  refine ⟨hrun, hleaf, hr, ?_⟩
  exact (parent?_eq_some_iff_mem_children hrun hleaf hr).1.mpr (List.mem_singleton.mpr rfl)

theorem Reachable.orderly {s : Session C} (h : Reachable SessionStep.Orderly s) :
    s.forest.Orderly where
  toWellFormed := h.sound.forest
  toLinked := h.linked

/-- Whatever orderly steps have been taken, the ancestors of a node come to an end; a
rule is an ancestor of the nodes below it and of no others; nothing is below a node
twice; and the root of a rule is the one node without a parent that has the rule
below it. Below a node, nodes are told apart by their identities. -/
theorem ancestors_and_descendants_agree {s : Session C} (h : Reachable SessionStep.Orderly s) :
    (∀ n : Node C, n ∈ s.forest → s.forest.Lineage n.id (s.forest.ancestors n.id)) ∧
      (∀ (a : RuleNode C) (n : Node C), a.node ∈ s.forest → n ∈ s.forest →
        (s.forest.isAncestor a.id n.id = true ↔ n ∈ a.node.descendants ∧ n ≠ a.node) ∧
          (n ∈ a.node.descendants ↔ n.id ∈ a.node.descendants.map Node.id)) ∧
      (∀ n : Node C, n ∈ s.forest → (n.descendants.map Node.id).Nodup) ∧
      ∀ r : RuleNode C, r.node ∈ s.forest →
        let root := (s.forest.root r).node
        root ∈ s.forest ∧ s.forest.parent? root.id = none ∧ r.node ∈ root.descendants ∧
          ∀ m : Node C, m ∈ s.forest → s.forest.parent? m.id = none → r.node ∈ m.descendants →
            m = root := by
  have hf := h.orderly
  simp only [Node.descendants_eq_preorder]
  refine ⟨fun n _ => hf.lineage n.id, fun a n ha hn => ⟨hf.isAncestor_iff ha hn, ?_⟩,
    fun n hn => hf.nodup_preorder hn, fun r hr => ?_⟩
  · exact hf.mem_preorder_iff_mem_ids ha hn
  · obtain ⟨hroot, hnone, hbelow⟩ := hf.root_of_lineage hr (hf.lineage r.id)
    refine ⟨hroot, hnone, hbelow, fun m hm hmnone hmbelow => ?_⟩
    refine hf.eq_of_depth_eq hm hroot ?_ hmbelow hbelow
    rw [hf.depth_of_parent?_eq_none hmnone]
    exact (hf.depth_of_parent?_eq_none hnone).symm

/-- A builder closes a rule over a leaf, and the forest makes a rule over that. The
outer rule is above the leaf and is the root of the inner one. -/
theorem ancestors_of_wrapped_leaf :
    let leaf : Spanned Invocation := .terminal ⟨0, none⟩
    let inner : Spanned Invocation := .rule 1 ⟨1, 0⟩ [leaf]
    let outer : RuleNode Invocation := ⟨2, ⟨2, 0⟩, [inner.node]⟩
    let filled := (({} : Session Invocation).after (.builder 0 (.startRule ⟨1, 0⟩))).after
      (.builder 0 .missingToken)
    let s := (filled.after (.builder 0 .finishRule)).after (.forest (.rule ⟨2, 0⟩ [inner]))
    Reachable SessionStep.Orderly s ∧ leaf.node ∈ s.forest ∧ outer.node ∈ s.forest ∧
      s.forest.isAncestor outer.id leaf.id = true ∧
      outer.node = (s.forest.root ⟨1, ⟨1, 0⟩, [leaf.node]⟩).node := by
  intro leaf inner outer filled s
  have hfilled : filled.forest = ({} : Forest Invocation).push leaf ∧
      filled.builder 0 = ⟨[⟨⟨1, 0⟩, [leaf]⟩], none, 1⟩ := by
    unfold filled
    simp only [forest_after_builder, builder_after_builder, builder_empty]
    exact ⟨rfl, rfl⟩
  have hclosed : (filled.after (.builder 0 .finishRule)).forest =
      (({} : Forest Invocation).push leaf).join ⟨1, 0⟩ [leaf] := by
    simp only [forest_after_builder, hfilled]
    rfl
  have hs : s.forest =
      ((({} : Forest Invocation).push leaf).join ⟨1, 0⟩ [leaf]).join ⟨2, 0⟩ [inner] := by
    unfold s
    rw [forest_after_forest, hclosed]
    rfl
  have hrun : Reachable SessionStep.Orderly s := by
    refine .step _ (.step _ (.step _ (.step _ .refl trivial trivial) trivial trivial) trivial
      trivial) trivial fun c hc => ?_
    rw [List.mem_singleton.mp hc, hclosed]
    rfl
  have hleaf : leaf.node ∈ s.forest := by
    rw [hs]
    rfl
  have hinner : inner.node ∈ s.forest := by
    rw [hs]
    rfl
  have houter : outer.node ∈ s.forest := by
    rw [hs]
    rfl
  obtain ⟨-, hancestor, -, hroot⟩ := ancestors_and_descendants_agree hrun
  refine ⟨hrun, hleaf, houter, ?_, ?_⟩
  · refine (hancestor outer leaf.node houter hleaf).1.mpr ⟨?_, by rintro ⟨⟩⟩
    simp [outer, inner, leaf, RuleNode.node, Node.preorder, Node.preorders]
  · refine (hroot ⟨1, ⟨1, 0⟩, [leaf.node]⟩ hinner).2.2.2 outer.node houter ?_ ?_
    · rw [hs]
      rfl
    · simp [outer, inner, leaf, RuleNode.node, Node.preorder, Node.preorders]

end ParseTree.Session
