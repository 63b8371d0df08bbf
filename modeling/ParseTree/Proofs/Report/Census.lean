import Mathlib.Algebra.GroupWithZero.Nat
import Mathlib.Order.Bounds.Basic
import ParseTree.Proofs.Node.Reading
import ParseTree.Proofs.Walk.Nesting

/-!
# What a census counts

A census is taken from the leaves up, and its depth is one more than that of the deepest
child. Parents are looked up in the other direction, and a walk counts the rules it has
entered. All three agree: the census counts the nodes of each kind in the pre-order, and
its depth is the greatest depth of a node, measured from the root of the tree by the
parents that the forest keeps, and the greatest number of rules that are open when a walk
comes to a node.
-/

namespace ParseTree

variable {C : Type}

namespace Census

/-- One of the counts of a census, with the nodes that it counts. -/
structure Tally (count : Census → Nat) (counts : Node C → Bool) : Prop where
  empty : count {} = 0
  add : ∀ a b, count (add a b) = count a + count b
  under : ∀ (r : RuleNode C) c, count (under r c) = count c + if counts r.node then 1 else 0
  terminal : ∀ leaf, count { terminals := 1 } = if counts (.terminal leaf) then 1 else 0
  error : ∀ leaf, count { errors := 1 } = if counts (.error leaf) then 1 else 0

theorem tally_rules : Tally rules (Node.isRule (C := C)) where
  empty := rfl
  add _ _ := rfl
  under _ _ := rfl
  terminal _ := rfl
  error _ := rfl

theorem tally_terminals : Tally terminals fun n : Node C => n.isLeaf && !n.isError where
  empty := rfl
  add _ _ := rfl
  under _ _ := rfl
  terminal _ := rfl
  error _ := rfl

theorem tally_errors : Tally errors (Node.isError (C := C)) where
  empty := rfl
  add _ _ := rfl
  under _ _ := rfl
  terminal _ := rfl
  error _ := rfl

namespace Tally

variable {count : Census → Nat} {counts : Node C → Bool}

theorem foldl_add (h : Tally count counts) (censuses : List Census) (c : Census) :
    count (censuses.foldl Census.add c) = count c + (censuses.map count).sum := by
  induction censuses generalizing c with
  | nil => rfl
  | cons first rest ih =>
      rw [List.foldl_cons, ih, h.add, List.map_cons, List.sum_cons, Nat.add_assoc]

/-- The census counts the nodes in the pre-order. -/
theorem count_census (h : Tally count counts) (n : Node C) :
    count n.census = n.preorder.countP counts := by
  induction n with
  | rule id context children ih =>
      have hchildren : (children.map Node.census).map count =
          children.map (List.countP counts ∘ Node.preorder) := by
        rw [List.map_map]
        exact List.map_congr_left ih
      rw [Node.census_rule, h.under, h.foldl_add, h.empty, Nat.zero_add, hchildren,
        Node.preorder_eq_cons_flatMap, List.countP_cons, List.countP_flatMap]
      rfl
  | terminal leaf =>
      have hcensus : (Node.terminal leaf : Node C).census = { terminals := 1 } :=
        Node.answers_census.terminal leaf
      rw [hcensus, h.terminal leaf, Node.preorder, List.countP_singleton]
  | error leaf =>
      have hcensus : (Node.error leaf : Node C).census = { errors := 1 } :=
        Node.answers_census.error leaf
      rw [hcensus, h.error leaf, Node.preorder, List.countP_singleton]

end Tally

theorem maxDepth_foldl_add (censuses : List Census) (c : Census) :
    (censuses.foldl add c).maxDepth = (censuses.map maxDepth).foldl max c.maxDepth := by
  rw [List.foldl_map]
  exact (List.foldl_hom maxDepth fun _ _ => rfl).symm

end Census

namespace Node

/-- A rule with children is one deeper than the deepest of them. -/
theorem maxDepth_census_rule (id : NodeId) (context : C) {children : List (Node C)}
    (hne : children ≠ []) :
    ∃ c ∈ children, (rule id context children).census.maxDepth = c.census.maxDepth + 1 ∧
      ∀ d ∈ children, d.census.maxDepth ≤ c.census.maxDepth := by
  have hmax : (children.map fun c => c.census.maxDepth).max? =
      some ((children.map census).foldl Census.add {}).maxDepth := by
    rw [Census.maxDepth_foldl_add, List.map_map]
    obtain ⟨first, rest, rfl⟩ := List.exists_cons_of_ne_nil hne
    rw [List.map_cons, List.max?_cons', List.map_cons, List.foldl_cons]
    simp [Function.comp_def]
  obtain ⟨hmem, hle⟩ := List.max?_eq_some_iff.mp hmax
  obtain ⟨c, hc, heq⟩ := List.mem_map.mp hmem
  refine ⟨c, hc, ?_, fun d hd => ?_⟩
  · rw [census_rule, heq]
    simp [Census.under, hne]
  · rw [heq]
    exact hle _ (List.mem_map_of_mem hd)

/-- A node is deeper than its children. -/
theorem maxDepth_lt_of_mem_children {n c : Node C} (hc : c ∈ n.children) :
    c.census.maxDepth < n.census.maxDepth := by
  obtain ⟨r, rfl, hc⟩ := exists_rule_of_mem_children hc
  obtain ⟨d, -, hdeep, hle⟩ := maxDepth_census_rule r.id r.context (List.ne_nil_of_mem hc)
  have heq : r.node.census.maxDepth = d.census.maxDepth + 1 := hdeep
  rw [heq]
  exact Nat.lt_succ_of_le (hle c hc)

/-- A node is no deeper than it must be on account of its children. -/
theorem maxDepth_eq_zero_or_exists_child (n : Node C) :
    n.census.maxDepth = 0 ∨ ∃ c ∈ n.children, n.census.maxDepth = c.census.maxDepth + 1 := by
  cases n with
  | rule id context children =>
      by_cases hnil : children = []
      · left
        rw [census_rule]
        simp [Census.under, hnil]
      · right
        obtain ⟨c, hc, hdeep, -⟩ := maxDepth_census_rule id context hnil
        exact ⟨c, hc, hdeep⟩
  | terminal leaf =>
      left
      rw [answers_census.terminal]
      rfl
  | error leaf =>
      left
      rw [answers_census.error]
      rfl

end Node

namespace Forest.Orderly

variable {f : Forest C} (h : f.Orderly)

include h

theorem depth_le_of_mem_preorder {t n : Node C} (ht : t ∈ f) (hn : n ∈ t.preorder) :
    f.depth t.id ≤ f.depth n.id := by
  have hlength := (h.line_suffix_line ht hn).length_le
  rw [length_line, length_line] at hlength
  exact Nat.le_of_succ_le_succ hlength

theorem depth_le_add_maxDepth {t n : Node C} (ht : t ∈ f) (hn : n ∈ t.preorder) :
    f.depth n.id ≤ f.depth t.id + t.census.maxDepth := by
  induction t using Node.induct_children with
  | step t ih =>
      rcases Node.mem_preorder_iff.mp hn with rfl | ⟨c, hc, hbelow⟩
      · exact Nat.le_add_right _ _
      · calc
          f.depth n.id ≤ f.depth c.id + c.census.maxDepth := ih c hc (h.child_mem ht hc) hbelow
          _ = f.depth t.id + (c.census.maxDepth + 1) := by
            rw [h.depth_of_mem_children ht hc, Nat.add_right_comm, Nat.add_assoc]
          _ ≤ f.depth t.id + t.census.maxDepth :=
            Nat.add_le_add_left (Node.maxDepth_lt_of_mem_children hc) _

theorem exists_depth_eq_add_maxDepth {t : Node C} (ht : t ∈ f) :
    ∃ n ∈ t.preorder, f.depth n.id = f.depth t.id + t.census.maxDepth := by
  induction t using Node.induct_children with
  | step t ih =>
      rcases t.maxDepth_eq_zero_or_exists_child with hzero | ⟨c, hc, hdeep⟩
      · exact ⟨t, t.mem_preorder_self, by rw [hzero, Nat.add_zero]⟩
      · obtain ⟨n, hn, hdepth⟩ := ih c hc (h.child_mem ht hc)
        refine ⟨n, Node.mem_preorder_iff.mpr (.inr ⟨c, hc, hn⟩), ?_⟩
        rw [hdepth, hdeep, h.depth_of_mem_children ht hc, Nat.add_right_comm, Nat.add_assoc]

/-- The depth of a census is the greatest depth below the root of the tree. -/
theorem isGreatest_depth {t : Node C} (ht : t ∈ f) :
    IsGreatest {d | ∃ n ∈ t.preorder, d = f.depth n.id - f.depth t.id} t.census.maxDepth := by
  constructor
  · obtain ⟨n, hn, hdepth⟩ := h.exists_depth_eq_add_maxDepth ht
    exact ⟨n, hn, by rw [hdepth, Nat.add_sub_cancel_left]⟩
  · rintro d ⟨n, hn, rfl⟩
    exact Nat.sub_le_of_le_add (Nat.add_comm _ _ ▸ h.depth_le_add_maxDepth ht hn)

/-- When a walk comes to a node, as many rules are open as the node is deeper than the
one where the walk began. -/
theorem length_openRules_of_arrival {t n : Node C} (ht : t ∈ f)
    {before after : List (WalkEvent C)} {e : WalkEvent C}
    (hwalk : t.walkEvents = before ++ e :: after) (he : e.arrival? = some n) :
    (WalkEvent.openRules before).length = f.depth n.id - f.depth t.id := by
  have henclosed : WalkEvent.Enclosed f (f.ancestors t.id) [] t.walkEvents :=
    WalkEvent.enclosed_walkEvents h ht rfl
  have hnested := henclosed.nested
  rw [hwalk, WalkEvent.nested_append] at hnested
  have haround := (WalkEvent.openAround_append_of_fits hnested.2.1).1
  have hopen : WalkEvent.openRules before ++ f.ancestors t.id = f.ancestors n.id := by
    cases e with
    | enter r =>
        cases he
        exact haround
    | terminal leaf =>
        cases he
        exact haround
    | error leaf =>
        cases he
        exact haround
    | enterHook r => cases he
    | exitHook r => cases he
    | exit r => cases he
  rw [depth, depth, ← hopen, List.length_append, Nat.add_sub_cancel]

end Forest.Orderly

/-- The node that a walk comes to at an event is below the one where the walk began. -/
theorem Node.mem_preorder_of_arrival {t n : Node C} {before after : List (WalkEvent C)}
    {e : WalkEvent C} (hwalk : t.walkEvents = before ++ e :: after) (he : e.arrival? = some n) :
    n ∈ t.preorder := by
  rw [← filterMap_arrival?_walkEvents, hwalk]
  exact List.mem_filterMap.mpr ⟨e, by simp, he⟩

/-- A walk comes to every node below the one where it began. -/
theorem Node.exists_arrival {t n : Node C} (hn : n ∈ t.preorder) :
    ∃ before e after, t.walkEvents = before ++ e :: after ∧ e.arrival? = some n := by
  rw [← filterMap_arrival?_walkEvents, List.mem_filterMap] at hn
  obtain ⟨e, he, harrival⟩ := hn
  obtain ⟨before, after, hwalk⟩ := List.append_of_mem he
  exact ⟨before, e, after, hwalk, harrival⟩

namespace Session

variable [RuleContext C]

/-- Whatever orderly steps have been taken, the census of a tree in the forest gives the
numbers of its rules, terminals and errors, and as its depth the greatest depth of a node
below the root of the tree. This is also the largest number of rules that are open just
before a walk enters a rule or visits a leaf. -/
theorem census_eq_counts_and_depths {s : Session C} (h : Reachable SessionStep.Orderly s)
    {t : Node C} (ht : t ∈ s.forest) :
    t.census.rules = t.descendants.countP Node.isRule ∧
      t.census.terminals = t.descendants.countP (fun n => n.isLeaf && !n.isError) ∧
      t.census.errors = t.descendants.countP Node.isError ∧
      (∀ n ∈ t.descendants, s.forest.depth t.id ≤ s.forest.depth n.id) ∧
      IsGreatest {d | ∃ n ∈ t.descendants, d = s.forest.depth n.id - s.forest.depth t.id}
        t.census.maxDepth ∧
      IsGreatest {d | ∃ before e after, t.walkEvents = before ++ e :: after ∧
          e.arrival?.isSome ∧ d = (WalkEvent.openRules before).length}
        t.census.maxDepth := by
  have hf := h.orderly
  have hdepth := hf.isGreatest_depth ht
  rw [Node.descendants_eq_preorder]
  refine ⟨Census.tally_rules.count_census t, Census.tally_terminals.count_census t,
    Census.tally_errors.count_census t, fun n hn => hf.depth_le_of_mem_preorder ht hn, hdepth,
    ?_, ?_⟩
  · obtain ⟨n, hn, hdeep⟩ := hdepth.1
    obtain ⟨before, e, after, hwalk, he⟩ := Node.exists_arrival hn
    refine ⟨before, e, after, hwalk, by rw [he]; rfl, ?_⟩
    rw [hdeep, hf.length_openRules_of_arrival ht hwalk he]
  · rintro d ⟨before, e, after, hwalk, harrival, rfl⟩
    obtain ⟨n, he⟩ := Option.isSome_iff_exists.mp harrival
    apply hdepth.2
    exact ⟨n, Node.mem_preorder_of_arrival hwalk he, hf.length_openRules_of_arrival ht hwalk he⟩

/-- The census of a rule over a terminal and an error, when the rule is itself the only
child of another. Its root is at depth 1 in the forest, and its leaves are at depth 2. -/
theorem census_of_inner_tree :
    let leaf : Spanned Invocation := .terminal ⟨0, none⟩
    let wrong : Spanned Invocation := .error ⟨1, none⟩
    let inner : Spanned Invocation := .rule 2 ⟨1, 0⟩ [leaf, wrong]
    let outer : Spanned Invocation := .rule 3 ⟨2, 0⟩ [inner]
    let leaves := (({} : Session Invocation).after (.forest (.terminal none))).after
      (.forest (.error none))
    let made := leaves.after (.forest (.rule ⟨1, 0⟩ [leaf, wrong]))
    let s := made.after (.forest (.rule ⟨2, 0⟩ [inner]))
    Reachable SessionStep.Orderly s ∧ inner.node ∈ s.forest ∧ outer.node ∈ s.forest ∧
      s.forest.depth inner.id = 1 ∧ inner.node.census = ⟨1, 1, 1, 1⟩ ∧
      1 = inner.node.descendants.countP Node.isRule ∧
      IsGreatest {d | ∃ n ∈ inner.node.descendants, d = s.forest.depth n.id - 1} 1 ∧
      IsGreatest {d | ∃ before e after, inner.node.walkEvents = before ++ e :: after ∧
        e.arrival?.isSome ∧ d = (WalkEvent.openRules before).length} 1 := by
  intro leaf wrong inner outer leaves made s
  have hleaves : leaves.forest = (({} : Forest Invocation).push leaf).push wrong := by
    unfold leaves
    rw [forest_after_forest, forest_after_forest]
    rfl
  have hmade : made.forest = leaves.forest.join ⟨1, 0⟩ [leaf, wrong] := by
    unfold made
    rw [forest_after_forest, hleaves]
    rfl
  have hs : s.forest = made.forest.join ⟨2, 0⟩ [inner] := by
    unfold s
    rw [forest_after_forest, hmade, hleaves]
    rfl
  have hrun : Reachable SessionStep.Orderly s := by
    refine .step _ (.step _ (.step _ (.step _ .refl trivial trivial) trivial trivial)
      trivial fun c hc => ?_) trivial fun c hc => ?_
    · rcases List.mem_pair.mp hc with rfl | rfl
      · rw [hleaves]
        rfl
      · rw [hleaves]
        rfl
    · rw [List.mem_singleton.mp hc, hmade, hleaves]
      rfl
  have hinner : inner.node ∈ s.forest := by
    rw [hs, hmade, hleaves]
    rfl
  have houter : outer.node ∈ s.forest := by
    rw [hs, hmade, hleaves]
    rfl
  have hroot : s.forest.parent? outer.node.id = none := by
    rw [hs, hmade, hleaves]
    rfl
  have hdepth : s.forest.depth inner.node.id = 1 := by
    rw [hrun.orderly.depth_of_mem_children houter (List.mem_singleton.mpr rfl),
      hrun.orderly.depth_of_parent?_eq_none hroot]
  have hcensus : inner.node.census = ⟨1, 1, 1, 1⟩ := rfl
  obtain ⟨hrules, -, -, -, hdeep, hopen⟩ := census_eq_counts_and_depths hrun hinner
  rw [hcensus] at hrules hdeep hopen
  rw [hdepth] at hdeep
  exact ⟨hrun, hinner, houter, hdepth, hcensus, hrules, hdeep, hopen⟩

end Session

end ParseTree
