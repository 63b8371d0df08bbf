import ParseTree.Proofs.Builder.Operations
import ParseTree.Proofs.Forest.Links

/-!
# Nodes that wait for a parent

The nodes that a builder has collected wait for their rule to be closed. While
nobody else takes them, they are free: different nodes without a parent. Then every
rule can be closed, and the builder passes from one such state to the next. A node
is received if the builder has been handed that node and nothing else has happened
to its open rules.
-/

namespace ParseTree

variable {C : Type}

namespace Forest

/-- The nodes are different nodes of the forest, and none of them has a parent. -/
structure Free (f : Forest C) (nodes : List (Spanned C)) : Prop where
  detached : f.detached nodes = true
  lt_size : ∀ n ∈ nodes, n.id < f.size

theorem free_nil (f : Forest C) : f.Free [] where
  detached := rfl
  lt_size := by simp

theorem Free.parent?_eq_none {f : Forest C} {nodes : List (Spanned C)} (h : f.Free nodes)
    {n : Spanned C} (hn : n ∈ nodes) : f.parent? n.id = none :=
  (detached_iff.mp h.detached).1 n hn

theorem Free.nodup {f : Forest C} {nodes : List (Spanned C)} (h : f.Free nodes) :
    (nodes.map Spanned.id).Nodup :=
  (detached_iff.mp h.detached).2

/-- A new node is free, and the others do not notice it. -/
theorem Free.push {f : Forest C} {nodes : List (Spanned C)} (h : f.Free nodes) {node : Spanned C}
    (hid : node.id = f.size) : (f.push node).Free (node :: nodes) := by
  constructor
  · refine detached_iff.mpr ⟨fun n hn => ?_, ?_⟩
    · rw [parent?_push]
      rcases List.mem_cons.mp hn with rfl | hold
      · exact parent?_eq_none_of_size_le (Nat.le_of_eq hid.symm)
      · exact h.parent?_eq_none hold
    · rw [List.map_cons, List.nodup_cons]
      refine ⟨fun hmem => ?_, h.nodup⟩
      obtain ⟨n, hn, heq⟩ := List.mem_map.mp hmem
      exact Nat.lt_irrefl _ (hid ▸ heq ▸ h.lt_size n hn)
  · intro n hn
    rw [size_push]
    rcases List.mem_cons.mp hn with rfl | hold
    · exact Nat.lt_succ_of_le (Nat.le_of_eq hid)
    · exact Nat.lt_succ_of_lt (h.lt_size n hold)

/-- Some of the free nodes pass the check for a rule over them. -/
theorem Free.detached_reverse {f : Forest C} {collected rest : List (Spanned C)}
    (h : f.Free (collected ++ rest)) : f.detached collected.reverse = true := by
  refine detached_iff.mpr ⟨fun n hn => ?_, ?_⟩
  · exact h.parent?_eq_none (List.mem_append_left rest (List.mem_reverse.mp hn))
  · have hnodup := h.nodup
    rw [List.map_append] at hnodup
    rw [List.map_reverse, List.nodup_reverse]
    exact hnodup.of_append_left

/-- A rule over some of the free nodes is free together with the others. -/
theorem Free.join {f : Forest C} {collected rest : List (Spanned C)}
    (h : f.Free (collected ++ rest)) (context : C) :
    (f.join context collected.reverse).Free (.rule f.size context collected.reverse :: rest) := by
  have hpush : (f.push (.rule f.size context collected.reverse)).Free
      (.rule f.size context collected.reverse :: (collected ++ rest)) := h.push rfl
  have hnodup := hpush.nodup
  rw [List.map_cons, List.map_append, List.nodup_cons, List.nodup_append] at hnodup
  obtain ⟨hnew, -, hrest, hdisjoint⟩ := hnodup
  -- neither the new rule nor a node that stays behind is among the children
  have hother : ∀ n ∈ (.rule f.size context collected.reverse :: rest : List (Spanned C)),
      n.id ∉ collected.reverse.map Spanned.id := by
    intro n hn hmem
    rw [List.map_reverse, List.mem_reverse] at hmem
    rcases List.mem_cons.mp hn with rfl | hn
    · exact hnew (List.mem_append_left _ hmem)
    · exact hdisjoint _ hmem _ (List.mem_map_of_mem hn) rfl
  have hsub : ∀ n ∈ (.rule f.size context collected.reverse :: rest : List (Spanned C)),
      n ∈ (.rule f.size context collected.reverse :: (collected ++ rest) : List (Spanned C)) := by
    intro n hn
    rcases List.mem_cons.mp hn with rfl | hn
    · exact List.mem_cons_self
    · exact List.mem_cons_of_mem _ (List.mem_append_right collected hn)
  constructor
  · refine detached_iff.mpr ⟨fun n hn => ?_, ?_⟩
    · rw [Forest.join, parent?_adopt, if_neg (fun hand => hother n hn hand.1)]
      exact hpush.parent?_eq_none (hsub n hn)
    · rw [List.map_cons, List.nodup_cons]
      exact ⟨fun hmem => hnew (List.mem_append_right _ hmem), hrest⟩
  · intro n hn
    rw [size_join, ← size_push f (.rule f.size context collected.reverse)]
    exact hpush.lt_size n (hsub n hn)

end Forest

namespace Builder

/-- Everything that open rules have collected. -/
def pending (b : Builder C) : List (Spanned C) := b.openRules.flatMap OpenRule.collected

theorem pending_of_openRules {b : Builder C} {r : OpenRule C} {outer : List (OpenRule C)}
    (h : b.openRules = r :: outer) :
    b.pending = r.collected ++ outer.flatMap OpenRule.collected := by
  rw [pending, h, List.flatMap_cons]

theorem mem_pending_collect {b : Builder C} {r : OpenRule C} {outer : List (OpenRule C)}
    (h : b.openRules = r :: outer) {node n : Spanned C}
    (hn : n ∈ (r.collect node :: outer).flatMap OpenRule.collected) :
    n = node ∨ n ∈ b.pending := by
  rw [pending_of_openRules h]
  simpa [OpenRule.collect, or_assoc] using hn

theorem mem_pending_complete {b : Builder C} {node n : Spanned C}
    (h : n ∈ (b.complete node).pending) : n = node ∨ n ∈ b.pending := by
  unfold complete at h
  split at h
  · exact .inr h
  · next hrules => exact mem_pending_collect hrules h

end Builder

namespace Assembly

/-- The builder has been handed the node, as a child for the innermost open rule or
as the root, and what waited before still waits. -/
structure Received (a : Assembly C) (node : Spanned C) (a' : Assembly C) : Prop where
  openRules : a'.builder.openRules = (a.builder.complete node).openRules
  root : a'.builder.root = (a.builder.complete node).root
  free : a'.forest.Free (node :: a.builder.pending)
  mem : node.node ∈ a'.forest

theorem received_addLeaf {a : Assembly C} {r : OpenRule C} {outer : List (OpenRule C)}
    (hopen : a.builder.openRules = r :: outer) (hfree : a.forest.Free a.builder.pending)
    {make : NodeId → Spanned C} (hid : ∀ id, (make id).id = id) (addition : Addition) :
    ∃ a', (addLeaf (Forest.insert make) addition).run a = .ok (make a.forest.size) a' ∧
      Received a (make a.forest.size) a' := by
  have hrun := run_addLeaf make addition a
  rw [hopen] at hrun
  refine ⟨_, hrun, ?_, ?_, hfree.push (hid _), Forest.mem_push_self (hid _)⟩
  · rw [Builder.complete, hopen]
  · rw [Builder.complete, hopen]

theorem run_startRule_of_allowed [RuleContext C] {a : Assembly C}
    (h : a.builder.openRules ≠ [] ∨ a.builder.root = none) (context : C) :
    ∃ a', (startRule context).run a = .ok () a' ∧ a'.forest = a.forest ∧
      a'.builder.openRules = { context } :: a.builder.openRules ∧
      a'.builder.root = a.builder.root := by
  have hallowed : ¬ (a.builder.openRules.isEmpty && a.builder.root.isSome) = true := by
    rcases h with hopen | hroot
    · simp [hopen]
    · simp [hroot]
  have hrun := run_startRule context a
  rw [if_neg hallowed] at hrun
  exact ⟨_, hrun, rfl, rfl, rfl⟩

/-- With a rule open, the node is its newest child. -/
theorem Received.of_openRules {a b : Assembly C} {node : Spanned C} (h : a.Received node b)
    {r : OpenRule C} {outer : List (OpenRule C)} (hopen : a.builder.openRules = r :: outer) :
    b.builder.openRules = r.collect node :: outer ∧ b.builder.root = a.builder.root ∧
      b.builder.pending = node :: a.builder.pending := by
  have hrules : b.builder.openRules = r.collect node :: outer := by
    rw [h.openRules, Builder.complete, hopen]
  refine ⟨hrules, ?_, ?_⟩
  · rw [h.root, Builder.complete, hopen]
  · rw [Builder.pending_of_openRules hrules, Builder.pending_of_openRules hopen]
    rfl

/-- The innermost open rule has collected the nodes, and everything else that waited
still waits. -/
structure ReceivedAll (a : Assembly C) (nodes : List (Spanned C)) (r : OpenRule C)
    (outer : List (OpenRule C)) (a' : Assembly C) : Prop where
  openRules : a'.builder.openRules = ⟨r.context, nodes.reverse ++ r.collected⟩ :: outer
  root : a'.builder.root = a.builder.root
  free : a'.forest.Free (nodes.reverse ++ a.builder.pending)

theorem receivedAll_nil {a : Assembly C} {r : OpenRule C} {outer : List (OpenRule C)}
    (hopen : a.builder.openRules = r :: outer) (hfree : a.forest.Free a.builder.pending) :
    a.ReceivedAll [] r outer a where
  openRules := hopen
  root := rfl
  free := hfree

theorem Received.cons {a b a' : Assembly C} {node : Spanned C} (h : a.Received node b)
    {r : OpenRule C} {outer : List (OpenRule C)} (hopen : a.builder.openRules = r :: outer)
    {nodes : List (Spanned C)} (hall : b.ReceivedAll nodes (r.collect node) outer a') :
    a.ReceivedAll (node :: nodes) r outer a' := by
  obtain ⟨-, hroot, hpending⟩ := h.of_openRules hopen
  refine ⟨?_, hall.root.trans hroot, ?_⟩
  · rw [hall.openRules, List.reverse_cons, List.append_assoc]
    rfl
  · rw [List.reverse_cons, List.append_assoc, List.singleton_append, ← hpending]
    exact hall.free

/-- A rule that has collected free nodes can be closed, and its node is received by
what was open around it. -/
theorem received_finishRule [RuleContext C] {a b : Assembly C} {r : OpenRule C}
    (hopen : b.builder.openRules = r :: a.builder.openRules)
    (hroot : b.builder.root = a.builder.root)
    (hfree : b.forest.Free (r.collected ++ a.builder.pending)) :
    ∃ a', finishRule.run b = .ok (.rule b.forest.size r.context r.children) a' ∧
      Received a (.rule b.forest.size r.context r.children) a' := by
  have hrun := run_finishRule b
  rw [hopen] at hrun
  dsimp only at hrun
  rw [OpenRule.children, if_pos hfree.detached_reverse] at hrun
  refine ⟨_, hrun, ?_, ?_, hfree.join r.context, ?_⟩
  · unfold Builder.complete
    cases a.builder.openRules with
    | nil => rfl
    | cons q outer => rfl
  · unfold Builder.complete
    cases a.builder.openRules with
    | nil => rfl
    | cons q outer => exact hroot
  · exact Forest.mem_adopt.mpr (Forest.mem_push_self rfl)

/-- A rule that has been opened and has received its children can be closed over
them. -/
theorem ReceivedAll.finishRule [RuleContext C] {a b b' : Assembly C} {context : C}
    (hrules : b.builder.openRules = { context } :: a.builder.openRules)
    (hroot : b.builder.root = a.builder.root) {nodes : List (Spanned C)}
    (hall : b.ReceivedAll nodes { context } a.builder.openRules b') :
    ∃ a', finishRule.run b' = .ok (.rule b'.forest.size context nodes) a' ∧
      a.Received (.rule b'.forest.size context nodes) a' := by
  have hopen : b'.builder.openRules = ⟨context, nodes.reverse⟩ :: a.builder.openRules := by
    rw [hall.openRules, List.append_nil]
  have hfree : b'.forest.Free (nodes.reverse ++ a.builder.pending) := by
    have hpending : b.builder.pending = a.builder.pending := Builder.pending_of_openRules hrules
    rw [← hpending]
    exact hall.free
  have hfinish := received_finishRule hopen (hall.root.trans hroot) hfree
  rwa [OpenRule.children, List.reverse_reverse] at hfinish

/-- A node that was received while no rule was open is the finished root. -/
theorem Received.finish {a b : Assembly C} {node : Spanned C} (h : a.Received node b)
    (hopen : a.builder.openRules = []) :
    ∃ a', Assembly.finish.run b = .ok node a' ∧ a'.forest = b.forest := by
  have hrun := run_finish b
  rw [h.openRules, h.root, Builder.complete, hopen] at hrun
  exact ⟨_, hrun, rfl⟩

end Assembly

end ParseTree
