import Mathlib.Data.List.Forall2
import ParseTree.Proofs.Builder.Outcome
import ParseTree.Proofs.Node.Reading

/-!
# Builders that differ in identities only

The same calls on two builders, in two forests that have nothing else in common, give
nodes of the same shapes under different identities. Which identities belong
together is a relation that grows by one pair whenever both sides make a node.
Builders look at identities only to compare them and to ask for parents, so as long
as the relation is one to one and agrees on who has a parent, the two sides
stay in step. What happens to the nodes outside the relation is nothing.
-/

namespace ParseTree

variable {C : Type}

/-- Which identities of one forest stand for which of another. -/
abbrev Pairing := NodeId → NodeId → Prop

/-- The nodes are paired and have the same shape. -/
structure Spanned.Alike (same : Pairing) (n m : Spanned C) : Prop where
  id : same n.id m.id
  shape : n.node.shape = m.node.shape

namespace Spanned

variable {same same' : Pairing} {n m : Spanned C}

theorem Alike.mono (hle : ∀ x y, same x y → same' x y) (h : Alike same n m) : Alike same' n m where
  id := hle _ _ h.id
  shape := h.shape

theorem Alike.spans_eq (h : Alike same n m) :
    n.node.preorder.map Node.span = m.node.preorder.map Node.span :=
  Node.answers_span.map_preorder_eq h.shape

theorem Alike.size_eq (h : Alike same n m) : n.node.size = m.node.size := by
  have hlength := congrArg List.length h.spans_eq
  simpa using hlength

theorem span_eq_of_shape_eq (h : n.node.shape = m.node.shape) : n.span = m.span := by
  rw [n.span_eq, m.span_eq]
  exact Node.answers_span.eq_of_shape_eq h

theorem shape_rule_eq {nodes nodes' : List (Spanned C)} (h : List.Forall₂ (Alike same) nodes nodes')
    (id id' : NodeId) (context : C) :
    (rule id context nodes).node.shape = (rule id' context nodes').node.shape := by
  have hshapes : nodes.map (fun n => n.node.shape) = nodes'.map (fun n => n.node.shape) := by
    induction h with
    | nil => rfl
    | cons hn _ ih => rw [List.map_cons, List.map_cons, hn.shape, ih]
  rw [node_rule, node_rule, Node.shape, Node.shape, Node.shapes_eq_map, Node.shapes_eq_map,
    List.map_map, List.map_map]
  exact congrArg (Shape.rule context) hshapes

theorem forall₂_ids {nodes nodes' : List (Spanned C)} (h : List.Forall₂ (Alike same) nodes nodes') :
    List.Forall₂ same (nodes.map id) (nodes'.map id) :=
  List.rel_map (fun _ _ hn => hn.id) h

end Spanned

/-- The pairs are pairs of nodes, no node is in two of them, and both nodes of a pair
have a parent or neither. -/
structure Forest.Paired (f g : Forest C) (same : Pairing) : Prop where
  lt_size : ∀ {x y}, same x y → x < f.size ∧ y < g.size
  unique : Relator.BiUnique same
  attached : ∀ {x y}, same x y → (f.parent? x).isSome = (g.parent? y).isSome

/-- The nodes that two forests will make next are a pair too. -/
def Pairing.grow (same : Pairing) (f g : Forest C) : Pairing := fun x y =>
  same x y ∨ x = f.size ∧ y = g.size

namespace Forest

variable {f g : Forest C} {same : Pairing}

theorem paired_empty : ({} : Forest C).Paired {} (fun _ _ => False) where
  lt_size h := h.elim
  unique := ⟨fun _ _ _ h => h.elim, fun _ _ _ h => h.elim⟩
  attached h := h.elim

theorem Paired.biUnique_grow (h : f.Paired g same) : Relator.BiUnique (same.grow f g) := by
  constructor
  · rintro x y z (hx | ⟨rfl, rfl⟩) (hy | ⟨rfl, hz⟩)
    · exact h.unique.1 hx hy
    · exact absurd (h.lt_size hx).2 (hz ▸ Nat.lt_irrefl _)
    · exact absurd (h.lt_size hy).2 (Nat.lt_irrefl _)
    · rfl
  · rintro x y z (hx | ⟨rfl, rfl⟩) (hy | ⟨hx', rfl⟩)
    · exact h.unique.2 hx hy
    · exact absurd (h.lt_size hx).1 (hx' ▸ Nat.lt_irrefl _)
    · exact absurd (h.lt_size hy).1 (Nat.lt_irrefl _)
    · rfl

/-- Both forests have one more node, and the parents are given alike. -/
theorem Paired.grow {f' g' : Forest C} (h : f.Paired g same) (hf : f'.size = f.size + 1)
    (hg : g'.size = g.size + 1)
    (hold : ∀ {x y}, same x y → (f'.parent? x).isSome = (g'.parent? y).isSome)
    (hnew : (f'.parent? f.size).isSome = (g'.parent? g.size).isSome) :
    f'.Paired g' (same.grow f g) where
  lt_size := by
    rw [hf, hg]
    rintro x y (hxy | ⟨rfl, rfl⟩)
    · obtain ⟨hx, hy⟩ := h.lt_size hxy
      exact ⟨Nat.lt_succ_of_lt hx, Nat.lt_succ_of_lt hy⟩
    · exact ⟨Nat.lt_succ_self _, Nat.lt_succ_self _⟩
  unique := h.biUnique_grow
  attached := by
    rintro x y (hxy | ⟨rfl, rfl⟩)
    · exact hold hxy
    · exact hnew

theorem Paired.push (h : f.Paired g same) (n m : Spanned C) :
    (f.push n).Paired (g.push m) (same.grow f g) := by
  apply h.grow (size_push f n) (size_push g m)
  · intro x y hxy
    rw [parent?_push, parent?_push]
    exact h.attached hxy
  · rw [parent?_push, parent?_push, parent?_eq_none_of_size_le (Nat.le_refl _),
      parent?_eq_none_of_size_le (Nat.le_refl _)]

variable {nodes nodes' : List (Spanned C)}

/-- A pair is among two lists of pairs on both sides or on neither. -/
theorem Paired.mem_ids_iff (h : f.Paired g same)
    (hnodes : List.Forall₂ (Spanned.Alike same) nodes nodes') {x y : NodeId} (hxy : same x y) :
    x ∈ nodes.map Spanned.id ↔ y ∈ nodes'.map Spanned.id :=
  List.rel_mem h.unique hxy (Spanned.forall₂_ids hnodes)

theorem exists_pair_of_mem (hnodes : List.Forall₂ (Spanned.Alike same) nodes nodes') {x : NodeId}
    (hx : x ∈ nodes.map Spanned.id) : ∃ y, same x y := by
  induction hnodes with
  | nil => cases hx
  | cons hpair _ ih =>
      rcases List.mem_cons.mp hx with rfl | hrest
      · exact ⟨_, hpair.id⟩
      · exact ih hrest

theorem Paired.ids_lt_size (h : f.Paired g same)
    (hnodes : List.Forall₂ (Spanned.Alike same) nodes nodes') :
    (∀ x ∈ nodes.map Spanned.id, x < f.size) ∧ ∀ y ∈ nodes'.map Spanned.id, y < g.size := by
  induction hnodes with
  | nil => simp
  | cons hpair _ ih =>
      obtain ⟨hx, hy⟩ := h.lt_size hpair.id
      exact ⟨List.forall_mem_cons.mpr ⟨hx, ih.1⟩, List.forall_mem_cons.mpr ⟨hy, ih.2⟩⟩

theorem Paired.detached_eq (h : f.Paired g same)
    (hnodes : List.Forall₂ (Spanned.Alike same) nodes nodes') :
    f.detached nodes = g.detached nodes' := by
  have hnodup : (nodes.map Spanned.id).Nodup ↔ (nodes'.map Spanned.id).Nodup :=
    List.rel_nodup h.unique (Spanned.forall₂_ids hnodes)
  have hparents : (∀ n ∈ nodes, f.parent? n.id = none) ↔
      ∀ m ∈ nodes', g.parent? m.id = none := by
    clear hnodup
    induction hnodes with
    | nil => simp
    | cons hpair _ ih =>
        have hattached := h.attached hpair.id
        rw [List.forall_mem_cons, List.forall_mem_cons, ih, ← Option.not_isSome_iff_eq_none,
          ← Option.not_isSome_iff_eq_none, hattached]
  rw [Bool.eq_iff_iff, detached_iff, detached_iff, hparents, hnodup]

theorem isSome_parent?_join {context : C} {x : NodeId} (hx : x < f.size) :
    ((f.join context nodes).parent? x).isSome =
      (decide (x ∈ nodes.map Spanned.id) || (f.parent? x).isSome) := by
  rw [parent?_join]
  by_cases hmem : x ∈ nodes.map Spanned.id
  · rw [if_pos ⟨hmem, Nat.lt_succ_of_lt hx⟩]
    simp [hmem]
  · rw [if_neg fun hand => hmem hand.1]
    simp [hmem]

theorem parent?_join_size {context : C} (hlt : ∀ x ∈ nodes.map Spanned.id, x < f.size) :
    (f.join context nodes).parent? f.size = none := by
  rw [parent?_join, if_neg fun hand => Nat.lt_irrefl _ (hlt _ hand.1)]
  exact parent?_eq_none_of_size_le (Nat.le_refl _)

/-- Rules over paired children are a pair, and their children get parents alike. -/
theorem Paired.join (h : f.Paired g same) (context : C)
    (hnodes : List.Forall₂ (Spanned.Alike same) nodes nodes') :
    (f.join context nodes).Paired (g.join context nodes') (same.grow f g) := by
  apply h.grow (size_join f context nodes) (size_join g context nodes')
  · intro x y hxy
    obtain ⟨hx, hy⟩ := h.lt_size hxy
    rw [isSome_parent?_join hx, isSome_parent?_join hy, h.attached hxy,
      decide_eq_decide.mpr (h.mem_ids_iff hnodes hxy)]
  · obtain ⟨hlt, hlt'⟩ := h.ids_lt_size hnodes
    rw [parent?_join_size hlt, parent?_join_size hlt']

end Forest

structure OpenRule.Alike (same : Pairing) (r q : OpenRule C) : Prop where
  context : r.context = q.context
  collected : List.Forall₂ (Spanned.Alike same) r.collected q.collected

namespace OpenRule

variable {same same' : Pairing} {r q : OpenRule C}

theorem Alike.mono (hle : ∀ x y, same x y → same' x y) (h : Alike same r q) : Alike same' r q where
  context := h.context
  collected := h.collected.imp fun _ _ hn => hn.mono hle

theorem Alike.children (h : Alike same r q) :
    List.Forall₂ (Spanned.Alike same) r.children q.children :=
  List.forall₂_reverse_iff.mpr h.collected

theorem Alike.collect (h : Alike same r q) {n m : Spanned C} (hn : n.Alike same m) :
    Alike same (r.collect n) (q.collect m) where
  context := h.context
  collected := .cons hn h.collected

end OpenRule

theorem rel_imp {α β : Type} {r s : α → β → Prop} (hle : ∀ x y, r x y → s x y)
    {x : Option α} {y : Option β} (h : Option.Rel r x y) : Option.Rel s x y := by
  cases h with
  | none => exact .none
  | some hxy => exact .some (hle _ _ hxy)

theorem isSome_eq_of_rel {α β : Type} {r : α → β → Prop} {x : Option α} {y : Option β}
    (h : Option.Rel r x y) : x.isSome = y.isSome := by
  cases h with
  | none => rfl
  | some _ => rfl

structure Builder.Alike (same : Pairing) (b c : Builder C) : Prop where
  openRules : List.Forall₂ (OpenRule.Alike same) b.openRules c.openRules
  root : Option.Rel (Spanned.Alike same) b.root c.root
  nodeCount : b.nodeCount = c.nodeCount

namespace Builder

variable {same same' : Pairing} {b c : Builder C}

theorem alike_empty (same : Pairing) : Alike same ({} : Builder C) {} where
  openRules := .nil
  root := .none
  nodeCount := rfl

theorem Alike.mono (hle : ∀ x y, same x y → same' x y) (h : Alike same b c) : Alike same' b c where
  openRules := h.openRules.imp fun _ _ hr => hr.mono hle
  root := rel_imp (fun _ _ hn => hn.mono hle) h.root
  nodeCount := h.nodeCount

theorem Alike.depth_eq (h : Alike same b c) : b.depth = c.depth := h.openRules.length_eq

theorem Alike.pending (h : Alike same b c) :
    List.Forall₂ (Spanned.Alike same) b.pending c.pending :=
  List.rel_flatMap h.openRules fun _ _ hr => hr.collected

/-- Both builders have no open rule, or rules that are alike are the innermost ones. -/
theorem Alike.openRules_cases (h : Alike same b c) :
    b.openRules = [] ∧ c.openRules = [] ∨
      ∃ r outer q outer', b.openRules = r :: outer ∧ c.openRules = q :: outer' ∧
        OpenRule.Alike same r q ∧ List.Forall₂ (OpenRule.Alike same) outer outer' := by
  cases hb : b.openRules with
  | nil =>
      have hrules := h.openRules
      rw [hb, List.forall₂_nil_left_iff] at hrules
      exact .inl ⟨rfl, hrules⟩
  | cons r outer =>
      have hrules := h.openRules
      rw [hb, List.forall₂_cons_left_iff] at hrules
      obtain ⟨q, outer', hr, houter, hc⟩ := hrules
      exact .inr ⟨r, outer, q, outer', rfl, hc, hr, houter⟩

theorem Alike.isEmpty_eq (h : Alike same b c) : b.openRules.isEmpty = c.openRules.isEmpty := by
  rcases h.openRules_cases with ⟨hb, hc⟩ | ⟨r, outer, q, outer', hb, hc, -, -⟩
  · rw [hb, hc]
  · rw [hb, hc]
    rfl

theorem Alike.complete (h : Alike same b c) {n m : Spanned C} (hn : n.Alike same m) :
    Alike same (b.complete n) (c.complete m) := by
  rcases h.openRules_cases with ⟨hb, hc⟩ | ⟨r, outer, q, outer', hb, hc, hr, houter⟩
  · rw [Builder.complete, Builder.complete, hb, hc]
    exact ⟨.nil, .some hn, congrArg (· + 1) h.nodeCount⟩
  · rw [Builder.complete, Builder.complete, hb, hc]
    exact ⟨.cons (hr.collect hn) houter, h.root, congrArg (· + 1) h.nodeCount⟩

end Builder

/-- The forests, the builders and the reports of two builders at work are alike. -/
structure Assembly.Alike (same : Pairing) (a b : Assembly C) : Prop where
  forest : a.forest.Paired b.forest same
  builder : a.builder.Alike same b.builder
  report : a.report = b.report

/-- The same refusal, or results that belong together. -/
inductive OutcomeAlike {α : Type} (rel : α → α → Prop) :
    Except BuildError α → Except BuildError α → Prop
  | refused (e : BuildError) : OutcomeAlike rel (.error e) (.error e)
  | given {x y : α} (h : rel x y) : OutcomeAlike rel (.ok x) (.ok y)

theorem OutcomeAlike.map {α β : Type} {rel : α → α → Prop} {rel' : β → β → Prop} {g : α → β}
    (hg : ∀ x y, rel x y → rel' (g x) (g y)) {x y : Except BuildError α}
    (h : OutcomeAlike rel x y) : OutcomeAlike rel' (x.map g) (y.map g) := by
  cases h with
  | refused e => exact .refused e
  | given hxy => exact .given (hg _ _ hxy)

/-- Work has been done in step on both sides: the states and the outcomes are alike under a
pairing that has at most grown by the next nodes, and in the first forest all
other nodes have kept their parents. -/
structure InStep {α : Type} (rel : Pairing → α → α → Prop) (same : Pairing)
    (work work' : AssemblyM C α) (a b : Assembly C) (same' : Pairing) : Prop where
  mono : ∀ x y, same x y → same' x y
  new : ∀ x y, same' x y → same x y ∨ x = a.forest.size
  state : (stateAfter work a).Alike same' (stateAfter work' b)
  outcome : OutcomeAlike (rel same') (answerOf work a) (answerOf work' b)
  size_le : a.forest.size ≤ (stateAfter work a).forest.size
  frame : ∀ x, x < a.forest.size → (∀ y, ¬ same x y) →
    (stateAfter work a).forest.parent? x = a.forest.parent? x

theorem Pairing.le_grow (same : Pairing) (f g : Forest C) (x y : NodeId) (h : same x y) :
    same.grow f g x y := .inl h

namespace InStep

variable {α β : Type} {rel : Pairing → α → α → Prop} {same same' : Pairing}
  {work work' : AssemblyM C α} {a b a' b' : Assembly C}

/-- Work that makes no node. -/
theorem of_still (h : a.Alike same b) {x y : α} (ha : work.run a = .ok x a')
    (hb : work'.run b = .ok y b') (hfa : a'.forest = a.forest) (hfb : b'.forest = b.forest)
    (hbuilder : a'.builder.Alike same b'.builder) (hreport : a'.report = b'.report)
    (hgiven : rel same x y) : InStep rel same work work' a b same where
  mono _ _ hxy := hxy
  new _ _ hxy := .inl hxy
  state := by
    rw [stateAfter_of_ok ha, stateAfter_of_ok hb]
    refine ⟨?_, hbuilder, hreport⟩
    rw [hfa, hfb]
    exact h.forest
  outcome := by
    rw [answerOf_of_ok ha, answerOf_of_ok hb]
    exact .given hgiven
  size_le := Nat.le_of_eq (by rw [stateAfter_of_ok ha, hfa])
  frame x _ _ := by rw [stateAfter_of_ok ha, hfa]

/-- Work that is refused on both sides. -/
theorem of_refused (h : a.Alike same b) {e : BuildError} (ha : work.run a = .error e a)
    (hb : work'.run b = .error e b) : InStep rel same work work' a b same where
  mono _ _ hxy := hxy
  new _ _ hxy := .inl hxy
  state := by
    rw [stateAfter_of_error ha, stateAfter_of_error hb]
    exact h
  outcome := by
    rw [answerOf_of_error ha, answerOf_of_error hb]
    exact .refused e
  size_le := Nat.le_of_eq (by rw [stateAfter_of_error ha])
  frame x _ _ := by rw [stateAfter_of_error ha]

/-- Work that makes a node on both sides. -/
theorem of_grown {x y : α} (ha : work.run a = .ok x a') (hb : work'.run b = .ok y b')
    (hstate : a'.Alike (same.grow a.forest b.forest) b')
    (hgiven : rel (same.grow a.forest b.forest) x y)
    (hsize : a'.forest.size = a.forest.size + 1)
    (hframe : ∀ x, x < a.forest.size → (∀ y, ¬ same x y) →
      a'.forest.parent? x = a.forest.parent? x) :
    InStep rel same work work' a b (same.grow a.forest b.forest) where
  mono := same.le_grow a.forest b.forest
  new := by
    rintro x y (hxy | ⟨hx, -⟩)
    · exact .inl hxy
    · exact .inr hx
  state := by
    rw [stateAfter_of_ok ha, stateAfter_of_ok hb]
    exact hstate
  outcome := by
    rw [answerOf_of_ok ha, answerOf_of_ok hb]
    exact .given hgiven
  size_le := by
    rw [stateAfter_of_ok ha, hsize]
    exact Nat.le_succ _
  frame := by
    rw [stateAfter_of_ok ha]
    exact hframe

/-- What is done with the results does not matter as long as they still belong together. -/
theorem bind_pure (h : InStep rel same work work' a b same') {rel' : Pairing → β → β → Prop}
    {g : α → β} (hg : ∀ x y, rel same' x y → rel' same' (g x) (g y)) :
    InStep rel' same (work >>= fun x => pure (g x)) (work' >>= fun x => pure (g x)) a b same' where
  mono := h.mono
  new := h.new
  state := by
    rw [stateAfter_bind_pure, stateAfter_bind_pure]
    exact h.state
  outcome := by
    rw [answerOf_bind_pure, answerOf_bind_pure]
    exact h.outcome.map hg
  size_le := by
    rw [stateAfter_bind_pure]
    exact h.size_le
  frame := by
    rw [stateAfter_bind_pure]
    exact h.frame

end InStep

namespace Assembly.Alike

variable {same : Pairing} {a b : Assembly C}

theorem startRule [RuleContext C] (h : a.Alike same b) (context : C) :
    InStep (fun _ _ _ => True) same (startRule context) (startRule context) a b same := by
  have hcond : (a.builder.openRules.isEmpty && a.builder.root.isSome) =
      (b.builder.openRules.isEmpty && b.builder.root.isSome) := by
    rw [h.builder.isEmpty_eq, isSome_eq_of_rel h.builder.root]
  have ha := run_startRule context a
  have hb := run_startRule context b
  rw [← hcond] at hb
  split at ha
  · next hrefused =>
      rw [if_pos hrefused] at hb
      exact .of_refused h ha hb
  · next hallowed =>
      rw [if_neg hallowed] at hb
      apply InStep.of_still h ha hb rfl rfl
      · exact ⟨.cons ⟨rfl, .nil⟩ h.builder.openRules, h.builder.root, h.builder.nodeCount⟩
      · rw [h.report, h.builder.depth_eq]
      · trivial

/-- The three kinds of leaves are told apart by the node that is made for an identity. -/
theorem addLeaf (h : a.Alike same b) (make : NodeId → Spanned C) (addition : Addition)
    (hid : ∀ id, (make id).id = id) (hshape : ∀ x y, (make x).node.shape = (make y).node.shape) :
    ∃ same', InStep Spanned.Alike same (addLeaf (Forest.insert make) addition)
      (addLeaf (Forest.insert make) addition) a b same' := by
  have ha := run_addLeaf make addition a
  have hb := run_addLeaf make addition b
  rcases h.builder.openRules_cases with ⟨hna, hnb⟩ | ⟨r, outer, q, outer', hna, hnb, hr, houter⟩
  · rw [hna] at ha
    rw [hnb] at hb
    exact ⟨same, .of_refused h ha hb⟩
  · rw [hna] at ha
    rw [hnb] at hb
    have hle := same.le_grow a.forest b.forest
    have hnode : (make a.forest.size).Alike (same.grow a.forest b.forest) (make b.forest.size) :=
      ⟨.inr ⟨hid _, hid _⟩, hshape _ _⟩
    refine ⟨_, .of_grown ha hb ?_ hnode (Forest.size_push _ _)
      fun x _ _ => Forest.parent?_push _ _ _⟩
    refine ⟨h.forest.push _ _, ⟨?_, ?_, congrArg (· + 1) h.builder.nodeCount⟩, h.report⟩
    · exact .cons ((hr.mono hle).collect hnode) (houter.imp fun _ _ hr => hr.mono hle)
    · exact (h.builder.mono hle).root

theorem attach (h : a.Alike same b) {n m : Spanned C} (hn : n.Alike same m) :
    InStep (fun _ _ _ => True) same (attach n) (attach m) a b same := by
  have hcollects : a.builder.collects n.id = b.builder.collects m.id := by
    rw [Bool.eq_iff_iff, Builder.collects_iff_mem_pending, Builder.collects_iff_mem_pending]
    exact h.forest.mem_ids_iff h.builder.pending hn.id
  have hcond : (a.builder.collects n.id || (a.forest.parent? n.id).isSome) =
      (b.builder.collects m.id || (b.forest.parent? m.id).isSome) := by
    rw [hcollects, h.forest.attached hn.id]
  have ha := run_attach n a
  have hb := run_attach m b
  rw [← hcond] at hb
  split at ha
  · next htaken =>
      rw [if_pos htaken] at hb
      exact .of_refused h ha hb
  · next hfree =>
      rw [if_neg hfree] at hb
      rcases h.builder.openRules_cases with
        ⟨hna, hnb⟩ | ⟨r, outer, q, outer', hna, hnb, hr, houter⟩
      · rw [hna] at ha
        rw [hnb] at hb
        exact .of_refused h ha hb
      · rw [hna] at ha
        rw [hnb] at hb
        apply InStep.of_still h ha hb rfl rfl
        · refine ⟨.cons (hr.collect hn) houter, h.builder.root, ?_⟩
          exact congrArg₂ (· + ·) h.builder.nodeCount hn.size_eq
        · exact h.report
        · trivial

theorem removeLastChild (h : a.Alike same b) :
    InStep (fun same => Option.Rel (Spanned.Alike same)) same removeLastChild removeLastChild
      a b same := by
  have ha := run_removeLastChild a
  have hb := run_removeLastChild b
  rcases h.builder.openRules_cases with
    ⟨hna, hnb⟩ | ⟨⟨context, collected⟩, outer, ⟨context', collected'⟩, outer', hna, hnb, hr, houter⟩
  · rw [hna] at ha
    rw [hnb] at hb
    exact .of_still h ha hb rfl rfl h.builder h.report .none
  · rw [hna] at ha
    rw [hnb] at hb
    have hcollected : List.Forall₂ (Spanned.Alike same) collected collected' := hr.collected
    cases hcollected with
    | nil => exact .of_still h ha hb rfl rfl h.builder h.report .none
    | cons hn hrest =>
        apply InStep.of_still h ha hb rfl rfl
        · refine ⟨.cons ⟨hr.context, hrest⟩ houter, h.builder.root, ?_⟩
          exact congrArg₂ (· - ·) h.builder.nodeCount hn.size_eq
        · exact h.report
        · exact .some hn

theorem finishRule [RuleContext C] (h : a.Alike same b) :
    ∃ same', InStep Spanned.Alike same (finishRule (C := C)) finishRule a b same' := by
  have ha := run_finishRule a
  have hb := run_finishRule b
  rcases h.builder.openRules_cases with ⟨hna, hnb⟩ | ⟨r, outer, q, outer', hna, hnb, hr, houter⟩
  · rw [hna] at ha
    rw [hnb] at hb
    exact ⟨same, .of_refused h ha hb⟩
  · rw [hna] at ha
    rw [hnb] at hb
    dsimp only at ha hb
    rw [← h.forest.detached_eq hr.children] at hb
    split at ha
    · next hdet =>
        rw [if_pos hdet, ← hr.context, ← hr.collected.length_eq] at hb
        have hle := same.le_grow a.forest b.forest
        have hnode : (Spanned.rule a.forest.size r.context r.children).Alike
            (same.grow a.forest b.forest) (.rule b.forest.size r.context q.children) :=
          ⟨.inr ⟨rfl, rfl⟩, Spanned.shape_rule_eq hr.children _ _ _⟩
        have hrest : Builder.Alike same { a.builder with openRules := outer }
            { b.builder with openRules := outer' } :=
          ⟨houter, h.builder.root, h.builder.nodeCount⟩
        refine ⟨_, .of_grown ha hb ⟨?_, ?_, ?_⟩ hnode (Forest.size_join _ _ _) fun x hx hfree => ?_⟩
        · exact h.forest.join r.context hr.children
        · exact (hrest.mono hle).complete hnode
        · rw [h.report, Spanned.span_eq_of_shape_eq hnode.shape]
        · rw [Forest.parent?_join, if_neg]
          rintro ⟨hmem, -⟩
          obtain ⟨y, hxy⟩ := Forest.exists_pair_of_mem hr.children hmem
          exact hfree y hxy
    · next hdet =>
        rw [if_neg hdet] at hb
        exact ⟨same, .of_refused h ha hb⟩

theorem finish (h : a.Alike same b) :
    InStep Spanned.Alike same (finish (C := C)) finish a b same := by
  have ha := run_finish a
  have hb := run_finish b
  have hroot := h.builder.root
  rw [← h.builder.isEmpty_eq] at hb
  split at ha
  · next hempty =>
      rw [if_pos hempty] at hb
      generalize a.builder.root = root at ha hroot
      generalize b.builder.root = root' at hb hroot
      cases hroot with
      | none => exact .of_refused h ha hb
      | some hn =>
          apply InStep.of_still h ha hb rfl rfl h.builder
          · rw [h.report, h.builder.nodeCount]
          · exact hn
  · next hopen =>
      rw [if_neg hopen, ← h.builder.depth_eq] at hb
      exact .of_refused h ha hb

end Assembly.Alike

/-- The steps are the same, up to the identity of a subtree. -/
inductive BuilderStep.Alike (same : Pairing) : BuilderStep C → BuilderStep C → Prop
  | startRule (context : C) : Alike same (.startRule context) (.startRule context)
  | token (symbol : Token) : Alike same (.token symbol) (.token symbol)
  | missingToken : Alike same .missingToken .missingToken
  | errorToken (symbol : Option Token) : Alike same (.errorToken symbol) (.errorToken symbol)
  | attach {n m : Spanned C} (h : n.Alike same m) : Alike same (.attach n) (.attach m)
  | removeLastChild : Alike same .removeLastChild .removeLastChild
  | finishRule : Alike same .finishRule .finishRule
  | finish : Alike same .finish .finish

theorem BuilderStep.Alike.endsBuilder_eq {same : Pairing} {step step' : BuilderStep C}
    (h : BuilderStep.Alike same step step') : step.endsBuilder = step'.endsBuilder := by
  cases h <;> rfl

/-- Builders that are alike stay alike through every step. -/
theorem BuilderStep.Alike.inStep [RuleContext C] {same : Pairing} {step step' : BuilderStep C}
    (hstep : BuilderStep.Alike same step step') {a b : Assembly C} (h : a.Alike same b) :
    ∃ same', InStep (fun same => Option.Rel (Spanned.Alike same)) same step.run step'.run
      a b same' := by
  have hsome : ∀ (same' : Pairing) (n m : Spanned C), n.Alike same' m →
      Option.Rel (Spanned.Alike same') (some n) (some m) := fun _ _ _ hn => .some hn
  cases hstep with
  | startRule context => exact ⟨same, (h.startRule context).bind_pure fun _ _ _ => .none⟩
  | token symbol =>
      obtain ⟨same', hwork⟩ := h.addLeaf (fun id => .terminal { id, symbol := some symbol }) .token
        (fun _ => rfl) fun _ _ => rfl
      exact ⟨same', hwork.bind_pure (hsome same')⟩
  | missingToken =>
      obtain ⟨same', hwork⟩ := h.addLeaf (fun id => .terminal { id, symbol := none }) .missingToken
        (fun _ => rfl) fun _ _ => rfl
      exact ⟨same', hwork.bind_pure (hsome same')⟩
  | errorToken symbol =>
      obtain ⟨same', hwork⟩ := h.addLeaf (fun id => .error { id, symbol }) .errorToken
        (fun _ => rfl) fun _ _ => rfl
      exact ⟨same', hwork.bind_pure (hsome same')⟩
  | attach hn => exact ⟨same, (h.attach hn).bind_pure fun _ _ _ => .none⟩
  | removeLastChild => exact ⟨same, h.removeLastChild⟩
  | finishRule =>
      obtain ⟨same', hwork⟩ := h.finishRule
      exact ⟨same', hwork.bind_pure (hsome same')⟩
  | finish => exact ⟨same, h.finish.bind_pure (hsome same)⟩

end ParseTree
