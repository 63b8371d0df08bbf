import Mathlib.Data.List.Nodup
import Mathlib.Tactic.Tauto
import ParseTree.Forest.Basic

/-!
# Adoption

`rule` checks its children, adds a node and then gives the children their parent
one after the other. Once the check has passed nothing can go wrong any more: no
child has a parent, and since none occurs twice, none has got one by the time its
turn comes. So the whole operation either refuses at the start or ends in the
forest `join`, which is described here by what can be looked up in it.
-/

namespace ParseTree.Forest

variable {C : Type}

@[simp] theorem size_push (f : Forest C) (node : Spanned C) : (f.push node).size = f.size + 1 := by
  simp [size, push]

@[simp] theorem size_link (f : Forest C) (child parent : NodeId) :
    (f.link child parent).size = f.size := by
  simp [size, link]

theorem parent?_eq_none_of_size_le {f : Forest C} {id : NodeId} (h : f.size ≤ id) :
    f.parent? id = none := by
  have hslot : f.slots[id]? = none := Array.getElem?_eq_none h
  simp [parent?, hslot]

theorem lt_size_of_node?_eq_some {f : Forest C} {id : NodeId} {n : Node C}
    (h : f.node? id = some n) : id < f.size := by
  by_contra hid
  have hslot : f.slots[id]? = none := Array.getElem?_eq_none (Nat.le_of_not_lt hid)
  simp [node?, spanned?, hslot] at h

theorem mem_iff {f : Forest C} {n : Node C} : n ∈ f ↔ f.node? n.id = some n := Iff.rfl

theorem lt_size_of_mem {f : Forest C} {n : Node C} (h : n ∈ f) : n.id < f.size :=
  lt_size_of_node?_eq_some h

/-- A node of a forest is known by its identity. -/
theorem eq_of_id_eq {f : Forest C} {m n : Node C} (hm : m ∈ f) (hn : n ∈ f) (hid : m.id = n.id) :
    m = n := by
  rw [mem_iff, hid, mem_iff.mp hn] at hm
  exact (Option.some.inj hm).symm

/-- Among nodes of a forest, one that occurs twice is an identity that occurs twice. -/
theorem nodup_ids_iff {f : Forest C} {nodes : List (Spanned C)} (hmem : ∀ n ∈ nodes, n.node ∈ f) :
    (nodes.map Spanned.id).Nodup ↔ nodes.Nodup := by
  constructor
  · exact List.Nodup.of_map Spanned.id
  · intro h
    refine h.map_on fun m hm n hn hid => ?_
    exact Spanned.ext (eq_of_id_eq (hmem m hm) (hmem n hn) hid)

theorem rule?_eq_some_iff {f : Forest C} {id : NodeId} {r : RuleNode C} :
    f.rule? id = some r ↔ f.node? id = some r.node := by
  simp [rule?, Option.bind_eq_some_iff, Node.rule?_eq_some_iff]

/-- The check passes exactly if no node has a parent and none occurs twice. -/
theorem detached_iff {f : Forest C} {children : List (Spanned C)} :
    f.detached children = true ↔
      (∀ c ∈ children, f.parent? c.id = none) ∧ (children.map Spanned.id).Nodup := by
  induction children with
  | nil => simp [detached]
  | cons n rest ih =>
      simp only [detached, Bool.and_eq_true, ih, List.all_eq_true, bne_iff_ne,
        Option.isNone_iff_eq_none, List.forall_mem_cons, List.map_cons, List.nodup_cons,
        List.mem_map, not_exists, not_and]
      tauto

/-- The forest in which all the given nodes have the given parent. -/
def adopt (f : Forest C) (children : List (Spanned C)) (parent : NodeId) : Forest C :=
  children.foldl (fun g child => g.link child.id parent) f

@[simp] theorem adopt_nil (f : Forest C) (parent : NodeId) : f.adopt [] parent = f := rfl

@[simp] theorem adopt_cons (f : Forest C) (n : Spanned C) (rest : List (Spanned C))
    (parent : NodeId) : f.adopt (n :: rest) parent = (f.link n.id parent).adopt rest parent := rfl

@[simp] theorem size_adopt (f : Forest C) (children : List (Spanned C)) (parent : NodeId) :
    (f.adopt children parent).size = f.size := by
  induction children generalizing f with
  | nil => rfl
  | cons n rest ih => rw [adopt_cons, ih, size_link]

@[simp] theorem spanned?_adopt (f : Forest C) (children : List (Spanned C)) (parent id : NodeId) :
    (f.adopt children parent).spanned? id = f.spanned? id := by
  induction children generalizing f with
  | nil => rfl
  | cons n rest ih => rw [adopt_cons, ih, spanned?_link]

@[simp] theorem node?_adopt (f : Forest C) (children : List (Spanned C)) (parent id : NodeId) :
    (f.adopt children parent).node? id = f.node? id := by
  rw [node?, node?, spanned?_adopt]

theorem parent?_adopt (f : Forest C) (children : List (Spanned C)) (parent id : NodeId) :
    (f.adopt children parent).parent? id =
      if id ∈ children.map Spanned.id ∧ id < f.size then some parent else f.parent? id := by
  induction children generalizing f with
  | nil => simp
  | cons n rest ih =>
      rw [adopt_cons, ih, size_link, parent?_link]
      by_cases hid : n.id = id
      · by_cases hlt : id < f.size
        · simp [hid, hlt]
        · simp [hlt]
      · simp [hid, Ne.symm hid]

/-- A node that gets a parent takes nothing from the others. -/
theorem detached_link {f : Forest C} {n : Spanned C} {rest : List (Spanned C)} {parent : NodeId}
    (h : f.detached (n :: rest) = true) : (f.link n.id parent).detached rest = true := by
  obtain ⟨hnone, hnodup⟩ := detached_iff.mp h
  rw [List.map_cons, List.nodup_cons] at hnodup
  refine detached_iff.mpr ⟨fun c hc => ?_, hnodup.2⟩
  have hne : n.id ≠ c.id := by
    intro heq
    exact hnodup.1 (heq ▸ List.mem_map_of_mem hc)
  rw [parent?_link, if_neg (fun hand => hne hand.1)]
  exact hnone c (List.mem_cons_of_mem n hc)

/-- After the check, every child gets its parent. -/
theorem run_forM_setParent {f : Forest C} {children : List (Spanned C)} (parent : NodeId)
    (h : f.detached children = true) :
    (children.forM fun child => setParent child.id parent).run f =
      .ok () (f.adopt children parent) := by
  induction children generalizing f with
  | nil => rfl
  | cons n rest ih =>
      have hn : f.parent? n.id = none := (detached_iff.mp h).1 n (by simp)
      have hset : (setParent n.id parent).run f = .ok () (f.link n.id parent) := by
        simp [setParent, EStateM.run, hn]
      rw [List.forM_eq_forM, List.forM_cons, EStateM.run_bind, hset]
      exact ih (detached_link h)

/-- The forest with one more rule, which is the parent of its children. -/
def join (f : Forest C) (context : C) (children : List (Spanned C)) : Forest C :=
  (f.push (.rule f.size context children)).adopt children f.size

@[simp] theorem size_join (f : Forest C) (context : C) (children : List (Spanned C)) :
    (f.join context children).size = f.size + 1 := by
  simp [join]

theorem spanned?_join (f : Forest C) (context : C) (children : List (Spanned C)) (id : NodeId) :
    (f.join context children).spanned? id =
      if id = f.size then some (.rule f.size context children) else f.spanned? id := by
  rw [join, spanned?_adopt, spanned?_push]

theorem node?_join (f : Forest C) (context : C) (children : List (Spanned C)) (id : NodeId) :
    (f.join context children).node? id =
      if id = f.size then some (.rule f.size context (children.map Spanned.node))
      else f.node? id := by
  simp [join, node?_push]

theorem parent?_join (f : Forest C) (context : C) (children : List (Spanned C)) (id : NodeId) :
    (f.join context children).parent? id =
      if id ∈ children.map Spanned.id ∧ id < f.size + 1 then some f.size else f.parent? id := by
  simp only [join, parent?_adopt, size_push, parent?_push]

theorem detached_push (f : Forest C) (node : Spanned C) (children : List (Spanned C)) :
    (f.push node).detached children = f.detached children := by
  rw [Bool.eq_iff_iff, detached_iff, detached_iff]
  simp only [parent?_push]

theorem run_insert (make : NodeId → Spanned C) (f : Forest C) :
    (insert make).run f = .ok (make f.size) (f.push (make f.size)) := rfl

theorem run_setParent (child parent : NodeId) (f : Forest C) :
    (setParent child parent).run f =
      if (f.parent? child).isSome then .error .alreadyAttached f
      else .ok () (f.link child parent) := rfl

theorem run_checkDetached (children : List (Spanned C)) (f : Forest C) :
    (checkDetached children).run f =
      if f.detached children then .ok () f else .error .alreadyAttached f := rfl

/-- A rule is refused before anything has changed, or else it is made in full. -/
theorem run_rule (context : C) (children : List (Spanned C)) (f : Forest C) :
    (rule context children).run f =
      if f.detached children then
        .ok (.rule f.size context children) (f.join context children)
      else .error .alreadyAttached f := by
  rw [rule, EStateM.run_bind, run_checkDetached]
  by_cases h : f.detached children = true
  · rw [if_pos h, if_pos h]
    -- the children are linked in the forest that already holds the new rule
    have hpush : (f.push (.rule f.size context children)).detached children = true := by
      rw [detached_push, h]
    change (do
      children.forM fun child => setParent child.id f.size
      return Spanned.rule f.size context children : ForestM C (Spanned C)).run
        (f.push (.rule f.size context children)) = _
    rw [EStateM.run_bind, run_forM_setParent f.size hpush]
    rfl
  · rw [if_neg h, if_neg h]

/-- No node has the next identity. -/
theorem size_notMem_ids {f : Forest C} {nodes : List (Spanned C)}
    (hmem : ∀ n ∈ nodes, n.node ∈ f) : f.size ∉ nodes.map Spanned.id := by
  intro hsize
  obtain ⟨n, hn, hid⟩ := List.mem_map.mp hsize
  exact Nat.ne_of_lt (lt_size_of_mem (hmem n hn)) hid

/-- What has become of a forest by one more rule: the new node has the next identity, the
children in order and no parent, it is the parent of its children, and everything else is
as it was. -/
structure Joined (f : Forest C) (context : C) (children : List (Spanned C)) (node : Spanned C)
    (f' : Forest C) : Prop where
  rule : node.node.rule? = some ⟨f.size, context, children.map Spanned.node⟩
  size : f'.size = f.size + 1
  new : f.spanned? f.size = none ∧ f'.spanned? f.size = some node
  parent_new : f'.parent? f.size = none
  parent_child : ∀ c ∈ children, f'.parent? c.id = some f.size
  same : ∀ id, id ≠ f.size → f'.spanned? id = f.spanned? id
  parent_same : ∀ id, id ∉ children.map Spanned.id → f'.parent? id = f.parent? id

/-- Making a rule over nodes of the forest does what it should. -/
theorem joined_join (f : Forest C) (context : C) {children : List (Spanned C)}
    (hmem : ∀ c ∈ children, c.node ∈ f) :
    f.Joined context children (.rule f.size context children) (f.join context children) where
  rule := rfl
  size := size_join f context children
  new := by
    refine ⟨?_, by rw [spanned?_join, if_pos rfl]⟩
    rw [spanned?, Array.getElem?_eq_none (Nat.le_refl f.size)]
    rfl
  parent_new := by
    rw [parent?_join, if_neg fun h => size_notMem_ids hmem h.1]
    exact parent?_eq_none_of_size_le (Nat.le_refl f.size)
  parent_child c hc := by
    have hlt : c.id < f.size := lt_size_of_mem (hmem c hc)
    rw [parent?_join, if_pos ⟨List.mem_map_of_mem hc, Nat.lt_succ_of_lt hlt⟩]
  same id hid := by rw [spanned?_join, if_neg hid]
  parent_same id hid := by rw [parent?_join, if_neg fun h => hid h.1]

/-- In every forest, whatever parents it knows of and whatever rules are loose in it, a rule
over nodes of the forest is made exactly if none of them has a parent and none is listed
twice. Then there is one more node, the rule over the listed nodes, which is their parent and
has none itself, and nothing else has changed. -/
theorem rule_made_iff_free_and_distinct (f : Forest C) (context : C)
    {children : List (Spanned C)} (hmem : ∀ c ∈ children, c.node ∈ f) :
    ((∃ node f', (rule context children).run f = .ok node f') ↔
        (∀ c ∈ children, f.parent? c.id = none) ∧ children.Nodup) ∧
      ∀ node f', (rule context children).run f = .ok node f' →
        f.Joined context children node f' := by
  have hfree : f.detached children = true ↔
      (∀ c ∈ children, f.parent? c.id = none) ∧ children.Nodup := by
    rw [detached_iff, nodup_ids_iff hmem]
  rw [run_rule, ← hfree]
  by_cases hdet : f.detached children = true
  · rw [if_pos hdet]
    refine ⟨⟨fun _ => hdet, fun _ => ⟨_, _, rfl⟩⟩, fun node f' hrun => ?_⟩
    cases hrun
    exact joined_join f context hmem
  · rw [if_neg hdet]
    refine ⟨⟨?_, fun hyes => absurd hyes hdet⟩, ?_⟩
    · rintro ⟨node, f', ⟨⟩⟩
    · rintro node f' ⟨⟩

/-- A leaf below a loose rule has no parent, so a new rule over both is made and becomes
the parent of the leaf; the leaf with a parent of its own keeps it. -/
theorem rule_made_over_loose_rule :
    let leaf : Spanned Invocation := .terminal ⟨0, none⟩
    let taken : Spanned Invocation := .error ⟨1, none⟩
    let loose : Spanned Invocation := .rule 2 ⟨5, 0⟩ [leaf, taken, leaf]
    let f : Forest Invocation := ⟨#[{ toSpanned := leaf },
      { toSpanned := taken, parent := some 2 }, { toSpanned := loose }]⟩
    (∀ c ∈ [loose, leaf], c.node ∈ f) ∧
      (∃ node f', (rule ⟨7, 0⟩ [loose, leaf]).run f = .ok node f' ∧
        f'.parent? leaf.id = some 3 ∧ f'.parent? taken.id = some loose.id) ∧
      ¬ ∃ node f', (rule ⟨7, 0⟩ [leaf, taken]).run f = .ok node f' := by
  intro leaf taken loose f
  have hmem : ∀ c ∈ [loose, leaf], c.node ∈ f :=
    List.forall_mem_cons.mpr ⟨rfl, List.forall_mem_singleton.mpr rfl⟩
  have hmem' : ∀ c ∈ [leaf, taken], c.node ∈ f :=
    List.forall_mem_cons.mpr ⟨rfl, List.forall_mem_singleton.mpr rfl⟩
  obtain ⟨hmade, hjoined⟩ := rule_made_iff_free_and_distinct f ⟨7, 0⟩ hmem
  refine ⟨hmem, ?_, ?_⟩
  · have hnone : ∀ c ∈ [loose, leaf], f.parent? c.id = none :=
      List.forall_mem_cons.mpr ⟨rfl, List.forall_mem_singleton.mpr rfl⟩
    have hnodup : [loose, leaf].Nodup := (nodup_ids_iff hmem).mp (by decide)
    obtain ⟨node, f', hrun⟩ := hmade.mpr ⟨hnone, hnodup⟩
    have hnode := hjoined node f' hrun
    refine ⟨node, f', hrun, hnode.parent_child leaf (by simp), ?_⟩
    rw [hnode.parent_same taken.id (by decide)]
    rfl
  · rw [(rule_made_iff_free_and_distinct f ⟨7, 0⟩ hmem').1]
    rintro ⟨hnone, -⟩
    cases hnone taken (by simp)

end ParseTree.Forest
