import ParseTree.Proofs.Forest.Adoption

/-!
# Upward and downward links

A forest keeps two views of one relation: the children are part of a rule, the
parents are kept beside the nodes. `WellFormed` says that the nodes are where they
should be and that children come before their rules. It holds however nodes are
made. `Linked` says that the two views agree, which is true as long as parents are
given only by `join`.
-/

namespace ParseTree.Forest

variable {C : Type}

/-- Every node stands at its own identity, and the children of a node belong to
the forest and are older than the node. -/
structure WellFormed (f : Forest C) : Prop where
  id_eq : ∀ {id : NodeId} {n : Node C}, f.node? id = some n → n.id = id
  child_mem : ∀ {n c : Node C}, n ∈ f → c ∈ n.children → c ∈ f
  child_lt : ∀ {n c : Node C}, n ∈ f → c ∈ n.children → c.id < n.id

/-- The parent of a node is the rule that has it as a child, and no rule has a
child twice. -/
structure Linked (f : Forest C) : Prop where
  parent?_eq_some_iff : ∀ {id p : NodeId}, f.parent? id = some p ↔
    ∃ r, f.rule? p = some r ∧ id ∈ r.children.map Node.id
  nodup_children : ∀ {p : NodeId} {r : RuleNode C}, f.rule? p = some r →
    (r.children.map Node.id).Nodup

@[simp] theorem node?_empty (id : NodeId) : ({} : Forest C).node? id = none := rfl

@[simp] theorem parent?_empty (id : NodeId) : ({} : Forest C).parent? id = none := rfl

@[simp] theorem rule?_empty (id : NodeId) : ({} : Forest C).rule? id = none := rfl

theorem wellFormed_empty : ({} : Forest C).WellFormed where
  id_eq h := by simp at h
  child_mem h := by simp [mem_iff] at h
  child_lt h := by simp [mem_iff] at h

theorem linked_empty : ({} : Forest C).Linked where
  parent?_eq_some_iff := by simp
  nodup_children h := by simp at h

theorem node?_push_of_eq_some {f : Forest C} {node : Spanned C} {id : NodeId} {n : Node C}
    (h : f.node? id = some n) : (f.push node).node? id = some n := by
  have hid : id ≠ f.size := Nat.ne_of_lt (lt_size_of_node?_eq_some h)
  rw [node?_push, if_neg hid, h]

theorem mem_push_of_mem {f : Forest C} {node : Spanned C} {n : Node C} (h : n ∈ f) :
    n ∈ f.push node :=
  node?_push_of_eq_some h

theorem mem_push_self {f : Forest C} {node : Spanned C} (h : node.id = f.size) :
    node.node ∈ f.push node := by
  have hid : node.node.id = f.size := h
  rw [mem_iff, node?_push, if_pos hid]

/-- A node of the larger forest is the new one or an old one. -/
theorem eq_or_mem_of_mem_push {f : Forest C} {node : Spanned C} {n : Node C}
    (h : n ∈ f.push node) : n = node.node ∨ n ∈ f := by
  rw [mem_iff, node?_push] at h
  split at h
  · exact .inl (Option.some.inj h).symm
  · exact .inr h

theorem WellFormed.push {f : Forest C} (h : f.WellFormed) {node : Spanned C}
    (hid : node.id = f.size) (hmem : ∀ c ∈ node.node.children, c ∈ f) :
    (f.push node).WellFormed where
  id_eq {id n} hn := by
    rw [node?_push] at hn
    split at hn
    · next heq =>
        cases hn
        exact hid.trans heq.symm
    · exact h.id_eq hn
  child_mem {n c} hn hc := by
    rcases eq_or_mem_of_mem_push hn with rfl | hold
    · exact mem_push_of_mem (hmem c hc)
    · exact mem_push_of_mem (h.child_mem hold hc)
  child_lt {n c} hn hc := by
    rcases eq_or_mem_of_mem_push hn with rfl | hold
    · exact Nat.lt_of_lt_of_eq (lt_size_of_mem (hmem c hc)) hid.symm
    · exact h.child_lt hold hc

/-- A leaf is no rule, so it changes neither view. -/
theorem Linked.push_leaf {f : Forest C} (h : f.Linked) {node : Spanned C}
    (hleaf : node.node.rule? = none) : (f.push node).Linked := by
  have hrule : ∀ p, (f.push node).rule? p = f.rule? p := by
    intro p
    rw [rule?, node?_push]
    split
    · next hp =>
        have hnone : f.node? p = none := by
          by_contra hsome
          obtain ⟨n, hn⟩ := Option.ne_none_iff_exists'.mp hsome
          exact Nat.lt_irrefl _ (hp ▸ lt_size_of_node?_eq_some hn)
        rw [rule?, hnone]
        exact hleaf
    · rfl
  constructor
  · intro id p
    rw [parent?_push, hrule]
    exact h.parent?_eq_some_iff
  · intro p r hr
    exact h.nodup_children (hrule p ▸ hr)

theorem mem_link {f : Forest C} {child parent : NodeId} {n : Node C} :
    n ∈ f.link child parent ↔ n ∈ f := by
  rw [mem_iff, mem_iff, node?_link]

theorem WellFormed.link {f : Forest C} (h : f.WellFormed) (child parent : NodeId) :
    (f.link child parent).WellFormed where
  id_eq hn := h.id_eq (by rwa [node?_link] at hn)
  child_mem hn hc := mem_link.mpr (h.child_mem (mem_link.mp hn) hc)
  child_lt hn hc := h.child_lt (mem_link.mp hn) hc

theorem mem_adopt {f : Forest C} {children : List (Spanned C)} {parent : NodeId} {n : Node C} :
    n ∈ f.adopt children parent ↔ n ∈ f := by
  rw [mem_iff, mem_iff, node?_adopt]

theorem mem_join_of_mem {f : Forest C} {context : C} {children : List (Spanned C)} {n : Node C}
    (h : n ∈ f) : n ∈ f.join context children :=
  mem_adopt.mpr (mem_push_of_mem h)

theorem WellFormed.adopt {f : Forest C} (h : f.WellFormed) (children : List (Spanned C))
    (parent : NodeId) : (f.adopt children parent).WellFormed := by
  induction children generalizing f with
  | nil => exact h
  | cons n rest ih => exact ih (h.link n.id parent)

theorem WellFormed.join {f : Forest C} (h : f.WellFormed) (context : C)
    {children : List (Spanned C)} (hmem : ∀ c ∈ children, c.node ∈ f) :
    (f.join context children).WellFormed := by
  apply WellFormed.adopt
  apply h.push rfl
  intro c hc
  obtain ⟨s, hs, rfl⟩ := List.mem_map.mp hc
  exact hmem s hs

theorem rule?_join (f : Forest C) (context : C) (children : List (Spanned C)) (p : NodeId) :
    (f.join context children).rule? p =
      if p = f.size then some ⟨f.size, context, children.map Spanned.node⟩ else f.rule? p := by
  rw [rule?, node?_join]
  split
  · rfl
  · rfl

theorem map_id_map_node (children : List (Spanned C)) :
    (children.map Spanned.node).map Node.id = children.map Spanned.id := by
  rw [List.map_map]
  rfl

/-- Both views get the same new pairs, and the check made sure that no child was
in a pair before. -/
theorem Linked.join {f : Forest C} (h : f.Linked) (context : C) {children : List (Spanned C)}
    (hmem : ∀ c ∈ children, c.node ∈ f) (hdet : f.detached children = true) :
    (f.join context children).Linked := by
  obtain ⟨hnone, hnodup⟩ := detached_iff.mp hdet
  constructor
  · intro id p
    rw [parent?_join, rule?_join]
    by_cases hid : id ∈ children.map Spanned.id
    · obtain ⟨c, hc, rfl⟩ := List.mem_map.mp hid
      have hlt : c.id < f.size := lt_size_of_mem (hmem c hc)
      rw [if_pos ⟨hid, Nat.lt_succ_of_lt hlt⟩]
      constructor
      · intro hp
        cases hp
        exact ⟨_, if_pos rfl, by rwa [map_id_map_node]⟩
      · rintro ⟨r, hr, hr'⟩
        by_cases hp : p = f.size
        · rw [hp]
        · -- an old rule would have given the child a parent
          rw [if_neg hp] at hr
          have hold := h.parent?_eq_some_iff.mpr ⟨r, hr, hr'⟩
          rw [hnone c hc] at hold
          cases hold
    · rw [if_neg (fun hand => hid hand.1), h.parent?_eq_some_iff]
      constructor
      · rintro ⟨r, hr, hr'⟩
        have hp : p ≠ f.size :=
          Nat.ne_of_lt (lt_size_of_node?_eq_some (rule?_eq_some_iff.mp hr))
        exact ⟨r, by rw [if_neg hp, hr], hr'⟩
      · rintro ⟨r, hr, hr'⟩
        by_cases hp : p = f.size
        · rw [if_pos hp] at hr
          cases hr
          rw [map_id_map_node] at hr'
          exact absurd hr' hid
        · rw [if_neg hp] at hr
          exact ⟨r, hr, hr'⟩
  · intro p r hr
    rw [rule?_join] at hr
    split at hr
    · cases hr
      rwa [map_id_map_node]
    · exact h.nodup_children hr

/-- In a well-formed forest a child is known by its identity. -/
theorem WellFormed.mem_children_iff {f : Forest C} (h : f.WellFormed) {n m : Node C} (hn : n ∈ f)
    (hm : m ∈ f) : n ∈ m.children ↔ n.id ∈ m.children.map Node.id := by
  constructor
  · exact List.mem_map_of_mem
  · intro hid
    obtain ⟨c, hc, hcid⟩ := List.mem_map.mp hid
    have hcf : f.node? c.id = some c := h.child_mem hm hc
    rw [hcid, mem_iff.mp hn] at hcf
    cases hcf
    exact hc

end ParseTree.Forest
