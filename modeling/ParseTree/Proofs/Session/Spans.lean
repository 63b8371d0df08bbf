import ParseTree.Proofs.Forest.Ancestry
import ParseTree.Proofs.Session.Runs
import ParseTree.Proofs.Span.Unions

/-!
# Spans and the tokens below

The span of a rule is put together once, from the spans of its children, by unions
that treat an invalid span on the left and one on the right differently. All the same
the span of a node runs exactly from the least position of a token below it to the
greatest, negative positions included, and is void only where there is no token. So
spans grow on the way up, whoever made the rules and over whichever nodes.
-/

namespace ParseTree

variable {C : Type}

namespace Span

/-- The span runs from the least of the positions to the greatest, and is void if
there are none. -/
structure Tight (s : Span) (positions : List Int64) : Prop where
  eq_void : positions = [] → s = void
  start_mem : positions ≠ [] → s.start ∈ positions
  stop_mem : positions ≠ [] → s.stop ∈ positions
  bounds : ∀ i ∈ positions, s.start ≤ i ∧ i ≤ s.stop

theorem tight_void : void.Tight [] where
  eq_void _ := rfl
  start_mem h := absurd rfl h
  stop_mem h := absurd rfl h
  bounds i hi := by cases hi

theorem tight_single (position : Int64) : (single position).Tight [position] where
  eq_void h := by cases h
  start_mem _ := List.mem_singleton.mpr rfl
  stop_mem _ := List.mem_singleton.mpr rfl
  bounds i hi := by
    rw [List.mem_singleton.mp hi]
    exact ⟨Int64.le_refl _, Int64.le_refl _⟩

theorem Tight.valid {s : Span} {positions : List Int64} (h : s.Tight positions)
    (hne : positions ≠ []) : s.Valid :=
  (h.bounds _ (h.start_mem hne)).2

theorem Tight.hull {s t : Span} {ps qs : List Int64} (hs : s.Tight ps) (ht : t.Tight qs)
    (hps : ps ≠ []) (hqs : qs ≠ []) : (s.hull t).Tight (ps ++ qs) where
  eq_void h := absurd (List.append_eq_nil_iff.mp h).1 hps
  start_mem _ := by
    rcases start_hull_eq s t with h | h
    · rw [h]
      exact List.mem_append_left qs (hs.start_mem hps)
    · rw [h]
      exact List.mem_append_right ps (ht.start_mem hqs)
  stop_mem _ := by
    rcases stop_hull_eq s t with h | h
    · rw [h]
      exact List.mem_append_left qs (hs.stop_mem hps)
    · rw [h]
      exact List.mem_append_right ps (ht.stop_mem hqs)
  bounds i hi := by
    rcases List.mem_append.mp hi with hi | hi
    · obtain ⟨hstart, hstop⟩ := hs.bounds i hi
      exact ⟨Int64.le_trans (start_hull_le_left s t) hstart,
        Int64.le_trans hstop (left_le_stop_hull s t)⟩
    · obtain ⟨hstart, hstop⟩ := ht.bounds i hi
      exact ⟨Int64.le_trans (start_hull_le_right s t) hstart,
        Int64.le_trans hstop (right_le_stop_hull s t)⟩

/-- A union is tight around what its two sides are tight around. Where one side has no
position it is void, so the union gives the other side as it stands. -/
theorem Tight.union {s t : Span} {ps qs : List Int64} (hs : s.Tight ps) (ht : t.Tight qs) :
    (s.union t).Tight (ps ++ qs) := by
  by_cases hps : ps = []
  · have hvoid : ¬ s.Valid := by
      rw [hs.eq_void hps]
      exact not_valid_void
    rw [union_of_not_valid_left hvoid, hps]
    exact ht
  · by_cases hqs : qs = []
    · have hvoid : ¬ t.Valid := by
        rw [ht.eq_void hqs]
        exact not_valid_void
      rw [union_of_not_valid_right (hs.valid hps) hvoid, hqs, List.append_nil]
      exact hs
    · rw [union_of_valid (hs.valid hps) (ht.valid hqs)]
      exact hs.hull ht hps hqs

end Span

namespace Node

/-- The positions of the tokens below the node, its own included, from left to right. -/
def tokenPositions (n : Node C) : List Int64 :=
  n.leaves.filterMap fun leaf => leaf.symbol.map Token.index

/-- The position of the token that the node itself carries. -/
def position? (n : Node C) : Option Int64 := n.leaf?.bind fun leaf => leaf.symbol.map Token.index

theorem tokenPositions_eq (n : Node C) : n.tokenPositions = n.preorder.filterMap position? := by
  rw [tokenPositions, leaves, descendants_eq_preorder, List.filterMap_filterMap]
  rfl

theorem tokenPositions_rule (id : NodeId) (context : C) (children : List (Node C)) :
    (rule id context children).tokenPositions = children.flatMap tokenPositions := by
  calc
    (rule id context children).tokenPositions =
        (children.flatMap preorder).filterMap position? := by
      rw [tokenPositions_eq, preorder, preorders_eq_flatMap]
      rfl
    _ = children.flatMap fun c => c.preorder.filterMap position? := List.filterMap_flatMap
    _ = children.flatMap tokenPositions := by
      rw [funext tokenPositions_eq]

theorem tokenPositions_terminal (leaf : Leaf) :
    (terminal leaf : Node C).tokenPositions = (leaf.symbol.map Token.index).toList := by
  rw [tokenPositions_eq, preorder, List.filterMap_eq_flatMap_toList, List.flatMap_singleton]
  rfl

theorem tokenPositions_error (leaf : Leaf) :
    (error leaf : Node C).tokenPositions = (leaf.symbol.map Token.index).toList := by
  rw [tokenPositions_eq, preorder, List.filterMap_eq_flatMap_toList, List.flatMap_singleton]
  rfl

/-- Whatever token is below a node is below everything above the node. -/
theorem tokenPositions_subset {n d : Node C} (h : d ∈ n.preorder) :
    d.tokenPositions ⊆ n.tokenPositions := by
  intro i hi
  rw [tokenPositions_eq, List.mem_filterMap] at hi ⊢
  obtain ⟨leaf, hleaf, hindex⟩ := hi
  exact ⟨leaf, mem_preorder_trans hleaf h, hindex⟩

theorem tight_leaf_span (leaf : Leaf) :
    leaf.span.Tight (leaf.symbol.map Token.index).toList := by
  unfold Leaf.span
  cases leaf.symbol with
  | none => exact Span.tight_void
  | some token => exact Span.tight_single token.index

/-- Siblings with tight spans extend a tight span by the tokens below them. -/
theorem tight_foldl_union {nodes : List (Node C)} (ih : ∀ n ∈ nodes, n.span.Tight n.tokenPositions)
    {s : Span} {ps : List Int64} (hs : s.Tight ps) :
    ((nodes.map span).foldl Span.union s).Tight (ps ++ nodes.flatMap tokenPositions) := by
  induction nodes generalizing s ps with
  | nil =>
      rw [List.flatMap_nil, List.append_nil]
      exact hs
  | cons n rest ihRest =>
      rw [List.map_cons, List.foldl_cons, List.flatMap_cons, ← List.append_assoc]
      apply ihRest fun m hm => ih m (List.mem_cons_of_mem n hm)
      exact hs.union (ih n (by simp))

theorem tight_span (n : Node C) : n.span.Tight n.tokenPositions := by
  induction n with
  | rule id context children ih =>
      rw [span, spans_eq_map, tokenPositions_rule]
      exact tight_foldl_union ih Span.tight_void
  | terminal leaf =>
      rw [tokenPositions_terminal]
      exact tight_leaf_span leaf
  | error leaf =>
      rw [tokenPositions_error]
      exact tight_leaf_span leaf

end Node

namespace Session

variable [RuleContext C]

/-- Whatever steps builders and the forest have taken, loose rules over repeated or
taken children and parents given by hand included: the span that the forest keeps of a
node runs from the least position of a token below the node to the greatest, and is
void if there is no token. What is below the node is in the forest too, and its span
lies within that of the node if it has a token. -/
theorem span_tight_around_tokens {s : Session C} (h : Reachable (fun _ => True) s) {id : NodeId}
    {n : Spanned C} (hn : s.forest.spanned? id = some n) :
    let positions := n.node.leaves.filterMap fun leaf => leaf.symbol.map Token.index
    (positions = [] → n.span = ⟨-1, -2⟩) ∧
      (positions ≠ [] → n.span.start ∈ positions ∧ n.span.stop ∈ positions) ∧
      (∀ i ∈ positions, n.span.start ≤ i ∧ i ≤ n.span.stop) ∧
      ∀ d ∈ n.node.descendants, ∃ below,
        s.forest.spanned? d.id = some below ∧ below.node = d ∧
          ((∃ leaf ∈ d.leaves, leaf.symbol.isSome) →
            n.span.start ≤ below.span.start ∧ below.span.stop ≤ n.span.stop) := by
  intro positions
  have htight : n.span.Tight positions := by
    rw [n.span_eq]
    exact n.node.tight_span
  refine ⟨htight.eq_void, fun hne => ⟨htight.start_mem hne, htight.stop_mem hne⟩,
    htight.bounds, fun d hd => ?_⟩
  have hplace : s.forest.node? id = some n.node := by
    rw [Forest.node?, hn]
    rfl
  have hmem : n.node ∈ s.forest := by
    rw [Forest.mem_iff, h.sound.forest.id_eq hplace, hplace]
  rw [Node.descendants_eq_preorder] at hd
  have hbelow : s.forest.node? d.id = some d :=
    (h.sound.forest.id_le_of_mem_preorder hmem hd).1
  obtain ⟨below, hspanned, rfl⟩ := Option.map_eq_some_iff.mp hbelow
  refine ⟨below, hspanned, rfl, ?_⟩
  rintro ⟨leaf, hleaf, hsome⟩
  obtain ⟨token, htoken⟩ := Option.isSome_iff_exists.mp hsome
  have hne : below.node.tokenPositions ≠ [] := by
    apply List.ne_nil_of_mem (a := token.index)
    exact List.mem_filterMap.mpr ⟨leaf, hleaf, by rw [htoken]; rfl⟩
  have hbelowTight := below.node.tight_span
  rw [← below.span_eq] at hbelowTight
  have hsub := Node.tokenPositions_subset hd
  exact ⟨(htight.bounds _ (hsub (hbelowTight.start_mem hne))).1,
    (htight.bounds _ (hsub (hbelowTight.stop_mem hne))).2⟩

/-- A loose rule has a leaf at 3, a leaf at -5 twice and a leaf without a token, and a
rule is put around it and an empty rule. The span of the outer rule reaches down to -5
and contains that of the loose one; the span of the empty rule is void. -/
theorem span_of_wrapped_repeated_leaf :
    let right : Spanned Invocation := .terminal ⟨0, some { type := 1, index := 3 }⟩
    let left : Spanned Invocation := .error ⟨1, some { type := 1, index := -5 }⟩
    let missing : Spanned Invocation := .terminal ⟨2, none⟩
    let loose : Spanned Invocation := .rule 3 ⟨7, 0⟩ [right, left, missing, left]
    let empty : Spanned Invocation := .rule 4 ⟨8, 0⟩ []
    let outer : Spanned Invocation := .rule 5 ⟨9, 0⟩ [empty, loose]
    let leaves := ((({} : Session Invocation).after
      (.forest (.terminal (some { type := 1, index := 3 })))).after
      (.forest (.error (some { type := 1, index := -5 })))).after (.forest (.terminal none))
    let made := (leaves.after (.forest (.looseRule ⟨7, 0⟩ [right, left, missing, left]))).after
      (.forest (.rule ⟨8, 0⟩ []))
    let s := made.after (.forest (.rule ⟨9, 0⟩ [empty, loose]))
    Reachable (fun _ => True) s ∧ s.forest.spanned? 5 = some outer ∧
      outer.span.start ≤ -5 ∧ 3 ≤ outer.span.stop ∧
      (∃ below, s.forest.spanned? 3 = some below ∧ outer.span.start ≤ below.span.start ∧
        below.span.stop ≤ outer.span.stop) ∧
      s.forest.spanned? 4 = some empty ∧ empty.span = ⟨-1, -2⟩ := by
  intro right left missing loose empty outer leaves made s
  have hleaves : leaves.forest =
      ((({} : Forest Invocation).push right).push left).push missing := by
    unfold leaves
    simp only [forest_after_forest]
    rfl
  have hmade : made.forest = (leaves.forest.push loose).join ⟨8, 0⟩ [] := by
    unfold made
    simp only [forest_after_forest, hleaves]
    rfl
  have hs : s.forest = made.forest.join ⟨9, 0⟩ [empty, loose] := by
    unfold s
    rw [forest_after_forest, hmade, hleaves]
    rfl
  have hrun : Reachable (fun _ => True) s := by
    have hleavesRun : Reachable (fun _ => True) leaves :=
      .step _ (.step _ (.step _ .refl trivial trivial) trivial trivial) trivial trivial
    refine .step _ (.step _ (.step _ hleavesRun trivial fun c hc => ?_) trivial
      fun c hc => by cases hc) trivial fun c hc => ?_
    · rw [hleaves]
      simp only [List.mem_cons, List.not_mem_nil, or_false] at hc
      rcases hc with rfl | rfl | rfl | rfl
      · rfl
      · rfl
      · rfl
      · rfl
    · rw [hmade, hleaves]
      simp only [List.mem_cons, List.not_mem_nil, or_false] at hc
      rcases hc with rfl | rfl
      · rfl
      · rfl
  have houter : s.forest.spanned? 5 = some outer := by
    rw [hs, hmade, hleaves]
    rfl
  have hempty : s.forest.spanned? 4 = some empty := by
    rw [hs, hmade, hleaves]
    rfl
  have hpositions : outer.node.tokenPositions = [3, -5, -5] := by
    rw [Node.tokenPositions_eq]
    rfl
  obtain ⟨-, -, hbounds, hbelow⟩ := span_tight_around_tokens hrun houter
  have hloose : loose.node ∈ outer.node.descendants := by
    rw [Node.descendants_eq_preorder]
    exact Node.mem_preorder_of_mem_children (by simp [outer, Node.children])
  obtain ⟨below, hat, -, hwithin⟩ := hbelow loose.node hloose
  refine ⟨hrun, houter, ?_, ?_, ⟨below, hat, hwithin ?_⟩, hempty, ?_⟩
  · exact (hbounds (-5) (by rw [← Node.tokenPositions, hpositions]; decide)).1
  · exact (hbounds 3 (by rw [← Node.tokenPositions, hpositions]; decide)).2
  · refine ⟨⟨0, some { type := 1, index := 3 }⟩, ?_, rfl⟩
    rw [Node.leaves, Node.descendants_eq_preorder]
    exact List.mem_cons_self
  · refine (span_tight_around_tokens hrun hempty).1 ?_
    rw [← Node.tokenPositions, Node.tokenPositions_eq]
    rfl

end Session

end ParseTree
