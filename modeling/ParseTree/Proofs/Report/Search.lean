import ParseTree.Node.Order
import ParseTree.Report.Search

/-!
# What a search finds

A search is a traversal that puts the finds of a rule and of its children together,
and breaks off at a find if one is enough: at a rule that matches, and before the next
child of every rule around a match. What comes of it is the filtered pre-order of the
tree, or the first entry of that.
-/

namespace ParseTree.Query

variable {C : Type} [RuleContext C]

/-- All finds, or only the first where that is enough. -/
def limit (first : Bool) (found : List Found) : List Found :=
  if first then found.head?.toList else found

/-- The search breaks off at these finds. -/
def sated (first : Bool) (found : List Found) : Bool := first && !found.isEmpty

@[simp] theorem limit_nil (first : Bool) : limit first [] = [] := by
  cases first with
  | false => rfl
  | true => rfl

@[simp] theorem limit_limit (first : Bool) (found : List Found) :
    limit first (limit first found) = limit first found := by
  cases first with
  | false => rfl
  | true => simp [limit]

/-- What stands in the middle may be limited before or after it is put there. -/
theorem limit_append_limit_append (first : Bool) (before middle after : List Found) :
    limit first (before ++ limit first middle ++ after) =
      limit first (before ++ (middle ++ after)) := by
  cases first with
  | false => simp [limit]
  | true => simp [limit, List.head?_append]

/-- Once the search is sated, no later find counts. -/
theorem limit_append_of_sated {first : Bool} {found : List Found} (h : sated first found = true)
    (more : List Found) : limit first (found ++ more) = limit first found := by
  obtain ⟨rfl, hfound⟩ := Bool.and_eq_true_iff.mp h
  cases found with
  | nil => cases hfound
  | cons f rest => rfl

/-- A search that goes on has found nothing, or keeps everything. -/
theorem limit_append_of_not_sated {first : Bool} {found : List Found}
    (h : sated first found = false) (more : List Found) :
    limit first (found ++ more) = found ++ limit first more := by
  cases first with
  | false => rfl
  | true =>
      have hnil : found = [] := by simpa [sated] using h
      rw [hnil]
      rfl

/-- What there is to find at the node and below it, in pre-order. -/
def hits (q : Query) (names : List String) (n : Node C) : List Found :=
  n.preorder.flatMap (q.matchNode names)

theorem hits_rule (q : Query) (names : List String) (id : NodeId) (context : C)
    (children : List (Node C)) :
    q.hits names (.rule id context children) =
      q.matchRule names ⟨id, context, children⟩ ++ children.flatMap (q.hits names) := by
  rw [hits, Node.preorder, Node.preorders_eq_flatMap, List.flatMap_cons, List.flatMap_assoc]
  rfl

theorem limit_matchRule (q : Query) (first : Bool) (names : List String) (r : RuleNode C) :
    limit first (q.matchRule names r) = q.matchRule names r := by
  cases first with
  | false => rfl
  | true =>
      cases q with
      | rule index =>
          rw [matchRule]
          split
          · rfl
          · rfl
      | token type => rfl

theorem limit_matchLeaf (q : Query) (first : Bool) (leaf : Leaf) :
    limit first (q.matchLeaf leaf) = q.matchLeaf leaf := by
  cases first with
  | false => rfl
  | true =>
      cases q with
      | rule index => rfl
      | token type =>
          rw [matchLeaf]
          split
          · rfl
          · rfl

variable (q : Query) (first : Bool) (names : List String)

/-- The children that are left add their finds to those so far, up to the limit. -/
theorem visitChildren_finder (r : RuleNode C) {nodes : List (Node C)}
    (ih : ∀ n ∈ nodes, (q.finder first names).visit n = pure (limit first (q.hits names n)))
    (found : List Found) (hfound : limit first found = found) :
    (q.finder first names).visitChildren r nodes found =
      pure (limit first (found ++ nodes.flatMap (q.hits names))) := by
  induction nodes generalizing found with
  | nil =>
      rw [Visitor.visitChildren, List.flatMap_nil, List.append_nil, hfound]
  | cons n rest ihRest =>
      rw [Visitor.visitChildren]
      change (pure (!sated first found) >>= _) = _
      rw [pure_bind]
      cases hsated : sated first found with
      | true =>
          rw [limit_append_of_sated hsated, hfound]
          rfl
      | false =>
          -- The limit of the child's own finds is lost in the limit of the whole.
          have hmore : limit first (found ++ limit first (q.hits names n)) =
              found ++ limit first (q.hits names n) := by
            rw [limit_append_of_not_sated hsated, limit_limit]
          have hrest := ihRest (fun m hm => ih m (List.mem_cons_of_mem n hm)) _ hmore
          rw [limit_append_limit_append] at hrest
          rw [ih n (by simp), List.flatMap_cons]
          exact hrest

theorem visit_finder (n : Node C) :
    (q.finder first names).visit n = pure (limit first (q.hits names n)) := by
  induction n with
  | rule id context children ih =>
      have hchildren := q.visitChildren_finder first names ⟨id, context, children⟩ ih []
        (limit_nil first)
      let here := q.matchRule names (⟨id, context, children⟩ : RuleNode C)
      have hhere : limit first here = here := q.limit_matchRule first names _
      rw [Visitor.visit, hits_rule]
      change (if sated first here = true then pure here else
        (q.finder first names).visitChildren _ children [] >>= fun more => pure (here ++ more)) = _
      cases hsated : sated first here with
      | true =>
          rw [limit_append_of_sated hsated, hhere]
          rfl
      | false =>
          rw [limit_append_of_not_sated hsated, hchildren]
          rfl
  | terminal leaf =>
      rw [Visitor.visit, hits, Node.preorder, List.flatMap_singleton]
      exact congrArg pure (q.limit_matchLeaf first leaf).symm
  | error leaf =>
      rw [Visitor.visit, hits, Node.preorder, List.flatMap_singleton]
      exact congrArg pure (q.limit_matchLeaf first leaf).symm

theorem search_eq_limit_hits (root : Node C) :
    q.search first names root = limit first (q.hits names root) := by
  rw [search, visit_finder]
  rfl

variable {q} {names}

theorem flatMap_matchNode {p : Node C → Bool} {found : Node C → Found}
    (h : ∀ d, q.matchNode names d = if p d then [found d] else []) (nodes : List (Node C)) :
    nodes.flatMap (q.matchNode names) = (nodes.filter p).map found := by
  induction nodes with
  | nil => rfl
  | cons n rest ih =>
      rw [List.flatMap_cons, ih, h, List.filter_cons]
      split
      · rfl
      · rfl

/-- For every tree and every list of names, a search for a rule finds the nodes of the
rule, in pre-order and under their labels, and a search for a token type finds the
leaves of the type, errors included, under their escaped displays. If the first find is
enough, it is the first of these, and there is none if these are none. -/
theorem search_eq_filtered_preorder (names : List String) (root : Node C) :
    (∀ index, (rule index).search false names root =
        (root.withRule index).map fun d => ⟨d.label names, d.span⟩) ∧
      (∀ type, (token type).search false names root =
        (root.withTokenType type).map fun d =>
          ⟨Text.escapeWhitespace (d.label names), d.span⟩) ∧
      ∀ q : Query, q.search true names root = (q.search false names root).head?.toList := by
  refine ⟨fun index => ?_, fun type => ?_, fun q => ?_⟩
  · rw [search_eq_limit_hits, Node.withRule, Node.descendants_eq_preorder]
    exact flatMap_matchNode (matchNode_rule names index) root.preorder
  · rw [search_eq_limit_hits, Node.withTokenType, Node.descendants_eq_preorder]
    exact flatMap_matchNode (matchNode_token names type) root.preorder
  · rw [search_eq_limit_hits, search_eq_limit_hits]
    rfl

-- A terminal and an error of the type are found; another type and a missing token are not.
example :
    let tree : Node Invocation := .rule 4 ⟨0, 0⟩
      [.terminal ⟨0, some { type := 3, index := 5, text := "a\tb" }⟩,
        .terminal ⟨1, some { type := 2, index := 6, text := "a\tb" }⟩, .terminal ⟨2, none⟩,
        .error ⟨3, some { type := 3, index := 8, text := "c" }⟩]
    (token 3).search false [] tree = [⟨"a\\tb", ⟨5, 5⟩⟩, ⟨"c", ⟨8, 8⟩⟩] ∧
      (token 3).search true [] tree = [⟨"a\\tb", ⟨5, 5⟩⟩] := by
  decide +kernel

end ParseTree.Query
