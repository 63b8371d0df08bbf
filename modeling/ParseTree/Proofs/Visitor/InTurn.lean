import ParseTree.Proofs.Visitor.Course

/-!
# Every node in its turn

Whatever choices a visitor makes, its visits keep to the pre-order of the tree and leave
out whole subtrees at the ends of rules only. So a node comes after its parent and after
the siblings before it. In a tree without repeated nodes the questions about a rule can
be told from all others, and they are one for each child that was visited and one more
if a child was left out.
-/

namespace ParseTree

variable {C σ α : Type}

open VisitCall

theorem visited_sublist :
    (∀ (n : Node C) (calls : List (VisitCall C)), Course n calls →
        (visited calls).Sublist n.preorder) ∧
      ∀ (r : RuleNode C) (nodes : List (Node C)) (calls : List (VisitCall C)),
        Courses r nodes calls → (visited calls).Sublist (nodes.flatMap Node.preorder) := by
  apply Course.induct
  case alone =>
    intro n
    rw [Node.preorder_eq]
    exact .cons_cons n (List.nil_sublist _)
  case traversed =>
    intro r calls _ ih
    rw [visited_node, visited_children, Node.preorder_eq_cons_flatMap]
    exact .cons_cons _ ih
  case finished =>
    intro r
    exact .slnil
  case stopped =>
    intro r n rest
    exact List.nil_sublist _
  case continued =>
    intro r n rest calls more _ _ ih ihRest
    rw [visited_question, visited_append, List.flatMap_cons]
    exact ih.append ihRest

/-- The visits of a course are in pre-order. -/
theorem Course.sublist {n : Node C} {calls : List (VisitCall C)} (h : Course n calls) :
    (visited calls).Sublist n.preorder :=
  visited_sublist.1 n calls h

/-- A course begins with its node. -/
theorem Course.exists_later {n : Node C} {calls : List (VisitCall C)} (h : Course n calls) :
    ∃ later, visited calls = n :: later := by
  cases h with
  | alone => exact ⟨[], rfl⟩
  | traversed r h => exact ⟨_, rfl⟩

/-- Every node comes after its parent and the siblings before it, where the given nodes
have come before all of them. -/
def InTurn (past : List (Node C)) : List (Node C) → Prop
  | [] => True
  | n :: rest =>
      (∃ r : RuleNode C, r.node ∈ past ∧
        ∃ left right, r.children = left ++ n :: right ∧ ∀ c ∈ left, c ∈ past) ∧
      InTurn (past ++ [n]) rest

theorem inTurn_append {past first second : List (Node C)} :
    InTurn past (first ++ second) ↔ InTurn past first ∧ InTurn (past ++ first) second := by
  induction first generalizing past with
  | nil => simp [InTurn]
  | cons n rest ih =>
      rw [List.cons_append, InTurn, InTurn, ih, List.append_assoc, List.singleton_append, and_assoc]

/-- What a course visits after its node comes in turn, and so do the visits of the
remaining children once the rule and the children before them have been visited. -/
theorem inTurn_visited :
    (∀ (n : Node C) (calls : List (VisitCall C)), Course n calls →
        ∀ past, n ∈ past → InTurn past (visited calls).tail) ∧
      ∀ (r : RuleNode C) (nodes : List (Node C)) (calls : List (VisitCall C)),
        Courses r nodes calls → ∀ earlier past, r.children = earlier ++ nodes → r.node ∈ past →
          (∀ c ∈ earlier, c ∈ past) → InTurn past (visited calls) := by
  apply Course.induct
  case alone =>
    intro n past _
    trivial
  case traversed =>
    intro r calls _ ih past hr
    exact ih [] past rfl hr (by simp)
  case finished =>
    intro r earlier past _ _ _
    trivial
  case stopped =>
    intro r n rest earlier past _ _ _
    trivial
  case continued =>
    intro r n rest calls more h _ ih ihRest earlier past hchildren hr hearlier
    obtain ⟨later, hlater⟩ := h.exists_later
    -- With the child in the past, what is below it and what comes after it are in turn.
    have hbelow := ih (past ++ [n]) (by simp)
    rw [hlater] at hbelow
    rw [visited_question, visited_append, inTurn_append, hlater]
    refine ⟨⟨⟨r, hr, earlier, rest, hchildren, hearlier⟩, hbelow⟩, ?_⟩
    apply ihRest (earlier ++ [n])
    · rw [hchildren, List.append_assoc, List.singleton_append]
    · exact List.mem_append_left _ hr
    · intro c hc
      rcases List.mem_append.mp hc with hc | hc
      · exact List.mem_append_left _ (hearlier c hc)
      · rw [List.mem_singleton.mp hc]
        simp

/-- The parent and the earlier siblings of a visited node have been visited before it. -/
theorem Course.exists_parent {n m : Node C} {calls : List (VisitCall C)} (h : Course n calls)
    {before after : List (Node C)} (hvisited : visited calls = before ++ m :: after) (hm : m ≠ n) :
    ∃ r : RuleNode C, r.node ∈ before ∧
      ∃ left right, r.children = left ++ m :: right ∧ ∀ c ∈ left, c ∈ before := by
  obtain ⟨later, hlater⟩ := h.exists_later
  have hturn := inTurn_visited.1 n calls h [n] (List.mem_singleton_self n)
  rw [hlater] at hvisited hturn
  cases before with
  | nil => exact absurd (List.cons.inj hvisited).1.symm hm
  | cons first before =>
      obtain ⟨rfl, rfl⟩ := List.cons.inj hvisited
      exact (inTurn_append.mp hturn).2.1

/-- Every call of a course is about a node of the tree, and of the calls for the children
of a rule only the questions are about the rule itself. -/
theorem subject_mem :
    (∀ (n : Node C) (calls : List (VisitCall C)), Course n calls →
        ∀ call ∈ calls, call.subject ∈ n.preorder) ∧
      ∀ (r : RuleNode C) (nodes : List (Node C)) (calls : List (VisitCall C)),
        Courses r nodes calls → ∀ call ∈ calls,
          (∃ answer, call = .question r answer) ∨
            call.subject ∈ nodes.flatMap Node.preorder := by
  apply Course.induct
  case alone =>
    intro n call hcall
    rw [List.mem_singleton.mp hcall]
    exact n.mem_preorder_self
  case traversed =>
    intro r calls _ ih call hcall
    simp only [List.mem_cons] at hcall
    rcases hcall with rfl | rfl | hcall
    · exact r.node.mem_preorder_self
    · exact r.node.mem_preorder_self
    · rcases ih call hcall with ⟨answer, rfl⟩ | hbelow
      · exact r.node.mem_preorder_self
      · rw [Node.preorder_eq_cons_flatMap]
        exact List.mem_cons_of_mem _ hbelow
  case finished =>
    intro r call hcall
    cases hcall
  case stopped =>
    intro r n rest call hcall
    exact .inl ⟨false, List.mem_singleton.mp hcall⟩
  case continued =>
    intro r n rest calls more _ _ ih ihRest call hcall
    rw [List.flatMap_cons]
    simp only [List.mem_cons, List.mem_append] at hcall
    rcases hcall with rfl | hcall | hcall
    · exact .inl ⟨true, rfl⟩
    · exact .inr (List.mem_append_left _ (ih call hcall))
    · exact (ihRest call hcall).imp_right (List.mem_append_right _)

theorem Courses.traversed_mem {r q : RuleNode C} {nodes : List (Node C)}
    {calls : List (VisitCall C)} (h : Courses r nodes calls) (hq : .children q ∈ calls) :
    q.node ∈ nodes.flatMap Node.preorder := by
  rcases subject_mem.2 r nodes calls h _ hq with ⟨answer, hanswer⟩ | hbelow
  · cases hanswer
  · exact hbelow

theorem Courses.subject_id_mem {r : RuleNode C} {nodes : List (Node C)}
    {calls : List (VisitCall C)} (h : Courses r nodes calls) {call : VisitCall C}
    (hcall : call ∈ calls) :
    call.subject.id ∈ r.id :: (nodes.flatMap Node.preorder).map Node.id := by
  rcases subject_mem.2 r nodes calls h call hcall with ⟨answer, rfl⟩ | hbelow
  · exact List.mem_cons_self
  · exact List.mem_cons_of_mem _ (List.mem_map_of_mem hbelow)

/-- The nodes of a list that the calls have visited. -/
def seen (calls : List (VisitCall C)) (nodes : List (Node C)) : List (Node C) :=
  nodes.filter fun n => n.id ∈ (visited calls).map Node.id

/-- The questions about a rule were answered with yes once for each of the given children
that was visited, and then with no unless all of them were. -/
def Asked (r : RuleNode C) (nodes : List (Node C)) (calls : List (VisitCall C)) : Prop :=
  answers r.id calls = List.replicate (seen calls nodes).length true ++
    if (seen calls nodes).length < nodes.length then [false] else []

/-- Calls that ask nothing about the rule and visit none of the children may come before
and after. -/
theorem Asked.surrounded {r : RuleNode C} {nodes : List (Node C)} {calls : List (VisitCall C)}
    (h : Asked r nodes calls) (before after : List (VisitCall C))
    (hbefore : answers r.id before = []) (hafter : answers r.id after = [])
    (hvisited : ∀ n ∈ nodes, n.id ∉ (visited (before ++ after)).map Node.id) :
    Asked r nodes (before ++ calls ++ after) := by
  have hanswers : answers r.id (before ++ calls ++ after) = answers r.id calls := by
    rw [answers_append, answers_append, hbefore, hafter, List.nil_append, List.append_nil]
  have hseen : seen (before ++ calls ++ after) nodes = seen calls nodes := by
    apply List.filter_congr
    intro n hn
    have hnot := hvisited n hn
    simp only [visited_append, List.map_append, List.mem_append, not_or] at hnot ⊢
    simp [hnot]
  rw [Asked, hanswers, hseen]
  exact h

/-- Calls about nodes that are not below a rule may come before and after. -/
theorem Asked.elsewhere {r : RuleNode C} {calls : List (VisitCall C)}
    (h : Asked r r.children calls) (before after : List (VisitCall C))
    (helsewhere : ∀ call ∈ before ++ after, call.subject.id ∉ r.node.preorder.map Node.id) :
    Asked r r.children (before ++ calls ++ after) := by
  have hself : r.id ∈ r.node.preorder.map Node.id := List.mem_map_of_mem r.node.mem_preorder_self
  apply h.surrounded
  · apply answers_eq_nil
    rintro call hcall hid
    exact helsewhere call (List.mem_append_left _ hcall) (hid ▸ hself)
  · apply answers_eq_nil
    rintro call hcall hid
    exact helsewhere call (List.mem_append_right _ hcall) (hid ▸ hself)
  · intro n hn hmem
    obtain ⟨m, hm, hid⟩ := List.mem_map.mp hmem
    obtain ⟨call, hcall, rfl⟩ := mem_visited hm
    apply helsewhere call hcall
    rw [hid]
    exact List.mem_map_of_mem (Node.mem_preorder_of_mem_children hn)

/-- A child that was visited comes with a yes, and its own calls are about other nodes. -/
theorem Asked.continued {r : RuleNode C} {n : Node C} {rest : List (Node C)}
    {calls more : List (VisitCall C)} (hcourse : Course n calls) (h : Asked r rest more)
    (hout : ∀ i ∈ r.id :: (rest.flatMap Node.preorder).map Node.id,
      i ∉ n.preorder.map Node.id) :
    Asked r (n :: rest) (.question r true :: (calls ++ more)) := by
  have hanswers : answers r.id (.question r true :: (calls ++ more)) =
      true :: answers r.id more := by
    have hnone : answers r.id calls = [] := by
      apply answers_eq_nil
      rintro call hcall hid
      apply hout r.id List.mem_cons_self
      rw [← hid]
      exact List.mem_map_of_mem (subject_mem.1 n calls hcourse call hcall)
    rw [answers_question, answers_append, hnone, List.nil_append]
  have hseen : seen (.question r true :: (calls ++ more)) (n :: rest) = n :: seen more rest := by
    obtain ⟨later, hlater⟩ := hcourse.exists_later
    rw [seen, List.filter_cons_of_pos (by simp [hlater])]
    apply congrArg (n :: ·)
    -- No call below the child visits a later sibling.
    apply List.filter_congr
    intro m hm
    have hnot : m.id ∉ (visited calls).map Node.id := by
      intro hmem
      have hbelow : m ∈ rest.flatMap Node.preorder :=
        List.mem_flatMap.mpr ⟨m, hm, m.mem_preorder_self⟩
      apply hout m.id (List.mem_cons_of_mem _ (List.mem_map_of_mem hbelow))
      exact (hcourse.sublist.map Node.id).subset hmem
    simp only [visited_question, visited_append, List.map_append, List.mem_append]
    simp [hnot]
  rw [Asked, hanswers, hseen, h]
  simp [List.replicate_succ]

/-- Where no identity occurs twice, every rule whose children are traversed is asked about
as often as it should be. -/
theorem asked_traversed :
    (∀ (n : Node C) (calls : List (VisitCall C)), Course n calls →
        (n.preorder.map Node.id).Nodup → ∀ q, .children q ∈ calls → Asked q q.children calls) ∧
      ∀ (r : RuleNode C) (nodes : List (Node C)) (calls : List (VisitCall C)),
        Courses r nodes calls → (r.id :: (nodes.flatMap Node.preorder).map Node.id).Nodup →
          Asked r nodes calls ∧ ∀ q, .children q ∈ calls → Asked q q.children calls := by
  apply Course.induct
  case alone =>
    intro n _ q hq
    cases List.mem_singleton.mp hq
  case traversed =>
    intro r calls h ih hnodup q hq
    rw [Node.preorder_eq_cons_flatMap, List.map_cons] at hnodup
    have hroot : r.id ∉ (r.children.flatMap Node.preorder).map Node.id :=
      (List.nodup_cons.mp hnodup).1
    obtain ⟨hown, hothers⟩ := ih hnodup
    simp only [List.mem_cons, reduceCtorEq, false_or, VisitCall.children.injEq] at hq
    rcases hq with rfl | hq
    · have hasked := hown.surrounded [.node q.node, .children q] [] rfl rfl ?_
      · simpa using hasked
      · intro n hn hmem
        apply hroot
        rw [← show n.id = q.id from List.mem_singleton.mp hmem]
        exact List.mem_map_of_mem (List.mem_flatMap.mpr ⟨n, hn, n.mem_preorder_self⟩)
    · have hbelow := h.traversed_mem hq
      have hasked := (hothers q hq).elsewhere [.node r.node, .children r] [] ?_
      · simpa using hasked
      · intro call hcall hmem
        have hsubject : call.subject.id = r.id := by
          simp only [List.append_nil, List.mem_cons, List.not_mem_nil, or_false] at hcall
          rcases hcall with rfl | rfl
          · rfl
          · rfl
        rw [hsubject] at hmem
        exact hroot (Node.map_id_preorder_subset hbelow hmem)
  case finished =>
    intro r _
    exact ⟨rfl, fun q hq => by cases hq⟩
  case stopped =>
    intro r n rest _
    refine ⟨?_, fun q hq => by cases List.mem_singleton.mp hq⟩
    simp [Asked, seen]
  case continued =>
    intro r n rest calls more h h' ih ihRest hnodup
    obtain ⟨hn, hrest, hout⟩ := Node.nodup_siblings hnodup
    obtain ⟨hown, hothers⟩ := ihRest hrest
    refine ⟨hown.continued h hout, fun q hq => ?_⟩
    simp only [List.mem_cons, reduceCtorEq, false_or, List.mem_append] at hq
    rcases hq with hq | hq
    · -- The other calls are about the parent of this child and below its later siblings.
      have hbelow : q.node ∈ n.preorder := subject_mem.1 n calls h _ hq
      have hasked := (ih hn q hq).elsewhere [.question r true] more ?_
      · simpa using hasked
      · intro call hcall hmem
        have hsubject : call.subject.id ∈ r.id :: (rest.flatMap Node.preorder).map Node.id := by
          rcases List.mem_cons.mp hcall with rfl | hcall
          · exact List.mem_cons_self
          · exact h'.subject_id_mem hcall
        obtain ⟨d, hd, hid⟩ := List.mem_map.mp hmem
        apply hout _ hsubject
        exact List.mem_map.mpr ⟨d, Node.mem_preorder_trans hd hbelow, hid⟩
    · -- The other calls are about the parent of this child and below the child itself.
      have hbelow := h'.traversed_mem hq
      have hasked := (hothers q hq).elsewhere (.question r true :: calls) [] ?_
      · simpa using hasked
      · intro call hcall hmem
        have hlater := Node.map_id_preorder_subset hbelow hmem
        rw [List.append_nil] at hcall
        rcases List.mem_cons.mp hcall with rfl | hcall
        · exact (List.nodup_cons.mp hrest).1 hlater
        · apply hout _ (List.mem_cons_of_mem _ hlater)
          exact List.mem_map_of_mem (subject_mem.1 n calls h call hcall)

/-- A visitor that skips or traverses the children of rules and stops where it likes visits
nodes of the tree in pre-order, beginning with the root and none of them twice. The parent
of any other visited node and the siblings before it were visited before. Each rule whose
children are traversed is asked about once for each child that is visited, and once more
unless all of them are. Putting the calls on record changes nothing. -/
theorem Visitor.visits_in_turn (v : Visitor C σ α) (p : v.Pruning) (n : Node C)
    (hn : (n.descendants.map Node.id).Nodup) (s : σ) :
    let ended := (p.recorded.visit n).run (s, [])
    let calls := ended.2.2
    let visited := VisitCall.visited calls
    (ended.1, ended.2.1) = (v.visit n).run s ∧
      visited.head? = some n ∧ visited.Sublist n.descendants ∧
      (visited.map Node.id).Nodup ∧
      (∀ before m after, visited = before ++ m :: after → m ≠ n →
        ∃ r : RuleNode C, (∀ q ∈ n.descendants, m ∈ q.children → q = r.node) ∧
          r.node ∈ before ∧
          ∃ left right, r.children = left ++ m :: right ∧ ∀ c ∈ left, c ∈ before) ∧
      ∀ r : RuleNode C, .children r ∈ calls →
        let seen := r.children.filter fun c => c.id ∈ visited.map Node.id
        answers r.id calls =
          List.replicate seen.length true ++
            if seen.length < r.children.length then [false] else [] := by
  intro ended calls visited
  obtain ⟨course, hcourse, hended⟩ := p.follows n (s := s) rfl []
  have hcalls : calls = course := by
    unfold calls ended
    rw [hended, List.nil_append]
  have hvisited : Course n calls := hcalls ▸ hcourse
  have hsublist : visited.Sublist n.preorder := hvisited.sublist
  rw [Node.descendants_eq_preorder] at hn ⊢
  refine ⟨?_, ?_, hsublist, (hsublist.map Node.id).nodup hn, ?_, ?_⟩
  · unfold ended
    rw [hended]
    rfl
  · obtain ⟨later, hlater⟩ := hvisited.exists_later
    unfold visited
    rw [hlater, List.head?_cons]
  · intro before m after hsplit hm
    obtain ⟨r, hr, left, right, hchildren, hleft⟩ := hvisited.exists_parent hsplit hm
    have hmem : r.node ∈ n.preorder := by
      apply hsublist.subset
      rw [hsplit]
      exact List.mem_append_left _ hr
    refine ⟨r, ?_, hr, left, right, hchildren, hleft⟩
    intro q hq hmq
    apply Node.eq_of_mem_children hn hq hmem hmq
    rw [Node.children_node, hchildren]
    exact List.mem_append_right _ List.mem_cons_self
  · intro r hr
    exact asked_traversed.1 n calls hvisited hn r hr

/-- A probe skips the children of the rule that it prunes. -/
def Probe.pruning [RuleContext C] (p : Probe) :
    (p.visitor : Visitor C Probe.Record (List String)).Pruning where
  arrive r := do
    Probe.note (.rule r.id)
    if p.pruned = some r.ruleIndex then
      return some ["pruned " ++ Decimal.render r.ruleIndex]
    return none
  depart _ result := pure result
  rule_eq r children := by
    funext record
    by_cases hpruned : p.pruned = some r.ruleIndex
    · simp [Probe.visitor, hpruned]
    · simp [Probe.visitor, hpruned]

/-- One rule is skipped, and the fifth question ends the visit within another. -/
theorem Visitor.visits_in_turn_of_probe :
    let leaf (id : NodeId) : Node Invocation := .terminal ⟨id, none⟩
    let skipped : RuleNode Invocation := ⟨1, ⟨1, 0⟩, [leaf 0]⟩
    let error : Node Invocation := .error ⟨2, none⟩
    let last : RuleNode Invocation := ⟨5, ⟨2, 0⟩, [leaf 3, leaf 4]⟩
    let root : RuleNode Invocation := ⟨6, ⟨0, 0⟩, [skipped.node, error, last.node]⟩
    let probe : Probe := { pruned := some 1, stop := .asked 4 }
    let calls := ((probe.pruning.recorded.visit root.node).run ({}, [])).2.2
    (root.node.descendants.map Node.id).Nodup ∧
      VisitCall.visited calls = [root.node, skipped.node, error, last.node, leaf 3] ∧
      (VisitCall.visited calls).Sublist root.node.descendants ∧
      answers root.id calls = [true, true, true] ∧ answers last.id calls = [true, false] := by
  intro leaf skipped error last root probe calls
  have hnodup : (root.node.descendants.map Node.id).Nodup := by
    rw [Node.descendants_eq_preorder]
    decide
  have hcalls : calls = [.node root.node, .children root, .question root true,
      .node skipped.node, .question root true, .node error, .question root true,
      .node last.node, .children last, .question last true, .node (leaf 3),
      .question last false] := by
    unfold calls probe root last error skipped leaf
    rfl
  have hvisited : VisitCall.visited calls =
      [root.node, skipped.node, error, last.node, leaf 3] := by
    rw [hcalls]
    rfl
  have hroot : .children root ∈ calls := by simp [hcalls]
  have hlast : .children last ∈ calls := by simp [hcalls]
  obtain ⟨-, -, hsublist, -, -, hasked⟩ :=
    visits_in_turn probe.visitor probe.pruning root.node hnodup {}
  have hrootAsked : Asked root root.children calls := hasked root hroot
  have hlastAsked : Asked last last.children calls := hasked last hlast
  rw [Asked, seen, hvisited] at hrootAsked hlastAsked
  exact ⟨hnodup, hvisited, hsublist, hrootAsked, hlastAsked⟩

end ParseTree
