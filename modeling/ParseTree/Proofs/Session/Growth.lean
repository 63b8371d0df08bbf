import ParseTree.Proofs.Forest.Ancestry
import ParseTree.Proofs.Node.Reading
import ParseTree.Proofs.Session.Runs
import ParseTree.Walk.Event

/-!
# Growth

A forest only grows. Steps add nodes at the end and fill places where a parent was
missing, whether they succeed or not, and also where rules are loose and parents
are given by hand. So a node that is there at some time is there for good, with
everything below it, and reads the same ever after.
-/

namespace ParseTree

variable {C : Type}

namespace Forest

/-- Every node of the first forest is in the second as it was, and has kept its
parent if it had one. -/
structure Extends (f g : Forest C) : Prop where
  spanned? : ∀ {id : NodeId} {n : Spanned C}, f.spanned? id = some n → g.spanned? id = some n
  parent? : ∀ {id p : NodeId}, f.parent? id = some p → g.parent? id = some p

theorem Extends.refl (f : Forest C) : f.Extends f where
  spanned? h := h
  parent? h := h

theorem Extends.trans {f g k : Forest C} (h : f.Extends g) (h' : g.Extends k) : f.Extends k where
  spanned? hn := h'.spanned? (h.spanned? hn)
  parent? hp := h'.parent? (h.parent? hp)

theorem Extends.node? {f g : Forest C} (h : f.Extends g) {id : NodeId} {n : Node C}
    (hn : f.node? id = some n) : g.node? id = some n := by
  obtain ⟨s, hs, rfl⟩ := Option.map_eq_some_iff.mp hn
  rw [Forest.node?, h.spanned? hs]
  rfl

theorem extends_push (f : Forest C) (node : Spanned C) : f.Extends (f.push node) where
  spanned? {id n} hn := by
    have hlt : id < f.size := lt_size_of_node?_eq_some (by rw [node?, hn]; rfl)
    rw [spanned?_push, if_neg (Nat.ne_of_lt hlt), hn]
  parent? hp := by rw [parent?_push, hp]

/-- A parent may be given where there is none. -/
theorem extends_link {f : Forest C} {child : NodeId} (parent : NodeId)
    (hnone : f.parent? child = none) : f.Extends (f.link child parent) where
  spanned? hn := by rw [spanned?_link, hn]
  parent? {id p} hp := by
    have hne : child ≠ id := by
      rintro rfl
      rw [hnone] at hp
      cases hp
    rw [parent?_link, if_neg (fun hand => hne hand.1), hp]

theorem extends_adopt {f : Forest C} {children : List (Spanned C)} (parent : NodeId)
    (hdet : f.detached children = true) : f.Extends (f.adopt children parent) := by
  induction children generalizing f with
  | nil => exact .refl f
  | cons n rest ih =>
      have hnone : f.parent? n.id = none := (detached_iff.mp hdet).1 n (by simp)
      exact (extends_link parent hnone).trans (ih (detached_link hdet))

theorem extends_join {f : Forest C} (context : C) {children : List (Spanned C)}
    (hdet : f.detached children = true) : f.Extends (f.join context children) := by
  refine (extends_push f _).trans (extends_adopt f.size ?_)
  rw [detached_push, hdet]

theorem extends_after (step : ForestStep C) (f : Forest C) : f.Extends (step.after f) := by
  cases step with
  | terminal symbol =>
      rw [ForestStep.after_terminal]
      exact extends_push f _
  | error symbol =>
      rw [ForestStep.after_error]
      exact extends_push f _
  | rule context children =>
      rw [ForestStep.after_rule]
      split
      · next hdet => exact extends_join context hdet
      · exact .refl f
  | looseRule context children =>
      rw [ForestStep.after_looseRule]
      exact extends_push f _
  | setParent child parent =>
      rw [ForestStep.after_setParent]
      split
      · exact .refl f
      · next hnone => exact extends_link parent (Option.not_isSome_iff_eq_none.mp hnone)

end Forest

namespace Session

variable [RuleContext C]

theorem extends_after {s : Session C} (h : s.Sound) {step : SessionStep C}
    (hs : step.Within s.forest) : s.forest.Extends (s.after step).forest := by
  rcases forest_after h hs with heq | ⟨change, -, -, heq⟩
  · rw [heq]
    exact .refl s.forest
  · rw [heq]
    exact Forest.extends_after change s.forest

theorem Run.forest_extends {allowed : SessionStep C → Prop} {start s : Session C}
    (run : Run allowed start s) (h : start.Sound) : start.forest.Extends s.forest := by
  induction run with
  | refl => exact .refl start.forest
  | step step run ha hw ih => exact ih.trans (extends_after (run.sound h) hw)

/-- Whatever has been done in a session and whatever is done afterwards, loose rules,
parents given by hand and refusals included: a node stays what it is, with its span,
and keeps its parent once it has one. Everything below it stays where it is, so
its text, its bracketed form under any names, its descendants and the events of a walk
are the same before and after. -/
theorem node_unchanged_by_run {s s' : Session C} (h : Reachable (fun _ => True) s)
    (run : Run (fun _ => True) s s') :
    (∀ id n, s.forest.spanned? id = some n → s'.forest.spanned? id = some n) ∧
      (∀ id p, s.forest.parent? id = some p → s'.forest.parent? id = some p) ∧
      ∀ n : Node C, n ∈ s.forest →
        (∀ d ∈ n.descendants,
          s.forest.node? d.id = some d ∧ s'.forest.node? d.id = some d) ∧
        (s'.forest.node? n.id).map Node.text = some n.text ∧
        (∀ names, (s'.forest.node? n.id).map (Node.bracketed names) = some (n.bracketed names)) ∧
        (s'.forest.node? n.id).map Node.descendants = some n.descendants ∧
        (s'.forest.node? n.id).map Node.walkEvents = some n.walkEvents := by
  have hextends := run.forest_extends h.sound
  refine ⟨fun id n => hextends.spanned?, fun id p => hextends.parent?, fun n hn => ?_⟩
  have hkept : s'.forest.node? n.id = some n := hextends.node? hn
  refine ⟨fun d hd => ?_, ?_, fun names => ?_, ?_, ?_⟩
  · rw [Node.descendants_eq_preorder] at hd
    have hmem : d ∈ s.forest := (h.sound.forest.id_le_of_mem_preorder hn hd).1
    exact ⟨hmem, hextends.node? hmem⟩
  all_goals
    rw [hkept]
    rfl

/-- A loose rule has one leaf twice and is given to it as its parent by hand. Another
rule is put around it, and then neither that rule nor a builder can take the leaf:
its parent is the loose rule for good, and the loose rule reads as before. -/
theorem node_unchanged_of_kept_twins :
    let leaf : Spanned Invocation := .error ⟨0, some { type := 1, text := "x" }⟩
    let twins : Spanned Invocation := .rule 1 ⟨5, 0⟩ [leaf, leaf]
    let made := (({} : Session Invocation).after
      (.forest (.error (some { type := 1, text := "x" })))).after
      (.forest (.looseRule ⟨5, 0⟩ [leaf, leaf]))
    let s := made.after (.forest (.setParent 0 1))
    let wrapped := s.after (.forest (.rule ⟨6, 0⟩ [twins]))
    let s' := (wrapped.after (.forest (.setParent 0 2))).after (.builder 3 (.attach leaf))
    Reachable (fun _ => True) s ∧ Run (fun _ => True) s s' ∧ s'.forest.size = 3 ∧
      s'.forest.parent? leaf.id = some twins.id ∧
      (s'.forest.node? twins.id).map Node.text = some "xx" := by
  intro leaf twins made s wrapped s'
  have hmade : made.forest = (({} : Forest Invocation).push leaf).push twins := by
    unfold made
    rw [forest_after_forest, forest_after_forest]
    rfl
  have hs : s.forest = made.forest.link 0 1 := by
    unfold s
    rw [forest_after_forest, hmade]
    rfl
  have hwrapped : wrapped.forest = s.forest.join ⟨6, 0⟩ [twins] := by
    unfold wrapped
    rw [forest_after_forest, hs, hmade]
    rfl
  have hrefused : (wrapped.after (.forest (.setParent 0 2))).forest = wrapped.forest := by
    rw [forest_after_forest, hwrapped, hs, hmade]
    rfl
  have hfresh : wrapped.builder 3 = {} := by
    unfold wrapped s made
    simp only [builder_after_forest, builder_empty]
  have hs' : s'.forest = wrapped.forest := by
    unfold s'
    rw [forest_after_builder, builder_after_forest, hfresh, hrefused, hwrapped, hs, hmade]
    rfl
  have hmadeRun : Reachable (fun _ => True) made := by
    refine .step _ (.step _ .refl trivial trivial) trivial fun c hc => ?_
    rw [forest_after_forest, show c = leaf by simpa using hc]
    rfl
  have hsRun : Reachable (fun _ => True) s := by
    refine .step _ hmadeRun trivial ⟨?_, ?_⟩
    · rw [hmade]
      rfl
    · rw [hmade]
      rfl
  have hrun : Run (fun _ => True) s s' := by
    refine .step _ (.step _ (.step _ .refl trivial fun c hc => ?_) trivial ⟨?_, ?_⟩) trivial ?_
    · rw [List.mem_singleton.mp hc, hs, hmade]
      rfl
    · rw [hwrapped, hs, hmade]
      rfl
    · rw [hwrapped, hs, hmade]
      rfl
    · change leaf.node ∈ (wrapped.after (.forest (.setParent 0 2))).forest
      rw [hrefused, hwrapped, hs, hmade]
      rfl
  have htwins : twins.node ∈ s.forest := by
    rw [hs, hmade]
    rfl
  obtain ⟨-, hparent, hnode⟩ := node_unchanged_by_run hsRun hrun
  refine ⟨hsRun, hrun, ?_, ?_, ?_⟩
  · rw [hs', hwrapped, hs, hmade]
    rfl
  · apply hparent
    rw [hs, hmade]
    rfl
  · refine (hnode twins.node htwins).2.1.trans ?_
    rw [Node.text_eq_join]
    rfl

end Session

end ParseTree
