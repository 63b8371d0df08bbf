import ParseTree.Proofs.Builder.Pending
import ParseTree.Proofs.Node.Reading
import ParseTree.Proofs.Walk.Events

/-!
# Replaying a walk

The events of a walk are just what a builder has to be told in order to make the tree
again: an entry opens a rule, an exit closes it, and between the two come the
children. The walk and the builder keep separate stacks and know nothing of each
other. What holds them together is that the events of one node add exactly one node,
of the same shape, to what is open.
-/

namespace ParseTree

variable {C : Type} [RuleContext C]

namespace WalkEvent

/-- What a builder is told at an event of a walk. A rule is opened with the context, and
so with the index and the alternative, of the rule that was entered. -/
def replay : WalkEvent C → AssemblyM C Unit
  | .enter r => Assembly.startRule r.context
  | .terminal ⟨_, some symbol⟩ => discard (Assembly.token symbol)
  | .terminal ⟨_, none⟩ => discard Assembly.missingToken
  | .error leaf => discard (Assembly.errorToken leaf.symbol)
  | .exit _ => discard Assembly.finishRule
  | .enterHook _ => pure ()
  | .exitHook _ => pure ()

/-- Tell a builder about all events and ask it for the tree. -/
def rebuild (events : List (WalkEvent C)) : AssemblyM C (Spanned C) := do
  forM events replay
  Assembly.finish

/-- Replaying the walk of a node hands a node of the same shape to what is open. -/
def Replays (n : Node C) (a : Assembly C) : Prop :=
  ∃ node a', (forM n.walkEvents replay).run a = .ok () a' ∧ a.Received node a' ∧
    node.node.shape = n.shape

theorem run_forM_singleton {e : WalkEvent C} {a a' : Assembly C} (h : e.replay.run a = .ok () a') :
    (forM [e] replay).run a = .ok () a' := by
  rw [List.forM_cons, EStateM.run_bind, h]
  rfl

section Leaf

variable {a : Assembly C} (hopen : a.builder.openRules ≠ [])
  (hfree : a.forest.Free a.builder.pending)

include hopen hfree

/-- The event of a leaf makes a leaf of the same kind. -/
theorem replays_leaf {n : Node C} {e : WalkEvent C} (hwalk : n.walkEvents = [e])
    (make : NodeId → Spanned C) (addition : Addition) (hid : ∀ id, (make id).id = id)
    (hreplay : e.replay = discard (Assembly.addLeaf (Forest.insert make) addition))
    (hshape : ∀ id, (make id).node.shape = n.shape) : Replays n a := by
  obtain ⟨r, outer, hrules⟩ := List.exists_cons_of_ne_nil hopen
  obtain ⟨a', hrun, hreceived⟩ := Assembly.received_addLeaf hrules hfree hid addition
  refine ⟨_, a', ?_, hreceived, hshape _⟩
  rw [hwalk]
  apply run_forM_singleton
  rw [hreplay]
  exact Assembly.run_discard_of_ok hrun

theorem replays_terminal (leaf : Leaf) : Replays (.terminal leaf) a := by
  obtain ⟨id, symbol⟩ := leaf
  have hwalk := Node.walkEvents_terminal (C := C) ⟨id, symbol⟩
  cases symbol with
  | some symbol =>
      exact replays_leaf hopen hfree hwalk (fun id => .terminal ⟨id, some symbol⟩) .token
        (fun _ => rfl) rfl fun _ => rfl
  | none =>
      exact replays_leaf hopen hfree hwalk (fun id => .terminal ⟨id, none⟩) .missingToken
        (fun _ => rfl) rfl fun _ => rfl

theorem replays_error (leaf : Leaf) : Replays (.error leaf) a :=
  replays_leaf hopen hfree (Node.walkEvents_error leaf) (fun id => .error ⟨id, leaf.symbol⟩)
    .errorToken (fun _ => rfl) rfl fun _ => rfl

end Leaf

/-- Siblings are replayed one after the other into the innermost open rule. -/
theorem replays_siblings {nodes : List (Node C)} (ih : ∀ n ∈ nodes, ∀ a : Assembly C,
      a.builder.openRules ≠ [] → a.forest.Free a.builder.pending → Replays n a)
    {a : Assembly C} {r : OpenRule C} {outer : List (OpenRule C)}
    (hopen : a.builder.openRules = r :: outer) (hfree : a.forest.Free a.builder.pending) :
    ∃ received a', (forM (nodes.flatMap Node.walkEvents) replay).run a = .ok () a' ∧
      a.ReceivedAll received r outer a' ∧
      received.map (fun n => n.node.shape) = nodes.map Node.shape := by
  induction nodes generalizing a r with
  | nil => exact ⟨[], a, rfl, Assembly.receivedAll_nil hopen hfree, rfl⟩
  | cons n rest ihRest =>
      obtain ⟨node, b, hrun, hreceived, hshape⟩ := ih n (by simp) a (by simp [hopen]) hfree
      obtain ⟨hrules, -, hpending⟩ := hreceived.of_openRules hopen
      obtain ⟨received, a', hrun', hall, hshapes⟩ :=
        ihRest (fun m hm => ih m (List.mem_cons_of_mem n hm)) hrules (hpending ▸ hreceived.free)
      refine ⟨node :: received, a', ?_, hreceived.cons hopen hall, ?_⟩
      · rw [List.flatMap_cons, List.forM_append, EStateM.run_bind, hrun]
        exact hrun'
      · rw [List.map_cons, List.map_cons, hshape, hshapes]

/-- A rule is opened at its entry, receives its children and is closed at its exit. -/
theorem replays_rule {id : NodeId} {context : C} {children : List (Node C)}
    (ih : ∀ n ∈ children, ∀ a : Assembly C, a.builder.openRules ≠ [] →
      a.forest.Free a.builder.pending → Replays n a)
    {a : Assembly C} (hroom : a.builder.openRules ≠ [] ∨ a.builder.root = none)
    (hfree : a.forest.Free a.builder.pending) : Replays (.rule id context children) a := by
  obtain ⟨b, hstart, hforest, hrules, hroot⟩ := Assembly.run_startRule_of_allowed hroom context
  have hpending : b.builder.pending = a.builder.pending := Builder.pending_of_openRules hrules
  obtain ⟨received, b', hrun, hall, hshapes⟩ :=
    replays_siblings ih hrules (by rwa [hpending, hforest])
  obtain ⟨a', hfinish, hreceived⟩ := hall.finishRule hrules hroot
  refine ⟨_, a', ?_, hreceived, ?_⟩
  · have henter : (replay (.enter ⟨id, context, children⟩)).run a = .ok () b := hstart
    rw [Node.walkEvents_rule, List.forM_cons, EStateM.run_bind, henter]
    dsimp only
    rw [List.forM_append, EStateM.run_bind, hrun]
    exact run_forM_singleton (Assembly.run_discard_of_ok hfinish)
  · simp [Node.shape, Node.shapes_eq_map, ← hshapes]

/-- Wherever there is room for a node, its walk can be replayed. -/
theorem replays (n : Node C) {a : Assembly C} (hopen : a.builder.openRules ≠ [])
    (hfree : a.forest.Free a.builder.pending) : Replays n a := by
  induction n generalizing a with
  | rule id context children ih =>
      exact replays_rule (fun n hn b hb hbfree => ih n hn hb hbfree) (.inl hopen) hfree
  | terminal leaf => exact replays_terminal hopen hfree leaf
  | error leaf => exact replays_error hopen hfree leaf

end WalkEvent

/-- The events of a walk of any rule, told to a new builder on any forest, are all
accepted, and what the builder returns has the same shape, the same spans
throughout, and hence the same bracketed form, text and census. -/
theorem rebuild_walkEvents (f : Forest C) (t : RuleNode C) :
    ∃ root a, (WalkEvent.rebuild t.node.walkEvents).run { forest := f } = .ok root a ∧
      root.node ∈ a.forest ∧ root.node.shape = t.node.shape ∧ root.span = t.node.span ∧
      root.node.descendants.map Node.span = t.node.descendants.map Node.span ∧
      (∀ names, root.node.bracketed names = t.node.bracketed names) ∧
      root.node.text = t.node.text ∧ root.node.census = t.node.census := by
  have hreplays : WalkEvent.Replays t.node { forest := f } :=
    WalkEvent.replays_rule (fun n _ _ => WalkEvent.replays n) (.inr rfl) (Forest.free_nil f)
  obtain ⟨root, b, hrun, hreceived, hshape⟩ := hreplays
  obtain ⟨a, hfinish, hforest⟩ := hreceived.finish rfl
  refine ⟨root, a, ?_, hforest ▸ hreceived.mem, hshape, ?_, ?_, ?_, ?_, ?_⟩
  · rw [WalkEvent.rebuild, EStateM.run_bind, hrun]
    exact hfinish
  · rw [root.span_eq]
    exact Node.answers_span.eq_of_shape_eq hshape
  · rw [Node.descendants_eq_preorder, Node.descendants_eq_preorder]
    exact Node.answers_span.map_preorder_eq hshape
  · exact fun names => (Node.answers_bracketed names).eq_of_shape_eq hshape
  · exact Node.answers_text.eq_of_shape_eq hshape
  · exact Node.answers_census.eq_of_shape_eq hshape

end ParseTree
