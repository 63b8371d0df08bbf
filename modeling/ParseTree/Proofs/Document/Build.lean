import ParseTree.Proofs.Builder.Pending
import ParseTree.Proofs.Document.Description

/-!
# Building what a description says

Building drives a builder by recursion on the description. Each described node adds
exactly one node to what is open, and the nodes that wait stay free, so that no
operation of the builder is ever refused. What can stop the building is a fault of
the description, and the first one in the order of the document does.
-/

namespace ParseTree.Document

theorem run_assemble_of_ok {α : Type} {work : AssemblyM Invocation α} {a a' : Assembly Invocation}
    {x : α} (h : work.run a = .ok x a') : (assemble work).run a = .ok x a' := by
  rw [EStateM.run] at h
  rw [assemble, EStateM.run, EStateM.adaptExcept, h]

theorem run_discard_assemble_of_ok {α : Type} {work : AssemblyM Invocation α}
    {a a' : Assembly Invocation} {x : α} (h : work.run a = .ok x a') :
    (discard (assemble work)).run a = .ok () a' :=
  Assembly.run_discard_of_ok (run_assemble_of_ok h)

variable (tokens : Array Token) (names : List String)

/-- Building the described node from a state comes to this: the first fault, if
there is one, and otherwise a node of the right shape for what is open. -/
def Builds (spec : TreeSpec) (a : Assembly Invocation) : Prop :=
  match spec.firstFault? tokens names with
  | some e => ∃ a', (addNode tokens names spec).run a = .error e a'
  | none => ∃ node a', (addNode tokens names spec).run a = .ok () a' ∧ a.Received node a' ∧
      spec.image? tokens names = some node.node.shape

variable {tokens names}

theorem Builds.of_fault {spec : TreeSpec} {a : Assembly Invocation} {e : DocumentError}
    (hfault : spec.firstFault? tokens names = some e)
    (hrun : ∃ a', (addNode tokens names spec).run a = .error e a') :
    Builds tokens names spec a := by
  rw [Builds, hfault]
  exact hrun

theorem Builds.of_node {spec : TreeSpec} {a a' : Assembly Invocation} {node : Spanned Invocation}
    (hfault : spec.firstFault? tokens names = none)
    (hrun : (addNode tokens names spec).run a = .ok () a') (hreceived : a.Received node a')
    (himage : spec.image? tokens names = some node.node.shape) : Builds tokens names spec a := by
  rw [Builds, hfault]
  exact ⟨node, a', hrun, hreceived, himage⟩

theorem tokenAt_of_lt {position : UInt64} (h : position.toNat < tokens.size) :
    ∃ token, tokens[position.toNat]? = some token ∧ tokenAt tokens position = .ok token := by
  have hsome : tokens[position.toNat]? = some tokens[position.toNat] := Array.getElem?_eq_getElem h
  exact ⟨_, hsome, by rw [tokenAt, hsome]⟩

theorem tokenAt_of_not_lt {position : UInt64} (h : ¬ position.toNat < tokens.size) :
    tokenAt tokens position = .error (.tokenOutOfRange position.toNat tokens.size) := by
  rw [tokenAt, Array.getElem?_eq_none (Nat.le_of_not_lt h)]

section Leaf

variable {a : Assembly Invocation} (hopen : a.builder.openRules ≠ [])
  (hfree : a.forest.Free a.builder.pending)

include hopen hfree

/-- A leaf that can be made is handed to the innermost open rule. -/
theorem builds_leaf {spec : TreeSpec} (make : NodeId → Spanned Invocation) (addition : Addition)
    (hid : ∀ id, (make id).id = id) (hfault : spec.firstFault? tokens names = none)
    (hwork : addNode tokens names spec =
      discard (assemble (Assembly.addLeaf (Forest.insert make) addition)))
    (himage : ∀ id, spec.image? tokens names = some (make id).node.shape) :
    Builds tokens names spec a := by
  obtain ⟨r, outer, hrules⟩ := List.exists_cons_of_ne_nil hopen
  obtain ⟨a', hrun, hreceived⟩ := Assembly.received_addLeaf hrules hfree hid addition
  refine .of_node hfault ?_ hreceived (himage _)
  rw [hwork]
  exact run_discard_assemble_of_ok hrun

theorem builds_token (position : UInt64) : Builds tokens names (.token position) a := by
  by_cases hlt : position.toNat < tokens.size
  · obtain ⟨token, hsome, hat⟩ := tokenAt_of_lt hlt
    apply builds_leaf hopen hfree (fun id => .terminal ⟨id, some token⟩) .token (fun _ => rfl)
    · rw [TreeSpec.firstFault?_token, TreeSpec.positionFault?_eq_none_iff]
      exact hlt
    · rw [addNode, hat]
      rfl
    · intro id
      rw [TreeSpec.image?, hsome]
      rfl
  · have hfault := TreeSpec.positionFault?_of_not_lt tokens hlt
    refine .of_fault ((TreeSpec.firstFault?_token tokens names position).trans hfault) ⟨a, ?_⟩
    rw [addNode, tokenAt_of_not_lt hlt]
    rfl

theorem builds_missing (flag : Bool) : Builds tokens names (.missing flag) a := by
  cases flag with
  | true =>
      apply builds_leaf hopen hfree (fun id => .terminal ⟨id, none⟩) .missingToken
        (fun _ => rfl) rfl
      · rw [addNode]
        rfl
      · intro id
        rw [TreeSpec.image?]
        rfl
  | false =>
      refine .of_fault rfl ⟨a, ?_⟩
      rw [addNode]
      rfl

theorem builds_error (position : Option UInt64) : Builds tokens names (.error position) a := by
  cases position with
  | none =>
      apply builds_leaf hopen hfree (fun id => .error ⟨id, none⟩) .errorToken (fun _ => rfl) rfl
      · rw [addNode]
        rfl
      · intro id
        rw [TreeSpec.image?]
        rfl
  | some position =>
      by_cases hlt : position.toNat < tokens.size
      · obtain ⟨token, hsome, hat⟩ := tokenAt_of_lt hlt
        apply builds_leaf hopen hfree (fun id => .error ⟨id, some token⟩) .errorToken (fun _ => rfl)
        · rw [TreeSpec.firstFault?_error, Option.bind_some, TreeSpec.positionFault?_eq_none_iff]
          exact hlt
        · rw [addNode, Option.mapM_some, hat]
          rfl
        · intro id
          rw [TreeSpec.image?, hsome]
          rfl
      · have hfault := TreeSpec.positionFault?_of_not_lt tokens hlt
        refine .of_fault ((TreeSpec.firstFault?_error tokens names _).trans hfault) ⟨a, ?_⟩
        rw [addNode, Option.mapM_some, tokenAt_of_not_lt hlt]
        rfl

end Leaf

/-- Siblings are built one after the other, up to the first fault among them and
everything below them. -/
theorem addNodes_builds {specs : List TreeSpec} (ih : ∀ spec ∈ specs, ∀ a : Assembly Invocation,
      a.builder.openRules ≠ [] → a.forest.Free a.builder.pending → Builds tokens names spec a)
    {a : Assembly Invocation} {r : OpenRule Invocation} {outer : List (OpenRule Invocation)}
    (hopen : a.builder.openRules = r :: outer) (hfree : a.forest.Free a.builder.pending) :
    match (TreeSpec.preorders specs).findSome? (TreeSpec.fault? tokens names) with
    | some e => ∃ a', (addNodes tokens names specs).run a = .error e a'
    | none => ∃ nodes a', (addNodes tokens names specs).run a = .ok () a' ∧
        a.ReceivedAll nodes r outer a' ∧
        TreeSpec.images? tokens names specs = some (nodes.map fun n => n.node.shape) := by
  induction specs generalizing a r with
  | nil =>
      refine ⟨[], a, ?_, Assembly.receivedAll_nil hopen hfree, ?_⟩
      · rw [addNodes]
        rfl
      · rw [TreeSpec.images?]
        rfl
  | cons spec rest ihRest =>
      have hspec := ih spec (by simp) a (by simp [hopen]) hfree
      rw [TreeSpec.findSome?_preorders_cons]
      rw [Builds] at hspec
      cases hfault : spec.firstFault? tokens names with
      | some e =>
          rw [hfault] at hspec
          obtain ⟨a', hrun⟩ := hspec
          exact ⟨a', by rw [addNodes, EStateM.run_bind, hrun]⟩
      | none =>
          rw [hfault] at hspec
          obtain ⟨node, b, hrun, hreceived, himage⟩ := hspec
          obtain ⟨hrules, -, hpending⟩ := hreceived.of_openRules hopen
          have hnext := ihRest (fun s hs => ih s (List.mem_cons_of_mem spec hs)) hrules
            (hpending ▸ hreceived.free)
          rw [Option.none_or, addNodes, EStateM.run_bind, hrun]
          dsimp only
          cases hrest : (TreeSpec.preorders rest).findSome? (TreeSpec.fault? tokens names) with
          | some e =>
              rw [hrest] at hnext
              exact hnext
          | none =>
              rw [hrest] at hnext
              obtain ⟨nodes, a', hrun', hall, himages⟩ := hnext
              refine ⟨node :: nodes, a', hrun', hreceived.cons hopen hall, ?_⟩
              rw [TreeSpec.images?, himage, himages]
              rfl

/-- A reference that does not resolve is the fault of its rule. -/
theorem resolveRule_cases (ref : RuleRef) (alt : UInt64) (children : List TreeSpec) :
    (∃ index, resolveRule names ref = .ok index ∧
      (TreeSpec.rule ref alt children).fault? tokens names = none) ∨
    ∃ e, resolveRule names ref = .error e ∧
      (TreeSpec.rule ref alt children).fault? tokens names = some e := by
  cases ref with
  | index value => exact .inl ⟨value.toNat, rfl, rfl⟩
  | name text =>
      cases h : RuleRef.resolveName? names text with
      | some index =>
          exact .inl ⟨index, by rw [resolveRule, h], by rw [TreeSpec.fault?, h]; rfl⟩
      | none =>
          exact .inr ⟨.unknownRule text, by rw [resolveRule, h], by rw [TreeSpec.fault?, h]; rfl⟩

/-- A rule is opened, its children are built, and it is closed, which nothing can
prevent since all that has been collected is free. -/
theorem builds_rule {ref : RuleRef} {alt : UInt64} {children : List TreeSpec}
    (ih : ∀ spec ∈ children, ∀ a : Assembly Invocation, a.builder.openRules ≠ [] →
      a.forest.Free a.builder.pending → Builds tokens names spec a)
    {a : Assembly Invocation} (hroom : a.builder.openRules ≠ [] ∨ a.builder.root = none)
    (hfree : a.forest.Free a.builder.pending) :
    Builds tokens names (.rule ref alt children) a := by
  rw [Builds, TreeSpec.firstFault?_rule, addNode]
  rcases resolveRule_cases ref alt children with ⟨index, hresolve, hfault⟩ | ⟨e, hresolve, hfault⟩
  · let context : Invocation := { ruleIndex := .ofNat index, altNumber := alt }
    obtain ⟨b, hstart, hforest, hrules, hroot⟩ := Assembly.run_startRule_of_allowed hroom context
    have hpending : b.builder.pending = a.builder.pending :=
      Builder.pending_of_openRules hrules
    have hchildren := addNodes_builds ih hrules (by rwa [hpending, hforest])
    rw [hfault, hresolve, Option.none_or]
    -- from here on the fate of the rule is that of its children
    have hopened : ∀ work : BuildM Unit, (do
        let index ← ofExcept (.ok index : Except DocumentError Nat)
        assemble (Assembly.startRule { ruleIndex := .ofNat index, altNumber := alt })
        work : BuildM Unit).run a = work.run b := by
      intro work
      change (assemble (Assembly.startRule context) >>= fun _ => work).run a = _
      rw [EStateM.run_bind, run_assemble_of_ok hstart]
    rw [hopened, EStateM.run_bind]
    cases hrest : (TreeSpec.preorders children).findSome? (TreeSpec.fault? tokens names) with
    | some e =>
        rw [hrest] at hchildren
        obtain ⟨b', hrun⟩ := hchildren
        exact ⟨b', by rw [hrun]⟩
    | none =>
        rw [hrest] at hchildren
        obtain ⟨nodes, b', hrun, hall, himages⟩ := hchildren
        obtain ⟨a', hfinish, hreceived⟩ := hall.finishRule hrules hroot
        refine ⟨_, a', ?_, hreceived, ?_⟩
        · rw [hrun]
          exact run_discard_assemble_of_ok hfinish
        · rw [TreeSpec.image?, hresolve, himages]
          simp [Node.shape, Node.shapes_eq_map, Except.toOption, context]
  · rw [hfault, hresolve]
    exact ⟨a, rfl⟩

/-- Every described node for which there is room is built, up to its first fault. -/
theorem builds (spec : TreeSpec) {a : Assembly Invocation} (hopen : a.builder.openRules ≠ [])
    (hfree : a.forest.Free a.builder.pending) : Builds tokens names spec a := by
  induction spec generalizing a with
  | rule ref alt children ih =>
      exact builds_rule (fun spec hspec b hb hbfree => ih spec hspec hb hbfree) (.inl hopen) hfree
  | token position => exact builds_token hopen hfree position
  | missing flag => exact builds_missing hopen hfree flag
  | error position => exact builds_error hopen hfree position

theorem build_of_not_isRule {d : Document} (h : d.tree.isRule = false) (names : List String)
    (forest : Forest Invocation) : d.build names forest = .error .rootNotRule := by
  obtain ⟨ruleNames, tokens, tree⟩ := d
  cases tree with
  | rule ref alt children => cases h
  | token position => rfl
  | missing flag => rfl
  | error position => rfl

/-- Building a rule succeeds or fails with the work on its nodes and the check that
nothing stays open. -/
theorem build_rule (ruleNames : List String) (tokens : Array Token) (names : List String)
    (ref : RuleRef) (alt : UInt64) (children : List TreeSpec) (forest : Forest Invocation) :
    build ⟨ruleNames, tokens, .rule ref alt children⟩ names forest =
      match (do
        addNode tokens names (.rule ref alt children)
        assemble Assembly.finish : BuildM (Spanned Invocation)).run { forest } with
      | .ok root a => .ok { root := root.node, forest := a.forest, report := a.report }
      | .error e _ => .error e := rfl

/-- A rule at the root is built up to the first fault of the description. -/
theorem build_of_isRule {d : Document} (h : d.tree.isRule = true) (names : List String)
    (forest : Forest Invocation) :
    match d.tree.firstFault? d.tokens names with
    | some e => d.build names forest = .error e
    | none => ∃ t, d.build names forest = .ok t ∧
        d.tree.image? d.tokens names = some t.root.shape ∧ t.root ∈ t.forest ∧
        t.forest.parent? t.root.id = none := by
  obtain ⟨ruleNames, tokens, tree⟩ := d
  cases tree with
  | rule ref alt children =>
      have hroot : Builds tokens names (.rule ref alt children) { forest } :=
        builds_rule (fun spec _ _ => builds spec) (.inr rfl) (Forest.free_nil forest)
      rw [Builds] at hroot
      rw [build_rule, EStateM.run_bind]
      dsimp only
      cases hfault : (TreeSpec.rule ref alt children).firstFault? tokens names with
      | some e =>
          rw [hfault] at hroot
          obtain ⟨a', hrun⟩ := hroot
          rw [hrun]
      | none =>
          rw [hfault] at hroot
          obtain ⟨node, a', hrun, hreceived, himage⟩ := hroot
          obtain ⟨b, hfinish, hforest⟩ := hreceived.finish rfl
          rw [hrun]
          dsimp only
          rw [run_assemble_of_ok hfinish]
          refine ⟨_, rfl, himage, hforest ▸ hreceived.mem, ?_⟩
          exact hforest ▸ hreceived.free.parent?_eq_none List.mem_cons_self
  | token position => cases h
  | missing flag => cases h
  | error position => cases h

/-- A document is built exactly if its root is a rule and every described node can be
made. What is built then has the described shape, and its root has no parent. What
goes wrong otherwise is the root, or the fault of the first node in the order of the
document that cannot be made. The builder never refuses. -/
theorem build_image_or_first_fault (d : Document) (names : List String)
    (forest : Forest Invocation) :
    ((∃ t, d.build names forest = .ok t) ↔
      d.tree.isRule = true ∧ ∀ spec ∈ d.tree.preorder, spec.Sound d.tokens names) ∧
    (∀ t, d.build names forest = .ok t →
      d.tree.image? d.tokens names = some t.root.shape ∧
      t.root ∈ t.forest ∧ t.forest.parent? t.root.id = none) ∧
    (∀ e, d.build names forest = .error e →
      if d.tree.isRule then
        ∃ before spec after, d.tree.preorder = before ++ spec :: after ∧
          (∀ s ∈ before, s.Sound d.tokens names) ∧ spec.fault? d.tokens names = some e
      else e = .rootNotRule) ∧
    ∀ cause, d.build names forest ≠ .error (.notBuilt cause) := by
  cases hroot : d.tree.isRule with
  | false => simp [build_of_not_isRule hroot]
  | true =>
      have hbuild := build_of_isRule hroot names forest
      cases hfault : d.tree.firstFault? d.tokens names with
      | some e =>
          rw [hfault] at hbuild
          obtain ⟨before, spec, after, hpreorder, hbefore, hspec⟩ :=
            (TreeSpec.firstFault?_eq_some_iff d.tokens names).mp hfault
          have hunsound : ¬ ∀ s ∈ d.tree.preorder, s.Sound d.tokens names := by
            rw [← TreeSpec.firstFault?_eq_none_iff, hfault]
            exact Option.some_ne_none e
          rw [hbuild]
          refine ⟨⟨?_, fun h => absurd h.2 hunsound⟩, ?_, ?_, ?_⟩
          · rintro ⟨t, ⟨⟩⟩
          · rintro t ⟨⟩
          · rintro _ ⟨⟩
            exact ⟨before, spec, after, hpreorder, hbefore, hspec⟩
          · rintro cause ⟨⟩
            exact TreeSpec.firstFault?_ne_notBuilt d.tokens names hfault
      | none =>
          rw [hfault] at hbuild
          obtain ⟨t, hok, hshape⟩ := hbuild
          have hsound := (TreeSpec.firstFault?_eq_none_iff d.tokens names).mp hfault
          rw [hok]
          refine ⟨⟨fun _ => ⟨rfl, hsound⟩, fun _ => ⟨t, rfl⟩⟩, ?_, ?_, ?_⟩
          · rintro _ ⟨⟩
            exact hshape
          · rintro e ⟨⟩
          · rintro cause ⟨⟩

/-- One rule with a token, a nested rule without its token and an error is built as
described. With the token out of range, that is reported rather than the flag of the
nested node, which stands after it. -/
theorem build_with_and_without_fault :
    let tokens : Array Token := #[{ type := 1 }, { type := 2 }]
    let tree (position : UInt64) (flag : Bool) : TreeSpec :=
      .rule (.name "expr") 0 [.token position, .rule (.index 1) 2 [.missing flag], .error none]
    let good : Document := { tokens, tree := tree 1 true }
    let faulty : Document := { tokens, tree := tree 5 false }
    (∃ t, good.build ["expr"] {} = .ok t ∧
      t.root.shape = .rule ⟨0, 0⟩ [.terminal (some { type := 2 }),
        .rule ⟨1, 2⟩ [.terminal none], .error none] ∧
      t.forest.parent? t.root.id = none) ∧
    faulty.build ["expr"] {} = .error (.tokenOutOfRange 5 2) ∧
    ∃ before spec after, faulty.tree.preorder = before ++ spec :: after ∧
      (∀ s ∈ before, s.Sound tokens ["expr"]) ∧
      spec.fault? tokens ["expr"] = some (.tokenOutOfRange 5 2) := by
  intro tokens tree good faulty
  obtain ⟨hiff, himage, -⟩ := build_image_or_first_fault good ["expr"] {}
  have hsound : ∀ spec ∈ good.tree.preorder, spec.Sound good.tokens ["expr"] :=
    (TreeSpec.firstFault?_eq_none_iff _ _).mp rfl
  obtain ⟨t, ht⟩ := hiff.mpr ⟨rfl, hsound⟩
  obtain ⟨hshape, -, hparent⟩ := himage t ht
  have hfaulty : faulty.build ["expr"] {} = .error (.tokenOutOfRange 5 2) := rfl
  refine ⟨⟨t, ht, Option.some.inj (hshape.symm.trans rfl), hparent⟩, hfaulty, ?_⟩
  exact (build_image_or_first_fault faulty ["expr"] {}).2.2.1 _ hfaulty

end ParseTree.Document
