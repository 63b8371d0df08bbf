import Mathlib.Algebra.BigOperators.Group.List.Basic
import Mathlib.Algebra.GroupWithZero.Nat
import ParseTree.Proofs.Report.Outline

/-!
# Line feeds in an outline

The displays of leaves are escaped before they are put on a line, and numbers have no line
feeds in them. Names are put there as they stand: those of rules and those of token types.
So an outline has as many line feeds as there are events, and besides these the ones in
the names that its lines give.
-/

namespace ParseTree

variable {C : Type}

namespace Text

def lineFeeds (text : String) : Nat := text.toList.count '\n'

theorem lineFeeds_eq_zero_iff {text : String} : lineFeeds text = 0 ↔ '\n' ∉ text.toList :=
  List.count_eq_zero

@[simp] theorem lineFeeds_append (s t : String) :
    lineFeeds (s ++ t) = lineFeeds s + lineFeeds t := by
  rw [lineFeeds, String.toList_append, List.count_append]
  rfl

theorem lineFeeds_join (texts : List String) :
    lineFeeds (String.join texts) = (texts.map lineFeeds).sum := by
  rw [lineFeeds, String.toList_join, List.count_flatMap]
  rfl

theorem lineFeeds_intercalate {between : String} (h : lineFeeds between = 0)
    (words : List String) :
    lineFeeds (between.intercalate words) = (words.map lineFeeds).sum := by
  induction words with
  | nil => rfl
  | cons first rest ih =>
      cases rest with
      | nil => simp
      | cons second rest =>
          rw [String.intercalate_cons_cons, lineFeeds_append, lineFeeds_append, ih, h]
          simp

@[simp] theorem lineFeeds_escapeWhitespace (text : String) :
    lineFeeds (escapeWhitespace text) = 0 := by
  rw [lineFeeds_eq_zero_iff]
  intro hmem
  have hfeed : isEscaped '\n' = false := not_isEscaped_of_mem_escapeWhitespace hmem
  cases hfeed

@[simp] theorem lineFeeds_repr (v : Int) : lineFeeds v.repr = 0 := by
  rw [lineFeeds_eq_zero_iff]
  intro hmem
  rcases Decimal.eq_minus_or_isDigit_of_mem_repr hmem with hminus | hdigit
  · cases hminus
  · cases hdigit

end Text

open Text

@[simp] theorem Span.lineFeeds_render (s : Span) : lineFeeds s.render = 0 := by
  simp only [render, lineFeeds_append, lineFeeds_repr]
  rfl

theorem Decimal.lineFeeds_render {α : Type} [Word α] (a : α) :
    lineFeeds (Decimal.render a) = 0 :=
  lineFeeds_repr _

theorem lineFeeds_ruleName (names : List String) (index : UInt64) :
    lineFeeds (ruleName names index) = (names[index.toNat]?.map lineFeeds).getD 0 := by
  unfold ruleName
  cases names[index.toNat]? with
  | none =>
      rw [Option.getD_none, Decimal.lineFeeds_render]
      rfl
  | some name => rfl

/-- The line feeds in a rule's label are those in its name. -/
theorem lineFeeds_ruleLabel [RuleContext C] (names : List String) (context : C) :
    lineFeeds (ruleLabel names context) =
      lineFeeds (ruleName names (RuleContext.ruleIndex context)) := by
  unfold ruleLabel
  dsimp only
  split
  · rfl
  · rw [lineFeeds_append, lineFeeds_append, Decimal.lineFeeds_render]
    rfl

section

variable [RuleContext C] (settings : Settings) (names : List String)

/-- The name that stands on the lines of a node: that of the rule, where the list of names
has one, or that of the type of the leaf's token. -/
def Node.givenName? : Node C → Option String
  | .rule _ context _ => names[(RuleContext.ruleIndex context).toNat]?
  | .terminal leaf => leaf.typeName? settings
  | .error leaf => leaf.typeName? settings

/-- The lines of a node, one for a leaf and two for a rule. -/
def Node.lineCount (n : Node C) : Nat := if n.isRule then 2 else 1

def Node.lineFeedsInName (n : Node C) : Nat :=
  ((n.givenName? settings names).map lineFeeds).getD 0

/-- The line feeds in the line of an event. -/
def WalkEvent.lineFeeds (e : WalkEvent C) : Nat :=
  ((e.words settings names).map Text.lineFeeds).sum + 1

theorem Node.lineFeedsInName_eq_zero_iff {n : Node C} :
    n.lineFeedsInName settings names = 0 ↔
      ∀ name, n.givenName? settings names = some name → '\n' ∉ name.toList := by
  unfold lineFeedsInName
  cases n.givenName? settings names with
  | none => simp
  | some name => simp [lineFeeds_eq_zero_iff]

theorem PlacedEvent.lineFeeds_line (p : PlacedEvent C) :
    lineFeeds (p.line settings names) = p.event.lineFeeds settings names := by
  have hblanks (k : Nat) : lineFeeds (String.ofList (List.replicate k ' ')) = 0 := by
    rw [lineFeeds_eq_zero_iff, String.toList_ofList]
    simp
  rw [line, lineFeeds_append, lineFeeds_append, hblanks, lineFeeds_intercalate rfl, Nat.zero_add]
  rfl

theorem sum_lineFeeds_ruleWords (r : RuleNode C) :
    ((r.words settings names).map lineFeeds).sum = r.node.lineFeedsInName settings names := by
  unfold RuleNode.words Node.lineFeedsInName
  rw [List.map_cons, List.sum_cons, lineFeeds_ruleLabel, lineFeeds_ruleName]
  cases settings.showSpans with
  | true => simp [RuleNode.node, Node.givenName?]
  | false => simp [RuleNode.node, Node.givenName?]

theorem sum_lineFeeds_leafWords (leaf : Leaf) :
    ((leaf.words settings).map lineFeeds).sum =
      ((leaf.typeName? settings).map lineFeeds).getD 0 := by
  unfold Leaf.words
  cases leaf.typeName? settings with
  | none => simp
  | some name =>
      have hparens : lineFeeds "(" + lineFeeds name + lineFeeds ")" = lineFeeds name :=
        Nat.zero_add _
      simp [hparens]

theorem WalkEvent.lineFeeds_of_words {e : WalkEvent C} {keyword : String} {rest : List String}
    (hwords : e.words settings names = keyword :: rest) (hkeyword : Text.lineFeeds keyword = 0) :
    e.lineFeeds settings names = (rest.map Text.lineFeeds).sum + 1 := by
  rw [WalkEvent.lineFeeds, hwords, List.map_cons, List.sum_cons, hkeyword, Nat.zero_add]

/-- The line of an event has a line feed at its end, and those of the name in it. -/
theorem WalkEvent.lineFeeds_of_mem_ownEvents {n : Node C} {e : WalkEvent C}
    (he : e ∈ n.ownEvents) :
    e.lineFeeds settings names = n.lineFeedsInName settings names + 1 := by
  cases n with
  | rule id context children =>
      have hwords := sum_lineFeeds_ruleWords settings names ⟨id, context, children⟩
      rcases List.mem_pair.mp he with rfl | rfl
      · rw [lineFeeds_of_words settings names rfl rfl, hwords]
        rfl
      · rw [lineFeeds_of_words settings names rfl rfl, hwords]
        rfl
  | terminal leaf =>
      rw [List.mem_singleton.mp he, lineFeeds_of_words settings names rfl rfl,
        sum_lineFeeds_leafWords]
      rfl
  | error leaf =>
      rw [List.mem_singleton.mp he, lineFeeds_of_words settings names rfl rfl,
        sum_lineFeeds_leafWords]
      rfl

namespace Node

omit [RuleContext C] in
theorem length_ownEvents (n : Node C) : n.ownEvents.length = n.lineCount := by
  cases n with
  | rule id context children => rfl
  | terminal leaf => rfl
  | error leaf => rfl

theorem sum_lineFeeds_ownEvents (n : Node C) :
    (n.ownEvents.map (WalkEvent.lineFeeds settings names)).sum =
      n.lineCount + n.lineCount * n.lineFeedsInName settings names := by
  rw [List.map_congr_left fun e he => WalkEvent.lineFeeds_of_mem_ownEvents settings names he,
    List.map_const', List.sum_replicate_nat, length_ownEvents, Nat.mul_succ, Nat.add_comm]

omit [RuleContext C] in
/-- Every node is a rule with two lines or a leaf with one. -/
theorem lineCount_eq (n : Node C) :
    n.lineCount = 2 * (if n.isRule then 1 else 0) + if n.isLeaf then 1 else 0 := by
  cases n with
  | rule id context children => rfl
  | terminal leaf => rfl
  | error leaf => rfl

omit [RuleContext C] in
theorem lineCount_ne_zero (n : Node C) : n.lineCount ≠ 0 := by
  unfold lineCount
  split
  · exact Nat.succ_ne_zero 1
  · exact Nat.succ_ne_zero 0

omit [RuleContext C] in
theorem sum_lineCount (nodes : List (Node C)) :
    (nodes.map lineCount).sum = 2 * nodes.countP isRule + nodes.countP isLeaf := by
  induction nodes with
  | nil => rfl
  | cons n rest ih =>
      rw [List.map_cons, List.sum_cons, ih, lineCount_eq, List.countP_cons, List.countP_cons]
      omega

omit [RuleContext C] in
theorem length_leaves (n : Node C) : n.leaves.length = n.preorder.countP isLeaf := by
  rw [leaves, descendants_eq_preorder]
  exact List.length_filterMap_eq_countP

/-- An outline has the line feeds of its lines, and those of the names in them. -/
theorem lineFeeds_outline (n : Node C) :
    lineFeeds (n.outline settings names) =
      2 * n.preorder.countP isRule + n.leaves.length +
        (n.preorder.map fun d => d.lineCount * d.lineFeedsInName settings names).sum := by
  have hlines : (n.placedEvents []).map (lineFeeds ∘ PlacedEvent.line settings names) =
      n.walkEvents.map (WalkEvent.lineFeeds settings names) := by
    rw [← n.map_event_placedEvents [], List.map_map]
    exact List.map_congr_left fun p _ => p.lineFeeds_line settings names
  calc
    lineFeeds (n.outline settings names) =
        (n.walkEvents.map (WalkEvent.lineFeeds settings names)).sum := by
      rw [outline_eq_join_lines, lineFeeds_join, List.map_map, hlines]
    _ = ((n.preorder.flatMap ownEvents).map (WalkEvent.lineFeeds settings names)).sum :=
      (n.walkEvents_perm_ownEvents.map _).sum_nat
    _ = (n.preorder.map fun d =>
          d.lineCount + d.lineCount * d.lineFeedsInName settings names).sum := by
      rw [List.map_flatMap, List.flatMap_def, List.sum_flatten, List.map_map]
      exact congrArg List.sum (List.map_congr_left fun d _ =>
        d.sum_lineFeeds_ownEvents settings names)
    _ = _ := by
      rw [List.sum_map_add, sum_lineCount, length_leaves]

/-- For every tree, names and settings, an outline has two line feeds for each rule and
one for each leaf, and for each line those in the name that it gives. So it has one line
for each event exactly if no name of a rule in the tree or of the type of one of its tokens
has a line feed in it. -/
theorem lineFeeds_outline_eq_iff (n : Node C) :
    lineFeeds (n.outline settings names) =
        2 * n.descendants.countP isRule + n.leaves.length +
          (n.descendants.map fun d => d.lineCount * d.lineFeedsInName settings names).sum ∧
      (lineFeeds (n.outline settings names) =
          2 * n.descendants.countP isRule + n.leaves.length ↔
        ∀ d ∈ n.descendants, ∀ name, d.givenName? settings names = some name →
          '\n' ∉ name.toList) := by
  rw [descendants_eq_preorder, lineFeeds_outline]
  refine ⟨rfl, ?_⟩
  rw [Nat.add_eq_left, List.sum_eq_zero_iff_forall_eq_nat, List.forall_mem_map]
  simp only [Nat.mul_eq_zero, lineCount_ne_zero, false_or, lineFeedsInName_eq_zero_iff]

/-- The outline of a rule over a leaf, where the names of the rule and of the token type are
broken by a line feed: there are three events and six line feeds. -/
theorem lineFeeds_outline_of_broken_names :
    let settings : Settings := { tokenNames := TokenNames.empty.insert 1 "X\nY" }
    let names := ["a\nb"]
    let n : Node Invocation :=
      .rule 1 ⟨0, 0⟩ [.terminal ⟨0, some { type := 1, index := 0, text := "x" }⟩]
    n.outline settings names = "enter a\nb\n  terminal x (X\nY)\nexit a\nb\n" ∧
      lineFeeds (n.outline settings names) = 6 ∧
      2 * n.descendants.countP isRule + n.leaves.length = 3 := by
  intro settings names n
  have houtline : n.outline settings names =
      "enter a\nb\n  terminal x (X\nY)\nexit a\nb\n" := by
    rw [outline_eq_join_lines]
    decide +kernel
  refine ⟨houtline, by rw [houtline]; rfl, ?_⟩
  rw [length_leaves, descendants_eq_preorder]
  rfl

end Node

end

end ParseTree
