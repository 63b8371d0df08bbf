import ParseTree.Node.Label
import ParseTree.Node.Order
import ParseTree.Report.Census

/-!
# Nodes of one shape read alike

The shape of a node is the node without the identities: what kind of node it is,
with its context or token, and the shapes of its children in order. Two nodes of
the same shape are told apart by their identities alone.

Most of what can be asked of a node is put together from its context or token and
the answers of its children: the span, the text, the bracketed form, the census.
Such a reading never looks at identities, so it says the same of all nodes of one
shape, and the same of everything below them in order.
-/

namespace ParseTree

variable {C α : Type}

inductive Shape (C : Type) where
  | rule (context : C) (children : List (Shape C))
  | terminal (symbol : Option Token)
  | error (symbol : Option Token)

namespace Node

mutual

def shape : Node C → Shape C
  | .rule _ context children => .rule context (shapes children)
  | .terminal leaf => .terminal leaf.symbol
  | .error leaf => .error leaf.symbol

def shapes : List (Node C) → List (Shape C)
  | [] => []
  | n :: rest => n.shape :: shapes rest

end

theorem shapes_eq_map (nodes : List (Node C)) : shapes nodes = nodes.map shape := by
  induction nodes with
  | nil => rfl
  | cons n rest ih => rw [shapes, ih, List.map_cons]

end Node

/-- How an answer for a node is put together from the answers for its children. -/
structure Reading (C α : Type) where
  rule : C → List α → α
  terminal : Option Token → α
  error : Option Token → α

/-- The question is answered by the reading. -/
structure Reading.Answers (reading : Reading C α) (ask : Node C → α) : Prop where
  rule : ∀ id context children,
    ask (.rule id context children) = reading.rule context (children.map ask)
  terminal : ∀ leaf, ask (.terminal leaf) = reading.terminal leaf.symbol
  error : ∀ leaf, ask (.error leaf) = reading.error leaf.symbol

namespace Reading

/-- Siblings of the same shapes get the same answers if this is known of each. -/
theorem map_eq_of_shapes_eq {ask : Node C → α} {nodes nodes' : List (Node C)}
    (ih : ∀ n ∈ nodes, ∀ m : Node C, n.shape = m.shape → ask n = ask m)
    (h : Node.shapes nodes = Node.shapes nodes') : nodes.map ask = nodes'.map ask := by
  induction nodes generalizing nodes' with
  | nil =>
      cases nodes' with
      | nil => rfl
      | cons m rest' => simp [Node.shapes] at h
  | cons n rest ihRest =>
      cases nodes' with
      | nil => simp [Node.shapes] at h
      | cons m rest' =>
          rw [Node.shapes, Node.shapes, List.cons.injEq] at h
          rw [List.map_cons, List.map_cons, ih n (by simp) m h.1,
            ihRest (fun k hk => ih k (List.mem_cons_of_mem n hk)) h.2]

/-- Nodes of the same shape get the same answer. -/
theorem Answers.eq_of_shape_eq {reading : Reading C α} {ask : Node C → α}
    (h : reading.Answers ask) {n m : Node C} (hshape : n.shape = m.shape) : ask n = ask m := by
  induction n generalizing m with
  | rule id context children ih =>
      cases m with
      | rule id' context' children' =>
          rw [Node.shape, Node.shape, Shape.rule.injEq] at hshape
          rw [h.rule, h.rule, hshape.1,
            map_eq_of_shapes_eq (fun n hn m => ih n hn) hshape.2]
      | terminal leaf => simp [Node.shape] at hshape
      | error leaf => simp [Node.shape] at hshape
  | terminal leaf =>
      cases m with
      | terminal leaf' =>
          rw [Node.shape, Node.shape, Shape.terminal.injEq] at hshape
          rw [h.terminal, h.terminal, hshape]
      | rule id context children => simp [Node.shape] at hshape
      | error leaf' => simp [Node.shape] at hshape
  | error leaf =>
      cases m with
      | error leaf' =>
          rw [Node.shape, Node.shape, Shape.error.injEq] at hshape
          rw [h.error, h.error, hshape]
      | rule id context children => simp [Node.shape] at hshape
      | terminal leaf' => simp [Node.shape] at hshape

/-- The answer for a node together with those for everything below it. -/
def listed (reading : Reading C α) : Reading C (α × List α) where
  rule context answers :=
    let answer := reading.rule context (answers.map Prod.fst)
    (answer, answer :: answers.flatMap Prod.snd)
  terminal symbol := (reading.terminal symbol, [reading.terminal symbol])
  error symbol := (reading.error symbol, [reading.error symbol])

theorem Answers.listed {reading : Reading C α} {ask : Node C → α} (h : reading.Answers ask) :
    reading.listed.Answers fun n => (ask n, n.preorder.map ask) where
  rule id context children := by
    simp [Reading.listed, Node.preorder, Node.preorders_eq_flatMap, h.rule, List.map_flatMap,
      List.flatMap_map, Function.comp_def]
  terminal leaf := by simp [Reading.listed, Node.preorder, h.terminal]
  error leaf := by simp [Reading.listed, Node.preorder, h.error]

theorem Answers.map_preorder_eq {reading : Reading C α} {ask : Node C → α}
    (h : reading.Answers ask) {n m : Node C} (hshape : n.shape = m.shape) :
    n.preorder.map ask = m.preorder.map ask :=
  congrArg Prod.snd (h.listed.eq_of_shape_eq hshape)

end Reading

def Reading.span : Reading C Span where
  rule _ spans := Span.unions spans
  terminal symbol := (symbol.map Token.span).getD .void
  error symbol := (symbol.map Token.span).getD .void

theorem Node.answers_span : Reading.span.Answers (Node.span (C := C)) where
  rule id context children := by
    rw [Node.span, Node.spans_eq_map]
    rfl
  terminal leaf := by
    rw [Node.span]
    rfl
  error leaf := by
    rw [Node.span]
    rfl

/-- The text of a rule is that of its children, one after the other. -/
def Reading.text : Reading C String where
  rule _ texts := String.join texts
  terminal symbol := (symbol.map Token.text).getD ""
  error symbol := (symbol.map Token.text).getD ""

namespace Node

/-- What a node adds to the text itself. -/
def ownText (n : Node C) : String := (n.leaf?.map Leaf.text).getD ""

theorem join_flatMap_ownText (nodes : List (Node C)) :
    String.join ((nodes.flatMap preorder).map ownText) =
      String.join (nodes.map fun n => String.join (n.preorder.map ownText)) := by
  induction nodes with
  | nil => rfl
  | cons n rest ih =>
      rw [List.flatMap_cons, List.map_append, String.join_append, ih, List.map_cons,
        String.join_cons]

theorem text_rule (id : NodeId) (context : C) (children : List (Node C)) :
    (rule id context children).text = String.join ((children.flatMap preorder).map ownText) := by
  rw [← preorders_eq_flatMap]
  change (listing #[] children).toList.foldl (fun text d => text ++ d.ownText) "" = _
  rw [toList_listing, String.join, List.foldl_map]
  rfl

/-- The text of a node is what everything below it adds, in order. -/
theorem text_eq_join (n : Node C) : n.text = String.join (n.preorder.map ownText) := by
  cases n with
  | rule id context children =>
      rw [text_rule, preorder, preorders_eq_flatMap, List.map_cons, String.join_cons]
      exact String.empty_append.symm
  | terminal leaf => simp [text, leaf?, preorder, ownText]
  | error leaf => simp [text, leaf?, preorder, ownText]

theorem answers_text : Reading.text.Answers (text (C := C)) where
  rule id context children := by
    rw [text_rule, join_flatMap_ownText]
    simp only [← text_eq_join]
    rfl
  terminal leaf := rfl
  error leaf := rfl

end Node

/-- A rule with children is written in brackets, with blanks between the parts. -/
def Reading.bracketed [RuleContext C] (names : List String) : Reading C String where
  rule context forms :=
    let label := Text.escapeWhitespace (ruleLabel names context)
    match forms with
    | [] => label
    | first :: rest =>
        "(" ++ label ++ " " ++ first ++ String.join (rest.map fun form => " " ++ form) ++ ")"
  terminal symbol := Text.escapeWhitespace ((symbol.map Token.display).getD "<missing>")
  error symbol := Text.escapeWhitespace ((symbol.map Token.display).getD "<missing>")

namespace Node

theorem bracketedRest_eq_join [RuleContext C] (names : List String) (nodes : List (Node C)) :
    bracketedRest names nodes =
      String.join ((nodes.map (bracketed names)).map fun form => " " ++ form) := by
  induction nodes with
  | nil => rfl
  | cons n rest ih =>
      rw [bracketedRest, ih, List.map_cons, List.map_cons, String.join_cons]

theorem answers_bracketed [RuleContext C] (names : List String) :
    (Reading.bracketed names).Answers (bracketed (C := C) names) where
  rule id context children := by
    cases children with
    | nil =>
        rw [bracketed]
        rfl
    | cons first rest =>
        rw [bracketed, bracketedRest_eq_join]
        rfl
  terminal leaf := by
    rw [bracketed]
    rfl
  error leaf := by
    rw [bracketed]
    rfl

end Node

/-- A rule counts itself and is one level deeper than its children, if it has any. -/
def Reading.census : Reading C Census where
  rule _ censuses :=
    let children := censuses.foldl Census.add {}
    { children with
      rules := children.rules + 1
      maxDepth := if censuses.isEmpty then 0 else children.maxDepth + 1 }
  terminal _ := { terminals := 1 }
  error _ := { errors := 1 }

namespace Node

theorem answers_census : Reading.census.Answers (census (C := C)) where
  rule id context children := by
    rw [census_rule]
    simp [Census.under, Reading.census]
  terminal leaf := by
    rw [census, Visitor.visit]
    rfl
  error leaf := by
    rw [census, Visitor.visit]
    rfl

end Node

end ParseTree
