import ParseTree.Node.Label
import ParseTree.Node.Order

/-!
# Reading the bracketed form

A bracketed form is a run of labels, blanks and brackets in which nothing says how long
anything is. As long as every label is one word, it ends where the first blank or bracket
stands after it, and the brackets pair up in one way. So the form gives away the labels of
a tree and how they are arranged, and nothing else: a leaf looks like a rule without
children.
-/

namespace ParseTree

variable {C D : Type}

namespace Text

/-- The characters that the bracketed form puts between labels. -/
def isDelimiter (c : Char) : Bool := c == ' ' || c == '(' || c == ')'

/-- The text is not empty and has no blank and no bracket in it. -/
def IsWord (text : String) : Prop :=
  text ≠ "" ∧ ∀ c ∈ text.toList, c ≠ ' ' ∧ c ≠ '(' ∧ c ≠ ')'

-- Through the list of characters: an instance for all characters there are would be found too.
instance (text : String) : Decidable (IsWord text) :=
  decidable_of_iff (text ≠ "" ∧ text.toList.all fun c => !isDelimiter c) (by
    simp [IsWord, isDelimiter, and_assoc])

/-- The text is at its end or goes on with a blank or a bracket. -/
def EndsWord (rest : List Char) : Prop := ∀ c ∈ rest.head?, isDelimiter c = true

theorem endsWord_nil : EndsWord [] := by simp [EndsWord]

theorem endsWord_cons {c : Char} (h : isDelimiter c = true) (rest : List Char) :
    EndsWord (c :: rest) := by
  simpa [EndsWord] using h

theorem IsWord.not_isDelimiter {text : String} (h : IsWord text) {c : Char}
    (hc : c ∈ text.toList) : isDelimiter c = false := by
  obtain ⟨hblank, hopen, hclose⟩ := h.2 c hc
  simp [isDelimiter, hblank, hopen, hclose]

theorem IsWord.exists_eq_cons {text : String} (h : IsWord text) :
    ∃ c rest, text.toList = c :: rest ∧ isDelimiter c = false := by
  have hne : text.toList ≠ [] := by
    intro hnil
    exact h.1 (String.toList_inj.mp hnil)
  obtain ⟨c, rest, heq⟩ := List.exists_cons_of_ne_nil hne
  exact ⟨c, rest, heq, h.not_isDelimiter (by simp [heq])⟩

theorem IsWord.takeWhile_append {text : String} (h : IsWord text) {rest : List Char}
    (hrest : EndsWord rest) :
    (text.toList ++ rest).takeWhile (fun c => !isDelimiter c) = text.toList := by
  have hend : rest.takeWhile (fun c => !isDelimiter c) = [] := by
    cases rest with
    | nil => rfl
    | cons c rest =>
        have hc : isDelimiter c = true := hrest c rfl
        simp [hc]
  have hword : ∀ c ∈ text.toList, (!isDelimiter c) = true := by
    intro c hc
    rw [h.not_isDelimiter hc]
    rfl
  rw [List.takeWhile_append_of_pos hword, hend, List.append_nil]

/-- A word can be told from what is after it. -/
theorem IsWord.append_inj {text text' : String} (h : IsWord text) (h' : IsWord text')
    {rest rest' : List Char} (hrest : EndsWord rest) (hrest' : EndsWord rest')
    (heq : text.toList ++ rest = text'.toList ++ rest') : text = text' ∧ rest = rest' := by
  have hword : text.toList = text'.toList := by
    rw [← h.takeWhile_append hrest, heq, h'.takeWhile_append hrest']
  rw [hword] at heq
  exact ⟨String.toList_inj.mp hword, List.append_cancel_left heq⟩

end Text

/-- Labels in the arrangement of a tree. -/
inductive LabelTree where
  | node (label : String) (children : List LabelTree)

namespace LabelTree

@[elab_as_elim, induction_eliminator]
theorem induct {motive : LabelTree → Prop}
    (node : ∀ label children, (∀ c ∈ children, motive c) → motive (.node label children))
    (t : LabelTree) : motive t :=
  @LabelTree.rec motive (fun trees => ∀ c ∈ trees, motive c)
    node (by simp) (by simp +contextual) t

mutual

/-- The characters of the bracketed form. -/
def written : LabelTree → List Char
  | .node label children =>
      match children with
      | [] => label.toList
      | first :: rest =>
          '(' :: (label.toList ++ (' ' :: (first.written ++ writtenRest rest)) ++ [')'])

/-- The remaining children, each after a blank. -/
def writtenRest : List LabelTree → List Char
  | [] => []
  | t :: rest => ' ' :: (t.written ++ writtenRest rest)

end

theorem written_of_ne_nil (label : String) {children : List LabelTree} (h : children ≠ []) :
    (node label children).written = '(' :: (label.toList ++ writtenRest children ++ [')']) := by
  cases children with
  | nil => exact absurd rfl h
  | cons first rest =>
      rw [written, writtenRest]

/-- Every label is a word. -/
inductive Legible : LabelTree → Prop
  | node {label : String} {children : List LabelTree} (word : Text.IsWord label)
      (below : ∀ t ∈ children, Legible t) : Legible (.node label children)

theorem endsWord_writtenRest (trees : List LabelTree) (rest : List Char) :
    Text.EndsWord (writtenRest trees ++ ')' :: rest) := by
  cases trees with
  | nil => exact Text.endsWord_cons rfl rest
  | cons t trees => exact Text.endsWord_cons rfl _

/-- The form of a tree without children does not begin with a bracket, so it is not the
form of a tree with children, whatever comes after either. -/
theorem written_nil_append_ne {label label' : String} (h : Text.IsWord label)
    {children : List LabelTree} (hne : children ≠ []) (rest rest' : List Char) :
    (node label []).written ++ rest ≠ (node label' children).written ++ rest' := by
  intro heq
  obtain ⟨c, chars, hlabel, hc⟩ := h.exists_eq_cons
  rw [written_of_ne_nil label' hne, written, hlabel, List.cons_append, List.cons_append,
    List.cons.injEq] at heq
  rw [heq.1] at hc
  cases hc

/-- Siblings up to a closing bracket can be told from what is after it, if each of them
can be told from what is after it. -/
theorem writtenRest_append_inj {trees trees' : List LabelTree}
    (ih : ∀ t ∈ trees, t.Legible → ∀ u : LabelTree, u.Legible → ∀ rest rest',
      Text.EndsWord rest → Text.EndsWord rest' →
      t.written ++ rest = u.written ++ rest' → t = u ∧ rest = rest')
    (h : ∀ t ∈ trees, t.Legible) (h' : ∀ t ∈ trees', t.Legible) {rest rest' : List Char}
    (heq : writtenRest trees ++ ')' :: rest = writtenRest trees' ++ ')' :: rest') :
    trees = trees' ∧ rest = rest' := by
  induction trees generalizing trees' with
  | nil =>
      cases trees' with
      | nil =>
          rw [writtenRest, List.nil_append, List.nil_append, List.cons.injEq] at heq
          exact ⟨rfl, heq.2⟩
      | cons u trees' =>
          rw [writtenRest, writtenRest, List.nil_append, List.cons_append, List.cons.injEq] at heq
          exact absurd heq.1 (by decide)
  | cons t trees ihTrees =>
      cases trees' with
      | nil =>
          rw [writtenRest, writtenRest, List.nil_append, List.cons_append, List.cons.injEq] at heq
          exact absurd heq.1 (by decide)
      | cons u trees' =>
          rw [writtenRest, writtenRest, List.cons_append, List.cons_append, List.cons.injEq,
            List.append_assoc, List.append_assoc] at heq
          obtain ⟨rfl, hmore⟩ := ih t (by simp) (h t (by simp)) u (h' u (by simp)) _ _
            (endsWord_writtenRest trees rest) (endsWord_writtenRest trees' rest') heq.2
          obtain ⟨rfl, hrest⟩ := ihTrees (fun v hv => ih v (List.mem_cons_of_mem t hv))
            (fun v hv => h v (List.mem_cons_of_mem t hv))
            (fun v hv => h' v (List.mem_cons_of_mem t hv)) hmore
          exact ⟨rfl, hrest⟩

/-- The form of a tree can be told from what is after it. -/
theorem written_append_inj {t u : LabelTree} (ht : t.Legible) (hu : u.Legible)
    {rest rest' : List Char} (hrest : Text.EndsWord rest) (hrest' : Text.EndsWord rest')
    (heq : t.written ++ rest = u.written ++ rest') : t = u ∧ rest = rest' := by
  induction t generalizing u rest rest' with
  | node label children ih =>
      obtain ⟨label', children'⟩ := u
      obtain ⟨hword, hbelow⟩ := ht
      obtain ⟨hword', hbelow'⟩ := hu
      by_cases hnil : children = []
      · subst hnil
        by_cases hnil' : children' = []
        · subst hnil'
          rw [written, written] at heq
          obtain ⟨rfl, hrest⟩ := hword.append_inj hword' hrest hrest' heq
          exact ⟨rfl, hrest⟩
        · exact absurd heq (written_nil_append_ne hword hnil' rest rest')
      · by_cases hnil' : children' = []
        · subst hnil'
          exact absurd heq.symm (written_nil_append_ne hword' hnil rest' rest)
        · rw [written_of_ne_nil label hnil, written_of_ne_nil label' hnil', List.cons_append,
            List.cons_append, List.cons.injEq] at heq
          simp only [List.append_assoc, List.singleton_append] at heq
          obtain ⟨rfl, hchildren⟩ := hword.append_inj hword' (endsWord_writtenRest children rest)
            (endsWord_writtenRest children' rest') heq.2
          obtain ⟨rfl, hrest⟩ := writtenRest_append_inj
            (fun t ht htl u hu r r' hr hr' => ih t ht htl hu hr hr') hbelow hbelow' hchildren
          exact ⟨rfl, hrest⟩

theorem written_inj {t u : LabelTree} (ht : t.Legible) (hu : u.Legible)
    (heq : t.written = u.written) : t = u := by
  apply (written_append_inj ht hu Text.endsWord_nil Text.endsWord_nil _).1
  rw [List.append_nil, List.append_nil, heq]

end LabelTree

namespace Node

section

variable [RuleContext C]

mutual

/-- The escaped labels of a node and of what is below it, a leaf being arranged like a
rule without children. -/
def labelTree (names : List String) : Node C → LabelTree
  | .rule _ context children =>
      .node (Text.escapeWhitespace (ruleLabel names context)) (labelTrees names children)
  | .terminal leaf => .node (Text.escapeWhitespace leaf.display) []
  | .error leaf => .node (Text.escapeWhitespace leaf.display) []

def labelTrees (names : List String) : List (Node C) → List LabelTree
  | [] => []
  | n :: rest => n.labelTree names :: labelTrees names rest

end

theorem labelTrees_eq_map (names : List String) (nodes : List (Node C)) :
    labelTrees names nodes = nodes.map (labelTree names) := by
  induction nodes with
  | nil => rfl
  | cons n rest ih => rw [labelTrees, ih, List.map_cons]

theorem labelTree_eq (names : List String) (n : Node C) :
    n.labelTree names = .node (Text.escapeWhitespace (n.label names))
      (n.children.map (labelTree names)) := by
  cases n with
  | rule id context children =>
      rw [labelTree, labelTrees_eq_map]
      rfl
  | terminal leaf =>
      rw [labelTree]
      rfl
  | error leaf =>
      rw [labelTree]
      rfl

theorem toList_bracketedRest {names : List String} {nodes : List (Node C)}
    (ih : ∀ n ∈ nodes, (n.bracketed names).toList = (n.labelTree names).written) :
    (bracketedRest names nodes).toList = LabelTree.writtenRest (labelTrees names nodes) := by
  induction nodes with
  | nil =>
      rw [bracketedRest, labelTrees, LabelTree.writtenRest, String.toList_empty]
  | cons n rest ihRest =>
      have hrest := ihRest fun m hm => ih m (List.mem_cons_of_mem n hm)
      rw [bracketedRest, labelTrees, LabelTree.writtenRest, String.toList_append,
        String.toList_append, ih n (by simp), hrest]
      rfl

/-- The bracketed form is that of the labels. -/
theorem toList_bracketed (names : List String) (n : Node C) :
    (n.bracketed names).toList = (n.labelTree names).written := by
  induction n with
  | rule id context children ih =>
      cases children with
      | nil => rw [bracketed, labelTree, labelTrees, LabelTree.written]
      | cons first rest =>
          have hrest := toList_bracketedRest fun n hn => ih n (List.mem_cons_of_mem first hn)
          rw [bracketed, labelTree, labelTrees, LabelTree.written]
          simp [ih first (by simp), hrest]
  | terminal leaf => rw [bracketed, labelTree, LabelTree.written]
  | error leaf => rw [bracketed, labelTree, LabelTree.written]

theorem legible_labelTree {names : List String} {n : Node C}
    (h : ∀ d ∈ n.preorder, Text.IsWord (Text.escapeWhitespace (d.label names))) :
    (n.labelTree names).Legible := by
  induction n using induct_children with
  | step n ih =>
      rw [labelTree_eq]
      refine .node (h n n.mem_preorder_self) fun t ht => ?_
      obtain ⟨c, hc, rfl⟩ := List.mem_map.mp ht
      apply ih c hc
      intro d hd
      exact h d (mem_preorder_iff.mpr (.inr ⟨c, hc, hd⟩))

end

/-- Two trees whose escaped labels are all words have the same bracketed form exactly if
they have the same labels in the same arrangement, leaves and rules without children being
taken for the same. -/
theorem bracketed_eq_iff_labelTree_eq [RuleContext C] [RuleContext D] {names : List String}
    {n : Node C} {m : Node D}
    (hn : ∀ d ∈ n.descendants, Text.IsWord (Text.escapeWhitespace (d.label names)))
    (hm : ∀ d ∈ m.descendants, Text.IsWord (Text.escapeWhitespace (d.label names))) :
    n.bracketed names = m.bracketed names ↔ n.labelTree names = m.labelTree names := by
  rw [descendants_eq_preorder] at hn hm
  constructor
  · intro heq
    apply LabelTree.written_inj (legible_labelTree hn) (legible_labelTree hm)
    rw [← toList_bracketed, heq, toList_bracketed]
  · intro heq
    apply String.toList_inj.mp
    rw [toList_bracketed, heq, toList_bracketed]

/-- A rule over an empty rule and a terminal with a tab in it, and the same over a terminal
and an error whose texts are the labels of these. -/
theorem labelTree_eq_of_bracketed_eq :
    let names := ["a", "b"]
    let n : Node Invocation := .rule 2 ⟨0, 3⟩
      [.rule 0 ⟨1, 0⟩ [], .terminal ⟨1, some { type := 1, text := "x\ty" }⟩]
    let m : Node Invocation := .rule 5 ⟨0, 3⟩
      [.terminal ⟨3, some { type := 1, text := "b" }⟩,
        .error ⟨4, some { type := 2, text := "x\\ty" }⟩]
    (∀ d ∈ n.descendants, Text.IsWord (Text.escapeWhitespace (d.label names))) ∧
      (∀ d ∈ m.descendants, Text.IsWord (Text.escapeWhitespace (d.label names))) ∧
      n.bracketed names = "(a:3 b x\\ty)" ∧ m.bracketed names = "(a:3 b x\\ty)" ∧
      n.labelTree names = m.labelTree names := by
  intro names n m
  have hn : ∀ d ∈ n.descendants, Text.IsWord (Text.escapeWhitespace (d.label names)) := by
    rw [descendants_eq_preorder]
    decide +kernel
  have hm : ∀ d ∈ m.descendants, Text.IsWord (Text.escapeWhitespace (d.label names)) := by
    rw [descendants_eq_preorder]
    decide +kernel
  have hform : n.bracketed names = "(a:3 b x\\ty)" := by decide +kernel
  have hform' : m.bracketed names = "(a:3 b x\\ty)" := by decide +kernel
  refine ⟨hn, hm, hform, hform', ?_⟩
  exact (bracketed_eq_iff_labelTree_eq hn hm).mp (hform.trans hform'.symm)

end Node

end ParseTree
