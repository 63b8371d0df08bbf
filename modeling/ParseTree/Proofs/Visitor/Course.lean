import ParseTree.Proofs.Node.Distinct
import ParseTree.Visitor.Probe

/-!
# The course of a visit

What a visitor does at one node may depend on everything that happened before, far away
in the tree, and changes what it does later. Its freedom is small all the same: at a
rule it skips the children or has them traversed, and before each child it goes on or
stops. A course is a list of calls that comes about by such choices. Every visit follows
a course, whatever the visitor keeps in its state, and what can be said about the order
of visits and the number of questions is said of courses.
-/

namespace ParseTree

variable {C σ α : Type}

/-- A call that a visit makes on its visitor. -/
inductive VisitCall (C : Type) where
  /-- The method for the kind of the node. -/
  | node (n : Node C)
  /-- The traversal of the children of a rule. -/
  | children (r : RuleNode C)
  /-- The question whether to go on with the next child of a rule. -/
  | question (r : RuleNode C) (answer : Bool)

namespace VisitCall

def visited? : VisitCall C → Option (Node C)
  | .node n => some n
  | .children _ => none
  | .question _ _ => none

/-- The nodes that were visited, in the order of the calls. -/
def visited (calls : List (VisitCall C)) : List (Node C) := calls.filterMap visited?

def answer? (id : NodeId) : VisitCall C → Option Bool
  | .question r answer => if r.id = id then some answer else none
  | .node _ => none
  | .children _ => none

/-- The answers to the questions about the children of a rule. -/
def answers (id : NodeId) (calls : List (VisitCall C)) : List Bool := calls.filterMap (answer? id)

/-- The node that the call is about. -/
def subject : VisitCall C → Node C
  | .node n => n
  | .children r => r.node
  | .question r _ => r.node

@[simp] theorem visited_nil : visited ([] : List (VisitCall C)) = [] := rfl

@[simp] theorem visited_node (n : Node C) (calls : List (VisitCall C)) :
    visited (.node n :: calls) = n :: visited calls := rfl

@[simp] theorem visited_children (r : RuleNode C) (calls : List (VisitCall C)) :
    visited (.children r :: calls) = visited calls := rfl

@[simp] theorem visited_question (r : RuleNode C) (answer : Bool) (calls : List (VisitCall C)) :
    visited (.question r answer :: calls) = visited calls := rfl

@[simp] theorem visited_append (calls more : List (VisitCall C)) :
    visited (calls ++ more) = visited calls ++ visited more := List.filterMap_append

theorem mem_visited {n : Node C} {calls : List (VisitCall C)} (h : n ∈ visited calls) :
    ∃ call ∈ calls, call.subject = n := by
  obtain ⟨call, hcall, hn⟩ := List.mem_filterMap.mp h
  cases call with
  | node m => exact ⟨_, hcall, Option.some.inj hn⟩
  | children r => cases hn
  | question r answer => cases hn

@[simp] theorem answers_nil (id : NodeId) : answers id ([] : List (VisitCall C)) = [] := rfl

@[simp] theorem answers_append (id : NodeId) (calls more : List (VisitCall C)) :
    answers id (calls ++ more) = answers id calls ++ answers id more := List.filterMap_append

@[simp] theorem answers_question (r : RuleNode C) (answer : Bool) (calls : List (VisitCall C)) :
    answers r.id (.question r answer :: calls) = answer :: answers r.id calls :=
  List.filterMap_cons_some (by simp [answer?])

/-- Calls about other nodes answer no question about a rule. -/
theorem answers_eq_nil {id : NodeId} {calls : List (VisitCall C)}
    (h : ∀ call ∈ calls, call.subject.id ≠ id) : answers id calls = [] := by
  apply List.filterMap_eq_nil_iff.mpr
  intro call hcall
  cases call with
  | node n => rfl
  | children r => rfl
  | question r answer => exact if_neg (h _ hcall)

end VisitCall

open VisitCall

namespace Visitor

/-- How a visitor treats rules that either skips the children of a rule, with a result
of its own, or makes its result from theirs. All its methods may read and write the
state. -/
structure Pruning (v : Visitor C σ α) where
  arrive : RuleNode C → StateM σ (Option α)
  depart : RuleNode C → α → StateM σ α
  rule_eq : ∀ r children, v.rule r children = do
    match ← arrive r with
    | some result => pure result
    | none => depart r (← children)

variable {v : Visitor C σ α} {r : RuleNode C} {s s₁ s₂ s₃ : σ}

-- What a visit comes to when the outcomes of its parts are known.
theorem Pruning.run_visit_of_skipped (p : v.Pruning) {result : α}
    (harrive : (p.arrive r).run s = (some result, s₁)) :
    (v.visit r.node).run s = (result, s₁) := by
  rw [RuleNode.node, visit, p.rule_eq, StateT.run_bind, harrive]
  rfl

theorem Pruning.run_visit_of_traversed (p : v.Pruning) {seed result : α}
    (harrive : (p.arrive r).run s = (none, s₁)) (hseed : v.defaultResult.run s₁ = (seed, s₂))
    (hchildren : (v.visitChildren r r.children seed).run s₂ = (result, s₃)) :
    (v.visit r.node).run s = (p.depart r result).run s₃ := by
  rw [RuleNode.node, visit, p.rule_eq, StateT.run_bind, harrive]
  change ((v.defaultResult >>= v.visitChildren r r.children) >>= p.depart r).run s₁ = _
  rw [StateT.run_bind, StateT.run_bind, hseed]
  change StateT.run _ s₂ >>= _ = _
  rw [hchildren]
  rfl

theorem run_visitChildren_of_stopped {n : Node C} {rest : List (Node C)} {result : α}
    (hgo : (v.continues r result).run s = (false, s₁)) :
    (v.visitChildren r (n :: rest) result).run s = (result, s₁) := by
  rw [visitChildren, StateT.run_bind, hgo]
  rfl

theorem run_visitChildren_of_continued {n : Node C} {rest : List (Node C)} {result next all : α}
    (hgo : (v.continues r result).run s = (true, s₁)) (hvisit : (v.visit n).run s₁ = (next, s₂))
    (haggregate : (v.aggregate result next).run s₂ = (all, s₃)) :
    (v.visitChildren r (n :: rest) result).run s = (v.visitChildren r rest all).run s₃ := by
  rw [visitChildren, StateT.run_bind, hgo]
  change ((v.visit n) >>= fun next => v.aggregate result next >>= v.visitChildren r rest).run s₁ = _
  rw [StateT.run_bind, hvisit]
  change (v.aggregate result next >>= v.visitChildren r rest).run s₂ = _
  rw [StateT.run_bind, haggregate]
  rfl

/-- Work of a visitor, with the calls put on record that its outcome tells of. -/
def noting {β : Type} (calls : β → List (VisitCall C)) (work : StateM σ β) :
    StateM (σ × List (VisitCall C)) β := fun (s, record) =>
  let (b, s') := work.run s
  (b, s', record ++ calls b)

theorem run_noting {β : Type} {work : StateM σ β} {b : β} (calls : β → List (VisitCall C))
    (record : List (VisitCall C)) (h : work.run s = (b, s₁)) :
    (noting calls work).run (s, record) = (b, s₁, record ++ calls b) := by
  change ((work.run s).1, (work.run s).2, record ++ calls (work.run s).1) = _
  rw [h]

/-- The calls on the visitor when it comes to a rule. -/
def arrivalCalls (r : RuleNode C) : Option α → List (VisitCall C)
  | some _ => [.node r.node]
  | none => [.node r.node, .children r]

namespace Pruning

variable (p : v.Pruning)

/-- The visitor does as before, and its calls are put on record. -/
def recorded : Visitor C (σ × List (VisitCall C)) α where
  defaultResult := noting (fun _ => []) v.defaultResult
  rule r children := do
    match ← noting (arrivalCalls r) (p.arrive r) with
    | some result => pure result
    | none => noting (fun _ => []) (p.depart r (← children))
  terminal leaf := noting (fun _ => [.node (.terminal leaf)]) (v.terminal leaf)
  error leaf := noting (fun _ => [.node (.error leaf)]) (v.error leaf)
  aggregate result next := noting (fun _ => []) (v.aggregate result next)
  continues r result := noting (fun answer => [.question r answer]) (v.continues r result)

/-- A visitor on record skips what it skipped before. -/
def ofRecorded : p.recorded.Pruning where
  arrive r := noting (arrivalCalls r) (p.arrive r)
  depart r result := noting (fun _ => []) (p.depart r result)
  rule_eq _ _ := rfl

end Pruning

end Visitor

mutual

/-- The calls that a visit of a node can make, one after the other. Nothing comes after a
leaf, nor after a rule whose children are skipped. -/
inductive Course : Node C → List (VisitCall C) → Prop
  | alone (n : Node C) : Course n [.node n]
  | traversed (r : RuleNode C) {calls : List (VisitCall C)} (h : Courses r r.children calls) :
      Course r.node (.node r.node :: .children r :: calls)

/-- The calls that a visit of the remaining children of a rule can make. -/
inductive Courses : RuleNode C → List (Node C) → List (VisitCall C) → Prop
  | finished (r : RuleNode C) : Courses r [] []
  | stopped (r : RuleNode C) (n : Node C) (rest : List (Node C)) :
      Courses r (n :: rest) [.question r false]
  | continued (r : RuleNode C) {n : Node C} {rest : List (Node C)}
      {calls more : List (VisitCall C)} (h : Course n calls) (h' : Courses r rest more) :
      Courses r (n :: rest) (.question r true :: (calls ++ more))

end

/-- Properties of the courses of nodes and of siblings hold if they are kept by every
choice. -/
theorem Course.induct {P : Node C → List (VisitCall C) → Prop}
    {Q : RuleNode C → List (Node C) → List (VisitCall C) → Prop}
    (alone : ∀ n, P n [.node n])
    (traversed : ∀ r calls, Courses r r.children calls → Q r r.children calls →
      P r.node (.node r.node :: .children r :: calls))
    (finished : ∀ r, Q r [] [])
    (stopped : ∀ r n rest, Q r (n :: rest) [.question r false])
    (continued : ∀ r n rest calls more, Course n calls → Courses r rest more →
      P n calls → Q r rest more → Q r (n :: rest) (.question r true :: (calls ++ more))) :
    (∀ n calls, Course n calls → P n calls) ∧
      ∀ r nodes calls, Courses r nodes calls → Q r nodes calls := by
  constructor
  · intro n calls h
    exact @Course.rec C (fun n calls _ => P n calls) (fun r nodes calls _ => Q r nodes calls)
      alone (fun r _ => traversed r _) finished stopped
      (fun r _ _ _ _ => continued r _ _ _ _) n calls h
  · intro r nodes calls h
    exact @Courses.rec C (fun n calls _ => P n calls) (fun r nodes calls _ => Q r nodes calls)
      alone (fun r _ => traversed r _) finished stopped
      (fun r _ _ _ _ => continued r _ _ _ _) r nodes calls h

namespace Visitor.Pruning

variable {v : Visitor C σ α} (p : v.Pruning)

/-- A visit of the node ends as it would without a record, and what it puts on record is
a course. -/
def Follows (n : Node C) : Prop :=
  ∀ {s s' : σ} {result : α}, (v.visit n).run s = (result, s') →
    ∀ record : List (VisitCall C), ∃ calls, Course n calls ∧
      (p.recorded.visit n).run (s, record) = (result, s', record ++ calls)

theorem follows_children (r : RuleNode C) {nodes : List (Node C)} (ih : ∀ n ∈ nodes, p.Follows n)
    {seed result : α} {s s' : σ} (hrun : (v.visitChildren r nodes seed).run s = (result, s'))
    (record : List (VisitCall C)) :
    ∃ calls, Courses r nodes calls ∧
      (p.recorded.visitChildren r nodes seed).run (s, record) = (result, s', record ++ calls) := by
  induction nodes generalizing seed s record with
  | nil =>
      cases hrun
      refine ⟨[], .finished r, ?_⟩
      rw [List.append_nil]
      rfl
  | cons n rest ihRest =>
      rcases hgo : (v.continues r seed).run s with ⟨go, s₁⟩
      -- On record the visitor reads the same state, so it makes the same choice.
      have hgo' := run_noting (fun answer => [.question r answer]) record hgo
      cases go with
      | false =>
          rw [run_visitChildren_of_stopped hgo] at hrun
          cases hrun
          exact ⟨_, .stopped r n rest, run_visitChildren_of_stopped hgo'⟩
      | true =>
          rcases hvisit : (v.visit n).run s₁ with ⟨next, s₂⟩
          rcases haggregate : (v.aggregate seed next).run s₂ with ⟨all, s₃⟩
          obtain ⟨calls, hcourse, hvisit'⟩ := ih n (by simp) hvisit (record ++ [.question r true])
          have haggregate' := run_noting (fun _ => [])
            (record ++ [.question r true] ++ calls) haggregate
          rw [run_visitChildren_of_continued hgo hvisit haggregate] at hrun
          obtain ⟨more, hcourses, hrest⟩ :=
            ihRest (fun m hm => ih m (List.mem_cons_of_mem n hm)) hrun _
          refine ⟨_, .continued r hcourse hcourses, ?_⟩
          rw [run_visitChildren_of_continued hgo' hvisit' haggregate', hrest]
          simp

theorem follows (n : Node C) : p.Follows n := by
  induction n with
  | rule id context children ih =>
      intro s s' result hrun record
      let r : RuleNode C := ⟨id, context, children⟩
      rcases harrive : (p.arrive r).run s with ⟨found, s₁⟩
      have harrive' := run_noting (arrivalCalls r) record harrive
      cases found with
      | some found =>
          have hskipped := p.run_visit_of_skipped harrive
          rw [show (v.visit r.node).run s = (result, s') from hrun] at hskipped
          cases hskipped
          exact ⟨_, .alone r.node, p.ofRecorded.run_visit_of_skipped harrive'⟩
      | none =>
          rcases hseed : v.defaultResult.run s₁ with ⟨seed, s₂⟩
          rcases hchildren : (v.visitChildren r children seed).run s₂ with ⟨below, s₃⟩
          have htraversed := p.run_visit_of_traversed harrive hseed hchildren
          rw [show (v.visit r.node).run s = (result, s') from hrun] at htraversed
          have hseed' := run_noting (fun _ => []) (record ++ arrivalCalls r (none : Option α)) hseed
          rw [List.append_nil] at hseed'
          obtain ⟨calls, hcourses, hchildren'⟩ := p.follows_children r ih hchildren _
          refine ⟨_, .traversed r hcourses, ?_⟩
          have hdepart' := run_noting (fun _ => [])
            (record ++ arrivalCalls r (none : Option α) ++ calls) htraversed.symm
          calc
            (p.recorded.visit r.node).run (s, record) = _ :=
              p.ofRecorded.run_visit_of_traversed harrive' hseed' hchildren'
            _ = _ := hdepart'
            _ = _ := by simp [arrivalCalls]
  | terminal leaf =>
      intro s s' result hrun record
      exact ⟨_, .alone _, run_noting (fun _ => [.node (.terminal leaf)]) record hrun⟩
  | error leaf =>
      intro s s' result hrun record
      exact ⟨_, .alone _, run_noting (fun _ => [.node (.error leaf)]) record hrun⟩

end Visitor.Pruning

end ParseTree
