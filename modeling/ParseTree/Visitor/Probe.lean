import ParseTree.Visitor.Basic

/-!
# Visitors for looking at a traversal

A probe records every call that a traversal makes on it. Its results are lists of
strings: what the leaves display, folded together as its settings say.
-/

namespace ParseTree

inductive ProbeCall where
  | rule (id : NodeId)
  | terminal (id : NodeId)
  | error (id : NodeId)
  | defaultResult
  /-- The lengths of the result so far and of the next one. -/
  | aggregate (current next : Nat)
  /-- The rule, the length of the result so far, and the answer. -/
  | continues (id : NodeId) (current : Nat) (answer : Bool)
deriving DecidableEq, Repr

namespace Probe

/-- How two results are folded. -/
inductive Aggregation where
  | concat
  /-- The first that is not empty. -/
  | first
  | last
deriving DecidableEq, Repr

/-- When the children of a rule are not visited any further. -/
inductive Stop where
  | never
  | always
  /-- At a result of so many strings. -/
  | length (count : Nat)
  /-- After so many questions. -/
  | asked (count : Nat)
  /-- In the given rule. -/
  | inRule (index : UInt64)
deriving DecidableEq, Repr

structure Record where
  calls : Array ProbeCall := #[]
  asked : Nat := 0

end Probe

structure Probe where
  /-- A rule whose children are skipped. -/
  pruned : Option UInt64 := none
  seed : List String := []
  aggregation : Probe.Aggregation := .last
  stop : Probe.Stop := .never

namespace Probe

variable {C : Type} [RuleContext C]

def note (call : ProbeCall) : StateM Record Unit :=
  modify fun record => { record with calls := record.calls.push call }

def Aggregation.fold : Aggregation → List String → List String → List String
  | .concat, current, next => current ++ next
  | .first, current, next => if current.isEmpty then next else current
  | .last, _, next => next

/-- Whether to go on, given the question's number. -/
def Stop.goesOn (stop : Stop) (rule : UInt64) (current : List String) (question : Nat) : Bool :=
  match stop with
  | .never => true
  | .always => false
  | .length count => current.length < count
  | .asked count => question ≤ count
  | .inRule index => rule != index

def visitor (p : Probe) : Visitor C Record (List String) where
  defaultResult := do
    note .defaultResult
    return p.seed
  rule r children := do
    note (.rule r.id)
    if p.pruned = some r.ruleIndex then
      return ["pruned " ++ Decimal.render r.ruleIndex]
    children
  terminal leaf := do
    note (.terminal leaf.id)
    return [leaf.display]
  error leaf := do
    note (.error leaf.id)
    return ["!" ++ leaf.display]
  aggregate current next := do
    note (.aggregate current.length next.length)
    return p.aggregation.fold current next
  continues r current := do
    modify fun record => { record with asked := record.asked + 1 }
    let answer := p.stop.goesOn r.ruleIndex current (← get).asked
    note (.continues r.id current.length answer)
    return answer

end Probe

end ParseTree
