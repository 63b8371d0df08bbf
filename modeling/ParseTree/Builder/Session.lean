import Std.Data.HashMap
import ParseTree.Builder.Basic

/-!
# Several builders in one forest

A session is a forest together with builders that are known by a number. A
number that has not been used yet, or whose builder has finished, stands for a
fresh builder. Every step is an operation of one builder or of the forest
itself, and steps may come in any order.
-/

namespace ParseTree

structure Session (C : Type) where
  forest : Forest C := {}
  builders : Std.HashMap Nat (Builder C) := {}

inductive BuilderStep (C : Type) where
  | startRule (context : C)
  | token (symbol : Token)
  | missingToken
  | errorToken (symbol : Option Token)
  | attach (subtree : Spanned C)
  | removeLastChild
  | finishRule
  | finish

inductive ForestStep (C : Type) where
  | terminal (symbol : Option Token)
  | error (symbol : Option Token)
  | rule (context : C) (children : List (Spanned C))
  | looseRule (context : C) (children : List (Spanned C))
  | setParent (child parent : NodeId)

inductive SessionStep (C : Type) where
  | builder (number : Nat) (step : BuilderStep C)
  | forest (step : ForestStep C)

/-- What a step comes to: the node it yields, if any, or an error, and what the
builder reported meanwhile. -/
structure SessionAnswer (C : Type) where
  outcome : Except BuildError (Option (Spanned C))
  report : Array BuildEvent := #[]

def BuilderStep.run {C : Type} [RuleContext C] : BuilderStep C → AssemblyM C (Option (Spanned C))
  | .startRule context => do Assembly.startRule context; return none
  | .token symbol => some <$> Assembly.token symbol
  | .missingToken => some <$> Assembly.missingToken
  | .errorToken symbol => some <$> Assembly.errorToken symbol
  | .attach subtree => do Assembly.attach subtree; return none
  | .removeLastChild => Assembly.removeLastChild
  | .finishRule => some <$> Assembly.finishRule
  | .finish => some <$> Assembly.finish

/-- Finishing uses the builder up, whether or not it succeeds. -/
def BuilderStep.endsBuilder {C : Type} : BuilderStep C → Bool
  | .finish => true
  | _ => false

def ForestStep.run {C : Type} : ForestStep C → ForestM C (Option (Spanned C))
  | .terminal symbol => some <$> Forest.terminal symbol
  | .error symbol => some <$> Forest.error symbol
  | .rule context children => some <$> Forest.rule context children
  | .looseRule context children => some <$> Forest.looseRule context children
  | .setParent child parent => do Forest.setParent child parent; return none

namespace Session

variable {C : Type}

def builder (s : Session C) (number : Nat) : Builder C := s.builders.getD number {}

/-- Perform one step. -/
def step [RuleContext C] : SessionStep C → StateM (Session C) (SessionAnswer C)
  | .builder number step => fun ⟨forest, builders⟩ =>
      let builder := builders.getD number {}
      let keep (b : Builder C) : Std.HashMap Nat (Builder C) :=
        if step.endsBuilder then builders.erase number else builders.insert number b
      match step.run { forest, builder } with
      | .ok node ⟨forest, b, report⟩ => (⟨.ok node, report⟩, ⟨forest, keep b⟩)
      | .error e ⟨forest, b, report⟩ => (⟨.error e, report⟩, ⟨forest, keep b⟩)
  | .forest step => fun ⟨forest, builders⟩ =>
      match step.run forest with
      | .ok node forest => (⟨.ok node, #[]⟩, ⟨forest, builders⟩)
      | .error e forest => (⟨.error e, #[]⟩, ⟨forest, builders⟩)

end Session

end ParseTree
