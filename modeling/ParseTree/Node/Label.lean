import ParseTree.Node.Basic
import ParseTree.Text.Escape

/-!
# Labels and the bracketed form

A rule is labelled by its name and alternative, a leaf by the display of its
token. The bracketed form writes a rule with children as `(label child child)`,
any other node as its label alone, with white space in labels escaped.
-/

namespace ParseTree

/-- The name of a rule, or its index where the list of names ends before it. -/
def ruleName (names : List String) (index : UInt64) : String :=
  names[index.toNat]?.getD (Decimal.render index)

/-- The rule's name, followed by `:` and the alternative unless that is 0. -/
def ruleLabel {C : Type} [RuleContext C] (names : List String) (context : C) : String :=
  let name := ruleName names (RuleContext.ruleIndex context)
  let alt := RuleContext.altNumber context
  if alt = 0 then name else name ++ ":" ++ Decimal.render alt

theorem ruleLabel_ruleIndex (names : List String) (i : UInt64) :
    ruleLabel names ({ ruleIndex := i } : Invocation) = ruleName names i := by
  rw [ruleLabel]
  exact if_pos rfl

theorem getElem?_ruleName {names : List String} {i : UInt64} (h : i.toNat < names.length) :
    names[i.toNat]? = some (ruleName names i) := by
  rw [ruleName, List.getElem?_eq_getElem h, Option.getD_some]

theorem ruleName_of_length_le {names : List String} {i : UInt64} (h : names.length ≤ i.toNat) :
    ruleName names i = Decimal.render i := by
  rw [ruleName, List.getElem?_eq_none h, Option.getD_none]

namespace Node

variable {C : Type} [RuleContext C]

def label (names : List String) : Node C → String
  | .rule _ context _ => ruleLabel names context
  | .terminal leaf => leaf.display
  | .error leaf => leaf.display

mutual

def bracketed (names : List String) : Node C → String
  | .rule _ context children =>
      let label := Text.escapeWhitespace (ruleLabel names context)
      match children with
      | [] => label
      | first :: rest =>
          "(" ++ label ++ " " ++ bracketed names first ++ bracketedRest names rest ++ ")"
  | .terminal leaf => Text.escapeWhitespace leaf.display
  | .error leaf => Text.escapeWhitespace leaf.display

/-- The remaining children, each after a blank. -/
def bracketedRest (names : List String) : List (Node C) → String
  | [] => ""
  | n :: rest => " " ++ bracketed names n ++ bracketedRest names rest

end

end Node

end ParseTree
