import ParseTree.Node.Label
import ParseTree.Settings.Basic
import ParseTree.Walk.Event

/-!
# The outline of a tree

An outline has a line for every event of a walk, indented by the number of rules
around the node. A rule's lines give its label and, if the settings want it, its
span; a leaf's line gives its display and the name of its token type, if that has
one.
-/

namespace ParseTree

/-- What a line says of a rule: its label, and its span if the settings want it. -/
def RuleNode.words {C : Type} [RuleContext C] (settings : Settings) (names : List String)
    (r : RuleNode C) : List String :=
  ruleLabel names r.context :: if settings.showSpans then [r.node.span.render] else []

/-- The name that the settings give to the type of the leaf's token. -/
def Leaf.typeName? (settings : Settings) (leaf : Leaf) : Option String :=
  leaf.symbol.bind fun token => settings.tokenName? token.type

/-- What a line says of a leaf: its escaped display, and in parentheses the name of its
token's type if that has one. -/
def Leaf.words (settings : Settings) (leaf : Leaf) : List String :=
  Text.escapeWhitespace leaf.display ::
    ((leaf.typeName? settings).map fun name => "(" ++ name ++ ")").toList

structure Outline where
  depth : Nat := 0
  text : String := ""

namespace Outline

variable {C : Type} [RuleContext C]

def line (settings : Settings) (o : Outline) (text : String) : Outline :=
  { o with
    text := o.text ++ "".pushn ' ' (o.depth * settings.indent.toNat) ++ text ++ "\n" }

def ruleLine (settings : Settings) (names : List String) (event : String) (r : RuleNode C) :
    String :=
  let line := event ++ " " ++ ruleLabel names r.context
  if settings.showSpans then line ++ " " ++ r.node.span.render else line

def leafLine (settings : Settings) (event : String) (leaf : Leaf) : String :=
  let line := event ++ " " ++ Text.escapeWhitespace leaf.display
  match leaf.symbol.bind fun token => settings.tokenName? token.type with
  | some name => line ++ " (" ++ name ++ ")"
  | none => line

/-- Writes a line for every event. -/
def writer (settings : Settings) (names : List String) : Listener C Outline where
  enterRule r o :=
    let o := o.line settings (ruleLine settings names "enter" r)
    { o with depth := o.depth + 1 }
  exitRule r o :=
    let o := { o with depth := o.depth - 1 }
    o.line settings (ruleLine settings names "exit" r)
  terminal leaf o := o.line settings (leafLine settings "terminal" leaf)
  error leaf o := o.line settings (leafLine settings "error" leaf)

theorem ruleLine_eq {settings : Settings} {names : List String} (event : String)
    (r : RuleNode C) :
    ruleLine settings names event r = " ".intercalate (event :: r.words settings names) := by
  unfold ruleLine RuleNode.words
  cases settings.showSpans with
  | true => simp [String.append_assoc]
  | false => simp

omit [RuleContext C] in
theorem leafLine_eq {settings : Settings} (event : String) (leaf : Leaf) :
    leafLine settings event leaf = " ".intercalate (event :: leaf.words settings) := by
  unfold leafLine Leaf.words Leaf.typeName?
  cases leaf.symbol.bind fun token => settings.tokenName? token.type with
  | some name =>
      have hopen : " (" ++ (name ++ ")") = " " ++ ("(" ++ (name ++ ")")) := by
        change " " ++ "(" ++ (name ++ ")") = _
        exact String.append_assoc
      simp [hopen, String.append_assoc]
  | none => simp

end Outline

def Node.outline {C : Type} [RuleContext C] (settings : Settings) (names : List String)
    (n : Node C) : String :=
  (n.walk (Outline.writer settings names) {} {}).text

end ParseTree
