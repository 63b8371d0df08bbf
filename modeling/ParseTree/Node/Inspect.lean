import ParseTree.Node.Basic
import ParseTree.Text.Classes

/-!
# Nodes laid open

`inspect` writes down the record a node consists of, field by field, for a
programmer. A record is shown with the names of its fields, and a text between
double quotes so that every character of it can be told: quotes and backslashes are
escaped, the common control characters have a letter, and other hidden characters
are given by their code point in braces. A rule shows how many children it has, not
the children themselves, and every node tells whether it is attached to a parent.
-/

namespace ParseTree

namespace Text

/-- Lower-case hexadecimal digits without leading zeros. -/
def hexDigits (n : Nat) : List Char := Nat.toDigits 16 n

def quotedChar (c : Char) : List Char :=
  match c with
  | '\x00' => ['\\', '0']
  | '\t' => ['\\', 't']
  | '\n' => ['\\', 'n']
  | '\r' => ['\\', 'r']
  | '\x22' => ['\\', '\x22']
  | '\\' => ['\\', '\\']
  | c => if isHidden c then ['\\', 'u', '\x7b'] ++ hexDigits c.toNat ++ ['\x7d'] else [c]

def quoted (text : String) : String :=
  String.ofList (['\x22'] ++ text.toList.flatMap quotedChar ++ ['\x22'])

/-- A record by its name and its fields, which are shown already. -/
def record (name : String) (fields : List (String × String)) : String :=
  let shown := fields.map fun (field, value) => field ++ ": " ++ value
  name ++ " \x7b " ++ ", ".intercalate shown ++ " \x7d"

def showBool (b : Bool) : String := if b then "true" else "false"

end Text

open Text (record showBool)

def Span.inspect (s : Span) : String :=
  record "Interval" [("start", Decimal.render s.start), ("stop", Decimal.render s.stop)]

def Invocation.inspect (i : Invocation) : String :=
  record "BasicContext"
    [("rule_index", Decimal.render i.ruleIndex), ("alt_number", Decimal.render i.altNumber)]

def Token.inspect (t : Token) : String :=
  record "CommonToken"
    [("token_type", Decimal.render t.type), ("token_index", Decimal.render t.index),
      ("text", Text.quoted t.text), ("line", Decimal.render t.line),
      ("column", Decimal.render t.column)]

def Leaf.inspect (l : Leaf) (attached : Bool) : String :=
  let symbol := match l.symbol with
    | none => "None"
    | some token => "Some(" ++ token.inspect ++ ")"
  record "TerminalNode" [("symbol", symbol), ("attached", showBool attached)]

/-- The record of a node, given how to show a context and whether it has a parent. -/
def Spanned.inspect {C : Type} (context : C → String) (attached : Bool) (s : Spanned C) : String :=
  match s.node with
  | .rule _ c children =>
      "Rule(" ++ record "RuleNode"
        [("context", context c), ("interval", s.span.inspect),
          ("child_count", children.length.repr), ("attached", showBool attached)] ++ ")"
  | .terminal leaf => "Terminal(" ++ leaf.inspect attached ++ ")"
  | .error leaf => "Error(ErrorNode(" ++ leaf.inspect attached ++ "))"

end ParseTree
