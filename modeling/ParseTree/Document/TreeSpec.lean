import ParseTree.Json.Value
import ParseTree.Word

/-!
# Described trees

A document describes its tree node by node: a rule by name or number with an
alternative and children, a token by its position in the document's token list, a
missing token, or an error with or without a token.

A JSON value describes a node in the first of these ways that fits it. A way fits
if the members it knows occur at most once and have the right types, its own
member is there, and all children describe nodes. Other members do not matter.
-/

namespace ParseTree

open Json

/-- A rule given by its index, or by a text that names it. -/
inductive RuleRef where
  | index (value : UInt64)
  | name (text : String)
deriving DecidableEq, Repr

inductive TreeSpec where
  | rule (ref : RuleRef) (alt : UInt64) (children : List TreeSpec)
  | token (position : UInt64)
  /-- Only `true` can be built. -/
  | missing (flag : Bool)
  | error (position : Option UInt64)

namespace RuleRef

/-- The index of the rule that a text names: its first position among the names,
or else the number that the text spells. -/
def resolveName? (names : List String) (text : String) : Option Nat :=
  (names.idxOf? text).or ((Decimal.unsigned? text : Option UInt64).map UInt64.toNat)

def ofValue? : Value → Option RuleRef
  | .atom (.int value) => (Word.ofInt? value).map .index
  | .atom (.string text) => some (.name text)
  | _ => none

end RuleRef

namespace TreeSpec

/-- The only value of a name, which must be there and be decodable. -/
def member? {β : Type} (decode : Value → Option β) (name : String)
    (members : List (String × Value)) : Option β :=
  (onlyValue? members name).bind (required decode)

/-- The only value of a name or a default. -/
def memberOr? {β : Type} (absent : β) (decode : Value → Option β) (name : String)
    (members : List (String × Value)) : Option β :=
  (onlyValue? members name).bind (optional absent decode)

/-- A position, or no position for `null`. -/
def position? : Value → Option (Option UInt64)
  | .atom .null => some none
  | value => (Value.word? value).map some

/-- The children that the members describe, given what each member named
`children` comes to. -/
def onlyChildren? : List (Option (List TreeSpec)) → Option (List TreeSpec)
  | [] => some []
  | [children] => children
  | _ => none

/-- A rule, given what its children come to. -/
def rule? (members : List (String × Value)) (children : Option (List TreeSpec)) :
    Option TreeSpec := do
  return .rule (← member? RuleRef.ofValue? "rule" members)
    (← memberOr? 0 Value.word? "alt" members) (← children)

def leaf? (members : List (String × Value)) : Option TreeSpec :=
  ((member? Value.word? "token" members).map .token).orElse fun _ =>
    ((member? Value.bool? "missing" members).map .missing).orElse fun _ =>
      (member? position? "error" members).map .error

mutual

def ofValue? : Value → Option TreeSpec
  | .object members =>
      (rule? members (onlyChildren? (childrenOf members))).orElse fun _ => leaf? members
  | _ => none

def ofValues? : List Value → Option (List TreeSpec)
  | [] => some []
  | value :: rest => do
      let spec ← ofValue? value
      let specs ← ofValues? rest
      return spec :: specs

/-- What the members named `children` come to. -/
def childrenOf : List (String × Value) → List (Option (List TreeSpec))
  | [] => []
  | (name, value) :: rest =>
      if name = "children" then
        (match value with
          | .array items => ofValues? items
          | _ => none) :: childrenOf rest
      else childrenOf rest

end

end TreeSpec

end ParseTree
