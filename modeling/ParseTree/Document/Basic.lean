import ParseTree.Builder.Basic
import ParseTree.Document.TreeSpec
import ParseTree.Record
import ParseTree.Settings.Basic

/-!
# Documents

A document holds rule names, a list of tokens, and a tree described over them.
`build` makes that tree with a builder, from left to right, and stops at the
first node that cannot be made.
-/

namespace ParseTree

open Json

structure Document where
  ruleNames : List String := []
  tokens : Array Token := #[]
  tree : TreeSpec

inductive DocumentError where
  /-- The text is not a document. -/
  | invalid
  | rootNotRule
  | missingNotTrue
  | unknownRule (name : String)
  | tokenOutOfRange (position count : Nat)
  | notBuilt (cause : BuildError)
deriving DecidableEq, Repr

def DocumentError.message : DocumentError → String
  | .invalid => "Document error: Invalid document"
  | .rootNotRule => "Document error: The root of a tree must be a rule"
  | .missingNotTrue => "Document error: \"missing\" must be true"
  | .unknownRule name => "Unknown rule '" ++ name ++ "'"
  | .tokenOutOfRange position count =>
      "Token " ++ position.repr ++ " out of range (" ++ count.repr ++ " tokens)"
  | .notBuilt cause => "Tree error: " ++ cause.message

/-- A tree that has been built, with the forest that knows its parents and what
the builder reported. -/
structure BuiltTree where
  root : Node Invocation
  forest : Forest Invocation
  report : Array BuildEvent

namespace Document

/-- An index may be `null`, which is the same as leaving it out. -/
def tokenIndex? (position : Int64) : Value → Option Int64
  | .atom .null => some position
  | value => value.word?

/-- A token without an index has its position in the list. -/
def tokensFrom? (position : Nat) : List Written → Option (List Token)
  | [] => some []
  | form :: rest => do
      let index := Int64.ofNat position
      let token ← Token.ofWrittenWith? index (tokenIndex? index) form
      let tokens ← tokensFrom? (position + 1) rest
      return token :: tokens

def tokens? : Written → Option (List Token)
  | .array forms => tokensFrom? 0 forms
  | _ => none

/-- The tree is read as a whole, inside the one container that is the document. -/
def tree? (form : Written) : Option TreeSpec :=
  (form.read? (Strict.nestingLimit - 1)).bind TreeSpec.ofValue?

def fieldNames : List String := ["ruleNames", "tokens", "tree"]

def ofWritten? (form : Written) : Option Document := do
  match ← form.fields? fieldNames with
  | [ruleNames, tokens, tree] =>
      return {
        ruleNames := ← optional [] (Written.decode Value.texts?) ruleNames
        tokens := (← optional [] tokens? tokens).toArray
        tree := ← required tree? tree }
  | _ => none

def ofJson (text : String) : Except DocumentError Document :=
  match (Strict.parse? text).bind ofWritten? with
  | none => .error .invalid
  | some document => .ok document

/-- The document's own rule names, or those of the settings if it has none. -/
def namesIn (d : Document) (settings : Settings) : List String :=
  if d.ruleNames.isEmpty then settings.ruleNames else d.ruleNames

abbrev BuildM := EStateM DocumentError (Assembly Invocation)

def assemble {α : Type} (work : AssemblyM Invocation α) : BuildM α :=
  EStateM.adaptExcept .notBuilt work

def resolveRule (names : List String) : RuleRef → Except DocumentError Nat
  | .index value => .ok value.toNat
  | .name text =>
      match RuleRef.resolveName? names text with
      | some index => .ok index
      | none => .error (.unknownRule text)

def tokenAt (tokens : Array Token) (position : UInt64) : Except DocumentError Token :=
  match tokens[position.toNat]? with
  | some token => .ok token
  | none => .error (.tokenOutOfRange position.toNat tokens.size)

mutual

/-- Add a described node to the innermost open rule, or open the root. -/
def addNode (tokens : Array Token) (names : List String) : TreeSpec → BuildM Unit
  | .rule ref alt children => do
      let index ← ofExcept (resolveRule names ref)
      assemble (Assembly.startRule { ruleIndex := .ofNat index, altNumber := alt })
      addNodes tokens names children
      discard (assemble Assembly.finishRule)
  | .token position => do
      let token ← ofExcept (tokenAt tokens position)
      discard (assemble (Assembly.token token))
  | .missing true => discard (assemble Assembly.missingToken)
  | .missing false => throw .missingNotTrue
  | .error position => do
      let symbol ← ofExcept (position.mapM (tokenAt tokens))
      discard (assemble (Assembly.errorToken symbol))

def addNodes (tokens : Array Token) (names : List String) : List TreeSpec → BuildM Unit
  | [] => return ()
  | spec :: rest => do
      addNode tokens names spec
      addNodes tokens names rest

end

/-- Make the described tree in a forest, which need not be empty. -/
def build (d : Document) (names : List String) (forest : Forest Invocation := {}) :
    Except DocumentError BuiltTree :=
  match d.tree with
  | .rule _ _ _ =>
      let work : BuildM (Spanned Invocation) := do
        addNode d.tokens names d.tree
        assemble Assembly.finish
      match work { forest } with
      | .ok root assembly =>
          .ok { root := root.node, forest := assembly.forest, report := assembly.report }
      | .error e _ => .error e
  | _ => .error .rootNotRule

end Document

end ParseTree
