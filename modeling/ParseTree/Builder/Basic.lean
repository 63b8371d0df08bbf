import ParseTree.Forest.Basic

/-!
# Builders

A builder makes a tree in the order in which a parser meets its parts. Rules are
opened, filled with leaves, inner rules and finished subtrees, and closed. A rule
node exists once its rule is closed, and only then do its children get a parent,
so the last child can be taken back before that.

Several builders may work in one forest. A node that one of them has collected
can get a parent from somebody else; closing the rule is then refused, and the
rule stays open. What a builder reports as it goes becomes lines of a log.
-/

namespace ParseTree

inductive LogLevel where
  | trace
  | debug
  | info
  | error
deriving DecidableEq, Repr

structure LogLine where
  level : LogLevel
  message : String
deriving DecidableEq, Repr

def LogLevel.rank : LogLevel → Nat
  | .trace => 0
  | .debug => 1
  | .info => 2
  | .error => 3

def LogLevel.render : LogLevel → String
  | .trace => "TRACE"
  | .debug => "DEBUG"
  | .info => "INFO"
  | .error => "ERROR"

def LogLine.render (l : LogLine) : String := l.level.render ++ " " ++ l.message

/-- A rule whose children are being collected, the newest child first. -/
structure OpenRule (C : Type) where
  context : C
  collected : List (Spanned C) := []

structure Builder (C : Type) where
  /-- The rules that are open, the innermost first. -/
  openRules : List (OpenRule C) := []
  root : Option (Spanned C) := none
  /-- How many nodes have been collected or completed. -/
  nodeCount : Nat := 0

/-- What a builder reports as it goes. -/
inductive BuildEvent where
  | ruleStarted (rule : UInt64) (depth : Nat)
  | ruleFinished (rule : UInt64) (children : Nat) (span : Span)
  | treeBuilt (nodes : Nat)
deriving DecidableEq, Repr

/-- A builder at work: the forest it works in, and its report so far. -/
structure Assembly (C : Type) where
  forest : Forest C := {}
  builder : Builder C := {}
  report : Array BuildEvent := #[]

abbrev AssemblyM (C : Type) := EStateM BuildError (Assembly C)

def BuildEvent.line : BuildEvent → LogLine
  | .ruleStarted rule depth =>
      ⟨.trace, "Start rule rule=" ++ Decimal.render rule ++ " depth=" ++ depth.repr⟩
  | .ruleFinished rule children span =>
      ⟨.trace, "Finish rule rule=" ++ Decimal.render rule ++ " children=" ++ children.repr
        ++ " interval=" ++ span.render⟩
  | .treeBuilt nodes => ⟨.debug, "Built parse tree nodes=" ++ nodes.repr⟩

namespace OpenRule

variable {C : Type}

/-- The children so far, the oldest first. -/
def children (r : OpenRule C) : List (Spanned C) := r.collected.reverse

def collect (r : OpenRule C) (n : Spanned C) : OpenRule C :=
  { r with collected := n :: r.collected }

end OpenRule

namespace Builder

variable {C : Type}

instance : Inhabited (Builder C) := ⟨{}⟩

def depth (b : Builder C) : Nat := b.openRules.length

/-- Whether an open rule has collected the node. -/
def collects (b : Builder C) (id : NodeId) : Bool :=
  b.openRules.any fun r => r.collected.any (·.id == id)

/-- Hand over a closed rule, which is the root if no rule is open around it. -/
def complete (b : Builder C) (n : Spanned C) : Builder C :=
  match b.openRules with
  | [] => { b with root := some n, nodeCount := b.nodeCount + 1 }
  | r :: outer => { b with openRules := r.collect n :: outer, nodeCount := b.nodeCount + 1 }

end Builder

namespace Assembly

variable {C : Type}

/-- Work on the forest. -/
def inForest {α : Type} (work : ForestM C α) : AssemblyM C α := fun ⟨forest, builder, report⟩ =>
  match work forest with
  | .ok a forest => .ok a ⟨forest, builder, report⟩
  | .error e forest => .error e ⟨forest, builder, report⟩

def emit (event : BuildEvent) : AssemblyM C Unit :=
  modify fun ⟨forest, builder, report⟩ => ⟨forest, builder, report.push event⟩

def setBuilder (builder : Builder C) : AssemblyM C Unit :=
  modify fun ⟨forest, _, report⟩ => ⟨forest, builder, report⟩

/-- Open a rule. The first rule to be opened becomes the root. -/
def startRule [RuleContext C] (context : C) : AssemblyM C Unit := do
  let builder := (← get).builder
  if builder.openRules.isEmpty && builder.root.isSome then
    throw .rootAlreadyBuilt
  emit (.ruleStarted (RuleContext.ruleIndex context) builder.depth)
  setBuilder { builder with openRules := { context } :: builder.openRules }

/-- Add a new leaf to the innermost open rule. -/
def addLeaf (make : ForestM C (Spanned C)) (addition : Addition) : AssemblyM C (Spanned C) := do
  let builder := (← get).builder
  match builder.openRules with
  | [] => throw (.noOpenRule addition)
  | r :: outer =>
      let node ← inForest make
      setBuilder { builder with
        openRules := r.collect node :: outer
        nodeCount := builder.nodeCount + 1 }
      return node

def token (symbol : Token) : AssemblyM C (Spanned C) :=
  addLeaf (Forest.terminal (some symbol)) .token

/-- A terminal whose token the parser conjured. -/
def missingToken : AssemblyM C (Spanned C) :=
  addLeaf (Forest.terminal none) .missingToken

def errorToken (symbol : Option Token) : AssemblyM C (Spanned C) :=
  addLeaf (Forest.error symbol) .errorToken

/-- Add a finished subtree that has no parent and that no open rule has collected. -/
def attach (subtree : Spanned C) : AssemblyM C Unit := do
  let ⟨forest, builder, _⟩ ← get
  if builder.collects subtree.id || (forest.parent? subtree.id).isSome then
    throw .alreadyAttached
  match builder.openRules with
  | [] => throw (.noOpenRule .subtree)
  | r :: outer =>
      setBuilder { builder with
        openRules := r.collect subtree :: outer
        nodeCount := builder.nodeCount + subtree.node.size }

/-- Take back the newest child of the innermost open rule. -/
def removeLastChild : AssemblyM C (Option (Spanned C)) := do
  let builder := (← get).builder
  match builder.openRules with
  | { context, collected := n :: collected } :: outer =>
      setBuilder { builder with
        openRules := { context, collected } :: outer
        nodeCount := builder.nodeCount - n.node.size }
      return some n
  | _ => return none

/-- Close the innermost open rule, which becomes the parent of its children. -/
def finishRule [RuleContext C] : AssemblyM C (Spanned C) := do
  let builder := (← get).builder
  match builder.openRules with
  | [] => throw (.noOpenRule .ruleEnd)
  | r :: outer =>
      inForest (Forest.checkDetached r.children)
      let builder := { builder with openRules := outer }
      setBuilder builder
      let node ← inForest (Forest.rule r.context r.children)
      emit (.ruleFinished (RuleContext.ruleIndex r.context) r.collected.length node.span)
      setBuilder (builder.complete node)
      return node

/-- The finished root. -/
def finish : AssemblyM C (Spanned C) := do
  let builder := (← get).builder
  unless builder.openRules.isEmpty do
    throw (.unclosedRules builder.depth)
  match builder.root with
  | none => throw .emptyTree
  | some root =>
      emit (.treeBuilt builder.nodeCount)
      return root

end Assembly

end ParseTree
