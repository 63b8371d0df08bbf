/-!
# Arguments

A command line is a subcommand with its input, and options before and after the
subcommand. Options that every subcommand shares may stand on either side, once
on each; where both sides give a value the one after the subcommand counts.

An option that takes a value takes it from the same argument or from the next
one, which must then not look like an option itself, unless the option accepts
any value. Short options may be bundled, and the first one that takes a value
takes the rest of the bundle. After `--` all arguments are positional. Arguments
are taken in order, and the first mistake decides; asking for the version ends
the reading.
-/

namespace ParseTree

/-- What a search is asked for, as the user gives it. -/
inductive Sought where
  | rule (text : String)
  | token (text : String)
deriving DecidableEq, Repr

inductive Command where
  | text
  | tree
  | walk
  | stats
  | find (sought : Sought) (first : Bool)
deriving DecidableEq, Repr

structure Request where
  command : Command
  input : String
  settingsPath : Option String := none
  verbose : Bool := false
deriving DecidableEq, Repr

/-- What a command line asks for. -/
inductive Demand where
  | run (request : Request)
  | version
  | mistake
deriving DecidableEq, Repr

namespace CommandLine

inductive Switch where
  | config
  | verbose
  | version
  | rule
  | token
  | first
deriving DecidableEq, Repr

inductive ValueKind where
  | none
  /-- A value that does not look like an option. -/
  | plain
  | any
deriving DecidableEq, Repr

namespace Switch

def long : Switch → String
  | .config => "config"
  | .verbose => "verbose"
  | .version => "version"
  | .rule => "rule"
  | .token => "token"
  | .first => "first"

def short? : Switch → Option Char
  | .config => some 'c'
  | .verbose => some 'v'
  | .version => some 'V'
  | _ => none

def valueKind : Switch → ValueKind
  | .config => .plain
  | .rule => .plain
  | .token => .any
  | _ => .none

end Switch

/-- The options known before the subcommand. -/
def outerSwitches : List Switch := [.config, .verbose, .version]

/-- The options known after a subcommand. -/
def sharedSwitches : List Switch := [.config, .verbose]

def findSwitches : List Switch := sharedSwitches ++ [.rule, .token, .first]

/-- What has been given on one side of the subcommand. -/
structure Given where
  config : Option String := none
  verbose : Bool := false
  version : Bool := false
  rule : Option String := none
  token : Option String := none
  first : Bool := false
  /-- The latest first. -/
  positionals : List String := []
deriving DecidableEq, Repr

namespace Given

/-- Give an option without a value, which must not have been given before. -/
def flag? (g : Given) : Switch → Option Given
  | .verbose => if g.verbose then none else some { g with verbose := true }
  | .version => if g.version then none else some { g with version := true }
  | .first => if g.first then none else some { g with first := true }
  | _ => none

/-- Give an option with its value, which must not have been given before. A path
must not be empty. -/
def value? (g : Given) (value : String) : Switch → Option Given
  | .config =>
      if g.config.isSome || value.isEmpty then none else some { g with config := some value }
  | .rule => if g.rule.isSome then none else some { g with rule := some value }
  | .token => if g.token.isSome then none else some { g with token := some value }
  | _ => none

end Given

/-- Where the reading of one side stands. -/
structure Reading where
  given : Given := {}
  /-- The option whose value is to come. -/
  pending : Option Switch := none
  /-- Whether `--` has been read. -/
  trailing : Bool := false

def looksLikeOption (arg : String) : Bool :=
  match arg.toList with
  | '-' :: _ :: _ => true
  | _ => false

/-- Split a long option at its first equals sign. -/
def splitAtEquals (cs : List Char) : String × Option String :=
  (String.ofList (cs.takeWhile (· != '=')),
    match cs.dropWhile (· != '=') with
    | [] => none
    | _ :: value => some (String.ofList value))

/-- Read a long option without its dashes. -/
def readLong (known : List Switch) (r : Reading) (cs : List Char) : Option Reading := do
  let (name, attached) := splitAtEquals cs
  let switch ← known.find? (·.long == name)
  match switch.valueKind, attached with
  | .none, none => return { r with given := ← r.given.flag? switch }
  | .none, some _ => none
  | _, some value => return { r with given := ← r.given.value? value switch }
  | _, none => return { r with pending := some switch }

/-- Read bundled short options without their dash. -/
def readBundle (known : List Switch) (r : Reading) : List Char → Option Reading
  | [] => some r
  | c :: rest => do
      let switch ← known.find? (·.short? == some c)
      match switch.valueKind, rest with
      | .none, rest =>
          let r := { r with given := ← r.given.flag? switch }
          if switch = .version then some r else readBundle known r rest
      | _, [] => return { r with pending := some switch }
      | _, '=' :: value => return { r with given := ← r.given.value? (String.ofList value) switch }
      | _, value => return { r with given := ← r.given.value? (String.ofList value) switch }

def readPositional (r : Reading) (arg : String) : Reading :=
  { r with given := { r.given with positionals := arg :: r.given.positionals } }

/-- Read the next argument. -/
def readArgument (known : List Switch) (r : Reading) (arg : String) : Option Reading :=
  match r.pending with
  | some switch =>
      if switch.valueKind != .any && looksLikeOption arg then none
      else (r.given.value? arg switch).map fun given => { r with given, pending := none }
  | none =>
      if r.trailing then some (readPositional r arg)
      else match arg.toList with
        | ['-', '-'] => some { r with trailing := true }
        | '-' :: '-' :: cs => readLong known r cs
        | '-' :: c :: cs => readBundle known r (c :: cs)
        | _ => some (readPositional r arg)

/-- Read all arguments of one side. -/
def readSide (known : List Switch) (args : List String) : Option Given := do
  let r ← args.foldlM (readArgument known) {}
  match r.pending with
  | none => return r.given
  | some _ => none

/-- The one input path, which must not be empty. -/
def input? (g : Given) : Option String :=
  match g.positionals with
  | [path] => if path.isEmpty then none else some path
  | _ => none

/-- What is sought: a rule or a token, and not both. -/
def sought? (g : Given) : Option Sought :=
  match g.rule, g.token with
  | some text, none => some (.rule text)
  | none, some text => some (.token text)
  | _, _ => none

/-- The request that both sides make together. -/
def request (outer inner : Given) (command : Command) (input : String) : Request where
  command := command
  input := input
  settingsPath := inner.config.or outer.config
  verbose := outer.verbose || inner.verbose

def plainRequest? (outer : Given) (command : Command) (args : List String) : Option Request := do
  let inner ← readSide sharedSwitches args
  return request outer inner command (← input? inner)

def findRequest? (outer : Given) (args : List String) : Option Request := do
  let inner ← readSide findSwitches args
  return request outer inner (.find (← sought? inner) inner.first) (← input? inner)

/-- Read what follows the name of a subcommand. -/
def readSubcommand? (outer : Given) (name : String) (args : List String) : Option Request :=
  match name with
  | "text" => plainRequest? outer .text args
  | "tree" => plainRequest? outer .tree args
  | "walk" => plainRequest? outer .walk args
  | "stats" => plainRequest? outer .stats args
  | "find" => findRequest? outer args
  | _ => none

/-- Read up to the subcommand. -/
def readOuter (r : Reading) : List String → Demand
  | [] => .mistake
  | arg :: rest =>
      match readArgument outerSwitches r arg with
      | none => .mistake
      | some r =>
          if r.given.version then .version
          else if r.trailing then .mistake
          else match r.given.positionals with
            | [] => readOuter r rest
            | name :: _ =>
                match readSubcommand? r.given name rest with
                | none => .mistake
                | some request => .run request

end CommandLine

/-- What the arguments ask for. -/
def Demand.ofArguments (args : List String) : Demand := CommandLine.readOuter {} args

end ParseTree
