import ParseTree.CommandLine.Arguments
import ParseTree.Document.Basic
import ParseTree.Node.Order
import ParseTree.Report.Census
import ParseTree.Report.Outline
import ParseTree.Report.Search

/-!
# Running a command

A run finds its settings, reads the document, builds its tree and prints what the
command asks for. Settings come from the path given, or else from the first of
two file names that is a file in the working directory, or else are the defaults.
A run that fails prints nothing. Where files come from is left to the caller.

A `Directory` is such a place. It holds a finite number of entries below a working
directory and finds them by relative paths: empty steps and `.` change nothing, `..`
leads to the parent, which must not lie outside, and every step before the last must
lead through a directory. A path that ends in a slash does not lead to a file.
-/

namespace ParseTree

/-- What is found at a path. -/
inductive Entry where
  | missing
  /-- Something that is not a file. -/
  | other
  /-- A file, with its text unless it is not UTF-8. -/
  | file (text : Option String)
deriving DecidableEq, Repr

structure Directory where
  entries : List (List String × Entry) := []

namespace Directory

/-- The steps of a path. -/
def steps (path : String) : List String := path.splitOn "/"

/-- Steps that lead somewhere. -/
def significant (steps : List String) : List String := steps.filter fun s => s != "" && s != "."

def ofList (files : List (String × Entry)) : Directory where
  entries := files.map fun (path, entry) => (significant (steps path), entry)

def startsWith (place path : List String) : Bool := path.take place.length == place

/-- What stands at a place. A place on the way to an entry is a directory. -/
def entryAt (d : Directory) (place : List String) : Entry :=
  match d.entries.find? (·.1 == place) with
  | some (_, entry) => entry
  | none =>
      if place.isEmpty || d.entries.any fun (path, _) => startsWith place path then .other
      else .missing

/-- Take one step from a place. -/
def move (d : Directory) (place : List String) (step : String) : Option (List String) :=
  if d.entryAt place != .other then none
  else if step == "" || step == "." then some place
  else if step == ".." then
    if place.isEmpty then none else some place.dropLast
  else some (place ++ [step])

/-- What is found by a relative path. -/
def find (d : Directory) (path : String) : Entry :=
  if path.startsWith "/" then .missing
  else match (steps path).foldlM d.move [] with
    | none => .missing
    | some place => d.entryAt place

end Directory

inductive RunError where
  | unreadable (path : String)
  | settings (cause : SettingsError)
  | document (cause : DocumentError)
  | unknownTokenType (text : String)
deriving DecidableEq, Repr

def RunError.message : RunError → String
  | .unreadable path => "Failed to read " ++ path
  | .settings cause => cause.message
  | .document cause => cause.message
  | .unknownTokenType text => "Unknown token type '" ++ text ++ "'"

/-- What a run reports as it goes. -/
inductive Notice where
  | settingsFound (path : String)
  | settingsDefault
  | building (event : BuildEvent)
  | documentLoaded (tokens : Nat)
  | nothingFound
  | failed (cause : RunError)
deriving DecidableEq, Repr

def Notice.line : Notice → LogLine
  | .settingsFound path => ⟨.info, "Using config: " ++ path⟩
  | .settingsDefault => ⟨.debug, "No config file found, using defaults"⟩
  | .building event => event.line
  | .documentLoaded tokens => ⟨.debug, "Loaded tree document tokens=" ++ tokens.repr⟩
  | .nothingFound => ⟨.info, "No matching nodes"⟩
  | .failed cause => ⟨.error, cause.message⟩

/-- How a program ended. -/
structure Outcome where
  code : Nat
  output : String := ""
  log : List LogLine := []
deriving DecidableEq, Repr

namespace Run

variable {m : Type → Type} [Monad m]

abbrev RunM (m : Type → Type) := ExceptT RunError (StateT (Array Notice) m)

def notice (n : Notice) : RunM m Unit := modify (·.push n)

/-- The text of a file. -/
def readText (look : String → m Entry) (path : String) : RunM m String := do
  match ← look path with
  | .file (some text) => return text
  | _ => throw (.unreadable path)

def settingsAt (look : String → m Entry) (path : String) : RunM m Settings := do
  match Settings.ofJson (← readText look path) with
  | .ok settings => return settings
  | .error cause => throw (.settings cause)

/-- Where settings are looked for, the first file winning. -/
def settingsPaths : List String := ["./grove.jsonc", "./grove.json"]

def discoverSettings (look : String → m Entry) : List String → RunM m Settings
  | [] => do
      notice .settingsDefault
      return {}
  | path :: rest => do
      match ← look path with
      | .file _ =>
          notice (.settingsFound path)
          settingsAt look path
      | _ => discoverSettings look rest

def findSettings (look : String → m Entry) : Option String → RunM m Settings
  | some path => settingsAt look path
  | none => discoverSettings look settingsPaths

def documentAt (look : String → m Entry) (path : String) : RunM m Document := do
  match Document.ofJson (← readText look path) with
  | .ok document => return document
  | .error cause => throw (.document cause)

def buildTree (document : Document) (names : List String) : RunM m BuiltTree := do
  match document.build names with
  | .error cause => throw (.document cause)
  | .ok tree =>
      for event in tree.report do
        notice (.building event)
      notice (.documentLoaded document.tokens.size)
      return tree

def queryOf (settings : Settings) (names : List String) : Sought → Except RunError Query
  | .rule text =>
      match Document.resolveRule names (.name text) with
      | .ok index => .ok (.rule (.ofNat index))
      | .error cause => .error (.document cause)
  | .token text =>
      match settings.resolveTokenType? text with
      | some type => .ok (.token type)
      | none => .error (.unknownTokenType text)

def foundLine (f : Found) : String := f.label ++ " " ++ f.span.render ++ "\n"

/-- What a command prints. -/
def print (settings : Settings) (names : List String) (root : Node Invocation) :
    Command → RunM m String
  | .text => return root.text ++ "\n"
  | .tree => return root.bracketed names ++ "\n"
  | .walk => return root.outline settings names
  | .stats => return root.census.render
  | .find sought first => do
      let query ← ofExcept (queryOf settings names sought)
      let found := query.search first names root
      if found.isEmpty then
        notice .nothingFound
      return String.join (found.map foundLine)

def perform (look : String → m Entry) (r : Request) : RunM m String := do
  let settings ← findSettings look r.settingsPath
  let document ← documentAt look r.input
  let names := document.namesIn settings
  let tree ← buildTree document names
  print settings names tree.root r.command

/-- The log lines that are shown: from `info` on, or from `debug` on. -/
def shown (verbose : Bool) (notices : List Notice) : List LogLine :=
  let least : LogLevel := if verbose then .debug else .info
  (notices.map Notice.line).filter fun line => least.rank ≤ line.level.rank

def outcomeOf (r : Request) : Except RunError String × Array Notice → Outcome
  | (.ok output, notices) => { code := 0, output, log := shown r.verbose notices.toList }
  | (.error cause, notices) =>
      { code := 2, log := shown r.verbose (notices.toList ++ [.failed cause]) }

end Run

/-- Do what the arguments ask for. -/
def runArguments {m : Type → Type} [Monad m] (look : String → m Entry) (args : List String) :
    m Outcome := do
  match Demand.ofArguments args with
  | .mistake => return { code := 2 }
  | .version => return { code := 0, output := "grove 0.1.0\n" }
  | .run request => return Run.outcomeOf request (← (Run.perform look request).run.run #[])

end ParseTree
