import ParseTree.Json.Value

/-!
# Reading the structure of a text

A reader takes a text lexeme by lexeme. What it has read so far is a position in
an unfinished form: the containers around the current place, each with the parts
already complete. One step moves that position by one lexeme, so nesting costs no
recursion.

Dialects differ in their lexemes and in how strictly commas separate: either
exactly one between two parts and none elsewhere, or at most one after any part.
-/

namespace ParseTree.Json

inductive Container where
  | array
  | object
deriving DecidableEq, Repr

/-- An atom tells what it is as a member's name and what it is as a value, where
it can be used as one. -/
inductive Lexeme (κ α : Type) where
  | opening (c : Container)
  | closing (c : Container)
  | colon
  | comma
  | atom (name : Option κ) (value : Option α)

/-- A lexeme, or nothing for what separates lexemes, and the text that follows. -/
abbrev Scan (κ α : Type) := Option (Option (Lexeme κ α) × List Char)

structure Dialect (κ α : Type) where
  /-- Look at the front of a text. -/
  scan : List Char → Scan κ α
  /-- Something is consumed each time. -/
  length_lt_of_scan {cs rest : List Char} {lexeme : Option (Lexeme κ α)} :
    scan cs = some (lexeme, rest) → rest.length < cs.length
  /-- Commas may be left out, and one may follow the last part. -/
  looseCommas : Bool

namespace Reader

variable {κ α : Type}

/-- Where a value goes when it is complete. Parts are kept in reverse. -/
inductive Hole (κ α : Type) where
  | item (before : List (Form κ α))
  | member (before : List (κ × Form κ α)) (name : κ)

/-- A container whose parts are being read, in reverse. -/
inductive Parts (κ α : Type) where
  | items (before : List (Form κ α))
  | members (before : List (κ × Form κ α))

/-- Where in a container the reader stands. -/
inductive Place where
  | start
  | afterPart
  | afterComma
deriving DecidableEq, Repr

/-- What comes next, innermost hole first. -/
inductive State (κ α : Type) where
  | value (holes : List (Hole κ α))
  | part (place : Place) (parts : Parts κ α) (holes : List (Hole κ α))
  | colon (before : List (κ × Form κ α)) (name : κ) (holes : List (Hole κ α))
  | done (form : Form κ α)

/-- Put a complete value where it belongs. -/
def complete (form : Form κ α) : List (Hole κ α) → State κ α
  | [] => .done form
  | .item before :: holes => .part .afterPart (.items (form :: before)) holes
  | .member before name :: holes => .part .afterPart (.members ((name, form) :: before)) holes

/-- Take a lexeme as the beginning of a value. -/
def beginValue (holes : List (Hole κ α)) : Lexeme κ α → Option (State κ α)
  | .opening .array => some (.part .start (.items []) holes)
  | .opening .object => some (.part .start (.members []) holes)
  | .atom _ (some value) => some (complete (.atom value) holes)
  | _ => none

/-- Whether another part may begin here. -/
def Place.allowsPart (place : Place) (looseCommas : Bool) : Bool :=
  place != .afterPart || looseCommas

/-- Whether the container may end here. -/
def Place.allowsClosing (place : Place) (looseCommas : Bool) : Bool :=
  place != .afterComma || looseCommas

def Place.allowsComma (place : Place) : Bool := place == .afterPart

def step (looseCommas : Bool) : State κ α → Lexeme κ α → Option (State κ α)
  | .value holes, lexeme => beginValue holes lexeme
  | .part place (.items before) holes, .closing .array =>
      if place.allowsClosing looseCommas then some (complete (.array before.reverse) holes)
      else none
  | .part place (.members before) holes, .closing .object =>
      if place.allowsClosing looseCommas then some (complete (.object before.reverse) holes)
      else none
  | .part place parts holes, .comma =>
      if place.allowsComma then some (.part .afterComma parts holes) else none
  | .part place (.items before) holes, lexeme =>
      if place.allowsPart looseCommas then beginValue (.item before :: holes) lexeme else none
  | .part place (.members before) holes, .atom (some name) _ =>
      if place.allowsPart looseCommas then some (.colon before name holes) else none
  | .colon before name holes, .colon => some (.value (.member before name :: holes))
  | _, _ => none

/-- Read a text from a state on. -/
def run (d : Dialect κ α) (state : State κ α) (cs : List Char) : Option (State κ α) :=
  match cs with
  | [] => some state
  | c :: rest =>
      match _scanned : d.scan (c :: rest) with
      | none => none
      | some (none, rest) => run d state rest
      | some (some lexeme, rest) =>
          match step d.looseCommas state lexeme with
          | none => none
          | some state => run d state rest
termination_by cs.length
decreasing_by
  all_goals exact d.length_lt_of_scan _scanned

end Reader

/-- The one form that a text consists of; `empty` is what a text without lexemes
stands for, if it stands for anything. -/
def Dialect.read? {κ α : Type} (d : Dialect κ α) (empty : Option (Form κ α)) (text : String) :
    Option (Form κ α) :=
  match Reader.run d (.value []) text.toList with
  | some (.done form) => some form
  | some (.value []) => empty
  | _ => none

end ParseTree.Json
