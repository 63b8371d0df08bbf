import ParseTree.Json.Strict
import ParseTree.Json.Value
import ParseTree.Node.Basic
import ParseTree.Token

/-!
# Records in JSON

Spans, contexts and tokens are written with their fields in order and read back
by the strict reader. Of a context only the rule is required, of a token only the
type.
-/

namespace ParseTree

open Json

namespace Span

def toJson (s : Span) : Value :=
  .object [("start", Value.ofWord s.start), ("stop", Value.ofWord s.stop)]

def ofWritten? (form : Written) : Option Span := do
  match ← form.fields? ["start", "stop"] with
  | [start, stop] =>
      return {
        start := ← required (Written.decode Value.word?) start
        stop := ← required (Written.decode Value.word?) stop }
  | _ => none

def ofJson? (text : String) : Option Span := (Strict.parse? text).bind ofWritten?

end Span

namespace Invocation

def toJson (i : Invocation) : Value :=
  .object [("rule_index", Value.ofWord i.ruleIndex), ("alt_number", Value.ofWord i.altNumber)]

def ofWritten? (form : Written) : Option Invocation := do
  match ← form.fields? ["rule_index", "alt_number"] with
  | [ruleIndex, altNumber] =>
      return {
        ruleIndex := ← required (Written.decode Value.word?) ruleIndex
        altNumber := ← optional 0 (Written.decode Value.word?) altNumber }
  | _ => none

def ofJson? (text : String) : Option Invocation := (Strict.parse? text).bind ofWritten?

end Invocation

namespace Token

def fieldNames : List String := ["type", "index", "text", "line", "column"]

def toJson (t : Token) : Value :=
  .object
    [("type", Value.ofWord t.type), ("index", Value.ofWord t.index), ("text", Value.string t.text),
      ("line", Value.ofWord t.line), ("column", Value.ofWord t.column)]

/-- Read a token, given how to read its index and what an absent one means. -/
def ofWrittenWith? (absent : Int64) (index? : Value → Option Int64) (form : Written) :
    Option Token := do
  match ← form.fields? fieldNames with
  | [type, index, text, line, column] =>
      return {
        type := ← required (Written.decode Value.word?) type
        index := ← optional absent (Written.decode index?) index
        text := ← optional "" (Written.decode Value.text?) text
        line := ← optional 0 (Written.decode Value.word?) line
        column := ← optional 0 (Written.decode Value.word?) column }
  | _ => none

/-- A token without an index has index -1. -/
def ofWritten? (form : Written) : Option Token := ofWrittenWith? (-1) Value.word? form

def ofJson? (text : String) : Option Token := (Strict.parse? text).bind ofWritten?

end Token

end ParseTree
