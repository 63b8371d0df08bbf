import ParseTree.Json.Relaxed
import ParseTree.Token

/-!
# Display settings

The settings shared by all commands: rule names for documents that bring none,
names of token types, and how the outline of a walk is laid out. They are written
as JSON and read by the relaxed reader; whatever is absent keeps its default.
-/

namespace ParseTree

open Json

/-- A finite map from token types to names, kept in ascending order of the types, so
that equal maps are equal lists. -/
structure TokenNames where
  entries : List (Int32 × String)
  ascending : entries.Pairwise (·.1 < ·.1)
deriving DecidableEq

namespace TokenNames

def empty : TokenNames := ⟨[], .nil⟩

instance : Inhabited TokenNames := ⟨empty⟩

/-- Put an entry where it belongs in a list in ascending order. -/
def insertInto (type : Int32) (name : String) : List (Int32 × String) → List (Int32 × String)
  | [] => [(type, name)]
  | e :: rest =>
      if type < e.1 then (type, name) :: e :: rest
      else if type = e.1 then (type, name) :: rest
      else e :: insertInto type name rest

theorem mem_insertInto {type : Int32} {name : String} {entries : List (Int32 × String)}
    {e : Int32 × String} (h : e ∈ insertInto type name entries) :
    e = (type, name) ∨ e ∈ entries := by
  induction entries with
  | nil => simpa [insertInto] using h
  | cons first rest ih =>
      simp only [insertInto] at h
      grind

theorem pairwise_insertInto (type : Int32) (name : String) {entries : List (Int32 × String)}
    (h : entries.Pairwise (·.1 < ·.1)) : (insertInto type name entries).Pairwise (·.1 < ·.1) := by
  induction entries with
  | nil => simp [insertInto]
  | cons first rest ih =>
      rw [List.pairwise_cons] at h
      simp only [insertInto]
      split
      · next hlt =>
          refine List.pairwise_cons.mpr ⟨fun e he => ?_, List.pairwise_cons.mpr h⟩
          rcases List.mem_cons.mp he with rfl | he
          · exact hlt
          · exact Int32.lt_trans hlt (h.1 e he)
      · next hnlt =>
          split
          · next heq =>
              exact List.pairwise_cons.mpr ⟨fun e he => heq ▸ h.1 e he, h.2⟩
          · next hne =>
              refine List.pairwise_cons.mpr ⟨fun e he => ?_, ih h.2⟩
              rcases mem_insertInto he with rfl | he
              · exact Int32.lt_of_le_of_ne (Int32.not_lt.mp hnlt) (Ne.symm hne)
              · exact h.1 e he

/-- Setting a name replaces the old one. -/
def insert (names : TokenNames) (type : Int32) (name : String) : TokenNames where
  entries := insertInto type name names.entries
  ascending := pairwise_insertInto type name names.ascending

/-- The name of a token type. -/
def name? (names : TokenNames) (type : Int32) : Option String :=
  (names.entries.find? (·.1 == type)).map (·.2)

/-- The least token type of the given name. -/
def type? (names : TokenNames) (name : String) : Option Int32 :=
  (names.entries.find? (·.2 == name)).map (·.1)

end TokenNames

structure Settings where
  ruleNames : List String := []
  tokenNames : TokenNames := .empty
  /-- Blanks per level in an outline. -/
  indent : UInt64 := 2
  /-- Whether an outline gives the span of each rule. -/
  showSpans : Bool := false
deriving DecidableEq

inductive SettingsError where
  /-- The text is not JSON, even relaxed. -/
  | notJson
  /-- A setting has the wrong type, or the whole is neither object nor array. -/
  | wrongShape
deriving DecidableEq, Repr

def SettingsError.message : SettingsError → String
  | .notJson => "Configuration error: Invalid JSON"
  | .wrongShape => "Configuration error: Invalid config"

namespace Settings

def fieldNames : List String := ["rule_names", "token_names", "indent", "show_intervals"]

def toJson (s : Settings) : Value :=
  .object
    [("rule_names", .array (s.ruleNames.map Value.string)),
      ("token_names",
        .object (s.tokenNames.entries.map fun (type, name) =>
          (Decimal.render type, Value.string name))),
      ("indent", Value.ofWord s.indent),
      ("show_intervals", Value.bool s.showSpans)]

/-- The integer that the whole of a member's name spells as a JSON numeral. -/
def integerName? (name : String) : Option Int := do
  let (negative, digits) := match name.toList with
    | '-' :: digits => (true, digits)
    | digits => (false, digits)
  match ← Numeral.scan negative digits with
  | (numeral, []) => numeral.integer?
  | _ => none

def tokenType? (name : String) : Option Int32 := (integerName? name).bind Word.ofInt?

def tokenNames? : Value → Option TokenNames
  | .object members =>
      members.foldlM (fun names (type, name) => do
        return names.insert (← tokenType? type) (← Value.text? name)) .empty
  | _ => none

def ofValue? (value : Value) : Option Settings := do
  match ← value.fields? fieldNames with
  | [ruleNames, tokenNames, indent, showSpans] =>
      return {
        ruleNames := ← optional [] Value.texts? ruleNames
        tokenNames := ← optional .empty tokenNames? tokenNames
        indent := ← optional 2 Value.word? indent
        showSpans := ← optional false Value.bool? showSpans }
  | _ => none

def ofJson (text : String) : Except SettingsError Settings :=
  match Relaxed.parse? text with
  | none => .error .notJson
  | some value =>
      match ofValue? value with
      | none => .error .wrongShape
      | some settings => .ok settings

/-- The name given to a token type. -/
def tokenName? (s : Settings) (type : Int32) : Option String := s.tokenNames.name? type

/-- The token type that a text names, or else spells as a number. -/
def resolveTokenType? (s : Settings) (text : String) : Option Int32 :=
  (s.tokenNames.type? text).or (Decimal.signed? text)

end Settings

end ParseTree
