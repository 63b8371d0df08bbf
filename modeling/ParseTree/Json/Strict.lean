import ParseTree.Json.Reader
import ParseTree.Json.Text

/-!
# Strict JSON

The JSON of data files: strings in double quotes without raw control characters,
numerals with no sign but `-`, the three keywords, four blank characters, and
commas exactly between parts.
-/

namespace ParseTree.Json.Strict

/-- A lexeme that is a value and no name. -/
def value (scalar : Option Scalar) : Lexeme (Option String) (Option Scalar) :=
  .atom none (some scalar)

def scanNumeral (negative : Bool) (cs : List Char) : Scan (Option String) (Option Scalar) :=
  (Numeral.scan negative cs).map fun (n, rest) => (value (Scalar.ofNumeral? n), rest)

/-- A string serves as a name and as a value. -/
def scanQuoted (cs : List Char) : Scan (Option String) (Option Scalar) :=
  (scanString '\x22' false [] cs).map fun (pieces, rest) =>
    let text := Piece.decode pieces
    (some (.atom (some text) (some (text.map .string))), rest)

def scan : List Char → Scan (Option String) (Option Scalar)
  | [] => none
  | '{' :: rest => some (some (.opening .object), rest)
  | '}' :: rest => some (some (.closing .object), rest)
  | '[' :: rest => some (some (.opening .array), rest)
  | ']' :: rest => some (some (.closing .array), rest)
  | ':' :: rest => some (some .colon, rest)
  | ',' :: rest => some (some .comma, rest)
  | '\x22' :: rest => scanQuoted rest
  | '-' :: rest => scanNumeral true rest
  | 't' :: 'r' :: 'u' :: 'e' :: rest => some (value (some (.bool true)), rest)
  | 'f' :: 'a' :: 'l' :: 's' :: 'e' :: rest => some (value (some (.bool false)), rest)
  | 'n' :: 'u' :: 'l' :: 'l' :: rest => some (value (some .null), rest)
  | c :: rest => if c.isWhitespace then some (none, rest) else scanNumeral false (c :: rest)

theorem length_lt_of_scanNumeral {negative : Bool} {cs rest : List Char}
    {lexeme : Option (Lexeme (Option String) (Option Scalar))}
    (h : scanNumeral negative cs = some (lexeme, rest)) : rest.length < cs.length := by
  obtain ⟨⟨n, rest'⟩, hscan, heq⟩ := Option.map_eq_some_iff.mp h
  cases heq
  exact Numeral.length_lt_of_scan hscan

theorem length_lt_of_scanQuoted {cs rest : List Char}
    {lexeme : Option (Lexeme (Option String) (Option Scalar))}
    (h : scanQuoted cs = some (lexeme, rest)) : rest.length < cs.length := by
  obtain ⟨⟨pieces, rest'⟩, hscan, heq⟩ := Option.map_eq_some_iff.mp h
  cases heq
  exact length_lt_of_scanString hscan

theorem length_lt_of_scan {cs rest : List Char}
    {lexeme : Option (Lexeme (Option String) (Option Scalar))}
    (h : scan cs = some (lexeme, rest)) : rest.length < cs.length := by
  unfold scan at h
  split at h
  case h_1 => cases h
  case h_8 => have := length_lt_of_scanQuoted h; simp only [List.length_cons]; omega
  case h_9 => have := length_lt_of_scanNumeral h; simp only [List.length_cons]; omega
  case h_13 =>
    split at h
    · cases h
      simp only [List.length_cons]
      omega
    · exact length_lt_of_scanNumeral h
  all_goals
    cases h
    simp only [List.length_cons]
    omega

def dialect : Dialect (Option String) (Option Scalar) where
  scan := scan
  length_lt_of_scan := length_lt_of_scan
  looseCommas := false

/-- How deep containers may nest in a form that is read. -/
def nestingLimit : Nat := 127

/-- The form that a text writes. -/
def parse? (text : String) : Option Written := dialect.read? none text

end ParseTree.Json.Strict
