import ParseTree.Json.Reader
import ParseTree.Json.Text
import ParseTree.Text.Classes

/-!
# Relaxed JSON

The JSON of files that people write. Comments are ignored, and so is any Unicode
white space. Strings may stand in single quotes and hold raw control characters.
Numbers may have a `+` and may be hexadecimal. Names of members may also be
numbers, which are named as they are spelled, or bare words. Commas may be left
out, and one may follow the last part. Of members with the same name the last one
counts.

A number that is out of range stands for its own spelling as a string. For a
decimal that is the range of doubles, for a hexadecimal that of 64-bit integers.
-/

namespace ParseTree.Json.Relaxed

open ParseTree.Text

/-- What follows a block comment whose opening has been read. -/
def afterBlockComment? : List Char → Option (List Char)
  | [] => none
  | '*' :: '/' :: rest => some rest
  | _ :: rest => afterBlockComment? rest

/-- A string serves as a name and as a value. Surrogates must pair. -/
def scanQuoted (quote : Char) (cs : List Char) : Scan String Scalar :=
  (scanString quote true [] cs).bind fun (pieces, rest) =>
    (Piece.decode pieces).map fun text => (some (.atom (some text) (some (.string text))), rest)

/-- The part of a text in front of its ending. -/
def before (cs ending : List Char) : String :=
  String.ofList (cs.take (cs.length - ending.length))

/-- The integer that hexadecimal digits spell, if it fits 63 bits. -/
def hexadecimal? (negative : Bool) (digits : List Nat) : Option Scalar :=
  let value : Nat := digits.foldl (fun n d => 16 * n + d) 0
  if 2 * value < Numeral.wordBound then
    some (.int (if negative then -(value : Int) else value))
  else none

/-- One or more hexadecimal digits, and what follows them. -/
def scanHexadecimal (negative : Bool) (cs : List Char) : Option (Option Scalar × List Char) :=
  match cs.takeWhile (fun c => (hexValue? c).isSome) with
  | [] => none
  | d :: ds =>
      some (hexadecimal? negative ((d :: ds).filterMap hexValue?),
        cs.dropWhile (fun c => (hexValue? c).isSome))

def scanDecimal (negative : Bool) (cs : List Char) : Option (Option Scalar × List Char) :=
  (Numeral.scan negative cs).map fun (n, rest) => (Scalar.ofNumeral? n, rest)

/-- The number after a sign, unless it is out of range, and what follows it. -/
def scanUnsigned (negative : Bool) : List Char → Option (Option Scalar × List Char)
  | '0' :: 'x' :: rest => scanHexadecimal negative rest
  | '0' :: 'X' :: rest => scanHexadecimal negative rest
  | cs => scanDecimal negative cs

def scanSigned : List Char → Option (Option Scalar × List Char)
  | '-' :: rest => scanUnsigned true rest
  | '+' :: rest => scanUnsigned false rest
  | cs => scanUnsigned false cs

def scanNumber (cs : List Char) : Scan String Scalar :=
  (scanSigned cs).map fun (value, rest) =>
    let source := before cs rest
    (some (.atom (some source) (some (value.getD (.string source)))), rest)

/-- What follows a keyword, which must not run on into a longer word. -/
def afterKeyword? (rest : List Char) : Option (List Char) :=
  if rest.head?.any isAlphanumeric then none else some rest

/-- A keyword is a value and no name. -/
def keyword? : List Char → Option (Scalar × List Char)
  | 't' :: 'r' :: 'u' :: 'e' :: rest => (afterKeyword? rest).map ((.bool true, ·))
  | 'f' :: 'a' :: 'l' :: 's' :: 'e' :: rest => (afterKeyword? rest).map ((.bool false, ·))
  | 'n' :: 'u' :: 'l' :: 'l' :: rest => (afterKeyword? rest).map ((.null, ·))
  | _ => none

def isWordChar (c : Char) : Bool := isAlphanumeric c || c == '-' || c == '_'

/-- A bare word is a name and no value. White space, a colon or the end of the
text must follow it. -/
def scanWord (cs : List Char) : Scan String Scalar :=
  match cs.takeWhile isWordChar with
  | [] => none
  | d :: ds =>
      if (cs.dropWhile isWordChar).head?.all fun c => isBlank c || c == ':' then
        some (some (.atom (some (String.ofList (d :: ds))) none), cs.dropWhile isWordChar)
      else none

def scan : List Char → Scan String Scalar
  | [] => none
  | '{' :: rest => some (some (.opening .object), rest)
  | '}' :: rest => some (some (.closing .object), rest)
  | '[' :: rest => some (some (.opening .array), rest)
  | ']' :: rest => some (some (.closing .array), rest)
  | ':' :: rest => some (some .colon, rest)
  | ',' :: rest => some (some .comma, rest)
  | '\x22' :: rest => scanQuoted '\x22' rest
  | '\x27' :: rest => scanQuoted '\x27' rest
  | '/' :: '/' :: rest => some (none, rest.dropWhile (· != '\n'))
  | '/' :: '*' :: rest => (afterBlockComment? rest).map ((none, ·))
  | c :: rest =>
      if isBlank c then some (none, rest)
      else if c == '-' || c == '+' || c.isDigit then scanNumber (c :: rest)
      else match keyword? (c :: rest) with
        | some (scalar, rest) => some (some (.atom none (some scalar)), rest)
        | none => scanWord (c :: rest)

theorem length_lt_of_afterBlockComment? {cs rest : List Char}
    (h : afterBlockComment? cs = some rest) : rest.length < cs.length := by
  fun_induction afterBlockComment? cs with
  | case1 => cases h
  | case2 => cases h; simp only [List.length_cons]; omega
  | case3 _ _ _ ih => have := ih h; simp only [List.length_cons]; omega

theorem length_lt_of_scanQuoted {quote : Char} {cs rest : List Char}
    {lexeme : Option (Lexeme String Scalar)}
    (h : scanQuoted quote cs = some (lexeme, rest)) : rest.length < cs.length := by
  obtain ⟨⟨pieces, rest'⟩, hscan, hdecode⟩ := Option.bind_eq_some_iff.mp h
  obtain ⟨text, -, heq⟩ := Option.map_eq_some_iff.mp hdecode
  cases heq
  exact length_lt_of_scanString hscan

theorem length_dropWhile_lt {p : Char → Bool} {cs ds : List Char} {d : Char}
    (h : cs.takeWhile p = d :: ds) : (cs.dropWhile p).length < cs.length := by
  have happend := congrArg List.length (List.takeWhile_append_dropWhile (p := p) (l := cs))
  rw [List.length_append, h, List.length_cons] at happend
  omega

theorem length_lt_of_scanHexadecimal {negative : Bool} {cs rest : List Char}
    {value : Option Scalar} (h : scanHexadecimal negative cs = some (value, rest)) :
    rest.length < cs.length := by
  unfold scanHexadecimal at h
  split at h
  · cases h
  · next htake =>
      cases h
      exact length_dropWhile_lt htake

theorem length_lt_of_scanUnsigned {negative : Bool} {cs rest : List Char}
    {value : Option Scalar} (h : scanUnsigned negative cs = some (value, rest)) :
    rest.length < cs.length := by
  unfold scanUnsigned at h
  split at h
  · have := length_lt_of_scanHexadecimal h; simp only [List.length_cons]; omega
  · have := length_lt_of_scanHexadecimal h; simp only [List.length_cons]; omega
  · obtain ⟨⟨n, rest'⟩, hscan, heq⟩ := Option.map_eq_some_iff.mp h
    cases heq
    exact Numeral.length_lt_of_scan hscan

theorem length_lt_of_scanNumber {cs rest : List Char} {lexeme : Option (Lexeme String Scalar)}
    (h : scanNumber cs = some (lexeme, rest)) : rest.length < cs.length := by
  obtain ⟨⟨value, rest'⟩, hscan, heq⟩ := Option.map_eq_some_iff.mp h
  cases heq
  unfold scanSigned at hscan
  split at hscan
  · have := length_lt_of_scanUnsigned hscan; simp only [List.length_cons]; omega
  · have := length_lt_of_scanUnsigned hscan; simp only [List.length_cons]; omega
  · exact length_lt_of_scanUnsigned hscan

theorem length_lt_of_keyword? {cs rest : List Char} {scalar : Scalar}
    (h : keyword? cs = some (scalar, rest)) : rest.length < cs.length := by
  unfold keyword? afterKeyword? at h
  grind

theorem length_lt_of_scanWord {cs rest : List Char} {lexeme : Option (Lexeme String Scalar)}
    (h : scanWord cs = some (lexeme, rest)) : rest.length < cs.length := by
  unfold scanWord at h
  split at h
  · cases h
  · next htake =>
      split at h
      · cases h
        exact length_dropWhile_lt htake
      · cases h

theorem length_lt_of_scan {cs rest : List Char} {lexeme : Option (Lexeme String Scalar)}
    (h : scan cs = some (lexeme, rest)) : rest.length < cs.length := by
  unfold scan at h
  split at h
  case h_1 => cases h
  case h_8 => have := length_lt_of_scanQuoted h; simp only [List.length_cons]; omega
  case h_9 => have := length_lt_of_scanQuoted h; simp only [List.length_cons]; omega
  case h_10 rest' =>
    cases h
    have := (List.dropWhile_suffix (p := (· != '\n')) (l := rest')).length_le
    simp only [List.length_cons]
    omega
  case h_11 =>
    obtain ⟨rest', hrest, heq⟩ := Option.map_eq_some_iff.mp h
    cases heq
    have := length_lt_of_afterBlockComment? hrest
    simp only [List.length_cons]
    omega
  case h_12 =>
    split at h
    · cases h
      simp only [List.length_cons]
      omega
    · split at h
      · exact length_lt_of_scanNumber h
      · split at h
        · next hkeyword =>
            cases h
            exact length_lt_of_keyword? hkeyword
        · exact length_lt_of_scanWord h
  all_goals
    cases h
    simp only [List.length_cons]
    omega

def dialect : Dialect String Scalar where
  scan := scan
  length_lt_of_scan := length_lt_of_scan
  looseCommas := true

/-- The members without those that a later one of the same name replaces. -/
def lastMembers : List (String × Value) → List (String × Value)
  | [] => []
  | (name, value) :: rest =>
      if rest.any (·.1 == name) then lastMembers rest else (name, value) :: lastMembers rest

mutual

/-- Drop replaced members at every level. -/
def settled : Value → Value
  | .atom value => .atom value
  | .array items => .array (settledItems items)
  | .object members => .object (lastMembers (settledMembers members))

def settledItems : List Value → List Value
  | [] => []
  | item :: rest => settled item :: settledItems rest

def settledMembers : List (String × Value) → List (String × Value)
  | [] => []
  | (name, value) :: rest => (name, settled value) :: settledMembers rest

end

/-- The value of a text. A text of comments only is an empty object. -/
def parse? (text : String) : Option Value :=
  (dialect.read? (some (.object [])) text).map settled

end ParseTree.Json.Relaxed
