/-!
# Strings between quotes

Inside quotes a backslash starts an escape: the quote itself, a backslash or a
slash, a letter for a control character, or `u` and four hexadecimal digits. The
digits name a UTF-16 unit, so a character beyond the first plane takes two such
escapes, a high surrogate and right after it a low one. A surrogate that is not
half of such a pair names no character.

The writer escapes quotes, backslashes and control characters only.
-/

namespace ParseTree.Json

/-- A character, or a UTF-16 unit given by its number. -/
inductive Piece where
  | char (c : Char)
  | unit (n : Nat)
deriving DecidableEq, Repr

namespace Piece

def isHigh (n : Nat) : Bool := 0xd800 ≤ n && n < 0xdc00
def isLow (n : Nat) : Bool := 0xdc00 ≤ n && n < 0xe000

/-- The character that a surrogate pair stands for. -/
def pair (high low : Nat) : Char :=
  Char.ofNat (0x10000 + (high - 0xd800) * 0x400 + (low - 0xdc00))

/-- The characters of the pieces after those already read, in reverse. -/
def decodeFrom (done : List Char) : List Piece → Option (List Char)
  | [] => some done.reverse
  | .char c :: rest => decodeFrom (c :: done) rest
  | .unit n :: rest =>
      if isHigh n then
        match rest with
        | .unit m :: rest => if isLow m then decodeFrom (pair n m :: done) rest else none
        | _ => none
      else if isLow n then none
      else decodeFrom (Char.ofNat n :: done) rest

/-- The text that pieces spell, unless a surrogate stands alone. -/
def decode (pieces : List Piece) : Option String :=
  (decodeFrom [] pieces).map String.ofList

end Piece

def hexValue? (c : Char) : Option Nat :=
  if c.isDigit then some (c.toNat - '0'.toNat)
  else if 'a' ≤ c ∧ c ≤ 'f' then some (c.toNat - 'a'.toNat + 10)
  else if 'A' ≤ c ∧ c ≤ 'F' then some (c.toNat - 'A'.toNat + 10)
  else none

/-- The number that four hexadecimal digits spell. -/
def unit? (a b c d : Char) : Option Nat := do
  return (((← hexValue? a) * 16 + (← hexValue? b)) * 16 + (← hexValue? c)) * 16 + (← hexValue? d)

/-- What stands for a control character or for itself after a backslash. -/
def escaped? (quote c : Char) : Option Char :=
  if c = quote ∨ c = '\\' ∨ c = '/' then some c
  else match c with
  | 'b' => some '\x08'
  | 'f' => some '\x0c'
  | 'n' => some '\n'
  | 'r' => some '\r'
  | 't' => some '\t'
  | _ => none

/-- Read up to the closing quote: the pieces, and what follows the quote.
`controls` tells whether control characters may stand for themselves. -/
def scanString (quote : Char) (controls : Bool) (done : List Piece) :
    List Char → Option (List Piece × List Char)
  | [] => none
  | '\\' :: 'u' :: a :: b :: c :: d :: rest =>
      match unit? a b c d with
      | some n => scanString quote controls (.unit n :: done) rest
      | none => none
  | '\\' :: c :: rest =>
      match escaped? quote c with
      | some c => scanString quote controls (.char c :: done) rest
      | none => none
  | c :: rest =>
      if c = quote then some (done.reverse, rest)
      else if c = '\\' ∨ (c.toNat < 0x20 ∧ controls = false) then none
      else scanString quote controls (.char c :: done) rest

theorem length_lt_of_scanString {quote : Char} {controls : Bool} {done pieces : List Piece}
    {cs rest : List Char} (h : scanString quote controls done cs = some (pieces, rest)) :
    rest.length < cs.length := by
  fun_induction scanString quote controls done cs with
  | case1 => simp at h
  | case2 _ _ _ _ _ _ _ _ ih => have := ih h; simp only [List.length_cons]; omega
  | case3 => simp at h
  | case4 _ _ _ _ _ _ ih => have := ih h; simp only [List.length_cons]; omega
  | case5 => simp at h
  | case6 => simp_all
  | case7 => simp at h
  | case8 _ _ _ _ _ _ _ ih => have := ih h; simp only [List.length_cons]; omega

/-- A character as the writer puts it between quotes. -/
def writtenChar (c : Char) : List Char :=
  match c with
  | '\x22' => ['\\', '\x22']
  | '\\' => ['\\', '\\']
  | '\x08' => ['\\', 'b']
  | '\x0c' => ['\\', 'f']
  | '\n' => ['\\', 'n']
  | '\r' => ['\\', 'r']
  | '\t' => ['\\', 't']
  | c =>
      if c.toNat < 0x20 then
        ['\\', 'u', '0', '0', Nat.digitChar (c.toNat / 16), Nat.digitChar (c.toNat % 16)]
      else [c]

def writtenString (text : String) : List Char :=
  '\x22' :: text.toList.flatMap writtenChar ++ ['\x22']

end ParseTree.Json
