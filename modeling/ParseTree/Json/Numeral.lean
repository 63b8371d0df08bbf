/-!
# Numerals

A numeral is an integer part without leading zeros, then optionally a fraction
and an exponent, each with at least one digit. It is kept digit by digit.

A numeral without fraction and exponent denotes an integer if it fits 64 bits.
Every other numeral, and `-0`, denotes a binary floating-point number. Its digits
are gathered into a 64-bit significand as far as they fit; the significand and
the power of ten are rounded to doubles, and the numeral is out of range when
their product is.
-/

namespace ParseTree.Json

structure Numeral where
  negative : Bool := false
  whole : List Nat
  fraction : List Nat := []
  exponent : Option Int := none
deriving DecidableEq, Repr

namespace Numeral

def digitValue (c : Char) : Nat := c.toNat - '0'.toNat

/-- One or more digits, and what follows them. -/
def scanDigits (cs : List Char) : Option (List Nat × List Char) :=
  match cs.takeWhile Char.isDigit with
  | [] => none
  | d :: ds => some ((d :: ds).map digitValue, cs.dropWhile Char.isDigit)

/-- A zero or a digit run that does not start with one. -/
def scanWhole : List Char → Option (List Nat × List Char)
  | '0' :: rest => some ([0], rest)
  | cs => scanDigits cs

def scanFraction : List Char → Option (List Nat × List Char)
  | '.' :: rest => scanDigits rest
  | cs => some ([], cs)

/-- The number that a list of digits spells. -/
def ofDigits (ds : List Nat) : Nat := ds.foldl (fun n d => 10 * n + d) 0

/-- The digits of an exponent after its sign. -/
def scanSigned : List Char → Option (Int × List Char)
  | '-' :: rest => (scanDigits rest).map fun (ds, rest) => (-(ofDigits ds : Int), rest)
  | '+' :: rest => (scanDigits rest).map fun (ds, rest) => ((ofDigits ds : Int), rest)
  | cs => (scanDigits cs).map fun (ds, rest) => ((ofDigits ds : Int), rest)

def scanExponent : List Char → Option (Option Int × List Char)
  | 'e' :: rest => (scanSigned rest).map fun (e, rest) => (some e, rest)
  | 'E' :: rest => (scanSigned rest).map fun (e, rest) => (some e, rest)
  | cs => some (none, cs)

/-- The longest numeral in front of a text, its sign given, and what follows it. -/
def scan (negative : Bool) (cs : List Char) : Option (Numeral × List Char) := do
  let (whole, cs) ← scanWhole cs
  let (fraction, cs) ← scanFraction cs
  let (exponent, cs) ← scanExponent cs
  return ({ negative, whole, fraction, exponent }, cs)

theorem length_lt_of_scanDigits {cs rest : List Char} {ds : List Nat}
    (h : scanDigits cs = some (ds, rest)) : rest.length < cs.length := by
  have happend := congrArg List.length
    (List.takeWhile_append_dropWhile (p := Char.isDigit) (l := cs))
  rw [List.length_append] at happend
  unfold scanDigits at h
  split at h
  · cases h
  · next d ds' htake =>
      cases h
      rw [htake, List.length_cons] at happend
      omega

theorem length_lt_of_scanWhole {cs rest : List Char} {ds : List Nat}
    (h : scanWhole cs = some (ds, rest)) : rest.length < cs.length := by
  unfold scanWhole at h
  split at h
  · cases h
    simp only [List.length_cons]
    omega
  · exact length_lt_of_scanDigits h

theorem length_le_of_scanFraction {cs rest : List Char} {ds : List Nat}
    (h : scanFraction cs = some (ds, rest)) : rest.length ≤ cs.length := by
  unfold scanFraction at h
  split at h
  · have := length_lt_of_scanDigits h
    simp only [List.length_cons]
    omega
  · cases h
    exact Nat.le_refl _

theorem length_lt_of_scanSigned {cs rest : List Char} {e : Int}
    (h : scanSigned cs = some (e, rest)) : rest.length < cs.length := by
  unfold scanSigned at h
  split at h <;>
    obtain ⟨⟨ds, rest'⟩, hscan, heq⟩ := Option.map_eq_some_iff.mp h <;>
    cases heq <;>
    have := length_lt_of_scanDigits hscan <;>
    grind

theorem length_le_of_scanExponent {cs rest : List Char} {e : Option Int}
    (h : scanExponent cs = some (e, rest)) : rest.length ≤ cs.length := by
  unfold scanExponent at h
  split at h
  · obtain ⟨⟨e', rest'⟩, hscan, heq⟩ := Option.map_eq_some_iff.mp h
    cases heq
    have := length_lt_of_scanSigned hscan
    simp only [List.length_cons]
    omega
  · obtain ⟨⟨e', rest'⟩, hscan, heq⟩ := Option.map_eq_some_iff.mp h
    cases heq
    have := length_lt_of_scanSigned hscan
    simp only [List.length_cons]
    omega
  · cases h
    exact Nat.le_refl _

theorem length_lt_of_scan {negative : Bool} {cs rest : List Char} {n : Numeral}
    (h : scan negative cs = some (n, rest)) : rest.length < cs.length := by
  simp only [scan, Option.bind_eq_bind, Option.bind_eq_some_iff, Option.pure_def,
    Option.some.injEq, Prod.mk.injEq, Prod.exists] at h
  obtain ⟨whole, cs₁, hwhole, fraction, cs₂, hfraction, exponent, cs₃, hexponent, -, rfl⟩ := h
  have := length_lt_of_scanWhole hwhole
  have := length_le_of_scanFraction hfraction
  have := length_le_of_scanExponent hexponent
  omega

/-- One more than the largest integer of 64 bits. -/
def wordBound : Nat := 0x10000000000000000

/-- Append digits to a significand while it fits 64 bits, and count the digits
that are taken. -/
def gather (significand taken : Nat) : List Nat → Nat × Nat
  | [] => (significand, taken)
  | d :: ds =>
      if significand * 10 + d < wordBound then gather (significand * 10 + d) (taken + 1) ds
      else (significand, taken)

/-- The nearest number of 53 significant bits, a tie going to the even one. -/
def nearestDouble (n : Nat) : Nat :=
  if n.log2 < 53 then n
  else
    let unit := Nat.pow 2 (n.log2 - 52)
    let low := n / unit
    let rest := n % unit
    let up := 2 * rest > unit || (2 * rest == unit && low % 2 == 1)
    (if up then low + 1 else low) * unit

/-- From this product on, rounding to a double gives no finite number. -/
def overflowBound : Nat := Nat.pow 2 1024 - Nat.pow 2 970

/-- The significand and the power of ten that scales it. -/
def scaled (n : Numeral) : Nat × Int :=
  let (whole, takenWhole) := gather 0 0 n.whole
  let (significand, takenFraction) := gather whole 0 n.fraction
  (significand,
    ((n.whole.length - takenWhole : Nat) : Int) - takenFraction + n.exponent.getD 0)

/-- Whether the floating-point number that the numeral denotes is finite. -/
def inRange (n : Numeral) : Bool :=
  let (significand, exponent) := n.scaled
  significand == 0 || exponent < 0 ||
    (exponent ≤ 308 &&
      nearestDouble significand * nearestDouble (Nat.pow 10 exponent.toNat) < overflowBound)

/-- The integer that the numeral denotes, if it denotes one. -/
def integer? (n : Numeral) : Option Int :=
  if n.fraction ≠ [] ∨ n.exponent.isSome then none
  else
    let value := ofDigits n.whole
    if n.negative then
      if 0 < value ∧ 2 * value ≤ wordBound then some (-value) else none
    else
      if value < wordBound then some value else none

def render (n : Numeral) : List Char :=
  let digits (ds : List Nat) : List Char := ds.map Nat.digitChar
  (if n.negative then ['-'] else []) ++ digits n.whole
    ++ (if n.fraction.isEmpty then [] else '.' :: digits n.fraction)
    ++ (match n.exponent with
      | none => []
      | some e => 'e' :: e.repr.toList)

end Numeral

end ParseTree.Json
