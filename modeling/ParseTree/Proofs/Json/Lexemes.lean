import Mathlib.Data.List.Basic
import ParseTree.Json.Relaxed
import ParseTree.Json.Strict
import ParseTree.Json.Value

/-!
# Scalars as lexemes

Both readers find the scalar that the writer has written, and nothing of what follows it. For
a string that is so whatever follows. A number or a keyword could run on, but in a
written text a comma, a closing bracket or the end of the text follows.
-/

namespace ParseTree.Json

theorem hexValue?_digitChar {n : Nat} (h : n < 16) : hexValue? (Nat.digitChar n) = some n :=
  (by decide : ∀ n < 16, hexValue? (Nat.digitChar n) = some n) n h

theorem unit?_of_control {n : Nat} (h : n < 0x20) :
    unit? '0' '0' (Nat.digitChar (n / 16)) (Nat.digitChar (n % 16)) = some n := by
  have hzero : hexValue? '0' = some 0 := rfl
  simp only [unit?, hzero, hexValue?_digitChar (show n / 16 < 16 by omega),
    hexValue?_digitChar (show n % 16 < 16 by omega), Option.bind_eq_bind, Option.bind_some,
    Option.pure_def, Option.some.injEq]
  omega

theorem Piece.decodeFrom_unit_control {c : Char} (h : c.toNat < 0x20) (done : List Char)
    (pieces : List Piece) :
    decodeFrom done (.unit c.toNat :: pieces) = decodeFrom (c :: done) pieces := by
  have hhigh : isHigh c.toNat = false := by
    simp only [isHigh, Bool.and_eq_false_iff, decide_eq_false_iff_not]
    omega
  have hlow : isLow c.toNat = false := by
    simp only [isLow, Bool.and_eq_false_iff, decide_eq_false_iff_not]
    omega
  rw [decodeFrom.eq_def]
  dsimp only
  rw [hhigh, hlow, Char.ofNat_toNat]
  rfl

/-- A written character is read as a piece that spells it. -/
theorem exists_piece_of_writtenChar (c : Char) :
    ∃ piece, (∀ done pieces,
        Piece.decodeFrom done (piece :: pieces) = Piece.decodeFrom (c :: done) pieces) ∧
      ∀ controls done rest, scanString '\x22' controls done (writtenChar c ++ rest) =
        scanString '\x22' controls (piece :: done) rest := by
  unfold writtenChar
  split
  -- the last case is a character without an escape of its own; the others are escapes
  case h_8 hquote hbackslash _ _ _ _ _ =>
    split
    · next hcontrol =>
        refine ⟨.unit c.toNat, Piece.decodeFrom_unit_control hcontrol, fun controls done rest => ?_⟩
        simp only [List.cons_append, List.nil_append, scanString, unit?_of_control hcontrol]
    · next hcontrol =>
        refine ⟨.char c, fun _ _ => rfl, fun controls done rest => ?_⟩
        rw [List.cons_append, List.nil_append, scanString, if_neg hquote, if_neg]
        · rintro (hc | ⟨hlt, -⟩)
          · exact hbackslash hc
          · exact hcontrol hlt
        · intro _ _ _ _ _ hc
          exact absurd hc hbackslash
        · intro _ _ hc
          exact absurd hc hbackslash
  all_goals exact ⟨.char _, fun _ _ => rfl, fun _ _ _ => rfl⟩

/-- Written characters are read, up to the quote, as pieces that spell them. -/
theorem exists_pieces_of_written (cs : List Char) (controls : Bool) (done : List Piece)
    (rest : List Char) :
    ∃ pieces, scanString '\x22' controls done (cs.flatMap writtenChar ++ '\x22' :: rest) =
        some (done.reverse ++ pieces, rest) ∧
      ∀ before, Piece.decodeFrom before pieces = some (before.reverse ++ cs) := by
  induction cs generalizing done with
  | nil => exact ⟨[], by simp [scanString], by simp [Piece.decodeFrom]⟩
  | cons c cs ih =>
      obtain ⟨piece, hdecode, hscan⟩ := exists_piece_of_writtenChar c
      obtain ⟨pieces, hrest, hpieces⟩ := ih (piece :: done)
      refine ⟨piece :: pieces, ?_, fun before => ?_⟩
      · rw [List.flatMap_cons, List.append_assoc, hscan, hrest]
        simp
      · rw [hdecode, hpieces]
        simp

theorem exists_pieces_of_text (text : String) (controls : Bool) (rest : List Char) :
    ∃ pieces, scanString '\x22' controls [] (text.toList.flatMap writtenChar ++ '\x22' :: rest) =
        some (pieces, rest) ∧ Piece.decode pieces = some text := by
  obtain ⟨pieces, hscan, hpieces⟩ := exists_pieces_of_written text.toList controls [] rest
  refine ⟨pieces, hscan, ?_⟩
  rw [Piece.decode, hpieces]
  exact congrArg some (String.ofList_toList (s := text))

theorem writtenString_append (text : String) (rest : List Char) :
    writtenString text ++ rest = '\x22' :: (text.toList.flatMap writtenChar ++ '\x22' :: rest) := by
  simp [writtenString]

theorem Strict.scan_writtenString (text : String) (rest : List Char) :
    Strict.scan (writtenString text ++ rest) =
      some (some (.atom (some (some text)) (some (some (.string text)))), rest) := by
  obtain ⟨pieces, hscan, hdecode⟩ := exists_pieces_of_text text false rest
  rw [writtenString_append]
  change scanQuoted _ = _
  rw [scanQuoted, hscan]
  dsimp only [Option.map]
  rw [hdecode]

theorem Relaxed.scan_writtenString (text : String) (rest : List Char) :
    Relaxed.scan (writtenString text ++ rest) =
      some (some (.atom (some text) (some (.string text))), rest) := by
  obtain ⟨pieces, hscan, hdecode⟩ := exists_pieces_of_text text true rest
  rw [writtenString_append]
  change scanQuoted '\x22' _ = _
  rw [scanQuoted, hscan]
  dsimp only [Option.bind]
  rw [hdecode]
  rfl

/-- A text that may follow a written value. -/
inductive Delimited : List Char → Prop
  | ending : Delimited []
  | comma (rest : List Char) : Delimited (',' :: rest)
  | bracket (rest : List Char) : Delimited (']' :: rest)
  | brace (rest : List Char) : Delimited ('}' :: rest)

/-- The digits of a number other than 0 do not start with 0. -/
theorem exists_toDigits_eq_cons {n : Nat} (h : 0 < n) :
    ∃ d ds, Nat.toDigits 10 n = d :: ds ∧ d ≠ '0' := by
  induction n using Nat.strongRecOn with
  | ind n ih =>
      rcases Nat.lt_or_ge n 10 with hlt | hge
      · refine ⟨n.digitChar, [], Nat.toDigits_of_lt_base hlt, ?_⟩
        exact (by decide : ∀ n < 10, 0 < n → n.digitChar ≠ '0') n hlt h
      · obtain ⟨d, ds, hdigits, hd⟩ := ih (n / 10) (by omega) (by omega)
        refine ⟨d, ds ++ [(n % 10).digitChar], ?_, hd⟩
        rw [Nat.toDigits_of_base_le (by omega) hge, hdigits]
        rfl

namespace Numeral

/-- A number as the writer spells it. -/
def spelled (negative : Bool) (n : Nat) : Numeral where
  negative := negative
  whole := (Nat.toDigits 10 n).map digitValue

theorem ofDigits_toDigits (n : Nat) : ofDigits ((Nat.toDigits 10 n).map digitValue) = n := by
  rw [ofDigits, List.foldl_map]
  exact Nat.ofDigitChars_ten_toDigits

theorem scanDigits_toDigits (n : Nat) {rest : List Char} (h : Delimited rest) :
    scanDigits (Nat.toDigits 10 n ++ rest) = some ((Nat.toDigits 10 n).map digitValue, rest) := by
  have hdigits : ∀ c ∈ Nat.toDigits 10 n, c.isDigit = true :=
    fun _ => Decimal.isDigit_of_mem_toDigits
  have htake : (Nat.toDigits 10 n ++ rest).takeWhile Char.isDigit = Nat.toDigits 10 n := by
    rw [List.takeWhile_append_of_pos hdigits]
    cases h <;> simp [Char.isDigit]
  have hdrop : (Nat.toDigits 10 n ++ rest).dropWhile Char.isDigit = rest := by
    rw [List.dropWhile_append_of_pos hdigits]
    cases h <;> simp [Char.isDigit]
  rw [scanDigits, htake, hdrop]
  cases hcs : Nat.toDigits 10 n with
  | nil => exact absurd hcs Nat.toDigits_ne_nil
  | cons d ds => rfl

theorem scanWhole_toDigits (n : Nat) {rest : List Char} (h : Delimited rest) :
    scanWhole (Nat.toDigits 10 n ++ rest) = some ((Nat.toDigits 10 n).map digitValue, rest) := by
  rcases Nat.eq_zero_or_pos n with rfl | hpos
  · rfl
  · obtain ⟨d, ds, hdigits, hd⟩ := exists_toDigits_eq_cons hpos
    have hscan := scanDigits_toDigits n h
    rw [hdigits] at hscan ⊢
    unfold scanWhole
    split
    · next heq => exact absurd (List.cons.inj heq).1 hd
    · exact hscan

/-- The longest numeral ends where the digits end. -/
theorem scan_toDigits (negative : Bool) (n : Nat) {rest : List Char} (h : Delimited rest) :
    scan negative (Nat.toDigits 10 n ++ rest) = some (spelled negative n, rest) := by
  have hfraction : scanFraction rest = some ([], rest) := by cases h <;> rfl
  have hexponent : scanExponent rest = some (none, rest) := by cases h <;> rfl
  rw [scan, scanWhole_toDigits n h]
  simp only [Option.bind_eq_bind, Option.bind_some, hfraction, hexponent]
  rfl

end Numeral

/-- An integer of 64 bits, with a sign or without one. -/
def FitsWord (v : Int) : Prop := -0x8000000000000000 ≤ v ∧ v < 0x10000000000000000

/-- An integer of 64 bits is written as a numeral that denotes it. -/
theorem exists_spelled {v : Int} (h : FitsWord v) :
    ∃ (negative : Bool) (n : Nat),
      v.repr.toList = (if negative then ['-'] else []) ++ Nat.toDigits 10 n ∧
        (Numeral.spelled negative n).integer? = some v := by
  obtain ⟨hlow, hhigh⟩ := h
  rcases Int.lt_or_le v 0 with hneg | hnonneg
  · obtain ⟨n, rfl⟩ : ∃ n : Nat, v = -(n : Int) := ⟨(-v).toNat, by omega⟩
    have hrepr : (-(n : Int)).repr.toList = '-' :: Nat.toDigits 10 n := by
      rw [Decimal.toList_repr, if_neg (by omega), Int.neg_neg, Int.toNat_natCast]
    refine ⟨true, n, hrepr, ?_⟩
    simp only [Numeral.integer?, Numeral.spelled, Numeral.ofDigits_toDigits, Numeral.wordBound]
    simp
    omega
  · obtain ⟨n, rfl⟩ := Int.eq_ofNat_of_zero_le hnonneg
    refine ⟨false, n, Nat.toList_repr, ?_⟩
    simp only [Numeral.integer?, Numeral.spelled, Numeral.ofDigits_toDigits, Numeral.wordBound]
    simp
    omega

theorem Scalar.ofNumeral?_of_integer? {n : Numeral} {v : Int} (h : n.integer? = some v) :
    Scalar.ofNumeral? n = some (.int v) := by
  rw [ofNumeral?, h]

/-- The digits of a number start with a digit. -/
theorem exists_isDigit_toDigits (n : Nat) :
    ∃ d ds, Nat.toDigits 10 n = d :: ds ∧ d.isDigit = true := by
  cases hcs : Nat.toDigits 10 n with
  | nil => exact absurd hcs Nat.toDigits_ne_nil
  | cons d ds => exact ⟨d, ds, rfl, Decimal.isDigit_of_mem_toDigits (hcs ▸ List.mem_cons_self)⟩

namespace Strict

theorem scan_of_isDigit {c : Char} (h : c.isDigit = true) (rest : List Char) :
    scan (c :: rest) = scanNumeral false (c :: rest) := by
  unfold scan
  split
  case h_1 heq => cases heq
  case h_13 heq =>
    cases heq
    rw [if_neg]
    intro hblank
    simp only [Char.isWhitespace, Bool.or_eq_true, decide_eq_true_eq] at hblank
    rcases hblank with ((rfl | rfl) | rfl) | rfl <;> exact absurd h (by decide)
  all_goals
    next heq =>
      cases heq
      exact absurd h (by decide)

theorem scan_int {v : Int} (hv : FitsWord v) {rest : List Char} (h : Delimited rest) :
    scan (v.repr.toList ++ rest) = some (some (.atom none (some (some (.int v)))), rest) := by
  obtain ⟨negative, n, hrepr, hvalue⟩ := exists_spelled hv
  have hnumeral : scanNumeral negative (Nat.toDigits 10 n ++ rest) =
      some (some (.atom none (some (some (.int v)))), rest) := by
    rw [scanNumeral, Numeral.scan_toDigits negative n h]
    dsimp only [Option.map]
    rw [Scalar.ofNumeral?_of_integer? hvalue]
    rfl
  rw [hrepr]
  cases negative with
  | true => exact hnumeral
  | false =>
      obtain ⟨d, ds, hdigits, hd⟩ := exists_isDigit_toDigits n
      rw [hdigits] at hnumeral ⊢
      exact (scan_of_isDigit hd (ds ++ rest)).trans hnumeral

end Strict

namespace Relaxed

open ParseTree.Text

theorem isBlank_of_isDigit {c : Char} (h : c.isDigit = true) : isBlank c = false := by
  have hc : 48 ≤ c.toNat ∧ c.toNat ≤ 57 := by
    simpa [Char.isDigit, UInt32.le_iff_toNat_le] using h
  have hall : ∀ n < 58, 48 ≤ n → isBlank (Char.ofNat n) = false := by decide
  rw [← Char.ofNat_toNat c]
  exact hall _ (by omega) hc.1

theorem scan_of_isDigit {c : Char} (h : c.isDigit = true) (rest : List Char) :
    scan (c :: rest) = scanNumber (c :: rest) := by
  unfold scan
  split
  case h_1 heq => cases heq
  case h_12 heq =>
    cases heq
    rw [if_neg (by simp [isBlank_of_isDigit h]), if_pos (by simp [h])]
  all_goals
    next heq =>
      cases heq
      exact absurd h (by decide)

theorem scanSigned_of_isDigit {c : Char} (h : c.isDigit = true) (rest : List Char) :
    scanSigned (c :: rest) = scanUnsigned false (c :: rest) := by
  unfold scanSigned
  split
  case h_3 => rfl
  all_goals
    next heq =>
      cases heq
      exact absurd h (by decide)

/-- The digits of a number are not taken for hexadecimal ones. -/
theorem scanUnsigned_toDigits (negative : Bool) (n : Nat) {rest : List Char}
    (h : Delimited rest) :
    scanUnsigned negative (Nat.toDigits 10 n ++ rest) =
      scanDecimal negative (Nat.toDigits 10 n ++ rest) := by
  -- only a zero could start a hexadecimal number, and nothing that follows it is an `x`
  rcases Nat.eq_zero_or_pos n with rfl | hpos
  · cases h <;> rfl
  · obtain ⟨d, ds, hdigits, hd⟩ := exists_toDigits_eq_cons hpos
    rw [hdigits]
    unfold scanUnsigned
    split
    · next heq => exact absurd (List.cons.inj heq).1 hd
    · next heq => exact absurd (List.cons.inj heq).1 hd
    · rfl

theorem scan_int {v : Int} (hv : FitsWord v) {rest : List Char} (h : Delimited rest) :
    ∃ name, scan (v.repr.toList ++ rest) = some (some (.atom name (some (.int v))), rest) := by
  obtain ⟨negative, n, hrepr, hvalue⟩ := exists_spelled hv
  have hunsigned : scanUnsigned negative (Nat.toDigits 10 n ++ rest) =
      some (some (.int v), rest) := by
    rw [scanUnsigned_toDigits negative n h, scanDecimal, Numeral.scan_toDigits negative n h]
    dsimp only [Option.map]
    rw [Scalar.ofNumeral?_of_integer? hvalue]
  have hnumber : ∀ cs, scanSigned cs = some (some (.int v), rest) →
      scanNumber cs = some (some (.atom (some (before cs rest)) (some (.int v))), rest) := by
    intro cs hsigned
    rw [scanNumber, hsigned]
    rfl
  rw [hrepr]
  cases negative with
  | true => exact ⟨_, hnumber ('-' :: (Nat.toDigits 10 n ++ rest)) hunsigned⟩
  | false =>
      obtain ⟨d, ds, hdigits, hd⟩ := exists_isDigit_toDigits n
      rw [hdigits] at hunsigned ⊢
      have hsigned := (scanSigned_of_isDigit hd (ds ++ rest)).trans hunsigned
      exact ⟨_, (scan_of_isDigit hd (ds ++ rest)).trans (hnumber _ hsigned)⟩

end Relaxed

/-- A scalar that is read as it is written. Numbers that are not integers of 64 bits are
left out. -/
def Scalar.Exact : Scalar → Prop
  | .int v => FitsWord v
  | .real _ => False
  | _ => True

theorem Strict.scan_render {s : Scalar} (hs : s.Exact) {rest : List Char} (h : Delimited rest) :
    ∃ name, Strict.scan (s.render ++ rest) = some (some (.atom name (some (some s))), rest) := by
  cases s with
  | null => exact ⟨none, rfl⟩
  | bool b => cases b <;> exact ⟨none, rfl⟩
  | int v => exact ⟨none, Strict.scan_int hs h⟩
  | real n => exact hs.elim
  | string text => exact ⟨_, Strict.scan_writtenString text rest⟩

theorem Relaxed.scan_render {s : Scalar} (hs : s.Exact) {rest : List Char} (h : Delimited rest) :
    ∃ name, Relaxed.scan (s.render ++ rest) = some (some (.atom name (some s)), rest) := by
  cases s with
  | null => cases h <;> exact ⟨none, rfl⟩
  | bool b => cases b <;> cases h <;> exact ⟨none, rfl⟩
  | int v => exact Relaxed.scan_int hs h
  | real n => exact hs.elim
  | string text => exact ⟨_, Relaxed.scan_writtenString text rest⟩

end ParseTree.Json
