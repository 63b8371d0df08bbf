import Mathlib.Algebra.GroupWithZero.Nat
import Mathlib.Algebra.Ring.Int.Defs
import Mathlib.Data.List.Induction
import ParseTree.Proofs.Document.References

/-!
# Names before numbers

A rule and a token type are given by a text. If the text is a name, the first rule or the
least token type of that name is meant. Only a text that is no name is read as a number, by
a small grammar: one or more digits, any number of them zeros in front, after an optional
sign, and within the bounds of the word that is wanted. Here the grammar is written down as
such, and reading accepts exactly what it derives.
-/

namespace ParseTree

theorem Word.ofNat?_eq_some_iff {n : Nat} {index : UInt64} :
    Word.ofNat? n = some index ↔ index.toNat = n := by
  rw [Word.ofNat?, Word.ofInt?_eq_some_iff]
  exact Int.ofNat_inj

namespace Decimal

/-- A run of one or more ASCII digits, with the number that it denotes. -/
inductive Digits : List Char → Nat → Prop
  | single {c : Char} (hc : '0'.toNat ≤ c.toNat ∧ c.toNat ≤ '9'.toNat) :
      Digits [c] (c.toNat - '0'.toNat)
  | snoc {cs : List Char} {n : Nat} {c : Char} (run : Digits cs n)
      (hc : '0'.toNat ≤ c.toNat ∧ c.toNat ≤ '9'.toNat) :
      Digits (cs ++ [c]) (10 * n + (c.toNat - '0'.toNat))

/-- Digits after an optional `+`. -/
inductive SpellsNatural : List Char → Nat → Prop
  | plain {cs : List Char} {n : Nat} (run : Digits cs n) : SpellsNatural cs n
  | plus {cs : List Char} {n : Nat} (run : Digits cs n) : SpellsNatural ('+' :: cs) n

/-- Digits after an optional `+` or `-`. -/
inductive SpellsInteger : List Char → Int → Prop
  | natural {cs : List Char} {n : Nat} (h : SpellsNatural cs n) : SpellsInteger cs n
  | minus {cs : List Char} {n : Nat} (run : Digits cs n) : SpellsInteger ('-' :: cs) (-n)

theorem isDigit_iff {c : Char} : c.isDigit = true ↔ '0'.toNat ≤ c.toNat ∧ c.toNat ≤ '9'.toNat := by
  rw [Char.isDigit, Bool.and_eq_true, decide_eq_true_iff, decide_eq_true_iff]
  rfl

theorem Digits.ofDigitChars_eq {cs : List Char} {n : Nat} (h : Digits cs n) :
    Nat.ofDigitChars 10 cs 0 = n := by
  induction h with
  | single hc => rw [Nat.ofDigitChars_cons, Nat.ofDigitChars_nil, Nat.mul_zero, Nat.zero_add]
  | snoc run hc ih =>
      rw [Nat.ofDigitChars_append, ih, Nat.ofDigitChars_cons, Nat.ofDigitChars_nil]

theorem Digits.isDigit {cs : List Char} {n : Nat} (h : Digits cs n) : ∀ c ∈ cs, c.isDigit := by
  induction h with
  | single hc =>
      intro c hmem
      rw [List.mem_singleton.mp hmem]
      exact isDigit_iff.mpr hc
  | snoc run hc ih =>
      intro c hmem
      rcases List.mem_append.mp hmem with hmem | hmem
      · exact ih c hmem
      · rw [List.mem_singleton.mp hmem]
        exact isDigit_iff.mpr hc

theorem Digits.ne_nil {cs : List Char} {n : Nat} (h : Digits cs n) : cs ≠ [] := by
  cases h with
  | single hc => exact List.cons_ne_nil _ _
  | snoc run hc => exact List.append_ne_nil_of_right_ne_nil _ (List.cons_ne_nil _ _)

/-- The induction is from the right, as the grammar adds its digits. -/
theorem digits_of_isDigit {cs : List Char} (hne : cs ≠ []) (hcs : ∀ c ∈ cs, c.isDigit) :
    Digits cs (Nat.ofDigitChars 10 cs 0) := by
  induction cs using List.reverseRecOn with
  | nil => exact absurd rfl hne
  | append_singleton cs c ih =>
      have hc : '0'.toNat ≤ c.toNat ∧ c.toNat ≤ '9'.toNat := isDigit_iff.mp (hcs c (by simp))
      rw [Nat.ofDigitChars_append, Nat.ofDigitChars_cons, Nat.ofDigitChars_nil]
      by_cases hnil : cs = []
      · subst hnil
        rw [Nat.ofDigitChars_nil, Nat.mul_zero, Nat.zero_add]
        exact .single hc
      · exact .snoc (ih hnil fun d hd => hcs d (List.mem_append_left [c] hd)) hc

theorem digits?_eq_some_iff_digits {cs : List Char} {n : Nat} :
    digits? cs = some n ↔ Digits cs n := by
  rw [digits?_eq_some_iff]
  constructor
  · rintro ⟨hne, hcs, rfl⟩
    exact digits_of_isDigit hne hcs
  · intro h
    exact ⟨h.ne_nil, h.isDigit, h.ofDigitChars_eq⟩

theorem natural?_eq_some_iff {cs : List Char} {n : Nat} :
    natural? cs = some n ↔ SpellsNatural cs n := by
  constructor
  · intro h
    unfold natural? at h
    split at h
    · exact .plus (digits?_eq_some_iff_digits.mp h)
    · exact .plain (digits?_eq_some_iff_digits.mp h)
  · intro h
    cases h with
    | plain run => exact natural?_of_digits? (digits?_eq_some_iff_digits.mpr run)
    | plus run => exact digits?_eq_some_iff_digits.mpr run

/-- A number that starts with `-` is no natural number. -/
theorem not_spellsNatural_minus {cs : List Char} {n : Nat} : ¬ SpellsNatural ('-' :: cs) n := by
  intro h
  cases h with
  | plain run =>
      have hminus : '-'.isDigit = true := run.isDigit '-' List.mem_cons_self
      cases hminus

theorem integer?_of_ne_minus {cs : List Char} (h : ∀ rest, cs ≠ '-' :: rest) :
    integer? cs = (natural? cs).map fun n : Nat => (n : Int) := by
  unfold integer?
  split
  · next rest => exact absurd rfl (h rest)
  · rfl

theorem integer?_eq_some_iff {cs : List Char} {i : Int} :
    integer? cs = some i ↔ SpellsInteger cs i := by
  by_cases hminus : ∃ rest, cs = '-' :: rest
  · obtain ⟨rest, rfl⟩ := hminus
    rw [integer?, Option.map_eq_some_iff]
    constructor
    · rintro ⟨n, hn, rfl⟩
      exact .minus (digits?_eq_some_iff_digits.mp hn)
    · intro h
      cases h with
      | natural h => exact absurd h not_spellsNatural_minus
      | @minus _ n run => exact ⟨n, digits?_eq_some_iff_digits.mpr run, rfl⟩
  · have hne : ∀ rest, cs ≠ '-' :: rest := fun rest heq => hminus ⟨rest, heq⟩
    rw [integer?_of_ne_minus hne, Option.map_eq_some_iff]
    constructor
    · rintro ⟨n, hn, rfl⟩
      exact .natural (natural?_eq_some_iff.mp hn)
    · intro h
      cases h with
      | @natural _ n h => exact ⟨n, natural?_eq_some_iff.mpr h, rfl⟩
      | @minus rest _ _ => exact absurd rfl (hne rest)

/-- An index is read from exactly the texts that spell a natural number below 2 ^ 64. -/
theorem unsigned?_eq_some_iff {text : String} {n : Nat} :
    (unsigned? text : Option UInt64).map UInt64.toNat = some n ↔
      SpellsNatural text.toList n ∧ n ≤ 2 ^ 64 - 1 := by
  rw [unsigned?, Option.map_eq_some_iff]
  constructor
  · rintro ⟨index, hindex, rfl⟩
    obtain ⟨m, hm, hword⟩ := Option.bind_eq_some_iff.mp hindex
    obtain rfl := Word.ofNat?_eq_some_iff.mp hword
    have hlt := index.toNat_lt
    exact ⟨natural?_eq_some_iff.mp hm, by omega⟩
  · rintro ⟨hspells, hle⟩
    have hlt : n < UInt64.size := by
      rw [UInt64.size]
      omega
    have hvalue : (UInt64.ofNat n).toNat = n := UInt64.toNat_ofNat_of_lt' hlt
    refine ⟨UInt64.ofNat n, ?_, hvalue⟩
    rw [natural?_eq_some_iff.mpr hspells, Option.bind_some]
    exact Word.ofNat?_eq_some_iff.mpr hvalue

/-- A token type is read from exactly the texts that spell an integer from -2 ^ 31 to
2 ^ 31 - 1. -/
theorem signed?_eq_some_iff {text : String} {i : Int} :
    (signed? text : Option Int32).map Int32.toInt = some i ↔
      SpellsInteger text.toList i ∧ -2 ^ 31 ≤ i ∧ i ≤ 2 ^ 31 - 1 := by
  rw [signed?, Option.map_eq_some_iff]
  constructor
  · rintro ⟨type, htype, rfl⟩
    obtain ⟨j, hj, hword⟩ := Option.bind_eq_some_iff.mp htype
    obtain rfl : type.toInt = j := Word.ofInt?_eq_some_iff.mp hword
    have hle := type.le_toInt
    have hlt := type.toInt_lt
    exact ⟨integer?_eq_some_iff.mp hj, hle, by omega⟩
  · rintro ⟨hspells, hle, hge⟩
    have hvalue : (Int32.ofInt i).toInt = i :=
      Int32.toInt_ofInt_of_le hle (by omega)
    refine ⟨Int32.ofInt i, ?_, hvalue⟩
    rw [integer?_eq_some_iff.mpr hspells, Option.bind_some]
    exact Word.ofInt?_eq_some_iff.mpr hvalue

end Decimal

namespace TokenNames

variable {names : TokenNames} {type : Int32} {name : String}

/-- A type occurs at most once, so the entry that is found is the only one. -/
theorem name?_eq_some_iff : names.name? type = some name ↔ (type, name) ∈ names.entries := by
  rw [name?, Option.map_eq_some_iff]
  constructor
  · rintro ⟨⟨found, name⟩, hfound, rfl⟩
    obtain rfl : found = type := by simpa using List.find?_some hfound
    exact List.mem_of_find?_eq_some hfound
  · intro hmem
    refine ⟨(type, name), ?_, rfl⟩
    obtain ⟨before, after, hentries⟩ := List.append_of_mem hmem
    have hascending := names.ascending
    rw [hentries, List.pairwise_append] at hascending
    rw [hentries, List.find?_eq_some_iff_append]
    refine ⟨beq_self_eq_true type, before, after, rfl, fun e he => ?_⟩
    have hlt : e.1 < type := hascending.2.2 e he (type, name) List.mem_cons_self
    simpa using Int32.ne_of_lt hlt

/-- The entries are in ascending order, so the first of a name is the least. -/
theorem type?_of_name? (h : names.name? type = some name) :
    ∃ least, names.type? name = some least ∧ IsLeast {t | names.name? t = some name} least := by
  cases hfound : names.entries.find? (·.2 == name) with
  | none =>
      have hnone := List.find?_eq_none.mp hfound (type, name) (name?_eq_some_iff.mp h)
      simp at hnone
  | some e =>
      obtain ⟨least, found⟩ := e
      obtain ⟨hname, before, after, hentries, hbefore⟩ := List.find?_eq_some_iff_append.mp hfound
      obtain rfl : found = name := by simpa using hname
      refine ⟨least, by rw [type?, hfound, Option.map_some],
        name?_eq_some_iff.mpr (List.mem_of_find?_eq_some hfound), ?_⟩
      intro t ht
      have hascending := names.ascending
      rw [hentries, List.pairwise_append, List.pairwise_cons] at hascending
      have hat : (t, found) ∈ before ++ (least, found) :: after := by
        rw [← hentries]
        exact name?_eq_some_iff.mp ht
      rcases List.mem_append.mp hat with hearlier | hlater
      · have hother := hbefore (t, found) hearlier
        simp at hother
      · rcases List.mem_cons.mp hlater with heq | hlater
        · exact Int32.le_of_eq (congrArg Prod.fst heq).symm
        · exact Int32.le_of_lt (hascending.2.1.1 (t, found) hlater)

theorem type?_eq_none (h : ∀ t, names.name? t ≠ some name) : names.type? name = none := by
  rw [type?, Option.map_eq_none_iff, List.find?_eq_none]
  rintro ⟨t, found⟩ hmem heq
  obtain rfl : found = name := by simpa using heq
  exact h t (name?_eq_some_iff.mpr hmem)

end TokenNames

namespace Document

variable {names : List String} {text : String}

theorem resolveRule_eq_ok_iff {n : Nat} :
    resolveRule names (.name text) = .ok n ↔ RuleRef.resolveName? names text = some n := by
  rw [resolveRule]
  cases RuleRef.resolveName? names text with
  | none => simp
  | some index => simp

theorem resolveRule_eq_unknownRule_iff :
    resolveRule names (.name text) = .error (.unknownRule text) ↔
      RuleRef.resolveName? names text = none := by
  rw [resolveRule]
  cases RuleRef.resolveName? names text with
  | none => simp
  | some index => simp

end Document

namespace RuleRef

theorem resolveName?_eq_some_iff_spells {names : List String} {text : String}
    (h : text ∉ names) {n : Nat} :
    resolveName? names text = some n ↔
      Decimal.SpellsNatural text.toList n ∧ n ≤ 2 ^ 64 - 1 := by
  rw [resolveName?_of_not_mem h]
  exact Decimal.unsigned?_eq_some_iff

end RuleRef

namespace Settings

variable {settings : Settings} {text : String}

theorem resolveTokenType?_of_name {type : Int32} (h : settings.tokenName? type = some text) :
    ∃ t, settings.resolveTokenType? text = some t ∧
      IsLeast {u | settings.tokenName? u = some text} t := by
  obtain ⟨t, htype, hleast⟩ := TokenNames.type?_of_name? h
  exact ⟨t, by rw [resolveTokenType?, htype, Option.some_or], hleast⟩

theorem resolveTokenType?_eq_some_iff_spells (h : ∀ t, settings.tokenName? t ≠ some text)
    {i : Int} :
    (settings.resolveTokenType? text).map Int32.toInt = some i ↔
      Decimal.SpellsInteger text.toList i ∧ -2 ^ 31 ≤ i ∧ i ≤ 2 ^ 31 - 1 := by
  rw [resolveTokenType?, TokenNames.type?_eq_none h, Option.none_or]
  exact Decimal.signed?_eq_some_iff

end Settings

/-- Every text that stands for a rule or a token type: a listed name is the first rule of
that name, and any other text is a rule exactly if it spells an index; a configured name is
the least token type of that name, and any other text is a token type exactly if it spells
one, within the bounds of a token type. -/
theorem names_resolved_before_numbers (text : String) (names : List String)
    (settings : Settings) :
    (text ∈ names → ∃ j, Document.resolveRule names (.name text) = .ok j ∧
      IsLeast {k | names[k]? = some text} j) ∧
    (text ∉ names →
      (∀ n, Document.resolveRule names (.name text) = .ok n ↔
        Decimal.SpellsNatural text.toList n ∧ n ≤ 2 ^ 64 - 1) ∧
      (Document.resolveRule names (.name text) = .error (.unknownRule text) ↔
        ¬ ∃ n ≤ 2 ^ 64 - 1, Decimal.SpellsNatural text.toList n)) ∧
    ((∃ t, settings.tokenName? t = some text) →
      ∃ t, settings.resolveTokenType? text = some t ∧
        IsLeast {u | settings.tokenName? u = some text} t) ∧
    ((∀ t, settings.tokenName? t ≠ some text) →
      (∀ i, (settings.resolveTokenType? text).map Int32.toInt = some i ↔
        Decimal.SpellsInteger text.toList i ∧ -2 ^ 31 ≤ i ∧ i ≤ 2 ^ 31 - 1) ∧
      (settings.resolveTokenType? text = none ↔
        ¬ ∃ i, -2 ^ 31 ≤ i ∧ i ≤ 2 ^ 31 - 1 ∧ Decimal.SpellsInteger text.toList i)) := by
  refine ⟨fun hmem => ?_, fun hmem => ⟨fun n => ?_, ?_⟩, ?_, fun hname => ⟨fun i => ?_, ?_⟩⟩
  · obtain ⟨j, hresolve, hleast⟩ := RuleRef.resolveName?_of_mem hmem
    exact ⟨j, Document.resolveRule_name hresolve, hleast⟩
  · rw [Document.resolveRule_eq_ok_iff]
    exact RuleRef.resolveName?_eq_some_iff_spells hmem
  · rw [Document.resolveRule_eq_unknownRule_iff, Option.eq_none_iff_forall_ne_some, not_exists]
    refine forall_congr' fun n => not_congr ?_
    rw [RuleRef.resolveName?_eq_some_iff_spells hmem, and_comm]
  · rintro ⟨t, ht⟩
    exact Settings.resolveTokenType?_of_name ht
  · exact Settings.resolveTokenType?_eq_some_iff_spells hname
  · rw [← Option.map_eq_none_iff (f := Int32.toInt), Option.eq_none_iff_forall_ne_some, not_exists]
    refine forall_congr' fun i => not_congr ?_
    rw [Settings.resolveTokenType?_eq_some_iff_spells hname, and_comm, and_assoc]

/-- A repeated name is its first rule and its least token type. A number may have a sign
and zeros in front, and the first one out of bounds is refused. -/
theorem resolved_of_repeated_names_and_long_numbers :
    let names := ["a", "b", "b"]
    let settings : Settings := { tokenNames := (TokenNames.empty.insert 3 "X").insert (-1) "X" }
    (∃ j, Document.resolveRule names (.name "b") = .ok j ∧ IsLeast {k | names[k]? = some "b"} j) ∧
      Document.resolveRule names (.name "+007") = .ok 7 ∧
      (¬ ∃ n ≤ 2 ^ 64 - 1, Decimal.SpellsNatural "18446744073709551616".toList n) ∧
      (∃ t, settings.resolveTokenType? "X" = some t ∧
        IsLeast {u | settings.tokenName? u = some "X"} t) ∧
      (settings.resolveTokenType? "-012").map Int32.toInt = some (-12) ∧
      ¬ ∃ i, -2 ^ 31 ≤ i ∧ i ≤ 2 ^ 31 - 1 ∧ Decimal.SpellsInteger "2147483648".toList i := by
  intro names settings
  have hseven : Decimal.SpellsNatural "+007".toList 7 := by
    apply Decimal.SpellsNatural.plus
    exact .snoc (.snoc (.single (by decide)) (by decide)) (by decide)
  have htwelve : Decimal.SpellsInteger "-012".toList (-12) := by
    apply Decimal.SpellsInteger.minus (n := 12)
    exact .snoc (.snoc (.single (by decide)) (by decide)) (by decide)
  have hname : ∀ text ≠ "X", ∀ t, settings.tokenName? t ≠ some text := by
    intro text hne t ht
    have hmem : (t, text) ∈ settings.tokenNames.entries := TokenNames.name?_eq_some_iff.mp ht
    have hall : ∀ e ∈ settings.tokenNames.entries, e.2 = "X" := by decide
    exact hne (hall (t, text) hmem)
  refine ⟨(names_resolved_before_numbers "b" names settings).1 (by decide), ?_, ?_, ?_, ?_, ?_⟩
  · have hseven' := (names_resolved_before_numbers "+007" names settings).2.1 (by decide)
    exact (hseven'.1 7).mpr ⟨hseven, by decide⟩
  · have hrefused := (names_resolved_before_numbers "18446744073709551616" names
      settings).2.1 (by decide)
    exact hrefused.2.mp rfl
  · exact (names_resolved_before_numbers "X" names settings).2.2.1 ⟨3, by decide⟩
  · have htwelve' := (names_resolved_before_numbers "-012" names settings).2.2.2
      (hname "-012" (by decide))
    exact (htwelve'.1 (-12)).mpr ⟨htwelve, by decide⟩
  · have hrefused := (names_resolved_before_numbers "2147483648" names settings).2.2.2
      (hname "2147483648" (by decide))
    exact hrefused.2.mp (by decide)

end ParseTree
