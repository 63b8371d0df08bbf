/-!
# Words and their decimal texts

Token types, positions and counters have a fixed width, while every text that
spells one spells an integer. A `Word` is a type of integers within bounds: it
is seen through `toInt`, and `ofInt?` answers for exactly the integers it holds.

A number given as text is a run of one or more ASCII digits, leading zeros
allowed, after an optional sign. Unsigned readings accept only `+` as a sign.
Nothing may surround the number, and it must fit the word it is read as.
-/

namespace ParseTree

/-- The integers from `least` on and below `bound`, in at most 64 bits. -/
class Word (α : Type) where
  least : Int
  bound : Int
  toInt : α → Int
  /-- The word for an integer within the bounds, and any word for another. -/
  ofInt : Int → α
  toInt_within (a : α) : least ≤ toInt a ∧ toInt a < bound
  toInt_ofInt {n : Int} (h : least ≤ n ∧ n < bound) : toInt (ofInt n) = n
  ofInt_toInt (a : α) : ofInt (toInt a) = a
  width : -0x8000000000000000 ≤ least ∧ bound ≤ 0x10000000000000000

namespace Word

variable {α : Type} [Word α]

/-- Read an integer as a word, if it is within the bounds. -/
def ofInt? (n : Int) : Option α :=
  if least α ≤ n ∧ n < bound α then some (ofInt n) else none

/-- Read a natural number as a word. -/
def ofNat? (n : Nat) : Option α := ofInt? (n : Int)

theorem ofInt?_eq_some_iff {n : Int} {a : α} : ofInt? n = some a ↔ toInt a = n := by
  unfold ofInt?
  constructor
  · intro h
    split at h
    · next hn =>
        cases h
        exact toInt_ofInt hn
    · cases h
  · rintro rfl
    rw [if_pos (toInt_within a), ofInt_toInt]

@[simp] theorem ofInt?_toInt (a : α) : ofInt? (toInt a) = some a :=
  ofInt?_eq_some_iff.mpr rfl

/-- Whatever its width and sign, a word is an integer of 64 bits with or without a sign. -/
theorem toInt_bounds (a : α) :
    -0x8000000000000000 ≤ toInt a ∧ toInt a < 0x10000000000000000 := by
  obtain ⟨hleast, hbound⟩ := toInt_within a
  obtain ⟨hlow, hhigh⟩ := width (α := α)
  exact ⟨Int.le_trans hlow hleast, Int.lt_of_lt_of_le hbound hhigh⟩

instance : Word Int32 where
  least := -0x80000000
  bound := 0x80000000
  toInt := Int32.toInt
  ofInt := Int32.ofInt
  toInt_within a := ⟨a.le_toInt, a.toInt_lt⟩
  toInt_ofInt h := Int32.toInt_ofInt_of_le h.1 h.2
  ofInt_toInt := Int32.ofInt_toInt
  width := by decide

instance : Word Int64 where
  least := -0x8000000000000000
  bound := 0x8000000000000000
  toInt := Int64.toInt
  ofInt := Int64.ofInt
  toInt_within a := ⟨a.le_toInt, a.toInt_lt⟩
  toInt_ofInt h := Int64.toInt_ofInt_of_le h.1 h.2
  ofInt_toInt := Int64.ofInt_toInt
  width := by decide

instance : Word UInt32 where
  least := 0
  bound := 0x100000000
  toInt a := a.toNat
  ofInt n := UInt32.ofNat n.toNat
  toInt_within a := ⟨Int.natCast_nonneg _, Int.ofNat_lt.mpr a.toNat_lt⟩
  toInt_ofInt h := by
    rw [UInt32.toNat_ofNat_of_lt' ((Int.toNat_lt h.1).mpr h.2), Int.toNat_of_nonneg h.1]
  ofInt_toInt a := by rw [Int.toNat_natCast, UInt32.ofNat_toNat]
  width := by decide

instance : Word UInt64 where
  least := 0
  bound := 0x10000000000000000
  toInt a := a.toNat
  ofInt n := UInt64.ofNat n.toNat
  toInt_within a := ⟨Int.natCast_nonneg _, Int.ofNat_lt.mpr a.toNat_lt⟩
  toInt_ofInt h := by
    rw [UInt64.toNat_ofNat_of_lt' ((Int.toNat_lt h.1).mpr h.2), Int.toNat_of_nonneg h.1]
  ofInt_toInt a := by rw [Int.toNat_natCast, UInt64.ofNat_toNat]
  width := by decide

end Word

namespace Decimal

/-- The value of a nonempty run of ASCII digits. -/
def digits? (cs : List Char) : Option Nat :=
  if cs ≠ [] ∧ cs.all Char.isDigit then some (Nat.ofDigitChars 10 cs 0) else none

/-- The value of a run of digits after an optional `+`. -/
def natural? : List Char → Option Nat
  | '+' :: cs => digits? cs
  | cs => digits? cs

/-- The value of a run of digits after an optional sign. -/
def integer? : List Char → Option Int
  | '-' :: cs => (digits? cs).map fun n : Nat => -(n : Int)
  | cs => (natural? cs).map fun n : Nat => (n : Int)

def unsigned? {α : Type} [Word α] (text : String) : Option α :=
  (natural? text.toList).bind Word.ofNat?

def signed? {α : Type} [Word α] (text : String) : Option α :=
  (integer? text.toList).bind Word.ofInt?

/-- The canonical decimal text of a word. -/
def render {α : Type} [Word α] (a : α) : String :=
  (Word.toInt a).repr

theorem digits?_eq_some_iff {cs : List Char} {n : Nat} :
    digits? cs = some n ↔
      cs ≠ [] ∧ (∀ c ∈ cs, c.isDigit) ∧ Nat.ofDigitChars 10 cs 0 = n := by
  simp [digits?, and_assoc]

theorem isDigit_of_mem_toDigits {n : Nat} {c : Char} (h : c ∈ Nat.toDigits 10 n) :
    c.isDigit = true :=
  Nat.isDigit_of_mem_toDigits (by omega) (by omega) h

theorem digits?_toDigits (n : Nat) : digits? (Nat.toDigits 10 n) = some n :=
  digits?_eq_some_iff.mpr
    ⟨Nat.toDigits_ne_nil, fun _ => isDigit_of_mem_toDigits, Nat.ofDigitChars_ten_toDigits⟩

theorem natural?_of_digits? {cs : List Char} {n : Nat} (h : digits? cs = some n) :
    natural? cs = some n := by
  unfold natural?
  split
  · -- a sign is not a digit
    have hplus : '+'.isDigit = true := (digits?_eq_some_iff.mp h).2.1 '+' List.mem_cons_self
    cases hplus
  · exact h

theorem integer?_of_digits? {cs : List Char} {n : Nat} (h : digits? cs = some n) :
    integer? cs = some (n : Int) := by
  unfold integer?
  split
  · have hminus : '-'.isDigit = true := (digits?_eq_some_iff.mp h).2.1 '-' List.mem_cons_self
    cases hminus
  · rw [natural?_of_digits? h, Option.map_some]

/-- A canonical text is a run of digits, after a sign if the number is negative. -/
theorem toList_repr (v : Int) :
    v.repr.toList =
      if 0 ≤ v then Nat.toDigits 10 v.toNat else '-' :: Nat.toDigits 10 (-v).toNat := by
  rw [Int.repr_eq_if]
  split
  · exact Nat.toList_repr
  · rw [String.toList_append, Nat.toList_repr]
    rfl

theorem eq_minus_or_isDigit_of_mem_repr {v : Int} {c : Char} (h : c ∈ v.repr.toList) :
    c = '-' ∨ c.isDigit = true := by
  rw [toList_repr] at h
  split at h
  · exact .inr (isDigit_of_mem_toDigits h)
  · rcases List.mem_cons.mp h with hminus | hdigit
    · exact .inl hminus
    · exact .inr (isDigit_of_mem_toDigits hdigit)

/-- Every integer is read from its canonical text. -/
theorem integer?_repr (v : Int) : integer? v.repr.toList = some v := by
  rw [toList_repr]
  split
  · next hv => rw [integer?_of_digits? (digits?_toDigits _), Int.toNat_of_nonneg hv]
  · next hv =>
      rw [integer?, digits?_toDigits, Option.map_some, Int.toNat_of_nonneg (by omega),
        Int.neg_neg]

variable {α : Type} [Word α]

theorem signed?_render (a : α) : signed? (render a) = some a := by
  rw [signed?, render, integer?_repr, Option.bind_some, Word.ofInt?_toInt]

theorem render_injective {a b : α} (h : render a = render b) : a = b := by
  have ha := signed?_render a
  rw [h, signed?_render] at ha
  exact (Option.some.inj ha).symm

/-- The canonical text of an index is read as that index. -/
theorem unsigned?_render (i : UInt64) : unsigned? (render i) = some i := by
  have htext : (render i).toList = Nat.toDigits 10 i.toNat := by
    change ((i.toNat : Int).repr).toList = _
    rw [toList_repr, if_pos (Int.natCast_nonneg _), Int.toNat_natCast]
  have hvalue : (i.toNat : Int) = Word.toInt i := rfl
  rw [unsigned?, htext, natural?_of_digits? (digits?_toDigits i.toNat), Option.bind_some,
    Word.ofNat?, hvalue, Word.ofInt?_toInt]

end Decimal

end ParseTree
