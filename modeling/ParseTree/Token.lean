import ParseTree.Word

/-!
# Tokens and spans

The leaves of a parse tree carry the tokens of a lexer: a type, the position in the
token stream (-1 when the token has none), the matched text, and where it stands in
the source. Type -1 is the end of the input.

A span runs from a start to a stop in the token stream, both included. It is valid
when it holds a position at all; `void`, from -1 down to -2, is the span of a node
that covers no token. A union with an invalid left span is the right one, as it
stands.
-/

namespace ParseTree

structure Span where
  start : Int64
  stop : Int64
deriving DecidableEq, Repr, Inhabited

namespace Span

def void : Span := ⟨-1, -2⟩

/-- The span of one position. -/
def single (position : Int64) : Span := ⟨position, position⟩

def Valid (s : Span) : Prop := s.start ≤ s.stop

instance (s : Span) : Decidable s.Valid := inferInstanceAs (Decidable (s.start ≤ s.stop))

/-- The number of positions; an invalid span has none. The count is made in integers.
In words of the width of a position it would overflow from 2 ^ 63 positions on, and
what it comes to there is left open: such spans are not asked for their length. -/
def length (s : Span) : Nat := (s.stop.toInt - s.start.toInt + 1).toNat

def isEmpty (s : Span) : Bool := !decide s.Valid

def contains (s : Span) (position : Int64) : Bool :=
  s.start ≤ position && position ≤ s.stop

/-- The least span over two valid ones. -/
def hull (s t : Span) : Span :=
  ⟨if s.start ≤ t.start then s.start else t.start,
    if s.stop ≤ t.stop then t.stop else s.stop⟩

def union (s t : Span) : Span :=
  if ¬ s.Valid then t
  else if ¬ t.Valid then s
  else s.hull t

/-- The union of a list, from the left, starting at `void`. -/
def unions (spans : List Span) : Span := spans.foldl union void

def render (s : Span) : String :=
  s.start.toInt.repr ++ ".." ++ s.stop.toInt.repr

instance : ToString Span := ⟨render⟩

theorem not_valid_void : ¬ void.Valid := by decide

theorem union_of_not_valid_left {s t : Span} (h : ¬ s.Valid) : s.union t = t := by
  simp [union, h]

theorem union_of_not_valid_right {s t : Span} (hs : s.Valid) (ht : ¬ t.Valid) :
    s.union t = s := by
  simp [union, hs, ht]

theorem union_of_valid {s t : Span} (hs : s.Valid) (ht : t.Valid) : s.union t = s.hull t := by
  simp [union, hs, ht]

theorem toList_render (s : Span) :
    s.render.toList =
      (Decimal.render s.start).toList ++ '.' :: '.' :: (Decimal.render s.stop).toList := by
  rw [render, String.toList_append, String.toList_append, List.append_assoc]
  rfl

/-- A number has no point in it, so the start ends where the first one stands. -/
theorem takeWhile_render (s : Span) :
    s.render.toList.takeWhile (· != '.') = (Decimal.render s.start).toList := by
  have hstart : ∀ c ∈ (Decimal.render s.start).toList, (c != '.') = true := by
    intro c hc
    rw [bne_iff_ne]
    rintro rfl
    rcases Decimal.eq_minus_or_isDigit_of_mem_repr hc with hminus | hdigit
    · cases hminus
    · cases hdigit
  rw [toList_render, List.takeWhile_append_of_pos hstart]
  exact List.append_nil _

/-- A span can be told from its text. -/
theorem render_injective {s t : Span} (h : s.render = t.render) : s = t := by
  have hstart : s.start = t.start := by
    apply Decimal.render_injective
    rw [← String.toList_inj, ← takeWhile_render, h, takeWhile_render]
  have hstop : s.stop = t.stop := by
    have htext := congrArg String.toList h
    rw [toList_render, toList_render, hstart, List.append_cancel_left_eq, List.cons.injEq,
      List.cons.injEq] at htext
    exact Decimal.render_injective (String.toList_inj.mp htext.2.2)
  cases s
  cases t
  rw [mk.injEq]
  exact ⟨hstart, hstop⟩

example : (⟨-3, 12⟩ : Span).render = "-3..12" := by decide +kernel

end Span

structure Token where
  type : Int32
  index : Int64 := -1
  text : String := ""
  line : UInt32 := 0
  column : UInt32 := 0
deriving DecidableEq, Repr, Inhabited

namespace Token

/-- The token type that marks the end of the input. -/
def endType : Int32 := -1

/-- The end-of-input token at a position. -/
def endOfInput (index : Int64) : Token := { type := endType, index }

def isEnd (t : Token) : Bool := t.type == endType

/-- How a token is shown to a reader: its text, except for the end of the input. -/
def display (t : Token) : String := if t.isEnd then "<EOF>" else t.text

def span (t : Token) : Span := .single t.index

end Token

end ParseTree
