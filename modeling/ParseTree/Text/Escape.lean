/-!
# Escaped white space

Labels stand on one line, so a tab, a line feed or a carriage return in them is
written as a backslash and a letter. Nothing else changes, a backslash included.
-/

namespace ParseTree.Text

def escapeChar : Char → List Char
  | '\t' => ['\\', 't']
  | '\n' => ['\\', 'n']
  | '\r' => ['\\', 'r']
  | c => [c]

def escapeWhitespace (text : String) : String :=
  String.ofList (text.toList.flatMap escapeChar)

/-- The characters that are not left to stand in a label. -/
def isEscaped (c : Char) : Bool := c == '\t' || c == '\n' || c == '\r'

theorem escapeChar_of_not_isEscaped {c : Char} (h : isEscaped c = false) : escapeChar c = [c] := by
  unfold escapeChar
  split
  · cases h
  · cases h
  · cases h
  · rfl

theorem not_isEscaped_of_mem_escapeChar (c : Char) : ∀ d ∈ escapeChar c, isEscaped d = false := by
  cases h : isEscaped c with
  | true =>
      simp only [isEscaped, Bool.or_eq_true, beq_iff_eq] at h
      rcases h with (rfl | rfl) | rfl
      · simp [escapeChar, isEscaped]
      · simp [escapeChar, isEscaped]
      · simp [escapeChar, isEscaped]
  | false =>
      intro d hd
      rw [escapeChar_of_not_isEscaped h, List.mem_singleton] at hd
      rw [hd, h]

/-- An escaped text has no tab, line feed or carriage return left in it. -/
theorem not_isEscaped_of_mem_escapeWhitespace {text : String} {d : Char}
    (h : d ∈ (escapeWhitespace text).toList) : isEscaped d = false := by
  rw [escapeWhitespace, String.toList_ofList] at h
  obtain ⟨c, -, hd⟩ := List.mem_flatMap.mp h
  exact not_isEscaped_of_mem_escapeChar c d hd

/-- A text without these is its own escaped form, and no other text is. -/
theorem escapeWhitespace_eq_self_iff {text : String} :
    escapeWhitespace text = text ↔ ∀ c ∈ text.toList, isEscaped c = false := by
  constructor
  · intro h c hc
    rw [← h] at hc
    exact not_isEscaped_of_mem_escapeWhitespace hc
  · intro h
    have hplain : text.toList.map escapeChar = text.toList.map fun c => [c] :=
      List.map_congr_left fun c hc => escapeChar_of_not_isEscaped (h c hc)
    rw [escapeWhitespace, List.flatMap_def, hplain, ← List.flatMap_def, List.flatMap_singleton',
      String.ofList_toList]

example : escapeWhitespace "a\tb\nc\rd\\te" = "a\\tb\\nc\\rd\\te" := by decide +kernel

end ParseTree.Text
