import Mathlib.Order.Bounds.Basic
import ParseTree.Token

/-!
# Unions of many spans

A union skips an invalid span, whichever side it is on, as long as the other side is
valid; where neither is, it is the right one. So it is not commutative, but a union of many
spans depends on little: if some of them are valid, then only on these, regardless of their
order and number and of how the unions are grouped, and otherwise on the last span alone.
`IsUnionOf` says which span that is. Joining two such unions gives another one, and all the
rest follows from this.
-/

namespace ParseTree.Span

theorem start_hull_le_left (s t : Span) : (s.hull t).start ≤ s.start := by
  unfold hull
  dsimp only
  split
  · exact Int64.le_refl _
  · next h => exact Int64.le_of_lt (Int64.not_le.mp h)

theorem start_hull_le_right (s t : Span) : (s.hull t).start ≤ t.start := by
  unfold hull
  dsimp only
  split
  · next h => exact h
  · exact Int64.le_refl _

theorem left_le_stop_hull (s t : Span) : s.stop ≤ (s.hull t).stop := by
  unfold hull
  dsimp only
  split
  · next h => exact h
  · exact Int64.le_refl _

theorem right_le_stop_hull (s t : Span) : t.stop ≤ (s.hull t).stop := by
  unfold hull
  dsimp only
  split
  · exact Int64.le_refl _
  · next h => exact Int64.le_of_lt (Int64.not_le.mp h)

theorem start_hull_eq (s t : Span) :
    (s.hull t).start = s.start ∨ (s.hull t).start = t.start :=
  ite_eq_or_eq _ _ _

theorem stop_hull_eq (s t : Span) : (s.hull t).stop = s.stop ∨ (s.hull t).stop = t.stop :=
  (ite_eq_or_eq _ _ _).symm

/-- The starts or the stops of the valid spans in a list. -/
def endsOf (side : Span → Int64) (spans : List Span) : Set Int64 :=
  {i | ∃ s ∈ spans, s.Valid ∧ side s = i}

/-- The span runs from the least start of a valid span in the list to the greatest stop. -/
structure Covers (s : Span) (spans : List Span) : Prop where
  start : IsLeast (endsOf start spans) s.start
  stop : IsGreatest (endsOf stop spans) s.stop

variable {s t : Span} {l r : List Span}

/-- Only the valid spans matter, and not their order or number. -/
theorem endsOf_congr (side : Span → Int64) (h : ∀ s : Span, s.Valid → (s ∈ l ↔ s ∈ r)) :
    endsOf side l = endsOf side r := by
  ext i
  constructor
  · rintro ⟨s, hs, hvalid, rfl⟩
    exact ⟨s, (h s hvalid).mp hs, hvalid, rfl⟩
  · rintro ⟨s, hs, hvalid, rfl⟩
    exact ⟨s, (h s hvalid).mpr hs, hvalid, rfl⟩

theorem mem_endsOf_append {side : Span → Int64} {i : Int64} :
    i ∈ endsOf side (l ++ r) ↔ i ∈ endsOf side l ∨ i ∈ endsOf side r := by
  simp only [endsOf, Set.mem_ofPred_eq, List.mem_append, or_and_right, exists_or]

theorem Covers.congr (h : s.Covers l) (hsame : ∀ t : Span, t.Valid → (t ∈ l ↔ t ∈ r)) :
    s.Covers r where
  start := endsOf_congr Span.start hsame ▸ h.start
  stop := endsOf_congr Span.stop hsame ▸ h.stop

theorem Covers.unique (hs : s.Covers l) (ht : t.Covers l) : s = t := by
  have hstart : s.start = t.start :=
    Int64.le_antisymm (hs.start.2 ht.start.1) (ht.start.2 hs.start.1)
  have hstop : s.stop = t.stop :=
    Int64.le_antisymm (ht.stop.2 hs.stop.1) (hs.stop.2 ht.stop.1)
  calc
    s = ⟨s.start, s.stop⟩ := rfl
    _ = ⟨t.start, t.stop⟩ := by rw [hstart, hstop]
    _ = t := rfl

theorem Covers.valid (h : s.Covers l) : s.Valid := by
  obtain ⟨t, ht, hvalid, hstart⟩ := h.start.1
  have hstop : t.stop ≤ s.stop := h.stop.2 ⟨t, ht, hvalid, rfl⟩
  exact Int64.le_trans (hstart ▸ hvalid) hstop

theorem covers_singleton (h : s.Valid) : s.Covers [s] := by
  constructor
  · refine ⟨⟨s, List.mem_singleton_self s, h, rfl⟩, ?_⟩
    rintro i ⟨t, ht, -, rfl⟩
    rw [List.mem_singleton.mp ht]
    exact Int64.le_refl s.start
  · refine ⟨⟨s, List.mem_singleton_self s, h, rfl⟩, ?_⟩
    rintro i ⟨t, ht, -, rfl⟩
    rw [List.mem_singleton.mp ht]
    exact Int64.le_refl s.stop

/-- A hull reaches as far as the wider of its two sides. -/
theorem Covers.hull (hs : s.Covers l) (ht : t.Covers r) : (s.hull t).Covers (l ++ r) := by
  constructor
  · constructor
    · rw [mem_endsOf_append]
      rcases start_hull_eq s t with h | h
      · exact .inl (h ▸ hs.start.1)
      · exact .inr (h ▸ ht.start.1)
    · intro i hi
      rcases mem_endsOf_append.mp hi with hi | hi
      · exact Int64.le_trans (start_hull_le_left s t) (hs.start.2 hi)
      · exact Int64.le_trans (start_hull_le_right s t) (ht.start.2 hi)
  · constructor
    · rw [mem_endsOf_append]
      rcases stop_hull_eq s t with h | h
      · exact .inl (h ▸ hs.stop.1)
      · exact .inr (h ▸ ht.stop.1)
    · intro i hi
      rcases mem_endsOf_append.mp hi with hi | hi
      · exact Int64.le_trans (hs.stop.2 hi) (left_le_stop_hull s t)
      · exact Int64.le_trans (ht.stop.2 hi) (right_le_stop_hull s t)

/-- The span is the union of a list: the least span over the valid ones in it, or the last
one if none is valid, or void if there is none at all. -/
structure IsUnionOf (s : Span) (spans : List Span) : Prop where
  covers : (∃ t ∈ spans, t.Valid) → s.Covers spans
  eq_last : (∀ t ∈ spans, ¬ t.Valid) → s = spans.getLast?.getD void

theorem isUnionOf_nil : void.IsUnionOf [] where
  covers h := by simp at h
  eq_last _ := rfl

theorem isUnionOf_singleton (s : Span) : s.IsUnionOf [s] where
  covers h := by
    apply covers_singleton
    simpa using h
  eq_last _ := rfl

theorem IsUnionOf.unique (hs : s.IsUnionOf l) (ht : t.IsUnionOf l) : s = t := by
  by_cases h : ∃ u ∈ l, u.Valid
  · exact (hs.covers h).unique (ht.covers h)
  · have hnone : ∀ u ∈ l, ¬ u.Valid := fun u hu hvalid => h ⟨u, hu, hvalid⟩
    rw [hs.eq_last hnone, ht.eq_last hnone]

/-- The union is valid as soon as one of the spans is. -/
theorem IsUnionOf.valid_iff (h : s.IsUnionOf l) : s.Valid ↔ ∃ t ∈ l, t.Valid := by
  constructor
  · intro hvalid
    by_contra hnone
    have hlast := h.eq_last fun t ht htv => hnone ⟨t, ht, htv⟩
    cases hl : l.getLast? with
    | none =>
        rw [hl, Option.getD_none] at hlast
        exact not_valid_void (hlast ▸ hvalid)
    | some last =>
        rw [hl, Option.getD_some] at hlast
        exact hnone ⟨last, List.mem_of_getLast? hl, hlast ▸ hvalid⟩
  · intro hsome
    exact (h.covers hsome).valid

/-- Two unions are joined by one more. The right one must be of some span, since void on
the right would hide an invalid span that came last on the left. -/
theorem IsUnionOf.union (hs : s.IsUnionOf l) (ht : t.IsUnionOf r) (hr : r ≠ []) :
    (s.union t).IsUnionOf (l ++ r) := by
  have hlast : (l ++ r).getLast? = r.getLast? := by
    rw [List.getLast?_append, Option.or_of_isSome]
    simpa using hr
  by_cases hsv : s.Valid
  · have hl : ∃ u ∈ l ++ r, u.Valid := by
      obtain ⟨u, hu, hvalid⟩ := hs.valid_iff.mp hsv
      exact ⟨u, List.mem_append_left r hu, hvalid⟩
    refine ⟨fun _ => ?_, fun hnone => absurd hl (by simpa using hnone)⟩
    have hscovers := hs.covers (hs.valid_iff.mp hsv)
    by_cases htv : t.Valid
    · rw [union_of_valid hsv htv]
      exact hscovers.hull (ht.covers (ht.valid_iff.mp htv))
    · rw [union_of_not_valid_right hsv htv]
      refine hscovers.congr fun u hvalid => ?_
      have hu : u ∉ r := fun hmem => htv (ht.valid_iff.mpr ⟨u, hmem, hvalid⟩)
      simp [hu]
  · rw [union_of_not_valid_left hsv]
    have hnone : ∀ u ∈ l, ¬ u.Valid := fun u hu hvalid => hsv (hs.valid_iff.mpr ⟨u, hu, hvalid⟩)
    constructor
    · rintro ⟨u, hu, hvalid⟩
      have hur : u ∈ r := (List.mem_append.mp hu).resolve_left fun hul => hnone u hul hvalid
      refine (ht.covers ⟨u, hur, hvalid⟩).congr fun v hv => ?_
      have hvl : v ∉ l := fun hmem => hnone v hmem hv
      simp [hvl]
    · intro hall
      rw [hlast]
      exact ht.eq_last fun u hu => hall u (List.mem_append_right l hu)

theorem isUnionOf_foldl (h : s.IsUnionOf l) (rest : List Span) :
    (rest.foldl Span.union s).IsUnionOf (l ++ rest) := by
  induction rest generalizing s l with
  | nil => simpa using h
  | cons t rest ih =>
      have hstep := ih (h.union (isUnionOf_singleton t) (List.cons_ne_nil t []))
      simpa using hstep

theorem isUnionOf_unions (spans : List Span) : (unions spans).IsUnionOf spans :=
  isUnionOf_foldl isUnionOf_nil spans

/-- Both sides are the union of the same three spans. -/
theorem union_assoc (s t u : Span) : (s.union t).union u = s.union (t.union u) := by
  have hs := isUnionOf_singleton s
  have ht := isUnionOf_singleton t
  have hu := isUnionOf_singleton u
  have hleft : ((s.union t).union u).IsUnionOf [s, t, u] :=
    (hs.union ht (List.cons_ne_nil t [])).union hu (List.cons_ne_nil u [])
  have hright : (s.union (t.union u)).IsUnionOf [s, t, u] :=
    hs.union (ht.union hu (List.cons_ne_nil u [])) (List.cons_ne_nil t [u])
  exact hleft.unique hright

/-- Spans with unions between them, grouped in some way. -/
inductive Grouping where
  | span (s : Span)
  | union (left right : Grouping)

namespace Grouping

/-- The spans from left to right. -/
def spans : Grouping → List Span
  | .span s => [s]
  | .union left right => left.spans ++ right.spans

def value : Grouping → Span
  | .span s => s
  | .union left right => left.value.union right.value

theorem spans_ne_nil (g : Grouping) : g.spans ≠ [] := by
  induction g with
  | span s => exact List.cons_ne_nil s []
  | union left right ihLeft _ => simp [spans, ihLeft]

theorem isUnionOf_value (g : Grouping) : g.value.IsUnionOf g.spans := by
  induction g with
  | span s => exact isUnionOf_singleton s
  | union left right ihLeft ihRight => exact ihLeft.union ihRight right.spans_ne_nil

end Grouping

/-- If one of the spans is valid, their union from the left runs from the least start of a
valid one to the greatest stop; it is the same for every list and for every grouping that
has the same valid spans, in whatever order and however often. If none is valid, it is the
last span, or void for the empty list. And unions of any three spans can be regrouped. -/
theorem unions_from_least_to_greatest_or_last (spans : List Span) :
    ((∃ s ∈ spans, s.Valid) →
      IsLeast {i | ∃ s ∈ spans, s.Valid ∧ s.start = i} (unions spans).start ∧
      IsGreatest {i | ∃ s ∈ spans, s.Valid ∧ s.stop = i} (unions spans).stop ∧
      (∀ others : List Span, (∀ s : Span, s.Valid → (s ∈ others ↔ s ∈ spans)) →
        unions others = unions spans) ∧
      ∀ g : Grouping, (∀ s : Span, s.Valid → (s ∈ g.spans ↔ s ∈ spans)) →
        g.value = unions spans) ∧
    ((∀ s ∈ spans, ¬ s.Valid) → unions spans = spans.getLast?.getD void) ∧
    (∀ g : Grouping, g.spans = spans → g.value = unions spans) ∧
    ∀ s t u : Span, (s.union t).union u = s.union (t.union u) := by
  have hunion := isUnionOf_unions spans
  refine ⟨fun hsome => ?_, hunion.eq_last, ?_, union_assoc⟩
  · have hcovers := hunion.covers hsome
    have hagree : ∀ {t : Span} {others : List Span}, t.IsUnionOf others →
        (∀ s : Span, s.Valid → (s ∈ others ↔ s ∈ spans)) → t = unions spans := by
      intro t others ht hsame
      obtain ⟨s, hs, hvalid⟩ := hsome
      have hother := ht.covers ⟨s, (hsame s hvalid).mpr hs, hvalid⟩
      exact (hother.congr hsame).unique hcovers
    exact ⟨hcovers.start, hcovers.stop, fun others => hagree (isUnionOf_unions others),
      fun g => hagree g.isUnionOf_value⟩
  · rintro g rfl
    exact g.isUnionOf_value.unique hunion

/-- Invalid spans are skipped between valid ones, also when those are listed the other way
round, repeated and grouped to the right; of two invalid ones the second is left. -/
theorem unions_of_valid_between_invalid :
    let spans : List Span := [⟨5, 4⟩, ⟨3, 7⟩, void, ⟨-2, 1⟩, ⟨9, 0⟩]
    let others : List Span := [⟨-2, 1⟩, ⟨8, 6⟩, ⟨3, 7⟩, ⟨-2, 1⟩]
    let grouped : Grouping :=
      .union (.span ⟨-2, 1⟩) (.union (.span ⟨3, 7⟩) (.union (.span void) (.span ⟨3, 7⟩)))
    IsLeast {i | ∃ s ∈ spans, s.Valid ∧ s.start = i} (unions spans).start ∧
      IsGreatest {i | ∃ s ∈ spans, s.Valid ∧ s.stop = i} (unions spans).stop ∧
      unions others = unions spans ∧ grouped.value = unions spans ∧ unions spans = ⟨-2, 7⟩ ∧
      unions [⟨5, 4⟩, ⟨9, 0⟩] = ⟨9, 0⟩ := by
  intro spans others grouped
  obtain ⟨hvalid, -, -, -⟩ := unions_from_least_to_greatest_or_last spans
  obtain ⟨hstart, hstop, hothers, hgrouped⟩ := hvalid ⟨⟨3, 7⟩, by decide, by decide⟩
  have hinvalid := (unions_from_least_to_greatest_or_last [⟨5, 4⟩, ⟨9, 0⟩]).2.1 (by decide)
  have hlisted : (∀ s ∈ others, s.Valid → s ∈ spans) ∧ ∀ s ∈ spans, s.Valid → s ∈ others := by
    decide
  have hspans : (∀ s ∈ grouped.spans, s.Valid → s ∈ spans) ∧
      ∀ s ∈ spans, s.Valid → s ∈ grouped.spans := by
    decide
  refine ⟨hstart, hstop, hothers others fun s hs => ?_, hgrouped grouped fun s hs => ?_, by decide,
    hinvalid⟩
  · exact ⟨fun h => hlisted.1 s h hs, fun h => hlisted.2 s h hs⟩
  · exact ⟨fun h => hspans.1 s h hs, fun h => hspans.2 s h hs⟩

end ParseTree.Span
