import ParseTree.Proofs.Walk.Places
import ParseTree.Report.Outline

/-!
# The lines of an outline

An outline is written by a listener that knows only how deep it is, by a count that it
changes after the line of an entry and before that of an exit. What comes of it is a line
for each event, indented by the rules around the event's node, in the order of the tree.
-/

namespace ParseTree

variable {C : Type} [RuleContext C]

/-- The words of an event's line. No line is written for the hooks. -/
def WalkEvent.words (settings : Settings) (names : List String) : WalkEvent C → List String
  | .enter r => "enter" :: r.words settings names
  | .exit r => "exit" :: r.words settings names
  | .terminal leaf => "terminal" :: leaf.words settings
  | .error leaf => "error" :: leaf.words settings
  | .enterHook _ => []
  | .exitHook _ => []

/-- The line of an event: blanks according to the number of rules around its node, and
the words with a blank between them. -/
def PlacedEvent.line (settings : Settings) (names : List String) (p : PlacedEvent C) : String :=
  String.ofList (List.replicate (settings.indent.toNat * p.around.length) ' ') ++
    " ".intercalate (p.event.words settings names) ++ "\n"

namespace Outline

variable (settings : Settings) (names : List String)

theorem pushn_empty (k : Nat) : "".pushn ' ' k = String.ofList (List.replicate k ' ') := by
  rw [String.pushn_eq_repeat_push]
  induction k with
  | zero => rfl
  | succ k ih =>
      rw [Nat.repeat, ih, ← String.toList_inj, String.toList_push, String.toList_ofList,
        String.toList_ofList, List.replicate_succ']

/-- The outline with some more lines. -/
def append (o : Outline) (lines : List String) : Outline :=
  { o with text := o.text ++ String.join lines }

theorem append_append (o : Outline) (lines more : List String) :
    (o.append lines).append more = o.append (lines ++ more) := by
  simp [append, String.append_assoc]

/-- At the depth of an event, the line that is written is the event's. -/
theorem line_eq_append {o : Outline} {p : PlacedEvent C} (ho : o.depth = p.around.length) :
    o.line settings (" ".intercalate (p.event.words settings names)) =
      o.append [p.line settings names] := by
  simp [Outline.line, append, PlacedEvent.line, ho, pushn_empty, Nat.mul_comm,
    String.append_assoc]

theorem enterRule_writer {o : Outline} {around : List (RuleNode C)} (r : RuleNode C)
    (ho : o.depth = around.length) :
    (writer settings names).enterRule r o =
      { o.append [PlacedEvent.line settings names ⟨around, .enter r⟩] with
        depth := around.length + 1 } := by
  have hline := line_eq_append settings names (p := ⟨around, .enter r⟩) ho
  rw [WalkEvent.words, ← ruleLine_eq] at hline
  simp only [writer, hline, append, ho]

theorem exitRule_writer {o : Outline} {around : List (RuleNode C)} (r : RuleNode C)
    (ho : o.depth = around.length + 1) :
    (writer settings names).exitRule r o =
      { o.append [PlacedEvent.line settings names ⟨around, .exit r⟩] with
        depth := around.length } := by
  have hline := line_eq_append settings names (o := { o with depth := around.length })
    (p := ⟨around, .exit r⟩) rfl
  rw [WalkEvent.words, ← ruleLine_eq] at hline
  simp only [writer, ho, Nat.add_sub_cancel, hline, append]

/-- Siblings add their lines one after the other, if each of them leaves the depth as it
was. -/
theorem tours_writer {nodes : List (Node C)} (around : List (RuleNode C))
    (ih : ∀ n ∈ nodes, ∀ o : Outline, o.depth = around.length →
      n.tour (writer settings names) {} o =
        o.append ((n.placedEvents around).map (PlacedEvent.line settings names)))
    {o : Outline} (ho : o.depth = around.length) :
    Node.tours (writer settings names) {} nodes o =
      o.append ((nodes.flatMap (Node.placedEvents around)).map
        (PlacedEvent.line settings names)) := by
  induction nodes generalizing o with
  | nil => simp [Node.tours, append]
  | cons n rest ihRest =>
      let noted := o.append ((n.placedEvents around).map (PlacedEvent.line settings names))
      have hrest := ihRest (fun m hm => ih m (List.mem_cons_of_mem n hm)) (o := noted) ho
      rw [Node.tours, ih n (by simp) o ho, hrest, append_append, List.flatMap_cons,
        List.map_append]

/-- At the depth of a node, the lines of the node and of what is below it are written, and
the depth is in the end what it was. -/
theorem tour_writer (n : Node C) (around : List (RuleNode C)) {o : Outline}
    (ho : o.depth = around.length) :
    n.tour (writer settings names) {} o =
      o.append ((n.placedEvents around).map (PlacedEvent.line settings names)) := by
  induction n generalizing around o with
  | rule id context children ih =>
      let r : RuleNode C := ⟨id, context, children⟩
      let entered : Outline :=
        { o.append [PlacedEvent.line settings names ⟨around, .enter r⟩] with
          depth := around.length + 1 }
      have hchildren := tours_writer settings names (r :: around)
        (fun n hn o ho => ih n hn (r :: around) ho) (o := entered) rfl
      rw [Node.tour]
      dsimp only
      rw [enterRule_writer settings names r ho, hchildren,
        exitRule_writer settings names r rfl, Node.placedEvents,
        Node.allPlacedEvents_eq_flatMap]
      simp [append, entered, r, ho, String.append_assoc]
  | terminal leaf =>
      have hline := line_eq_append settings names (p := ⟨around, .terminal leaf⟩) ho
      rw [WalkEvent.words, ← leafLine_eq] at hline
      exact hline
  | error leaf =>
      have hline := line_eq_append settings names (p := ⟨around, .error leaf⟩) ho
      rw [WalkEvent.words, ← leafLine_eq] at hline
      exact hline

/-- The depth of the writer is its count of open rules. -/
theorem depth_foldl_writer (events : List (WalkEvent C)) (o : Outline) :
    (events.foldl (WalkEvent.tell (writer settings names) {}) o).depth =
      WalkEvent.openAfterAll o.depth events := by
  apply (List.foldl_hom depth _).symm
  intro o e
  cases e <;> rfl

end Outline

namespace Node

variable (settings : Settings) (names : List String)

theorem outline_eq_join_lines (n : Node C) :
    n.outline settings names =
      String.join ((n.placedEvents []).map (PlacedEvent.line settings names)) := by
  rw [outline, walk_eq, Outline.tour_writer settings names n [] rfl]
  exact String.empty_append

/-- For every tree, names and settings, the outline has for each event of the walk, by
recursion on the tree, a line with the event's words, indented by the number of rules
around the event's node, which lead from the node up to the root. The events are those
that a listener hears. The writer is never at depth 0 when a rule is left, and is there in
the end. -/
theorem outline_eq_indented_events (n : Node C) :
    n.outline settings names =
        String.join ((n.placedEvents []).map fun p =>
          String.ofList (List.replicate (settings.indent.toNat * p.around.length) ' ') ++
            " ".intercalate (p.event.words settings names) ++ "\n") ∧
      (n.placedEvents []).map PlacedEvent.event = n.walkEvents ∧
      (∀ p ∈ n.placedEvents [], LeadsUp n p.event.node p.around) ∧
      (∀ before r after, n.walkEvents = before ++ .exit r :: after →
        0 < (before.foldl (WalkEvent.tell (Outline.writer settings names) {}) {}).depth) ∧
      (n.walk (Outline.writer settings names) {} {}).depth = 0 := by
  refine ⟨outline_eq_join_lines settings names n, n.map_event_placedEvents [],
    fun p hp => leadsUp_of_mem_placedEvents n.leadsUp_self hp, ?_, ?_⟩
  · intro before r after hwalk
    rw [Outline.depth_foldl_writer]
    exact openAfterAll_pos_of_exit hwalk
  · rw [walk_eq_foldl, Outline.depth_foldl_writer]
    exact n.openAfterAll_walkEvents

end Node

end ParseTree
