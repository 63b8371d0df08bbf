import ParseTree.Proofs.Walk.Events

/-!
# The places of a walk's events

Every event of a walk has a place in the tree: the rules around its node. By recursion on
the tree the place of an event is at hand. A listener does not see it, but it can count,
one up at each entry and one down at each exit, and the count is right at every event.
-/

namespace ParseTree

variable {C : Type}

/-- An event of a walk with the rules of the tree around its node, innermost first. A rule
is not around itself, so its entry and its exit have the same place. -/
structure PlacedEvent (C : Type) where
  around : List (RuleNode C)
  event : WalkEvent C

namespace Node

mutual

/-- The events of a walk by recursion on the tree, given the rules around the node. -/
def placedEvents (around : List (RuleNode C)) : Node C → List (PlacedEvent C)
  | .rule id context children =>
      let r : RuleNode C := ⟨id, context, children⟩
      ⟨around, .enter r⟩ :: (allPlacedEvents (r :: around) children ++ [⟨around, .exit r⟩])
  | .terminal leaf => [⟨around, .terminal leaf⟩]
  | .error leaf => [⟨around, .error leaf⟩]

def allPlacedEvents (around : List (RuleNode C)) : List (Node C) → List (PlacedEvent C)
  | [] => []
  | n :: rest => n.placedEvents around ++ allPlacedEvents around rest

end

theorem allPlacedEvents_eq_flatMap (around : List (RuleNode C)) (nodes : List (Node C)) :
    allPlacedEvents around nodes = nodes.flatMap (placedEvents around) := by
  induction nodes with
  | nil => rfl
  | cons n rest ih => rw [allPlacedEvents, ih, List.flatMap_cons]

/-- These are the events that a listener hears, in the same order. -/
theorem map_event_placedEvents (n : Node C) (around : List (RuleNode C)) :
    (n.placedEvents around).map PlacedEvent.event = n.walkEvents := by
  induction n generalizing around with
  | rule id context children ih =>
      rw [placedEvents, allPlacedEvents_eq_flatMap, walkEvents_rule, List.map_cons,
        List.map_append, List.map_flatMap, List.flatMap_congr fun n hn => ih n hn _]
      rfl
  | terminal leaf =>
      rw [walkEvents_terminal]
      rfl
  | error leaf =>
      rw [walkEvents_error]
      rfl

end Node

/-- The node that the event is about. -/
def WalkEvent.node : WalkEvent C → Node C
  | .enter r => r.node
  | .enterHook r => r.node
  | .terminal leaf => .terminal leaf
  | .error leaf => .error leaf
  | .exitHook r => r.node
  | .exit r => r.node

namespace Node

/-- From the node these rules lead up to the root, each a parent of what is before it. -/
def LeadsUp (root : Node C) : Node C → List (RuleNode C) → Prop
  | n, [] => n = root
  | n, r :: above => n ∈ r.children ∧ LeadsUp root r.node above

theorem leadsUp_self (n : Node C) : LeadsUp n n [] := rfl

/-- The rules around the node of an event are those between the node and the root. -/
theorem leadsUp_of_mem_placedEvents {root n : Node C} {around : List (RuleNode C)}
    (h : LeadsUp root n around) {p : PlacedEvent C} (hp : p ∈ n.placedEvents around) :
    LeadsUp root p.event.node p.around := by
  induction n generalizing around with
  | rule id context children ih =>
      rw [placedEvents, allPlacedEvents_eq_flatMap, List.mem_cons, List.mem_append,
        List.mem_flatMap, List.mem_singleton] at hp
      rcases hp with rfl | ⟨c, hc, hp⟩ | rfl
      · exact h
      · have hup : LeadsUp root c (⟨id, context, children⟩ :: around) := ⟨hc, h⟩
        exact ih c hc hup hp
      · exact h
  | terminal leaf =>
      rw [List.mem_singleton.mp hp]
      exact h
  | error leaf =>
      rw [List.mem_singleton.mp hp]
      exact h

end Node

/-- The number of rules entered and not yet left after some more events. -/
def WalkEvent.openAfterAll (count : Nat) (events : List (WalkEvent C)) : Nat :=
  events.foldl openAfter count

theorem WalkEvent.openAfterAll_append (count : Nat) (first second : List (WalkEvent C)) :
    openAfterAll count (first ++ second) = openAfterAll (openAfterAll count first) second :=
  List.foldl_append

namespace PlacedEvent

/-- The rules that are open when a walk comes to the event: those around the node, and at
an exit the rule itself. -/
def openBefore (p : PlacedEvent C) : Nat :=
  match p.event with
  | .exit _ => p.around.length + 1
  | _ => p.around.length

/-- A count of the open rules is right at every event. -/
def Counted : Nat → List (PlacedEvent C) → Prop
  | _, [] => True
  | count, p :: rest => count = p.openBefore ∧ Counted (p.event.openAfter count) rest

theorem counted_append {count : Nat} {first second : List (PlacedEvent C)} :
    Counted count (first ++ second) ↔
      Counted count first ∧
        Counted (WalkEvent.openAfterAll count (first.map event)) second := by
  induction first generalizing count with
  | nil => simp [Counted, WalkEvent.openAfterAll]
  | cons p rest ih =>
      rw [List.cons_append, Counted, Counted, ih, and_assoc]
      rfl

/-- The count is right at every event and in the end what it was. -/
structure Level (count : Nat) (events : List (PlacedEvent C)) : Prop where
  counted : Counted count events
  openAfterAll_eq : WalkEvent.openAfterAll count (events.map event) = count

theorem Level.append {count : Nat} {first second : List (PlacedEvent C)}
    (h : Level count first) (h' : Level count second) : Level count (first ++ second) where
  counted := counted_append.mpr ⟨h.counted, by rw [h.openAfterAll_eq]; exact h'.counted⟩
  openAfterAll_eq := by
    rw [List.map_append, WalkEvent.openAfterAll_append, h.openAfterAll_eq, h'.openAfterAll_eq]

theorem Level.flatMap {around : List (RuleNode C)} {nodes : List (Node C)}
    (h : ∀ n ∈ nodes, Level around.length (n.placedEvents around)) :
    Level around.length (nodes.flatMap (Node.placedEvents around)) := by
  induction nodes with
  | nil => exact ⟨trivial, rfl⟩
  | cons n rest ih =>
      rw [List.flatMap_cons]
      exact (h n (by simp)).append (ih fun m hm => h m (List.mem_cons_of_mem n hm))

/-- Between the entry and the exit of a rule one more rule is open. -/
theorem Level.bracket {r : RuleNode C} {around : List (RuleNode C)}
    {events : List (PlacedEvent C)} (h : Level (around.length + 1) events) :
    Level around.length (⟨around, .enter r⟩ :: (events ++ [⟨around, .exit r⟩])) where
  counted := by
    refine ⟨rfl, counted_append.mpr ⟨h.counted, ?_⟩⟩
    change Counted (WalkEvent.openAfterAll (around.length + 1) _) _
    rw [h.openAfterAll_eq]
    exact ⟨rfl, trivial⟩
  openAfterAll_eq := by
    change WalkEvent.openAfterAll (around.length + 1)
      ((events ++ [PlacedEvent.mk around (.exit r)]).map event) = _
    rw [List.map_append, WalkEvent.openAfterAll_append, h.openAfterAll_eq]
    rfl

theorem level_placedEvents (n : Node C) (around : List (RuleNode C)) :
    Level around.length (n.placedEvents around) := by
  induction n generalizing around with
  | rule id context children ih =>
      rw [Node.placedEvents, Node.allPlacedEvents_eq_flatMap]
      apply Level.bracket
      exact Level.flatMap fun n hn => ih n hn (⟨id, context, children⟩ :: around)
  | terminal leaf => exact ⟨⟨rfl, trivial⟩, rfl⟩
  | error leaf => exact ⟨⟨rfl, trivial⟩, rfl⟩

end PlacedEvent

namespace Node

/-- When a walk leaves a rule, the count of open rules is not zero. -/
theorem openAfterAll_pos_of_exit {n : Node C} {before after : List (WalkEvent C)}
    {r : RuleNode C} (h : n.walkEvents = before ++ .exit r :: after) :
    0 < WalkEvent.openAfterAll 0 before := by
  rw [← n.map_event_placedEvents [], List.map_eq_append_iff] at h
  obtain ⟨placed, rest, hevents, rfl, hrest⟩ := h
  obtain ⟨p, later, rfl, hp, -⟩ := List.map_eq_cons_iff.mp hrest
  have hcounted := (PlacedEvent.level_placedEvents n []).counted
  rw [hevents, PlacedEvent.counted_append] at hcounted
  have hcount : WalkEvent.openAfterAll 0 (placed.map PlacedEvent.event) = p.openBefore :=
    hcounted.2.1
  rw [hcount, PlacedEvent.openBefore, hp]
  exact Nat.succ_pos _

/-- After a walk, no rule is open. -/
theorem openAfterAll_walkEvents (n : Node C) : WalkEvent.openAfterAll 0 n.walkEvents = 0 := by
  rw [← n.map_event_placedEvents []]
  exact (PlacedEvent.level_placedEvents n []).openAfterAll_eq

end Node

end ParseTree
