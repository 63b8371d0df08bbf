import ParseTree.Proofs.Json.Lexemes

/-!
# Written values are read back

A dialect that finds the punctuation and the scalars of a written text where they stand
reads every written value back. The reader's position moves through a value from
where a value is due to where that value is complete, whatever surrounds it. Both
dialects are of that kind; all they do not share is what they make of names and
scalars.
-/

namespace ParseTree.Json

variable {κ α : Type}

namespace Form

mutual

/-- The form with other names and atoms. -/
def map (nameOf : String → κ) (atomOf : Scalar → α) : Value → Form κ α
  | .atom value => .atom (atomOf value)
  | .array items => .array (mapItems nameOf atomOf items)
  | .object members => .object (mapMembers nameOf atomOf members)

def mapItems (nameOf : String → κ) (atomOf : Scalar → α) : List Value → List (Form κ α)
  | [] => []
  | item :: rest => map nameOf atomOf item :: mapItems nameOf atomOf rest

def mapMembers (nameOf : String → κ) (atomOf : Scalar → α) :
    List (String × Value) → List (κ × Form κ α)
  | [] => []
  | (name, value) :: rest => (nameOf name, map nameOf atomOf value) :: mapMembers nameOf atomOf rest

end

mutual

theorem map_id : ∀ v : Value, v.map id id = v
  | .atom _ => rfl
  | .array items => congrArg Form.array (mapItems_id items)
  | .object members => congrArg Form.object (mapMembers_id members)

theorem mapItems_id : ∀ items : List Value, mapItems id id items = items
  | [] => rfl
  | item :: rest => by rw [mapItems, map_id item, mapItems_id rest]

theorem mapMembers_id : ∀ members : List (String × Value), mapMembers id id members = members
  | [] => rfl
  | (name, value) :: rest => by rw [mapMembers, map_id value, mapMembers_id rest, id]

end

theorem mapItems_eq_map (nameOf : String → κ) (atomOf : Scalar → α) (items : List Value) :
    mapItems nameOf atomOf items = items.map (map nameOf atomOf) := by
  induction items with
  | nil => rfl
  | cons item rest ih => rw [mapItems, ih, List.map_cons]

theorem mapMembers_eq_map (nameOf : String → κ) (atomOf : Scalar → α)
    (members : List (String × Value)) :
    mapMembers nameOf atomOf members =
      members.map fun m => (nameOf m.1, m.2.map nameOf atomOf) := by
  induction members with
  | nil => rfl
  | cons m rest ih => rw [mapMembers, ih, List.map_cons]

end Form

/-- All scalars of the value are read as they are written. -/
inductive Value.Exact : Value → Prop
  | atom {s : Scalar} (h : s.Exact) : Exact (.atom s)
  | array {items : List Value} (h : ∀ item ∈ items, Exact item) : Exact (.array items)
  | object {members : List (String × Value)} (h : ∀ m ∈ members, Exact m.2) :
      Exact (.object members)

/-- The dialect finds what the writer has written, lexeme by lexeme. -/
structure Dialect.Understands (d : Dialect κ α) (nameOf : String → κ) (atomOf : Scalar → α) :
    Prop where
  openArray : ∀ rest, d.scan ('[' :: rest) = some (some (.opening .array), rest)
  closeArray : ∀ rest, d.scan (']' :: rest) = some (some (.closing .array), rest)
  openObject : ∀ rest, d.scan ('{' :: rest) = some (some (.opening .object), rest)
  closeObject : ∀ rest, d.scan ('}' :: rest) = some (some (.closing .object), rest)
  colon : ∀ rest, d.scan (':' :: rest) = some (some .colon, rest)
  comma : ∀ rest, d.scan (',' :: rest) = some (some .comma, rest)
  name : ∀ text rest, ∃ value, d.scan (writtenString text ++ rest) =
    some (some (.atom (some (nameOf text)) value), rest)
  scalar : ∀ {s : Scalar}, s.Exact → ∀ {rest}, Delimited rest →
    ∃ name, d.scan (s.render ++ rest) = some (some (.atom name (some (atomOf s))), rest)

theorem Strict.understands : Strict.dialect.Understands some some where
  openArray _ := rfl
  closeArray _ := rfl
  openObject _ := rfl
  closeObject _ := rfl
  colon _ := rfl
  comma _ := rfl
  name text rest := ⟨_, Strict.scan_writtenString text rest⟩
  scalar hs _ hrest := Strict.scan_render hs hrest

theorem Relaxed.understands : Relaxed.dialect.Understands id id where
  openArray _ := rfl
  closeArray _ := rfl
  openObject _ := rfl
  closeObject _ := rfl
  colon _ := rfl
  comma _ := rfl
  name text rest := ⟨_, Relaxed.scan_writtenString text rest⟩
  scalar hs _ hrest := Relaxed.scan_render hs hrest

namespace Reader

theorem run_of_scan {d : Dialect κ α} {cs rest : List Char} {lexeme : Lexeme κ α}
    (hscan : d.scan cs = some (some lexeme, rest)) {state next : State κ α}
    (hstep : step d.looseCommas state lexeme = some next) : run d state cs = run d next rest := by
  cases cs with
  | nil => exact absurd (d.length_lt_of_scan hscan) (Nat.not_lt_zero _)
  | cons c cs =>
      rw [run]
      split
      · next hnone =>
          rw [hscan] at hnone
          cases hnone
      · next hsome =>
          rw [hscan] at hsome
          cases hsome
      · next lexeme' rest' hsome =>
          rw [hscan] at hsome
          cases hsome
          rw [hstep]

theorem Place.start_ne_afterPart : Place.start ≠ .afterPart := by decide

theorem Place.afterComma_ne_afterPart : Place.afterComma ≠ .afterPart := by decide

/-- In this state a value is due, and its place is the innermost of the holes. -/
structure Takes (looseCommas : Bool) (state : State κ α) (holes : List (Hole κ α)) : Prop where
  opening : ∀ c, step looseCommas state (.opening c) = beginValue holes (.opening c)
  atom : ∀ name value, step looseCommas state (.atom name (some value)) =
    some (complete (.atom value) holes)

theorem takes_value (looseCommas : Bool) (holes : List (Hole κ α)) :
    Takes looseCommas (.value holes) holes where
  opening _ := rfl
  atom _ _ := rfl

theorem takes_item (looseCommas : Bool) {place : Place} (hplace : place ≠ .afterPart)
    (before : List (Form κ α)) (holes : List (Hole κ α)) :
    Takes looseCommas (.part place (.items before) holes) (.item before :: holes) := by
  have hallows : place.allowsPart looseCommas = true := by
    simp [Place.allowsPart, hplace]
  constructor
  · intro c
    cases c <;> exact if_pos hallows
  · intro name value
    exact if_pos hallows

section Written

variable {d : Dialect κ α} {nameOf : String → κ} {atomOf : Scalar → α}

/-- The reader gets through the written value and puts it where it is due. -/
def Passes (d : Dialect κ α) (nameOf : String → κ) (atomOf : Scalar → α) (v : Value) : Prop :=
  ∀ {state : State κ α} {holes : List (Hole κ α)}, Takes d.looseCommas state holes →
    ∀ {rest : List Char}, Delimited rest →
      run d state (v.chars ++ rest) = run d (complete (v.map nameOf atomOf) holes) rest

theorem passes_atom (hd : d.Understands nameOf atomOf) {s : Scalar} (hs : s.Exact) :
    Passes d nameOf atomOf (.atom s) := by
  intro state holes htakes rest hrest
  obtain ⟨name, hscan⟩ := hd.scalar hs hrest
  exact run_of_scan hscan (htakes.atom name (atomOf s))

theorem delimited_moreItems (items : List Value) (rest : List Char) :
    Delimited (Value.charsOfMoreItems items ++ ']' :: rest) := by
  cases items with
  | nil => exact .bracket rest
  | cons item items => exact .comma _

theorem delimited_moreMembers (members : List (String × Value)) (rest : List Char) :
    Delimited (Value.charsOfMoreMembers members ++ '}' :: rest) := by
  cases members with
  | nil => exact .brace rest
  | cons m members => exact .comma _

/-- The items that are left are read one by one up to the closing bracket. -/
theorem run_moreItems (hd : d.Understands nameOf atomOf) (items : List Value)
    (ih : ∀ item ∈ items, Passes d nameOf atomOf item) (before : List (Form κ α))
    (holes : List (Hole κ α)) (rest : List Char) :
    run d (.part .afterPart (.items before) holes)
        (Value.charsOfMoreItems items ++ ']' :: rest) =
      run d (complete (.array (before.reverse ++ Form.mapItems nameOf atomOf items)) holes)
        rest := by
  induction items generalizing before with
  | nil =>
      rw [Form.mapItems, List.append_nil]
      exact run_of_scan (hd.closeArray rest) rfl
  | cons item items ih' =>
      have hcomma : run d (.part .afterPart (.items before) holes)
          (Value.charsOfMoreItems (item :: items) ++ ']' :: rest) =
          run d (.part .afterComma (.items before) holes)
            (item.chars ++ (Value.charsOfMoreItems items ++ ']' :: rest)) := by
        rw [Value.charsOfMoreItems, List.cons_append, List.cons_append, List.append_assoc]
        exact run_of_scan (hd.comma _) rfl
      have hitem := ih item List.mem_cons_self
        (takes_item d.looseCommas Place.afterComma_ne_afterPart before holes)
        (delimited_moreItems items rest)
      have hrest := ih' (fun i hi => ih i (List.mem_cons_of_mem _ hi))
        (item.map nameOf atomOf :: before)
      refine (hcomma.trans hitem).trans (hrest.trans ?_)
      simp [Form.mapItems]

theorem passes_array (hd : d.Understands nameOf atomOf) {items : List Value}
    (ih : ∀ item ∈ items, Passes d nameOf atomOf item) :
    Passes d nameOf atomOf (.array items) := by
  intro state holes htakes rest _
  have hopen : run d state (Value.chars (.array items) ++ rest) =
      run d (.part .start (.items []) holes) (Value.charsOfItems items ++ ']' :: rest) := by
    rw [Value.chars, List.cons_append, List.cons_append, List.append_assoc]
    exact run_of_scan (hd.openArray _) (htakes.opening .array)
  rw [hopen]
  cases items with
  | nil => exact run_of_scan (hd.closeArray rest) rfl
  | cons item items =>
      have hitem := ih item List.mem_cons_self
        (takes_item d.looseCommas Place.start_ne_afterPart [] holes)
        (delimited_moreItems items rest)
      rw [Value.charsOfItems, List.append_assoc, hitem]
      exact run_moreItems hd items (fun i hi => ih i (List.mem_cons_of_mem _ hi)) _ holes rest

/-- One member is read with its name. -/
theorem run_member (hd : d.Understands nameOf atomOf) {place : Place} (hplace : place ≠ .afterPart)
    (name : String) {value : Value} (hvalue : Passes d nameOf atomOf value)
    (before : List (κ × Form κ α)) (holes : List (Hole κ α)) {rest : List Char}
    (hrest : Delimited rest) :
    run d (.part place (.members before) holes)
        (writtenString name ++ ':' :: (value.chars ++ rest)) =
      run d (.part .afterPart (.members ((nameOf name, value.map nameOf atomOf) :: before)) holes)
        rest := by
  have hallows : place.allowsPart d.looseCommas = true := by
    simp [Place.allowsPart, hplace]
  obtain ⟨atom, hname⟩ := hd.name name (':' :: (value.chars ++ rest))
  calc
    run d (.part place (.members before) holes)
        (writtenString name ++ ':' :: (value.chars ++ rest))
    _ = run d (.colon before (nameOf name) holes) (':' :: (value.chars ++ rest)) :=
      run_of_scan hname (if_pos hallows)
    _ = run d (.value (.member before (nameOf name) :: holes)) (value.chars ++ rest) :=
      run_of_scan (hd.colon _) rfl
    _ = _ := hvalue (takes_value _ _) hrest

/-- The members that are left are read one by one up to the closing brace. -/
theorem run_moreMembers (hd : d.Understands nameOf atomOf) (members : List (String × Value))
    (ih : ∀ m ∈ members, Passes d nameOf atomOf m.2) (before : List (κ × Form κ α))
    (holes : List (Hole κ α)) (rest : List Char) :
    run d (.part .afterPart (.members before) holes)
        (Value.charsOfMoreMembers members ++ '}' :: rest) =
      run d (complete (.object (before.reverse ++ Form.mapMembers nameOf atomOf members)) holes)
        rest := by
  induction members generalizing before with
  | nil =>
      rw [Form.mapMembers, List.append_nil]
      exact run_of_scan (hd.closeObject rest) rfl
  | cons m members ih' =>
      obtain ⟨name, value⟩ := m
      have hcomma : run d (.part .afterPart (.members before) holes)
          (Value.charsOfMoreMembers ((name, value) :: members) ++ '}' :: rest) =
          run d (.part .afterComma (.members before) holes) (writtenString name ++
            ':' :: (value.chars ++ (Value.charsOfMoreMembers members ++ '}' :: rest))) := by
        rw [Value.charsOfMoreMembers]
        simp only [List.cons_append, List.append_assoc]
        exact run_of_scan (hd.comma _) rfl
      have hmember := run_member hd Place.afterComma_ne_afterPart name
        (ih (name, value) List.mem_cons_self) before holes (delimited_moreMembers members rest)
      have hrest := ih' (fun m hm => ih m (List.mem_cons_of_mem _ hm))
        ((nameOf name, value.map nameOf atomOf) :: before)
      refine (hcomma.trans hmember).trans (hrest.trans ?_)
      simp [Form.mapMembers]

theorem passes_object (hd : d.Understands nameOf atomOf) {members : List (String × Value)}
    (ih : ∀ m ∈ members, Passes d nameOf atomOf m.2) :
    Passes d nameOf atomOf (.object members) := by
  intro state holes htakes rest _
  have hopen : run d state (Value.chars (.object members) ++ rest) =
      run d (.part .start (.members []) holes) (Value.charsOfMembers members ++ '}' :: rest) := by
    rw [Value.chars, List.cons_append, List.cons_append, List.append_assoc]
    exact run_of_scan (hd.openObject _) (htakes.opening .object)
  rw [hopen]
  cases members with
  | nil => exact run_of_scan (hd.closeObject rest) rfl
  | cons m members =>
      obtain ⟨name, value⟩ := m
      have hmember := run_member hd Place.start_ne_afterPart name
        (ih (name, value) List.mem_cons_self) [] holes (delimited_moreMembers members rest)
      rw [Value.charsOfMembers, List.append_assoc, List.append_assoc, List.cons_append, hmember]
      exact run_moreMembers hd members (fun m hm => ih m (List.mem_cons_of_mem _ hm)) _ holes rest

theorem passes_of_exact (hd : d.Understands nameOf atomOf) {v : Value} (hv : v.Exact) :
    Passes d nameOf atomOf v := by
  induction hv with
  | atom hs => exact passes_atom hd hs
  | array _ ih => exact passes_array hd ih
  | object _ ih => exact passes_object hd ih

end Written

end Reader

/-- A written value is read back. -/
theorem Dialect.Understands.read?_render {d : Dialect κ α} {nameOf : String → κ}
    {atomOf : Scalar → α} (hd : d.Understands nameOf atomOf) (empty : Option (Form κ α)) {v : Value}
    (hv : v.Exact) : d.read? empty v.render = some (v.map nameOf atomOf) := by
  have hrun := Reader.passes_of_exact hd hv (Reader.takes_value d.looseCommas []) .ending
  rw [List.append_nil] at hrun
  rw [Dialect.read?, Value.render, String.toList_ofList, hrun, Reader.run]
  rfl

end ParseTree.Json
