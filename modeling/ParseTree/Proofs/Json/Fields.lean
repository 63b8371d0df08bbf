import Mathlib.Data.List.Basic
import ParseTree.Json.Value
import ParseTree.Proofs.Json.Reading

/-!
# Objects with distinct names

Where no two members of an object have the same name, each name has one value, so the
fields of a structure are found whole, and no member is replaced by a later one. What is
written here is of that kind.
-/

namespace ParseTree.Json

variable {κ α β : Type}

theorem mapM_eq_some_of_forall {f : α → Option β} {g : α → β} {l : List α}
    (h : ∀ a ∈ l, f a = some (g a)) : l.mapM f = some (l.map g) := by
  induction l with
  | nil => rfl
  | cons a l ih =>
      rw [List.forall_mem_cons] at h
      rw [List.mapM_cons, h.1, ih h.2]
      rfl

theorem onlyValue?_of_mem {members : List (String × β)} (hnodup : (members.map (·.1)).Nodup)
    {m : String × β} (hm : m ∈ members) : onlyValue? members m.1 = some (some m.2) := by
  have honly : members.filter (·.1 == m.1) = [m] := by
    induction members with
    | nil => cases hm
    | cons e rest ih =>
        rw [List.map_cons, List.nodup_cons] at hnodup
        rcases List.mem_cons.mp hm with rfl | hm
        · have hrest : rest.filter (·.1 == m.1) = [] := by
            rw [List.filter_eq_nil_iff]
            intro e he heq
            exact hnodup.1 (List.mem_map.mpr ⟨e, he, eq_of_beq heq⟩)
          rw [List.filter_cons_of_pos (by simp), hrest]
        · rw [List.filter_cons_of_neg, ih hnodup.2 hm]
          intro heq
          exact hnodup.1 (List.mem_map.mpr ⟨m, hm, (eq_of_beq heq).symm⟩)
  rw [onlyValue?, honly]

/-- A written structure has all its fields. -/
theorem fields?_map_object {spell : String → κ} {nameOf : κ → Option String}
    (hspell : ∀ name, nameOf (spell name) = some name) (atomOf : Scalar → α)
    {members : List (String × Value)} (hnodup : (members.map (·.1)).Nodup) :
    Form.fields? nameOf (members.map (·.1)) (Form.map spell atomOf (.object members)) =
      some (members.map fun m => some (m.2.map spell atomOf)) := by
  let read := members.map fun m => (m.1, m.2.map spell atomOf)
  have hread : (Form.mapMembers spell atomOf members).mapM
      (fun m => (nameOf m.1).map (·, m.2)) = some read := by
    rw [Form.mapMembers_eq_map, List.mapM_map]
    apply mapM_eq_some_of_forall
    intro m _
    exact congrArg (Option.map (·, m.2.map spell atomOf)) (hspell m.1)
  have hnames : read.map (·.1) = members.map (·.1) := by
    rw [List.map_map]
    rfl
  have hvalues : (members.map (·.1)).mapM (onlyValue? read) =
      some (members.map fun m => some (m.2.map spell atomOf)) := by
    rw [List.mapM_map]
    apply mapM_eq_some_of_forall
    intro m hm
    exact onlyValue?_of_mem (hnames ▸ hnodup) (List.mem_map_of_mem hm)
  rw [Form.map, Form.fields?]
  change Option.bind ((Form.mapMembers spell atomOf members).mapM
    fun m => (nameOf m.1).map (·, m.2)) _ = _
  rw [hread]
  exact hvalues

theorem Written.fields?_object {members : List (String × Value)}
    (hnodup : (members.map (·.1)).Nodup) :
    Written.fields? (members.map (·.1)) (Form.map some some (.object members)) =
      some (members.map fun m => some (m.2.map some some)) := by
  have hspell : ∀ name : String, id (some name) = some name := fun _ => rfl
  exact fields?_map_object hspell some hnodup

theorem Value.fields?_object {members : List (String × Value)}
    (hnodup : (members.map (·.1)).Nodup) :
    Value.fields? (members.map (·.1)) (.object members) = some (members.map fun m => some m.2) := by
  have hspell : ∀ name : String, some (id name) = some name := fun _ => rfl
  have hfields := fields?_map_object hspell id hnodup
  simp only [Form.map_id] at hfields
  exact hfields

/-- No object in the value has two members of the same name. -/
inductive Value.Distinct : Value → Prop
  | atom (s : Scalar) : Distinct (.atom s)
  | array {items : List Value} (h : ∀ item ∈ items, Distinct item) : Distinct (.array items)
  | object {members : List (String × Value)} (hnodup : (members.map (·.1)).Nodup)
      (h : ∀ m ∈ members, Distinct m.2) : Distinct (.object members)

namespace Relaxed

theorem lastMembers_of_nodup {members : List (String × Value)}
    (h : (members.map (·.1)).Nodup) : lastMembers members = members := by
  induction members with
  | nil => rfl
  | cons m rest ih =>
      rw [List.map_cons, List.nodup_cons] at h
      have hlast : rest.any (·.1 == m.1) = false := by
        rw [List.any_eq_false]
        intro e he heq
        exact h.1 (List.mem_map.mpr ⟨e, he, eq_of_beq heq⟩)
      rw [lastMembers, hlast, ih h.2]
      rfl

theorem settledItems_eq_self {items : List Value} (h : ∀ item ∈ items, settled item = item) :
    settledItems items = items := by
  induction items with
  | nil => rfl
  | cons item rest ih =>
      rw [List.forall_mem_cons] at h
      rw [settledItems, h.1, ih h.2]

theorem settledMembers_eq_self {members : List (String × Value)}
    (h : ∀ m ∈ members, settled m.2 = m.2) : settledMembers members = members := by
  induction members with
  | nil => rfl
  | cons m rest ih =>
      rw [List.forall_mem_cons] at h
      rw [settledMembers, h.1, ih h.2]

/-- Nothing is dropped where names are distinct. -/
theorem settled_of_distinct {v : Value} (h : v.Distinct) : settled v = v := by
  induction h with
  | atom s => rfl
  | array _ ih => rw [settled, settledItems_eq_self ih]
  | object hnodup _ ih => rw [settled, settledMembers_eq_self ih, lastMembers_of_nodup hnodup]

end Relaxed

theorem Strict.parse?_render {v : Value} (h : v.Exact) :
    Strict.parse? v.render = some (v.map some some) :=
  Strict.understands.read?_render none h

theorem Relaxed.parse?_render {v : Value} (hexact : v.Exact) (hdistinct : v.Distinct) :
    Relaxed.parse? v.render = some v := by
  rw [parse?, Relaxed.understands.read?_render _ hexact, Form.map_id, Option.map_some,
    settled_of_distinct hdistinct]

end ParseTree.Json
