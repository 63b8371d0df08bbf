import Mathlib.Data.List.Forall2
import ParseTree.Document.TreeSpec

/-!
# What describes a node

A JSON value describes a node in the first of four ways that fits it. Which one that is
depends on the whole value: a single item of `children` that describes nothing makes its
parent no rule, and the parent may still be a leaf. The grammar here says what each way
asks for, with the relation between items and children left open. Decoding is the one
relation that follows the grammar, and it is the only one, since what a value describes
is decided by smaller values.
-/

namespace ParseTree

open Json

namespace Json

variable {α : Type}

/-- No member has the name. -/
def Absent (members : List (String × α)) (name : String) : Prop := ∀ m ∈ members, m.1 ≠ name

/-- One member has the name and the value, and no other member has the name. -/
def Once (members : List (String × α)) (name : String) (value : α) : Prop :=
  ∃ before after, members = before ++ (name, value) :: after ∧ Absent before name ∧
    Absent after name

theorem filter_eq_nil_iff_absent {members : List (String × α)} {name : String} :
    members.filter (·.1 == name) = [] ↔ Absent members name := by
  rw [List.filter_eq_nil_iff]
  simp only [beq_iff_eq, Absent, ne_eq]

theorem filter_eq_singleton_iff {members : List (String × α)} {name : String} {m : String × α} :
    members.filter (·.1 == name) = [m] ↔ m.1 = name ∧ Once members name m.2 := by
  rw [List.filter_eq_cons_iff]
  simp only [beq_iff_eq, filter_eq_nil_iff_absent]
  constructor
  · rintro ⟨before, after, hmembers, hbefore, rfl, hafter⟩
    exact ⟨rfl, before, after, hmembers, hbefore, hafter⟩
  · rintro ⟨rfl, before, after, hmembers, hbefore, hafter⟩
    exact ⟨before, after, hmembers, hbefore, rfl, hafter⟩

theorem onlyValue?_eq_some_none_iff {members : List (String × α)} {name : String} :
    onlyValue? members name = some none ↔ Absent members name := by
  rw [← filter_eq_nil_iff_absent, onlyValue?]
  split
  · next hnil => exact iff_of_true rfl hnil
  · next hone =>
      rw [hone]
      exact iff_of_false nofun nofun
  · next hnil _ => exact iff_of_false nofun hnil

theorem onlyValue?_eq_some_some_iff {members : List (String × α)} {name : String} {value : α} :
    onlyValue? members name = some (some value) ↔ Once members name value := by
  have honce : members.filter (·.1 == name) = [(name, value)] ↔ Once members name value := by
    rw [filter_eq_singleton_iff, and_iff_right rfl]
  rw [← honce, onlyValue?]
  split
  · next hnil =>
      rw [hnil]
      exact iff_of_false nofun nofun
  · next key value' hone =>
      obtain ⟨rfl, -⟩ := filter_eq_singleton_iff.mp hone
      rw [hone]
      simp
  · next hone => exact iff_of_false nofun (hone _ _)

theorem Value.word?_eq_some_iff [Word α] {v : Value} {a : α} :
    v.word? = some a ↔ v = Value.ofWord a := by
  unfold Value.word?
  split
  · rw [Word.ofInt?_eq_some_iff, Value.ofWord, Value.int, Form.atom.injEq, Scalar.int.injEq]
    exact eq_comm
  · next hint => exact iff_of_false nofun fun h => hint _ h

theorem Value.bool?_eq_some_iff {v : Value} {b : Bool} : v.bool? = some b ↔ v = Value.bool b := by
  unfold Value.bool?
  split
  · simp [Value.bool]
  · next hbool => exact iff_of_false nofun fun h => hbool _ h

end Json

/-- The value that refers to a rule. -/
def RuleRef.toValue : RuleRef → Value
  | .index value => Value.ofWord value
  | .name text => Value.string text

namespace TreeSpec

/-- The value that gives a position or none. -/
def positionValue : Option UInt64 → Value
  | none => Value.null
  | some position => Value.ofWord position

section Grammar

variable (describes : Value → TreeSpec → Prop) (members : List (String × Value))

/-- The members describe a rule, given what the items of `children` describe. -/
structure FitsRule (ref : RuleRef) (alt : UInt64) (children : List TreeSpec) : Prop where
  rule : Once members "rule" ref.toValue
  alt : Absent members "alt" ∧ alt = 0 ∨ Once members "alt" (Value.ofWord alt)
  children : Absent members "children" ∧ children = [] ∨
    ∃ items, Once members "children" (.array items) ∧ List.Forall₂ describes items children

def FitsToken (position : UInt64) : Prop := Once members "token" (Value.ofWord position)

def FitsMissing (flag : Bool) : Prop := Once members "missing" (Value.bool flag)

/-- A position must be there, though it may be `null`. -/
def FitsError (position : Option UInt64) : Prop := Once members "error" (positionValue position)

end Grammar

/-- The node that a value describes in the first way that fits. -/
inductive FirstFit (describes : Value → TreeSpec → Prop) : Value → TreeSpec → Prop
  | rule {members : List (String × Value)} {ref : RuleRef} {alt : UInt64}
      {children : List TreeSpec} (fits : FitsRule describes members ref alt children) :
      FirstFit describes (.object members) (.rule ref alt children)
  | token {members : List (String × Value)} {position : UInt64}
      (noRule : ∀ ref alt children, ¬ FitsRule describes members ref alt children)
      (fits : FitsToken members position) :
      FirstFit describes (.object members) (.token position)
  | missing {members : List (String × Value)} {flag : Bool}
      (noRule : ∀ ref alt children, ¬ FitsRule describes members ref alt children)
      (noToken : ∀ position, ¬ FitsToken members position) (fits : FitsMissing members flag) :
      FirstFit describes (.object members) (.missing flag)
  | error {members : List (String × Value)} {position : Option UInt64}
      (noRule : ∀ ref alt children, ¬ FitsRule describes members ref alt children)
      (noToken : ∀ position, ¬ FitsToken members position)
      (noMissing : ∀ flag, ¬ FitsMissing members flag) (fits : FitsError members position) :
      FirstFit describes (.object members) (.error position)

end TreeSpec

theorem RuleRef.ofValue?_eq_some_iff {v : Value} {ref : RuleRef} :
    RuleRef.ofValue? v = some ref ↔ v = ref.toValue := by
  cases ref with
  | index i =>
      rw [toValue, ← Value.word?_eq_some_iff]
      unfold ofValue? Value.word?
      split <;> simp
  | name text =>
      unfold ofValue?
      split
      · next value =>
          refine iff_of_false (fun h => ?_) nofun
          obtain ⟨i, -, hi⟩ := Option.map_eq_some_iff.mp h
          cases hi
      · simp [toValue, Value.string]
      · next hstring => exact iff_of_false nofun fun h => hstring text h

namespace TreeSpec

theorem member?_eq_some_iff {β : Type} {decode : Value → Option β} {name : String}
    {members : List (String × Value)} {b : β} :
    member? decode name members = some b ↔ ∃ v, Once members name v ∧ decode v = some b := by
  simp only [member?, required, Option.bind_eq_some_iff, ← onlyValue?_eq_some_some_iff]
  constructor
  · rintro ⟨_, honly, v, rfl, hdecode⟩
    exact ⟨v, honly, hdecode⟩
  · rintro ⟨v, honly, hdecode⟩
    exact ⟨some v, honly, v, rfl, hdecode⟩

theorem memberOr?_eq_some_iff {β : Type} {absent : β} {decode : Value → Option β} {name : String}
    {members : List (String × Value)} {b : β} :
    memberOr? absent decode name members = some b ↔
      Absent members name ∧ b = absent ∨ ∃ v, Once members name v ∧ decode v = some b := by
  simp only [memberOr?, Option.bind_eq_some_iff, ← onlyValue?_eq_some_some_iff,
    ← onlyValue?_eq_some_none_iff]
  constructor
  · rintro ⟨_ | v, honly, hdecode⟩
    · exact .inl ⟨honly, (Option.some.inj hdecode).symm⟩
    · exact .inr ⟨v, honly, hdecode⟩
  · rintro (⟨honly, rfl⟩ | ⟨v, honly, hdecode⟩)
    · exact ⟨none, honly, rfl⟩
    · exact ⟨some v, honly, hdecode⟩

theorem position?_eq_some_iff {v : Value} {position : Option UInt64} :
    position? v = some position ↔ v = positionValue position := by
  unfold position?
  split
  · cases position with
    | none => exact iff_of_true rfl rfl
    | some p => exact iff_of_false nofun nofun
  · next hnull =>
      rw [Option.map_eq_some_iff]
      simp only [Value.word?_eq_some_iff]
      cases position with
      | none => exact iff_of_false nofun fun h => hnull h
      | some p => simp [positionValue]

/-- The value is decoded, and as this node. -/
def Decoded (v : Value) (spec : TreeSpec) : Prop := ofValue? v = some spec

theorem ofValues?_eq_some_iff {items : List Value} {specs : List TreeSpec} :
    ofValues? items = some specs ↔ List.Forall₂ Decoded items specs := by
  induction items generalizing specs with
  | nil =>
      rw [ofValues?, Option.some.injEq, List.forall₂_nil_left_iff]
      exact eq_comm
  | cons v rest ih =>
      rw [ofValues?, List.forall₂_cons_left_iff]
      simp only [Option.bind_eq_bind, Option.bind_eq_some_iff, Option.pure_def,
        Option.some.injEq, ih]
      constructor
      · rintro ⟨spec, hspec, specs', hspecs, rfl⟩
        exact ⟨spec, specs', hspec, hspecs, rfl⟩
      · rintro ⟨spec, specs', hspec, hspecs, rfl⟩
        exact ⟨spec, hspec, specs', hspecs, rfl⟩

/-- What the value of `children` comes to. -/
def children? : Value → Option (List TreeSpec)
  | .array items => ofValues? items
  | _ => none

theorem children?_eq_some_iff {v : Value} {children : List TreeSpec} :
    children? v = some children ↔
      ∃ items, v = .array items ∧ List.Forall₂ Decoded items children := by
  unfold children?
  split
  · simp [ofValues?_eq_some_iff]
  · next harray => exact iff_of_false nofun fun ⟨items, hv, _⟩ => harray items hv

theorem childrenOf_eq_map (members : List (String × Value)) :
    childrenOf members =
      (members.filter (·.1 == "children")).map fun m => children? m.2 := by
  induction members with
  | nil => rw [childrenOf, List.filter_nil, List.map_nil]
  | cons m rest ih =>
      have hcons : childrenOf (m :: rest) =
          if m.1 = "children" then children? m.2 :: childrenOf rest else childrenOf rest := by
        obtain ⟨name, value⟩ := m
        cases value <;> rfl
      rw [hcons, ih]
      by_cases hname : m.1 = "children"
      · rw [if_pos hname, List.filter_cons_of_pos (by simp [hname]), List.map_cons]
      · rw [if_neg hname, List.filter_cons_of_neg (by simp [hname])]

/-- The member `children` is read as any other that may be absent. -/
theorem onlyChildren?_childrenOf (members : List (String × Value)) :
    onlyChildren? (childrenOf members) = memberOr? [] children? "children" members := by
  rw [childrenOf_eq_map, memberOr?, onlyValue?]
  cases members.filter (·.1 == "children") with
  | nil => rfl
  | cons m rest =>
      cases rest with
      | nil => rfl
      | cons m' rest => rfl

section Ways

variable {members : List (String × Value)} {spec : TreeSpec}

theorem rule?_eq_some_iff :
    rule? members (onlyChildren? (childrenOf members)) = some spec ↔
      ∃ ref alt children, FitsRule Decoded members ref alt children ∧
        spec = .rule ref alt children := by
  rw [rule?, onlyChildren?_childrenOf]
  simp only [Option.bind_eq_bind, Option.bind_eq_some_iff, Option.pure_def, Option.some.injEq,
    member?_eq_some_iff, memberOr?_eq_some_iff, RuleRef.ofValue?_eq_some_iff,
    Value.word?_eq_some_iff, children?_eq_some_iff, exists_eq_right]
  constructor
  · rintro ⟨ref, hrule, alt, halt, children, hchildren, rfl⟩
    refine ⟨ref, alt, children, ⟨hrule, halt, ?_⟩, rfl⟩
    rcases hchildren with habsent | ⟨_, honce, items, rfl, hitems⟩
    · exact .inl habsent
    · exact .inr ⟨items, honce, hitems⟩
  · rintro ⟨ref, alt, children, ⟨hrule, halt, hchildren⟩, rfl⟩
    refine ⟨ref, hrule, alt, halt, children, ?_, rfl⟩
    rcases hchildren with habsent | ⟨items, honce, hitems⟩
    · exact .inl habsent
    · exact .inr ⟨.array items, honce, items, rfl, hitems⟩

theorem rule?_eq_none_iff :
    rule? members (onlyChildren? (childrenOf members)) = none ↔
      ∀ ref alt children, ¬ FitsRule Decoded members ref alt children := by
  rw [Option.eq_none_iff_forall_ne_some]
  simp only [ne_eq, rule?_eq_some_iff, not_exists, not_and]
  constructor
  · intro h ref alt children hfits
    exact h _ ref alt children hfits rfl
  · intro h _ ref alt children hfits
    exact absurd hfits (h ref alt children)

section Leaf

variable {β : Type} {decode : Value → Option β} {value : β → Value} {name : String}
  (hdecode : ∀ {v b}, decode v = some b ↔ v = value b)

include hdecode

/-- A leaf is made of the one member that it asks for. -/
theorem map_member?_eq_some_iff {make : β → TreeSpec} :
    (member? decode name members).map make = some spec ↔
      ∃ b, Once members name (value b) ∧ make b = spec := by
  simp only [Option.map_eq_some_iff, member?_eq_some_iff, hdecode, exists_eq_right]

theorem map_member?_eq_none_iff {make : β → TreeSpec} :
    (member? decode name members).map make = none ↔ ∀ b, ¬ Once members name (value b) := by
  rw [Option.map_eq_none_iff, Option.eq_none_iff_forall_ne_some]
  simp only [ne_eq, member?_eq_some_iff, hdecode, exists_eq_right]

end Leaf

theorem leaf?_eq_some_iff :
    leaf? members = some spec ↔
      (∃ position, FitsToken members position ∧ .token position = spec) ∨
      (∀ position, ¬ FitsToken members position) ∧
        ((∃ flag, FitsMissing members flag ∧ .missing flag = spec) ∨
        (∀ flag, ¬ FitsMissing members flag) ∧
          ∃ position, FitsError members position ∧ .error position = spec) := by
  have hword : ∀ {v : Value} {p : UInt64}, v.word? = some p ↔ v = Value.ofWord p :=
    Value.word?_eq_some_iff
  simp only [leaf?, Option.orElse_eq_or, Option.or_eq_some_iff, map_member?_eq_some_iff hword,
    map_member?_eq_none_iff hword, map_member?_eq_some_iff Value.bool?_eq_some_iff,
    map_member?_eq_none_iff Value.bool?_eq_some_iff, map_member?_eq_some_iff position?_eq_some_iff,
    FitsToken, FitsMissing, FitsError]

end Ways

/-- Decoding follows the grammar. -/
theorem ofValue?_eq_some_iff {v : Value} {spec : TreeSpec} :
    ofValue? v = some spec ↔ FirstFit Decoded v spec := by
  cases v with
  | atom value => exact iff_of_false nofun nofun
  | array items => exact iff_of_false nofun nofun
  | object members =>
      rw [ofValue?, Option.orElse_eq_or, Option.or_eq_some_iff, rule?_eq_some_iff,
        rule?_eq_none_iff, leaf?_eq_some_iff]
      constructor
      · rintro (⟨ref, alt, children, hfits, rfl⟩ | ⟨hrule, ⟨position, hfits, rfl⟩ |
          ⟨htoken, ⟨flag, hfits, rfl⟩ | ⟨hmissing, position, hfits, rfl⟩⟩⟩)
        · exact .rule hfits
        · exact .token hrule hfits
        · exact .missing hrule htoken hfits
        · exact .error hrule htoken hmissing hfits
      · intro h
        cases h with
        | rule hfits => exact .inl ⟨_, _, _, hfits, rfl⟩
        | token hrule hfits => exact .inr ⟨hrule, .inl ⟨_, hfits, rfl⟩⟩
        | missing hrule htoken hfits =>
            exact .inr ⟨hrule, .inr ⟨htoken, .inl ⟨_, hfits, rfl⟩⟩⟩
        | error hrule htoken hmissing hfits =>
            exact .inr ⟨hrule, .inr ⟨htoken, .inr ⟨hmissing, _, hfits, rfl⟩⟩⟩

/-- The value is an item of the array that is the one member `children`. -/
def IsItem (item v : Value) : Prop :=
  ∃ members items, v = .object members ∧ Once members "children" (.array items) ∧ item ∈ items

theorem IsItem.sizeOf_lt {item v : Value} (h : IsItem item v) : sizeOf item < sizeOf v := by
  obtain ⟨members, items, rfl, ⟨before, after, rfl, -⟩, hitem⟩ := h
  have hitems := List.sizeOf_lt_of_mem hitem
  have hmembers : sizeOf ("children", Form.array items) <
      sizeOf (before ++ ("children", Form.array items) :: after) :=
    List.sizeOf_lt_of_mem (List.mem_append_right _ List.mem_cons_self)
  simp only [Prod.mk.sizeOf_spec, Form.array.sizeOf_spec, Form.object.sizeOf_spec] at *
  omega

section Congr

variable {describes describes' : Value → TreeSpec → Prop}

/-- The grammar asks of no other values than the items what they describe. -/
theorem FitsRule.mono {members : List (String × Value)}
    (h : ∀ item, IsItem item (.object members) → ∀ spec, describes item spec → describes' item spec)
    {ref : RuleRef} {alt : UInt64} {children : List TreeSpec}
    (hfits : FitsRule describes members ref alt children) :
    FitsRule describes' members ref alt children := by
  refine ⟨hfits.rule, hfits.alt, ?_⟩
  rcases hfits.children with habsent | ⟨items, honce, hitems⟩
  · exact .inl habsent
  · have hall : ∀ item ∈ items, ∀ spec, describes item spec → describes' item spec :=
      fun item hitem => h item ⟨members, items, rfl, honce, hitem⟩
    refine .inr ⟨items, honce, ?_⟩
    exact ((List.forall₂_and_left _ _).mpr ⟨hall, hitems⟩).imp fun item spec hspec =>
      hspec.1 spec hspec.2

theorem FirstFit.congr {v : Value}
    (h : ∀ item, IsItem item v → ∀ spec, describes item spec ↔ describes' item spec)
    {spec : TreeSpec} (hfit : FirstFit describes v spec) : FirstFit describes' v spec := by
  -- that no rule fits is where the other direction is needed
  have hnoRule : ∀ {members}, v = .object members →
      (∀ ref alt children, ¬ FitsRule describes members ref alt children) →
      ∀ ref alt children, ¬ FitsRule describes' members ref alt children := by
    rintro members rfl hrule ref alt children hfits
    exact hrule ref alt children (hfits.mono fun item hitem spec => (h item hitem spec).mpr)
  cases hfit with
  | rule hfits => exact .rule (hfits.mono fun item hitem spec => (h item hitem spec).mp)
  | token hrule hfits => exact .token (hnoRule rfl hrule) hfits
  | missing hrule htoken hfits => exact .missing (hnoRule rfl hrule) htoken hfits
  | error hrule htoken hmissing hfits => exact .error (hnoRule rfl hrule) htoken hmissing hfits

end Congr

/-- Whatever follows the grammar finds what decoding finds. -/
theorem iff_decoded_of_firstFit {describes : Value → TreeSpec → Prop}
    (h : ∀ v spec, describes v spec ↔ FirstFit describes v spec) (v : Value) (spec : TreeSpec) :
    describes v spec ↔ Decoded v spec := by
  have ih : ∀ item, IsItem item v → ∀ spec, describes item spec ↔ Decoded item spec :=
    fun item hitem spec => iff_decoded_of_firstFit h item spec
  rw [h, Decoded, ofValue?_eq_some_iff]
  exact ⟨.congr ih, .congr fun item hitem spec => (ih item hitem spec).symm⟩
termination_by sizeOf v
decreasing_by exact hitem.sizeOf_lt

/-- A value is decoded as a node exactly if it describes that node in the first way that
fits, where the items of `children` describe what they are decoded as. Decoding is the
only relation between values and nodes that is so. -/
theorem decoding_is_firstFit :
    (∀ v spec, ofValue? v = some spec ↔ FirstFit (fun v spec => ofValue? v = some spec) v spec) ∧
    ∀ describes : Value → TreeSpec → Prop,
      (∀ v spec, describes v spec ↔ FirstFit describes v spec) →
        ∀ v spec, describes v spec ↔ ofValue? v = some spec :=
  ⟨fun _ _ => ofValue?_eq_some_iff, fun _ => iff_decoded_of_firstFit⟩

/-- A child that describes nothing makes its parent no rule, and the parent is a token by
another member. Without such a child it is a rule, whatever else it has, and with that
other member repeated it is nothing. -/
theorem decoding_is_firstFit_of_faulty_child :
    let parent (flag : Value) (more : List (String × Value)) : Value := .object
      (("token", Value.int 3) :: ("rule", Value.string "a") ::
        ("children", .array [.object [("missing", flag)]]) :: more)
    let describes : Value → TreeSpec → Prop := fun v spec => ofValue? v = some spec
    FirstFit describes (parent (Value.int 1) []) (.token 3) ∧
      FirstFit describes (parent (Value.bool false) []) (.rule (.name "a") 0 [.missing false]) ∧
      (∀ spec, ¬ FirstFit describes (parent (Value.int 1) [("token", Value.null)]) spec) ∧
      (∀ v spec, describes v spec ↔ FirstFit describes v spec) ∧
      ∀ v spec, describes v spec ↔ ofValue? v = some spec := by
  intro parent describes
  obtain ⟨hfollows, honly⟩ := decoding_is_firstFit
  refine ⟨(hfollows _ _).mp rfl, (hfollows _ _).mp rfl, ?_, hfollows, honly describes hfollows⟩
  intro spec hfit
  cases (hfollows _ _).mpr hfit

end TreeSpec

end ParseTree
