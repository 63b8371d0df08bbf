import ParseTree.Document.Basic
import ParseTree.Proofs.Node.Reading

/-!
# What a description says

A described tree is read here without building anything. `preorder` lists its nodes
as they stand in the document, `fault?` says what is wrong with a node by itself,
and `image?` is the tree that is described, without identities, if it can be made.
-/

namespace ParseTree.TreeSpec

/-- A property holds of every description if it holds of the leaves, and of a rule
whenever it holds of all its children. -/
@[elab_as_elim, induction_eliminator]
theorem induct {motive : TreeSpec → Prop}
    (rule : ∀ ref alt children, (∀ c ∈ children, motive c) → motive (.rule ref alt children))
    (token : ∀ position, motive (.token position))
    (missing : ∀ flag, motive (.missing flag))
    (error : ∀ position, motive (.error position)) (spec : TreeSpec) : motive spec :=
  @TreeSpec.rec motive (fun specs => ∀ c ∈ specs, motive c)
    rule token missing error (by simp) (by simp +contextual) spec

def isRule : TreeSpec → Bool
  | .rule _ _ _ => true
  | _ => false

mutual

/-- The described nodes, parents before children and left before right. -/
def preorder : TreeSpec → List TreeSpec
  | .rule ref alt children => .rule ref alt children :: preorders children
  | .token position => [.token position]
  | .missing flag => [.missing flag]
  | .error position => [.error position]

def preorders : List TreeSpec → List TreeSpec
  | [] => []
  | spec :: rest => spec.preorder ++ preorders rest

end

variable (tokens : Array Token) (names : List String)

/-- The described node can be made, its children aside. -/
def Sound : TreeSpec → Prop
  | .rule ref _ _ => ∃ index, Document.resolveRule names ref = .ok index
  | .token position => position.toNat < tokens.size
  | .missing flag => flag = true
  | .error position => ∀ p ∈ position, p.toNat < tokens.size

/-- What is wrong with a position in the token list. -/
def positionFault? (position : UInt64) : Option DocumentError :=
  if position.toNat < tokens.size then none
  else some (.tokenOutOfRange position.toNat tokens.size)

/-- What is wrong with the described node, its children aside. -/
def fault? : TreeSpec → Option DocumentError
  | .rule (.index _) _ _ => none
  | .rule (.name text) _ _ =>
      if (RuleRef.resolveName? names text).isSome then none else some (.unknownRule text)
  | .token position => positionFault? tokens position
  | .missing flag => if flag then none else some .missingNotTrue
  | .error position => position.bind (positionFault? tokens)

/-- The first fault in the order of the document. -/
def firstFault? (spec : TreeSpec) : Option DocumentError :=
  spec.preorder.findSome? (fault? tokens names)

@[simp] theorem firstFault?_token (position : UInt64) :
    (token position).firstFault? tokens names = positionFault? tokens position := by
  simp [firstFault?, preorder, fault?]

@[simp] theorem firstFault?_error (position : Option UInt64) :
    (error position).firstFault? tokens names = position.bind (positionFault? tokens) := by
  simp [firstFault?, preorder, fault?]

/-- A rule's own fault comes before those of its children. -/
theorem firstFault?_rule (ref : RuleRef) (alt : UInt64) (children : List TreeSpec) :
    (rule ref alt children).firstFault? tokens names =
      ((rule ref alt children).fault? tokens names).or
        ((preorders children).findSome? (fault? tokens names)) := by
  rw [firstFault?, preorder, List.findSome?_cons]
  cases (rule ref alt children).fault? tokens names with
  | none => rfl
  | some e => rfl

theorem findSome?_preorders_cons (spec : TreeSpec) (rest : List TreeSpec) :
    (preorders (spec :: rest)).findSome? (fault? tokens names) =
      (spec.firstFault? tokens names).or ((preorders rest).findSome? (fault? tokens names)) := by
  rw [preorders, List.findSome?_append, firstFault?]

theorem positionFault?_of_not_lt {position : UInt64} (h : ¬ position.toNat < tokens.size) :
    positionFault? tokens position = some (.tokenOutOfRange position.toNat tokens.size) := by
  rw [positionFault?, if_neg h]

theorem positionFault?_eq_none_iff {position : UInt64} :
    positionFault? tokens position = none ↔ position.toNat < tokens.size := by
  simp [positionFault?]

theorem fault?_eq_none_iff {spec : TreeSpec} :
    spec.fault? tokens names = none ↔ spec.Sound tokens names := by
  match spec with
  | .rule (.index value) alt children => simp [fault?, Sound, Document.resolveRule]
  | .rule (.name text) alt children =>
      cases h : RuleRef.resolveName? names text with
      | none => simp [fault?, Sound, Document.resolveRule, h]
      | some index => simp [fault?, Sound, Document.resolveRule, h]
  | .token position => exact positionFault?_eq_none_iff tokens
  | .missing flag => cases flag <;> simp [fault?, Sound]
  | .error none => simp [fault?, Sound]
  | .error (some position) => simp [fault?, Sound, positionFault?_eq_none_iff]

/-- There is no first fault exactly if every described node can be made. -/
theorem firstFault?_eq_none_iff {spec : TreeSpec} :
    spec.firstFault? tokens names = none ↔ ∀ s ∈ spec.preorder, s.Sound tokens names := by
  rw [firstFault?, List.findSome?_eq_none_iff]
  simp only [fault?_eq_none_iff]

/-- The first fault is that of a node before which everything can be made. -/
theorem firstFault?_eq_some_iff {spec : TreeSpec} {e : DocumentError} :
    spec.firstFault? tokens names = some e ↔
      ∃ before s after, spec.preorder = before ++ s :: after ∧
        (∀ b ∈ before, b.Sound tokens names) ∧ s.fault? tokens names = some e := by
  rw [firstFault?, List.findSome?_eq_some_iff]
  simp only [fault?_eq_none_iff, and_comm]

/-- No fault comes from the builder. -/
theorem fault?_ne_notBuilt {spec : TreeSpec} {cause : BuildError} :
    spec.fault? tokens names ≠ some (.notBuilt cause) := by
  have hposition : ∀ p, positionFault? tokens p ≠ some (.notBuilt cause) := by
    intro p
    unfold positionFault?
    split <;> simp
  match spec with
  | .rule (.index value) alt children => simp [fault?]
  | .rule (.name text) alt children =>
      rw [fault?]
      split <;> simp
  | .token position => exact hposition position
  | .missing flag => cases flag <;> simp [fault?]
  | .error none => simp [fault?]
  | .error (some position) => exact hposition position

theorem firstFault?_ne_notBuilt {spec : TreeSpec} {cause : BuildError} :
    spec.firstFault? tokens names ≠ some (.notBuilt cause) := by
  intro h
  obtain ⟨s, -, hs⟩ := List.exists_of_findSome?_eq_some h
  exact fault?_ne_notBuilt tokens names hs

mutual

/-- The shape of the tree that is described. -/
def image? : TreeSpec → Option (Shape Invocation)
  | .rule ref alt children => do
      let index ← (Document.resolveRule names ref).toOption
      let shapes ← images? children
      return .rule { ruleIndex := .ofNat index, altNumber := alt } shapes
  | .token position => tokens[position.toNat]?.map fun token => .terminal (some token)
  | .missing flag => if flag then some (.terminal none) else none
  | .error none => some (.error none)
  | .error (some position) => tokens[position.toNat]?.map fun token => .error (some token)

def images? : List TreeSpec → Option (List (Shape Invocation))
  | [] => some []
  | spec :: rest => do
      let shape ← image? spec
      let shapes ← images? rest
      return shape :: shapes

end

end ParseTree.TreeSpec
