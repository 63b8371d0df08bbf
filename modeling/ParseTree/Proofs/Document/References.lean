import Mathlib.Order.Bounds.Basic
import ParseTree.Node.Label
import ParseTree.Proofs.Document.Build

/-!
# Rule references

A reference by text is looked up in one list of names, and only where that list does not
have it is the text read as a number. Labels are made by the same rule in the other
direction: a name where the list has one, a number beyond its end. So the label of a rule
leads back to that rule, unless an earlier name is the same text.

The one list is that of the document if it has names at all. The names of the settings are
then hidden, and a reference to one of them is reported as unknown.
-/

namespace ParseTree

namespace RuleRef

variable {names : List String} {text : String}

/-- A listed text is resolved to its first position. -/
theorem resolveName?_of_mem (h : text ∈ names) :
    ∃ j, resolveName? names text = some j ∧ IsLeast {k | names[k]? = some text} j := by
  cases hfound : names.idxOf? text with
  | none => exact absurd h (List.idxOf?_eq_none_iff.mp hfound)
  | some j =>
      obtain ⟨hj, htext, hfirst⟩ := List.idxOf?_eq_some_iff.mp hfound
      refine ⟨j, by rw [resolveName?, hfound, Option.some_or],
        List.getElem?_eq_some_iff.mpr ⟨hj, htext⟩, ?_⟩
      intro k hk
      obtain ⟨_, hat⟩ := List.getElem?_eq_some_iff.mp hk
      exact Nat.le_of_not_lt fun hlt => hfirst k hlt hat

/-- A text that is not listed is resolved to the number it spells. -/
theorem resolveName?_of_not_mem (h : text ∉ names) :
    resolveName? names text = (Decimal.unsigned? text : Option UInt64).map UInt64.toNat := by
  rw [resolveName?, List.idxOf?_eq_none_iff.mpr h, Option.none_or]

theorem resolveName?_eq_none_iff :
    resolveName? names text = none ↔
      text ∉ names ∧ (Decimal.unsigned? text : Option UInt64) = none := by
  rw [resolveName?, Option.or_eq_none_iff, List.idxOf?_eq_none_iff, Option.map_eq_none_iff]

end RuleRef

/-- A listed name stands no later than at the rule that it is the name of. -/
theorem le_of_isLeast_ruleName {names : List String} {i : UInt64} {j : Nat}
    (h : IsLeast {k | names[k]? = some (ruleName names i)} j) : j ≤ i.toNat := by
  rcases Nat.lt_or_ge i.toNat names.length with hlt | hge
  · exact h.2 (getElem?_ruleName hlt)
  · obtain ⟨hj, -⟩ := List.getElem?_eq_some_iff.mp h.1
    omega

/-- A name that is not listed is the number of its rule, and is resolved to it. -/
theorem RuleRef.resolveName?_ruleName_of_not_mem {names : List String} {i : UInt64}
    (h : ruleName names i ∉ names) : resolveName? names (ruleName names i) = some i.toNat := by
  have hbeyond : names.length ≤ i.toNat := by
    apply Nat.le_of_not_lt
    intro hlt
    exact h (List.mem_of_getElem? (getElem?_ruleName hlt))
  rw [resolveName?_of_not_mem h, ruleName_of_length_le hbeyond, Decimal.unsigned?_render]
  rfl

namespace Document

theorem resolveRule_name {names : List String} {text : String} {j : Nat}
    (h : RuleRef.resolveName? names text = some j) : resolveRule names (.name text) = .ok j := by
  rw [resolveRule, h]

/-- The label of a rule is always resolved. It is resolved to that rule exactly if no
earlier name is the same text, and otherwise to the first name that is. -/
theorem resolveRule_ruleLabel (names : List String) (i : UInt64) :
    ∃ j, resolveRule names (.name (ruleLabel names ({ ruleIndex := i } : Invocation))) = .ok j ∧
      (j = i.toNat ↔
        ∀ k < i.toNat, names[k]? ≠ some (ruleLabel names ({ ruleIndex := i } : Invocation))) ∧
      (j ≠ i.toNat → IsLeast {k | k < i.toNat ∧
        names[k]? = some (ruleLabel names ({ ruleIndex := i } : Invocation))} j) := by
  rw [ruleLabel_ruleIndex]
  by_cases hmem : ruleName names i ∈ names
  · obtain ⟨j, hresolve, hleast⟩ := RuleRef.resolveName?_of_mem hmem
    have hle := le_of_isLeast_ruleName hleast
    refine ⟨j, resolveRule_name hresolve, ⟨?_, ?_⟩, ?_⟩
    · rintro rfl k hk hat
      exact absurd (hleast.2 hat) (Nat.not_le_of_lt hk)
    · intro hnone
      exact Nat.le_antisymm hle (Nat.le_of_not_lt fun hlt => hnone j hlt hleast.1)
    · intro hne
      exact ⟨⟨Nat.lt_of_le_of_ne hle hne, hleast.1⟩, fun k hk => hleast.2 hk.2⟩
  · refine ⟨i.toNat, resolveRule_name (RuleRef.resolveName?_ruleName_of_not_mem hmem), ?_,
      fun hne => absurd rfl hne⟩
    exact iff_of_true rfl fun k _ hat => hmem (List.mem_of_getElem? hat)

/-- The label of the last rule is also that of the second, and the label of a rule beyond
the list is the number that is the name of the third. -/
theorem resolveRule_ruleLabel_of_repeated_and_captured :
    let names := ["b", "a", "7", "a"]
    let label (i : UInt64) := ruleLabel names ({ ruleIndex := i } : Invocation)
    resolveRule names (.name (label 3)) = .ok 1 ∧ IsLeast {k | k < 3 ∧ names[k]? = some "a"} 1 ∧
      resolveRule names (.name (label 7)) = .ok 2 ∧ IsLeast {k | k < 7 ∧ names[k]? = some "7"} 2 ∧
      resolveRule names (.name (label 9)) = .ok 9 := by
  intro names label
  obtain ⟨j, hj, -, hrepeated⟩ := resolveRule_ruleLabel names 3
  obtain rfl : j = 1 := Except.ok.inj (hj.symm.trans rfl)
  obtain ⟨k, hk, -, hcaptured⟩ := resolveRule_ruleLabel names 7
  obtain rfl : k = 2 := Except.ok.inj (hk.symm.trans rfl)
  obtain ⟨l, hl, hback, -⟩ := resolveRule_ruleLabel names 9
  obtain rfl : l = 9 := hback.mpr (by decide)
  exact ⟨hj, hrepeated (by decide), hk, hcaptured (by decide), hl⟩

end Document

/-- A name is the fault of a node exactly if the node is a rule that is referred to by that
name, and the name is neither listed nor a number. -/
theorem TreeSpec.fault?_eq_unknownRule_iff {tokens : Array Token} {names : List String}
    {spec : TreeSpec} {name : String} :
    spec.fault? tokens names = some (.unknownRule name) ↔
      (name ∉ names ∧ (Decimal.unsigned? name : Option UInt64) = none) ∧
        ∃ alt children, spec = .rule (.name name) alt children := by
  cases spec with
  | rule ref alt children =>
      cases ref with
      | index value => simp [fault?]
      | name text =>
          rw [← RuleRef.resolveName?_eq_none_iff, fault?]
          cases h : RuleRef.resolveName? names text with
          | none =>
              rw [Option.isSome_none, if_neg Bool.false_ne_true]
              constructor
              · rintro ⟨⟩
                exact ⟨h, alt, children, rfl⟩
              · rintro ⟨-, alt', children', ⟨⟩⟩
                rfl
          | some index =>
              rw [Option.isSome_some, if_pos rfl]
              refine iff_of_false (Option.some_ne_none _).symm ?_
              rintro ⟨hnone, alt', children', ⟨⟩⟩
              exact Option.some_ne_none index (h.symm.trans hnone)
  | token position => simp [fault?, positionFault?]
  | missing flag => cases flag <;> simp [fault?]
  | error position => cases position <;> simp [fault?, positionFault?]

namespace Document

/-- The names of the settings count only if the document has none. -/
theorem mem_namesIn_iff {d : Document} {settings : Settings} {name : String} :
    name ∈ d.namesIn settings ↔
      name ∈ d.ruleNames ∨ d.ruleNames = [] ∧ name ∈ settings.ruleNames := by
  unfold namesIn
  cases d.ruleNames with
  | nil => simp
  | cons first rest => simp

/-- What goes wrong with a document is its root, or the first fault of its tree. -/
theorem build_eq_error_iff {d : Document} {names : List String} {forest : Forest Invocation}
    {e : DocumentError} :
    d.build names forest = .error e ↔
      if d.tree.isRule then d.tree.firstFault? d.tokens names = some e else e = .rootNotRule := by
  cases hroot : d.tree.isRule with
  | false =>
      rw [build_of_not_isRule hroot, if_neg Bool.false_ne_true, Except.error.injEq]
      exact eq_comm
  | true =>
      have hbuild := build_of_isRule hroot names forest
      rw [if_pos rfl]
      cases hfault : d.tree.firstFault? d.tokens names with
      | some fault =>
          rw [hfault] at hbuild
          rw [hbuild, Except.error.injEq, Option.some.injEq]
      | none =>
          rw [hfault] at hbuild
          obtain ⟨t, hok, -⟩ := hbuild
          rw [hok]
          exact iff_of_false nofun nofun

/-- A name is reported as unknown exactly if it is not among the names of the document, nor
among those of the settings in case the document has none, and is not a number either, and
if the first node that cannot be made is a rule referred to by that name. Of the names in
the settings nothing is said in case the document has names. -/
theorem build_eq_unknownRule_iff (d : Document) (settings : Settings) (forest : Forest Invocation)
    (name : String) :
    d.build (d.namesIn settings) forest = .error (.unknownRule name) ↔
      name ∉ d.ruleNames ∧ (d.ruleNames = [] → name ∉ settings.ruleNames) ∧
      (Decimal.unsigned? name : Option UInt64) = none ∧ d.tree.isRule = true ∧
      ∃ before alt children after,
        d.tree.preorder = before ++ .rule (.name name) alt children :: after ∧
        ∀ s ∈ before, s.Sound d.tokens (d.namesIn settings) := by
  have hnames : name ∉ d.namesIn settings ↔
      name ∉ d.ruleNames ∧ (d.ruleNames = [] → name ∉ settings.ruleNames) := by
    rw [mem_namesIn_iff, not_or, not_and]
  rw [build_eq_error_iff]
  cases d.tree.isRule with
  | false => simp
  | true =>
      rw [if_pos rfl, TreeSpec.firstFault?_eq_some_iff, ← and_assoc, ← hnames]
      constructor
      · rintro ⟨before, spec, after, hpreorder, hbefore, hfault⟩
        obtain ⟨⟨hname, hnumber⟩, alt, children, rfl⟩ :=
          TreeSpec.fault?_eq_unknownRule_iff.mp hfault
        exact ⟨hname, hnumber, rfl, before, alt, children, after, hpreorder, hbefore⟩
      · rintro ⟨hname, hnumber, -, before, alt, children, after, hpreorder, hbefore⟩
        exact ⟨before, _, after, hpreorder, hbefore,
          TreeSpec.fault?_eq_unknownRule_iff.mpr ⟨⟨hname, hnumber⟩, alt, children, rfl⟩⟩

/-- The document has one name and refers to another, which is in the settings: that one is
reported as unknown. -/
theorem unknownRule_of_name_in_settings :
    let d : Document := {
      ruleNames := ["a"], tokens := #[{ type := 1, index := 0, text := "x" }],
      tree := .rule (.name "b") 0 [.token 0] }
    let settings : Settings := { ruleNames := ["b"] }
    d.build (d.namesIn settings) {} = .error (.unknownRule "b") ∧ "b" ∈ settings.ruleNames :=
  ⟨rfl, List.mem_singleton_self "b"⟩

end Document

end ParseTree
