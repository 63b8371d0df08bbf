import ParseTree.Document.Basic
import ParseTree.Proofs.Settings.Lossless

/-!
# The tokens of a document

The token list of a document is read by a reader of its own, in which an index may be left
out or be `null` and then is the position in the list. Elsewhere a token without an index
has index -1, and `null` is no index. On every entry that carries an index the two readers
agree, so that -1 is kept where it is given.
-/

namespace ParseTree

open Json

namespace Json.Value

/-- The object without the members of a name. -/
def without (name : String) : Value → Value
  | .object members => .object (members.filter (·.1 != name))
  | v => v

/-- The object with `null` as the value of a name. -/
def withNull (name : String) : Value → Value
  | .object members =>
      .object (members.map fun m => if m.1 = name then (name, Value.null) else m)
  | v => v

theorem Exact.without {v : Value} (h : v.Exact) (name : String) : (v.without name).Exact := by
  cases h with
  | atom hs => exact .atom hs
  | array hitems => exact .array hitems
  | object hmembers => exact .object fun m hm => hmembers m (List.mem_of_mem_filter hm)

theorem Exact.withNull {v : Value} (h : v.Exact) (name : String) : (v.withNull name).Exact := by
  cases h with
  | atom hs => exact .atom hs
  | array hitems => exact .array hitems
  | object hmembers =>
      apply Exact.object
      rw [List.forall_mem_map]
      intro m hm
      split
      · exact .atom trivial
      · exact hmembers m hm

end Json.Value

theorem Json.Written.eq_atom_of_read? {depth : Nat} {form : Written} {s : Scalar}
    (h : form.read? depth = some (.atom s)) : form = .atom (some s) := by
  unfold Written.read? at h
  split at h
  · obtain ⟨_, rfl, ⟨⟩⟩ := Option.map_eq_some_iff.mp h
    rfl
  · cases h
  · cases h
  · obtain ⟨_, -, ⟨⟩⟩ := Option.map_eq_some_iff.mp h
  · obtain ⟨_, -, ⟨⟩⟩ := Option.map_eq_some_iff.mp h

namespace Document

/-- How an entry of the token list does without an index. -/
inductive Omission where
  | removed
  | null

/-- A written token, with its index or without. -/
def entry (t : Token) : Option Omission → Value
  | none => t.toJson
  | some .removed => t.toJson.without "index"
  | some .null => t.toJson.withNull "index"

/-- The written tokens, without an index at the chosen positions. -/
def entries (omitted : Nat → Option Omission) (tokens : List Token) : List Value :=
  tokens.mapIdx fun p t => entry t (omitted p)

/-- The same tokens, but at the chosen positions with the position as the index. -/
def placed (omitted : Nat → Option Omission) (tokens : List Token) : List Token :=
  tokens.mapIdx fun p t => { t with index := if (omitted p).isSome then .ofNat p else t.index }

theorem entries_cons (omitted : Nat → Option Omission) (t : Token) (rest : List Token) :
    entries omitted (t :: rest) =
      entry t (omitted 0) :: entries (fun p => omitted (p + 1)) rest :=
  List.mapIdx_cons

theorem entry_exact (t : Token) (omission : Option Omission) : (entry t omission).Exact := by
  match omission with
  | none => exact t.toJson_exact
  | some .removed => exact t.toJson_exact.without "index"
  | some .null => exact t.toJson_exact.withNull "index"

theorem entries_exact (omitted : Nat → Option Omission) (tokens : List Token) :
    Value.Exact (.array (entries omitted tokens)) := by
  apply Value.Exact.array
  intro item hitem
  obtain ⟨p, hp, rfl⟩ := List.mem_mapIdx.mp hitem
  exact entry_exact tokens[p] (omitted p)

/-- What an entry gives as its index. -/
def indexField (t : Token) : Option Omission → Option Value
  | none => some (Value.ofWord t.index)
  | some .removed => none
  | some .null => some Value.null

theorem fields?_entry (t : Token) (omission : Option Omission) :
    Written.fields? Token.fieldNames ((entry t omission).map some some) = some
      [some ((Value.ofWord t.type).map some some),
        (indexField t omission).map (Form.map some some),
        some ((Value.string t.text).map some some), some ((Value.ofWord t.line).map some some),
        some ((Value.ofWord t.column).map some some)] := by
  match omission with
  | none => rfl
  | some .removed => rfl
  | some .null => rfl

/-- A given index is kept, and only an index that is not given is the position. -/
theorem optional_indexField (t : Token) (omission : Option Omission) (position : Int64) :
    Json.optional position (Written.decode (tokenIndex? position))
        ((indexField t omission).map (Form.map some some)) =
      some (if omission.isSome then position else t.index) := by
  match omission with
  | none => exact Word.ofInt?_toInt t.index
  | some .removed => rfl
  | some .null => rfl

theorem ofWrittenWith?_entry (t : Token) (omission : Option Omission) (position : Int64) :
    Token.ofWrittenWith? position (tokenIndex? position) ((entry t omission).map some some) =
      some { t with index := if omission.isSome then position else t.index } :=
  Token.ofWrittenWith?_of_fields (fields?_entry t omission) (required_ofWord t.type)
    (optional_indexField t omission position) (optional_string "" t.text)
    (optional_ofWord 0 t.line) (optional_ofWord 0 t.column)

/-- Every entry is read at its position, from any position on. -/
theorem tokensFrom?_entries (omitted : Nat → Option Omission) (tokens : List Token)
    (position : Nat) :
    tokensFrom? position ((entries omitted tokens).map (Form.map some some)) =
      some (tokens.mapIdx fun p t =>
        { t with index := if (omitted p).isSome then .ofNat (position + p) else t.index }) := by
  induction tokens generalizing omitted position with
  | nil => rfl
  | cons t rest ih =>
      have hrest := ih (fun p => omitted (p + 1)) (position + 1)
      simp only [Nat.add_assoc, Nat.add_comm 1] at hrest
      rw [entries_cons, List.map_cons, tokensFrom?, ofWrittenWith?_entry, hrest, List.mapIdx_cons]
      rfl

theorem tokens?_entries (omitted : Nat → Option Omission) (tokens : List Token) :
    tokens? (Form.map some some (.array (entries omitted tokens))) =
      some (placed omitted tokens) := by
  have hread := tokensFrom?_entries omitted tokens 0
  simp only [Nat.zero_add] at hread
  rw [Form.map, Form.mapItems_eq_map]
  exact hread

/-- The entry has an index, and it is not `null`. -/
def CarriesIndex (form : Written) : Prop :=
  ∃ type index text line column,
    form.fields? Token.fieldNames = some [type, some index, text, line, column] ∧
      index ≠ .atom (some .null)

theorem carriesIndex_toJson (t : Token) : CarriesIndex (t.toJson.map some some) :=
  ⟨_, _, _, _, _, fields?_entry t none, nofun⟩

theorem decode_tokenIndex? {index : Written} (h : index ≠ .atom (some .null)) (position : Int64) :
    Written.decode (tokenIndex? position) index = Written.decode Value.word? index := by
  unfold Written.decode
  cases hread : index.read? 1 with
  | none => rfl
  | some v =>
      rw [Option.bind_some, Option.bind_some, tokenIndex?]
      rintro rfl
      exact h (Written.eq_atom_of_read? hread)

theorem ofWrittenWith?_of_carriesIndex {form : Written} (h : CarriesIndex form)
    (position : Int64) :
    Token.ofWrittenWith? position (tokenIndex? position) form = Token.ofWritten? form := by
  obtain ⟨type, index, text, line, column, hfields, hindex⟩ := h
  simp only [Token.ofWritten?, Token.ofWrittenWith?, hfields, Option.bind_eq_bind,
    Option.bind_some, Json.optional, decode_tokenIndex? hindex]

theorem tokensFrom?_of_carriesIndex {forms : List Written} (h : ∀ form ∈ forms, CarriesIndex form)
    (position : Nat) : tokensFrom? position forms = forms.mapM Token.ofWritten? := by
  induction forms generalizing position with
  | nil => rfl
  | cons form rest ih =>
      rw [List.forall_mem_cons] at h
      rw [tokensFrom?, List.mapM_cons, ih h.2, ofWrittenWith?_of_carriesIndex h.1]

theorem ofWritten?_of_fields {form : Written} {ruleNames tokens tree : Option Written}
    {d : Document} (hfields : form.fields? fieldNames = some [ruleNames, tokens, tree])
    (hnames : Json.optional [] (Written.decode Value.texts?) ruleNames = some d.ruleNames)
    (htokens : Json.optional [] tokens? tokens = some d.tokens.toList)
    (htree : required tree? tree = some d.tree) : ofWritten? form = some d := by
  simp [ofWritten?, hfields, hnames, htokens, htree]

theorem ofJson_of_fields {text : String} {form : Written} {ruleNames tokens tree : Option Written}
    {d : Document} (hparse : Strict.parse? text = some form)
    (hfields : form.fields? fieldNames = some [ruleNames, tokens, tree])
    (hnames : Json.optional [] (Written.decode Value.texts?) ruleNames = some d.ruleNames)
    (htokens : Json.optional [] tokens? tokens = some d.tokens.toList)
    (htree : required tree? tree = some d.tree) : ofJson text = .ok d := by
  rw [ofJson, hparse, Option.bind_some, ofWritten?_of_fields hfields hnames htokens htree]

/-- A document whose token list has these entries is read, provided that its names and its
tree are, and its tokens are the written ones, except that those without an index have
their positions. On entries that all carry an index the token list is read as one token
after the other is, up to failure. -/
theorem ofJson_of_entries (omitted : Nat → Option Omission) (tokens : List Token) :
    (∀ (text : String) (form : Written) (ruleNames tree : Option Written) (names : List String)
        (spec : TreeSpec),
      Strict.parse? text = some form →
      form.fields? fieldNames =
        some [ruleNames, some (Form.map some some (.array (entries omitted tokens))), tree] →
      Json.optional [] (Written.decode Value.texts?) ruleNames = some names →
      required tree? tree = some spec →
      ofJson text = .ok ⟨names, (placed omitted tokens).toArray, spec⟩) ∧
    ∀ forms : List Written, (∀ form ∈ forms, CarriesIndex form) →
      tokens? (.array forms) = forms.mapM Token.ofWritten? := by
  constructor
  · intro text form ruleNames tree names spec hparse hfields hnames htree
    refine ofJson_of_fields hparse hfields hnames ?_ htree
    exact tokens?_entries omitted tokens
  · intro forms h
    exact tokensFrom?_of_carriesIndex h 0

/-- Of four tokens the second is written without an index and the third with `null`. The
first one keeps its -1 and the last one its -7. -/
theorem ofJson_of_entries_of_mixed :
    let tokens : List Token := [{ type := 1, text := "a" }, { type := 2, index := 5 },
      { type := -1, index := -9, line := 3 }, { type := 1, index := -7, text := "b" }]
    let omitted : Nat → Option Omission
      | 1 => some .removed
      | 2 => some .null
      | _ => none
    let document : Value := .object [("tree", .object [("rule", Value.int 0)]),
      ("tokens", .array (entries omitted tokens)), ("note", Value.null)]
    let forms : List Written := tokens.map fun t => t.toJson.map some some
    ofJson document.render = .ok {
      tokens := #[{ type := 1, text := "a" }, { type := 2, index := 1 },
        { type := -1, index := 2, line := 3 }, { type := 1, index := -7, text := "b" }]
      tree := .rule (.index 0) 0 [] } ∧
    (∀ form ∈ forms, CarriesIndex form) ∧
    tokens? (.array forms) = forms.mapM Token.ofWritten? := by
  intro tokens omitted document forms
  have hzero : (Value.int 0).Exact := .atom (Word.toInt_bounds (0 : UInt64))
  have hexact : document.Exact := by
    apply Value.Exact.object
    simp only [List.forall_mem_cons]
    exact ⟨.object (by simpa using hzero), entries_exact omitted tokens, .atom trivial, by simp⟩
  have hcarries : ∀ form ∈ forms, CarriesIndex form := by
    intro form hform
    obtain ⟨t, -, rfl⟩ := List.mem_map.mp hform
    exact carriesIndex_toJson t
  obtain ⟨hread, hagree⟩ := ofJson_of_entries omitted tokens
  refine ⟨?_, hcarries, hagree forms hcarries⟩
  exact hread _ _ _ _ _ _ (Strict.parse?_render hexact) rfl rfl rfl

end Document

end ParseTree
