import Mathlib.Data.List.Basic
import ParseTree.Proofs.Json.Fields
import ParseTree.Record
import ParseTree.Settings.Basic

/-!
# What is written is read back

Spans, contexts, tokens and settings are written as JSON in one way, and the reader of each
finds in that text the value that was written. The first three are read by the strict
reader, settings by the relaxed one.
-/

namespace ParseTree

open Json

section Fields

variable {α : Type} [Word α]

theorem required_ofWord (a : α) :
    required (Written.decode Value.word?) (some ((Value.ofWord a).map some some)) = some a :=
  Word.ofInt?_toInt a

theorem optional_ofWord (absent a : α) :
    Json.optional absent (Written.decode Value.word?) (some ((Value.ofWord a).map some some)) =
      some a :=
  Word.ofInt?_toInt a

theorem optional_word (absent a : α) :
    Json.optional absent Value.word? (some (Value.ofWord a)) = some a :=
  Word.ofInt?_toInt a

theorem optional_string (absent text : String) :
    Json.optional absent (Written.decode Value.text?) (some ((Value.string text).map some some)) =
      some text := rfl

end Fields

namespace Span

-- Here and below the fields of a record are variables: evaluation would compare a word with
-- its bound in unary.
theorem ofWritten?_of_fields {form : Written} {start stop : Option Written} {s : Span}
    (hfields : form.fields? ["start", "stop"] = some [start, stop])
    (hstart : required (Written.decode Value.word?) start = some s.start)
    (hstop : required (Written.decode Value.word?) stop = some s.stop) :
    ofWritten? form = some s := by
  simp [ofWritten?, hfields, hstart, hstop]

theorem ofJson?_render (s : Span) : ofJson? s.toJson.render = some s := by
  have hexact : s.toJson.Exact := by
    apply Value.Exact.object
    simp only [List.forall_mem_cons]
    exact ⟨.atom (Word.toInt_bounds s.start), .atom (Word.toInt_bounds s.stop), by simp⟩
  rw [ofJson?, Strict.parse?_render hexact, Option.bind_some]
  exact ofWritten?_of_fields (Written.fields?_object (by simp))
    (required_ofWord s.start) (required_ofWord s.stop)

end Span

namespace Invocation

theorem ofWritten?_of_fields {form : Written} {ruleIndex altNumber : Option Written}
    {i : Invocation}
    (hfields : form.fields? ["rule_index", "alt_number"] = some [ruleIndex, altNumber])
    (hrule : required (Written.decode Value.word?) ruleIndex = some i.ruleIndex)
    (halt : Json.optional 0 (Written.decode Value.word?) altNumber = some i.altNumber) :
    ofWritten? form = some i := by
  simp [ofWritten?, hfields, hrule, halt]

theorem ofJson?_render (i : Invocation) : ofJson? i.toJson.render = some i := by
  have hexact : i.toJson.Exact := by
    apply Value.Exact.object
    simp only [List.forall_mem_cons]
    exact ⟨.atom (Word.toInt_bounds i.ruleIndex), .atom (Word.toInt_bounds i.altNumber), by simp⟩
  rw [ofJson?, Strict.parse?_render hexact, Option.bind_some]
  exact ofWritten?_of_fields (Written.fields?_object (by simp))
    (required_ofWord i.ruleIndex) (optional_ofWord 0 i.altNumber)

end Invocation

namespace Token

theorem ofWrittenWith?_of_fields {absent : Int64} {index? : Value → Option Int64} {form : Written}
    {type index text line column : Option Written} {t : Token}
    (hfields : form.fields? fieldNames = some [type, index, text, line, column])
    (htype : required (Written.decode Value.word?) type = some t.type)
    (hindex : Json.optional absent (Written.decode index?) index = some t.index)
    (htext : Json.optional "" (Written.decode Value.text?) text = some t.text)
    (hline : Json.optional 0 (Written.decode Value.word?) line = some t.line)
    (hcolumn : Json.optional 0 (Written.decode Value.word?) column = some t.column) :
    ofWrittenWith? absent index? form = some t := by
  simp [ofWrittenWith?, hfields, htype, hindex, htext, hline, hcolumn]

theorem toJson_exact (t : Token) : t.toJson.Exact := by
  apply Value.Exact.object
  simp only [List.forall_mem_cons]
  exact ⟨.atom (Word.toInt_bounds t.type), .atom (Word.toInt_bounds t.index), .atom trivial,
    .atom (Word.toInt_bounds t.line), .atom (Word.toInt_bounds t.column), by simp⟩

theorem ofJson?_render (t : Token) : ofJson? t.toJson.render = some t := by
  rw [ofJson?, Strict.parse?_render t.toJson_exact, Option.bind_some]
  exact ofWrittenWith?_of_fields (Written.fields?_object (by simp))
    (required_ofWord t.type) (optional_ofWord (-1) t.index) (optional_string "" t.text)
    (optional_ofWord 0 t.line) (optional_ofWord 0 t.column)

end Token

namespace TokenNames

theorem insertInto_of_forall_lt {type : Int32} (name : String) {entries : List (Int32 × String)}
    (h : ∀ e ∈ entries, e.1 < type) : insertInto type name entries = entries ++ [(type, name)] := by
  induction entries with
  | nil => rfl
  | cons e rest ih =>
      rw [List.forall_mem_cons] at h
      have hnlt : ¬ type < e.1 := Int32.lt_asymm h.1
      have hne : type ≠ e.1 := (Int32.ne_of_lt h.1).symm
      rw [insertInto, if_neg hnlt, if_neg hne, ih h.2]
      rfl

end TokenNames

namespace Settings

theorem integerName?_repr {v : Int} (h : FitsWord v) : integerName? v.repr = some v := by
  obtain ⟨negative, n, hrepr, hvalue⟩ := exists_spelled h
  have hscan := Numeral.scan_toDigits negative n .ending
  rw [List.append_nil] at hscan
  unfold integerName?
  rw [hrepr]
  cases negative with
  | true =>
      change (Numeral.scan true (Nat.toDigits 10 n)).bind _ = some v
      rw [hscan]
      exact hvalue
  | false =>
      obtain ⟨d, ds, hdigits, hd⟩ := exists_isDigit_toDigits n
      have hsign : d ≠ '-' := by
        rintro rfl
        exact absurd hd (by decide)
      rw [hdigits] at hscan ⊢
      rw [if_neg Bool.false_ne_true, List.nil_append]
      split
      next heq =>
        split at heq
        · next hcons => exact absurd (List.cons.inj hcons).1 hsign
        · cases heq
          rw [hscan]
          exact hvalue

theorem tokenType?_render (type : Int32) : tokenType? (Decimal.render type) = some type := by
  rw [tokenType?, Decimal.render, integerName?_repr (Word.toInt_bounds type)]
  exact Word.ofInt?_toInt type

/-- Entries in ascending order are put one after the other. -/
theorem foldlM_insert (entries : List (Int32 × String)) (names : TokenNames)
    (h : (names.entries ++ entries).Pairwise (·.1 < ·.1)) :
    (entries.map fun (type, name) => (Decimal.render type, Value.string name)).foldlM
        (fun names (type, name) => do
          return names.insert (← tokenType? type) (← Value.text? name)) names =
      some ⟨names.entries ++ entries, h⟩ := by
  induction entries generalizing names with
  | nil => simp
  | cons e rest ih =>
      -- the type is above all that have a name already, so its entry is the last one
      have hlast : (names.insert e.1 e.2).entries = names.entries ++ [e] := by
        apply TokenNames.insertInto_of_forall_lt
        intro e' he'
        exact (List.pairwise_append.mp h).2.2 e' he' e List.mem_cons_self
      have hrest : ((names.insert e.1 e.2).entries ++ rest).Pairwise (·.1 < ·.1) := by
        rw [hlast, ← List.append_cons]
        exact h
      rw [List.map_cons, List.foldlM_cons]
      dsimp only
      rw [tokenType?_render]
      refine (ih (names.insert e.1 e.2) hrest).trans ?_
      simp [hlast]

theorem tokenNames?_written (names : TokenNames) :
    tokenNames? (.object (names.entries.map fun (type, name) =>
      (Decimal.render type, Value.string name))) = some names :=
  foldlM_insert names.entries .empty names.ascending

theorem nodup_written_names (names : TokenNames) :
    ((names.entries.map fun (type, name) =>
      (Decimal.render type, Value.string name)).map (·.1)).Nodup := by
  rw [List.map_map, List.Nodup, List.pairwise_map]
  exact names.ascending.imp fun hlt heq => Int32.ne_of_lt hlt (Decimal.render_injective heq)

theorem texts?_written (texts : List String) :
    Value.texts? (.array (texts.map Value.string)) = some texts := by
  have hall := mapM_eq_some_of_forall (l := texts) (f := Value.text? ∘ Value.string) (g := id)
    fun _ _ => rfl
  rw [← List.mapM_map, List.map_id] at hall
  exact hall

theorem toJson_exact (s : Settings) : s.toJson.Exact := by
  apply Value.Exact.object
  simp only [List.forall_mem_cons]
  refine ⟨.array ?_, .object ?_, .atom (Word.toInt_bounds s.indent), .atom trivial, by simp⟩
  · intro item hitem
    obtain ⟨name, -, rfl⟩ := List.mem_map.mp hitem
    exact .atom trivial
  · intro m hm
    obtain ⟨e, -, rfl⟩ := List.mem_map.mp hm
    exact .atom trivial

theorem toJson_distinct (s : Settings) : s.toJson.Distinct := by
  apply Value.Distinct.object
  · simp
  simp only [List.forall_mem_cons]
  refine ⟨.array ?_, .object (nodup_written_names s.tokenNames) ?_, .atom _, .atom _, by simp⟩
  · intro item hitem
    obtain ⟨name, -, rfl⟩ := List.mem_map.mp hitem
    exact .atom _
  · intro m hm
    obtain ⟨e, -, rfl⟩ := List.mem_map.mp hm
    exact .atom _

theorem ofValue?_of_fields {value : Value} {ruleNames tokenNames indent showSpans : Option Value}
    {s : Settings}
    (hfields : value.fields? fieldNames = some [ruleNames, tokenNames, indent, showSpans])
    (hrules : Json.optional [] Value.texts? ruleNames = some s.ruleNames)
    (htokens : Json.optional .empty tokenNames? tokenNames = some s.tokenNames)
    (hindent : Json.optional 2 Value.word? indent = some s.indent)
    (hspans : Json.optional false Value.bool? showSpans = some s.showSpans) :
    ofValue? value = some s := by
  simp [ofValue?, hfields, hrules, htokens, hindent, hspans]

theorem ofValue?_toJson (s : Settings) : ofValue? s.toJson = some s :=
  ofValue?_of_fields (Value.fields?_object (by simp)) (texts?_written s.ruleNames)
    (tokenNames?_written s.tokenNames) (optional_word 2 s.indent) rfl

theorem ofJson_render (s : Settings) : ofJson s.toJson.render = .ok s := by
  rw [ofJson, Relaxed.parse?_render s.toJson_exact s.toJson_distinct]
  dsimp only
  rw [ofValue?_toJson]

end Settings

/-- Reading finds every value in the text it is written as. So whatever text a value was
read from, it is written as a text that is read as the same value, and that value is
written as the same text again. -/
structure Lossless {α : Type} (write : α → Value) (read? : String → Option α) : Prop where
  read_written : ∀ a, read? (write a).render = some a
  reread : ∀ text, (read? text).bind (fun a => read? (write a).render) = read? text
  rewritten : ∀ text, ((read? text).bind fun a => read? (write a).render).map
    (fun a => (write a).render) = (read? text).map fun a => (write a).render

theorem Lossless.of_read_written {α : Type} {write : α → Value} {read? : String → Option α}
    (h : ∀ a, read? (write a).render = some a) : Lossless write read? := by
  have hreread : ∀ text, (read? text).bind (fun a => read? (write a).render) = read? text := by
    intro text
    cases read? text with
    | none => rfl
    | some a => exact h a
  constructor
  · exact h
  · exact hreread
  · intro text
    rw [hreread]

/-- Every token, span and context and all settings are found in the text they are written
as, whatever integers fit the fields, whatever characters the texts and names have and
whatever token types are named. -/
theorem formats_lossless :
    Lossless Token.toJson Token.ofJson? ∧ Lossless Span.toJson Span.ofJson? ∧
      Lossless Invocation.toJson Invocation.ofJson? ∧
      Lossless Settings.toJson (fun text => (Settings.ofJson text).toOption) := by
  refine ⟨.of_read_written Token.ofJson?_render, .of_read_written Span.ofJson?_render,
    .of_read_written Invocation.ofJson?_render, .of_read_written ?_⟩
  intro s
  rw [Settings.ofJson_render]
  rfl

end ParseTree
