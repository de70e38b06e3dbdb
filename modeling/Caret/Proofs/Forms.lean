import Caret.Proofs.Records
/-!
# `Caret.Proofs.Forms` — what the slots of a document take

The form of a document is a table: each sort of record has its fields, and each field says whether it has to be
there and what it takes. `Fits` is what a value has to be like to be taken. Nothing here knows how lists, records
and nodes are read.

A value that does not fit has a flaw somewhere. Either a value inside it is wrong by itself (`Form.flaw?`), or
something is not there that has to be (`Absent`). `Part` goes from a value to one that stands inside it, together
with the form that is asked of it there; a path of such steps is `Reaches`. `Flawed` lists all flaws, each with its
path.

## Contents
- **Forms.** `Form`, `RecordForm.fields`, `Fits`.
- **Parts.** `Part`, `Reaches`; `Reaches.walk` — such a path, its tags left out, leads through the bare values.
- **Flaws.** `Form.flaw?`, `Absent`, `Flawed`; `Flawed.located` and `Reaches.flawed` — where flaws are; `fits_iff` —
  a value fits exactly if it has none.
-/

namespace Caret

/-! ## Forms -/

/-- **Sorts of records.** -/
inductive RecordForm where
  | hostField
  | hostMethod
  | hostType
  | symbolNote
  | script
  | node (kind : NodeKind)

/-- **Forms.** What a slot takes. -/
inductive Form where
  | text
  | flag
  | integer
  | word (words : List String)
  /-- Four integers, the first two of which are a position no later than the last two. -/
  | range
  | list (item : Form)
  | record (sort : RecordForm)
  /-- A record of the kind that it states itself. -/
  | node

/-- Whether a field has to be there. In a nullable field null counts as if the field were left out. -/
inductive Presence where
  | required
  | optional
  | nullable
  deriving DecidableEq

/-- A field of a record. -/
structure FieldForm where
  key : String
  presence : Presence
  form : Form

/-- The value that a field has; null is none where that is allowed. -/
def FieldForm.value? (field : FieldForm) (fs : List (String × Data)) : Option Data :=
  match Data.get? fs field.key with
  | some .null => if field.presence = .nullable then none else some .null
  | found => found

/-- A slot that takes one kind of node. -/
def Form.only (kind : NodeKind) : Form := .record (.node kind)

/-- The fields of a kind of node, apart from its kind and its range. -/
def NodeKind.fields : NodeKind → List FieldForm
  | .literal _ => []
  | .plain _ => [⟨"children", .optional, .list .node⟩]
  | .operation _ => [⟨"children", .optional, .list .node⟩, ⟨"type", .nullable, .text⟩]
  | .nameExpression =>
    [⟨"name", .required, .text⟩, ⟨"type", .nullable, .text⟩, ⟨"symbol", .nullable, .record .symbolNote⟩]
  | .propertyAccess =>
    [⟨"callee", .required, .node⟩, ⟨"name", .required, .text⟩, ⟨"member", .nullable, .text⟩, ⟨"type", .nullable, .text⟩]
  | .method => [⟨"owner", .required, .text⟩, ⟨"method", .required, .text⟩]
  | .binaryOperator =>
    [⟨"operator", .required, .text⟩, ⟨"type", .required, .text⟩, ⟨"left", .required, .node⟩,
      ⟨"right", .required, .node⟩]
  | .predefinedType => [⟨"type", .required, .text⟩]
  | .variableDeclaration =>
    [⟨"type_node", .nullable, .node⟩, ⟨"name", .required, .only .nameExpression⟩, ⟨"initializer", .nullable, .node⟩]
  | .parameter =>
    [⟨"type_node", .required, .node⟩, ⟨"name", .required, .only .nameExpression⟩, ⟨"by_ref", .optional, .flag⟩]
  | .parameterList => [⟨"parameters", .optional, .list (.only .parameter)⟩]
  | .statementsList => [⟨"statements", .optional, .list .node⟩]
  | .function =>
    [⟨"return_type", .required, .node⟩, ⟨"name", .required, .only .nameExpression⟩,
     ⟨"parameters", .required, .only .parameterList⟩, ⟨"body", .required, .only .statementsList⟩]
  | .forLoop =>
    [⟨"init", .nullable, .node⟩, ⟨"condition", .nullable, .node⟩, ⟨"update", .nullable, .node⟩,
     ⟨"body", .required, .node⟩]
  | .foreachLoop =>
    [⟨"type_node", .required, .node⟩, ⟨"name", .required, .only .nameExpression⟩, ⟨"iterable", .required, .node⟩,
     ⟨"body", .required, .node⟩]
  | .staticVariablesList => [⟨"variables", .optional, .list (.only .variableDeclaration)⟩]
  | .functionsList => [⟨"functions", .optional, .list (.only .function)⟩]
  | .compilationUnit =>
    [⟨"variables", .required, .only .staticVariablesList⟩, ⟨"functions", .required, .only .functionsList⟩,
     ⟨"statements", .required, .only .statementsList⟩]

/-- **The fields of a record.** -/
def RecordForm.fields : RecordForm → List FieldForm
  | .hostField => [⟨"name", .required, .text⟩, ⟨"type", .required, .text⟩]
  | .hostMethod =>
    [⟨"name", .required, .text⟩, ⟨"return", .optional, .text⟩, ⟨"parameters", .optional, .list (.record .hostField)⟩]
  | .hostType =>
    [⟨"name", .required, .text⟩, ⟨"qualified_name", .nullable, .text⟩,
     ⟨"properties", .optional, .list (.record .hostField)⟩, ⟨"methods", .optional, .list (.record .hostMethod)⟩]
  | .symbolNote =>
    [⟨"kind", .required, .word ["constant", "static", "local", "parameter"]⟩, ⟨"name", .required, .text⟩,
     ⟨"type", .nullable, .text⟩, ⟨"by_ref", .optional, .flag⟩]
  | .script =>
    [⟨"types", .optional, .list (.record .hostType)⟩, ⟨"constants", .optional, .list (.record .hostField)⟩,
     ⟨"unit", .required, .only .compilationUnit⟩]
  | .node kind => ⟨"kind", .required, .word [kind.text]⟩ :: ⟨"range", .required, .range⟩ :: kind.fields

namespace Data

/-- The value can be taken as an integer: also a truth value, a number without a fraction that fits into 64 bits, or a
text that spells an integer with no more digits than may be read. -/
def IsInteger : Data → Prop
  | .int _ | .bool _ => True
  | .real x => ∃ n, x.toInt? = some n ∧ -Reading.signedLimit < n ∧ n < Reading.signedLimit
  | .text s => ∃ n, Text.wholeNumber? s = some n ∧ Text.digitCount n ≤ Text.maxDigits
  | _ => False

/-- The value can be taken as a flag: also zero or one, or a word for it in any case of its letters. -/
def IsFlag : Data → Prop
  | .bool _ => True
  | .int n => n = 0 ∨ n = 1
  | .real x => x.toInt? = some 0 ∨ x.toInt? = some 1
  | .text s => s.map Char.toLower ∈ Reading.setWords ∨ s.map Char.toLower ∈ Reading.unsetWords
  | _ => False

end Data

/-- **Values that fit a form.** -/
inductive Fits : Form → Data → Prop where
  | text (s : String) : Fits .text (.text s)
  | flag {v : Data} (h : v.IsFlag) : Fits .flag v
  | integer {v : Data} (h : v.IsInteger) : Fits .integer v
  | word {words : List String} {w : String} (h : w ∈ words) : Fits (.word words) (.text w)
  | range {vs : List Data} (r : Range) (h : vs.map Data.whole? = r.coordinates.map some) : Fits .range (.list vs)
  | list {item : Form} {vs : List Data} (h : ∀ v ∈ vs, Fits item v) : Fits (.list item) (.list vs)
  | record {sort : RecordForm} {fs : List (String × Data)}
      (hthere : ∀ field ∈ sort.fields, field.presence = .required → Data.get? fs field.key ≠ none)
      (hvalues : ∀ field ∈ sort.fields, ∀ v, field.value? fs = some v → Fits field.form v) :
      Fits (.record sort) (.table fs)
  | node {fs : List (String × Data)} {kind : NodeKind} (hkind : Data.get? fs "kind" = some (.text kind.text))
      (h : Fits (.only kind) (.table fs)) : Fits .node (.table fs)

/-! ## Parts -/

/-- **Parts.** A value inside a value, with the form that is asked of it. Behind a slot that takes any node the
first step names the kind; it stays at the same value. A list that is too long for a range is not looked into. -/
inductive Part : Form → Data → Step → Form → Data → Prop where
  | item {item : Form} {vs : List Data} {i : Nat} {v : Data} (h : vs[i]? = some v) :
      Part (.list item) (.list vs) (.index i) item v
  | field {sort : RecordForm} {field : FieldForm} {fs : List (String × Data)} {v : Data} (hfield : field ∈ sort.fields)
      (hv : field.value? fs = some v) : Part (.record sort) (.table fs) (.key field.key) field.form v
  | tagged {fs : List (String × Data)} {kind : NodeKind} (h : Data.get? fs "kind" = some (.text kind.text)) :
      Part .node (.table fs) (.tag kind) (.only kind) (.table fs)
  | coordinate {vs : List Data} {i : Nat} {v : Data} (hlength : vs.length ≤ 4) (h : vs[i]? = some v) :
      Part .range (.list vs) (.index i) .integer v

/-- **Paths.** What stands at the end of a path, and the form that is asked of it there. -/
inductive Reaches : Form → Data → List Step → Form → Data → Prop where
  | here (form : Form) (v : Data) : Reaches form v [] form v
  | step {form form' form'' : Form} {v v' v'' : Data} {step : Step} {path : List Step} (h : Part form v step form' v')
      (rest : Reaches form' v' path form'' v'') : Reaches form v (step :: path) form'' v''

/-- The step does not lead into the document. -/
def Step.isTag : Step → Bool
  | .tag _ => true
  | _ => false

/-- The path of a fault without its tags. -/
def Step.untagged (path : List Step) : List Step := path.filter (!·.isTag)

/-- The value at the end of a path through the bare values. -/
def Data.walk (d : Data) : List Step → Option Data
  | [] => some d
  | .key key :: rest => (d.field? key).bind (·.walk rest)
  | .index i :: rest =>
    match d with
    | .list vs => vs[i]?.bind (·.walk rest)
    | _ => none
  | .tag _ :: _ => none

/-- A value that counts for a field stands under its key. -/
theorem FieldForm.get?_of_value? {field : FieldForm} {fs : List (String × Data)} {v : Data}
    (h : field.value? fs = some v) : Data.get? fs field.key = some v := by
  unfold value? at h
  split at h
  · rename_i hnull
    split at h
    · contradiction
    · rw [hnull, h]
  · exact h

/-- **A path leads through the bare values**, once its tags are left out. -/
theorem Reaches.walk {form form' : Form} {v v' : Data} {path : List Step} (h : Reaches form v path form' v') :
    v.walk (Step.untagged path) = some v' := by
  induction h with
  | here => rfl
  | step hpart rest ih =>
    cases hpart with
    | item hi =>
      show (_[_]?).bind _ = _
      rw [hi]
      exact ih
    | field hfield hv =>
      show (Data.get? _ _).bind _ = _
      rw [FieldForm.get?_of_value? hv]
      exact ih
    | tagged =>
      -- the tag is left out, and the value behind it is the same
      exact ih
    | coordinate hlength hi =>
      show (_[_]?).bind _ = _
      rw [hi]
      exact ih

/-! ## Flaws -/

/-- The problem of a value that could not be read. -/
def Reading.problem? {α : Type} : Reading α → Option Problem
  | .failed (e :: _) => some e.problem
  | _ => none

/-- Four integers are no range if the two positions come in the wrong order. -/
def Form.disorder? : List (Option Int) → Option Problem
  | [some a, some b, some c, some d] =>
    if (⟨a, b⟩ : Position) ≤ ⟨c, d⟩ then none else some (.invalid (Reading.disorderText ⟨a, b⟩ ⟨c, d⟩))
  | _ => none

/-- **What is wrong with a value by itself**, whatever stands inside it. -/
def Form.flaw? (form : Form) (v : Data) : Option Problem :=
  match form with
  | .text => (Reading.text v).problem?
  | .flag => (Reading.flag v).problem?
  | .integer => (Reading.integer v).problem?
  | .word words =>
    match v with
    | .text w => if w ∈ words then none else some .notAllowed
    | _ => some .notAllowed
  | .range =>
    match v with
    | .list vs => if 4 < vs.length then some .tooLong else disorder? (vs.map Data.whole?)
    | _ => some .notQuadruple
  | .list _ =>
    match v with
    | .list _ => none
    | _ => some .notList
  | .record _ =>
    match v with
    | .table _ => none
    | _ => some .notTable
  | .node =>
    match v with
    | .table fs =>
      match Data.get? fs "kind" with
      | some (.text w) => if (NodeKind.ofText? w).isSome then none else some .unknownKind
      | some _ => some .unknownKind
      | none => some .noKind
    | _ => some .notNode

/-- **Something that has to be there is not**: a field of a record, or an integer of a range. -/
inductive Absent : Form → Data → Step → Prop where
  | field {sort : RecordForm} {field : FieldForm} {fs : List (String × Data)} (hfield : field ∈ sort.fields)
      (hrequired : field.presence = .required) (hnone : Data.get? fs field.key = none) :
      Absent (.record sort) (.table fs) (.key field.key)
  | coordinate {vs : List Data} {i : Nat} (hi : i < 4) (hshort : vs.length ≤ i) : Absent .range (.list vs) (.index i)

/-- The fault, seen from one step further up. -/
def Fault.under (step : Step) (e : Fault) : Fault := ⟨step :: e.path, e.problem⟩

/-- **All flaws of a value**, each as the fault that it is. -/
inductive Flawed : Form → Data → Fault → Prop where
  | own {form : Form} {v : Data} {problem : Problem} (h : form.flaw? v = some problem) : Flawed form v ⟨[], problem⟩
  | absent {form : Form} {v : Data} {step : Step} (h : Absent form v step) : Flawed form v ⟨[step], .missing⟩
  | inside {form form' : Form} {v v' : Data} {step : Step} {e : Fault} (h : Part form v step form' v')
      (he : Flawed form' v' e) : Flawed form v (e.under step)

variable {form form' : Form} {v v' : Data} {path : List Step} {e : Fault}

/-- **Where flaws are.** A flaw is at the end of a path, or one step behind the end where something is not there. -/
theorem Flawed.located (h : Flawed form v e) :
    (∃ form' v', Reaches form v e.path form' v' ∧ form'.flaw? v' = some e.problem) ∨
    (e.problem = .missing ∧ ∃ path step form' v', e.path = path ++ [step] ∧ Reaches form v path form' v' ∧
      Absent form' v' step) := by
  induction h with
  | own h => exact Or.inl ⟨_, _, .here _ _, h⟩
  | absent h => exact Or.inr ⟨rfl, [], _, _, _, rfl, .here _ _, h⟩
  | inside hpart he ih =>
    rcases ih with ⟨form', v', hreach, hflaw⟩ | ⟨hmissing, path, step, form', v', hpath, hreach, habsent⟩
    · exact Or.inl ⟨form', v', .step hpart hreach, hflaw⟩
    · refine Or.inr ⟨hmissing, _ :: path, step, form', v', ?_, .step hpart hreach, habsent⟩
      show _ :: _ = _
      rw [hpath]
      rfl

/-- **A flaw at the end of a path is a flaw**, with the path in front. -/
theorem Reaches.flawed (h : Reaches form v path form' v') (he : Flawed form' v' e) :
    Flawed form v ⟨path ++ e.path, e.problem⟩ := by
  induction h with
  | here => exact he
  | step hpart _ ih => exact .inside hpart (ih he)

/-! ### Flaws and fits -/

/-- What is taken as a text, an integer or a flag, without the readers. -/
theorem text_flaw_iff : Form.text.flaw? v = none ↔ ∃ s, v = .text s := by
  cases v with
  | text s => simp [Form.flaw?, Reading.text, Reading.problem?]
  | _ => simp [Form.flaw?, Reading.text, Reading.problem?, Reading.fault]

theorem integer_flaw_iff : Form.integer.flaw? v = none ↔ v.IsInteger := by
  cases v with
  | real x =>
    cases x with
    | finite m n =>
      simp only [Form.flaw?, Reading.integer, Binary64.isFinite, Data.IsInteger, if_true]
      cases Binary64.toInt? (.finite m n) with
      | none => simp [Reading.problem?, Reading.fault]
      | some k =>
        by_cases hk : -Reading.signedLimit < k ∧ k < Reading.signedLimit
        · simp [Reading.problem?, hk]
        · simp [Reading.problem?, Reading.fault, hk]
    | _ => simp [Form.flaw?, Reading.integer, Binary64.isFinite, Data.IsInteger, Reading.problem?, Reading.fault,
        Binary64.toInt?]
  | text s =>
    simp only [Form.flaw?, Reading.integer, Data.IsInteger]
    cases Text.wholeNumber? s with
    | none => simp [Reading.problem?, Reading.fault]
    | some n =>
      by_cases hn : Text.digitCount n ≤ Text.maxDigits
      · simp [Reading.problem?, hn]
      · simp [Reading.problem?, Reading.fault, hn]
  | _ => simp [Form.flaw?, Reading.integer, Data.IsInteger, Reading.problem?, Reading.fault]

/-- Of the integers only zero and one are flags. -/
theorem flagOfInt_problem (n : Int) : (Reading.flagOfInt n).problem? = none ↔ n = 0 ∨ n = 1 := by
  unfold Reading.flagOfInt
  by_cases h0 : n = 0
  · simp [h0, Reading.problem?]
  · by_cases h1 : n = 1
    · simp [h1, Reading.problem?]
    · by_cases hfits : Reading.fitsSigned n = true <;> simp [h0, h1, hfits, Reading.problem?, Reading.fault]

/-- Besides truth values, two numbers and a few words are flags, and the case of the words does not matter. -/
theorem flag_flaw_iff : Form.flag.flaw? v = none ↔ v.IsFlag := by
  cases v with
  | int n => exact flagOfInt_problem n
  | real x =>
    simp only [Form.flaw?, Reading.flag, Data.IsFlag]
    cases x.toInt? with
    | none => simp [Reading.problem?, Reading.fault]
    | some n =>
      by_cases hn : -Reading.signedLimit < n
      · simp [hn, flagOfInt_problem]
      · -- a number at or below the limit is neither zero nor one
        have hlimit : (0 : Int) < Reading.signedLimit := by decide
        have h0 : n ≠ 0 := by omega
        have h1 : n ≠ 1 := by omega
        simp [hn, Reading.problem?, Reading.fault, h0, h1]
  | text s =>
    simp only [Form.flaw?, Reading.flag, Data.IsFlag]
    by_cases hset : s.map Char.toLower ∈ Reading.setWords
    · simp [hset, Reading.problem?]
    · by_cases hunset : s.map Char.toLower ∈ Reading.unsetWords
      · simp [hset, hunset, Reading.problem?]
      · simp [hset, hunset, Reading.problem?, Reading.fault]
  | _ => simp [Form.flaw?, Reading.flag, Data.IsFlag, Reading.problem?, Reading.fault]

/-- The reading of a single value has at most one fault, at the value itself. -/
def Reading.Single {α : Type} (r : Reading α) : Prop :=
  (∃ a, r = .done a) ∨ ∃ problem, problem ≠ .missing ∧ r = fault problem

/-- Readers of values without parts report at most one fault, and it is at the value itself. -/
theorem Reading.single_text (v : Data) : (Reading.text v).Single := by
  cases v with
  | text s => exact Or.inl ⟨s, rfl⟩
  | _ => exact Or.inr ⟨.notText, by decide, rfl⟩

theorem Reading.single_integer (v : Data) : (Reading.integer v).Single := by
  cases v with
  | int n => exact Or.inl ⟨n, rfl⟩
  | bool b => exact Or.inl ⟨_, rfl⟩
  | real x =>
    unfold integer
    simp only
    split
    · split
      · split
        · exact Or.inl ⟨_, rfl⟩
        · exact Or.inr ⟨.hugeInteger, by decide, rfl⟩
      · exact Or.inr ⟨.fractional, by decide, rfl⟩
    · exact Or.inr ⟨.notFinite, by decide, rfl⟩
  | text s =>
    unfold integer
    simp only
    split
    · split
      · exact Or.inl ⟨_, rfl⟩
      · exact Or.inr ⟨.hugeInteger, by decide, rfl⟩
    · exact Or.inr ⟨.malformedInteger, by decide, rfl⟩
  | _ => exact Or.inr ⟨.notInteger, by decide, rfl⟩

theorem Reading.single_flagOfInt (n : Int) : (Reading.flagOfInt n).Single := by
  unfold flagOfInt
  split
  · exact Or.inl ⟨false, rfl⟩
  · split
    · exact Or.inl ⟨true, rfl⟩
    · split
      · exact Or.inr ⟨.malformedFlag, by decide, rfl⟩
      · exact Or.inr ⟨.notFlag, by decide, rfl⟩

theorem Reading.single_flag (v : Data) : (Reading.flag v).Single := by
  cases v with
  | bool b => exact Or.inl ⟨b, rfl⟩
  | int n => exact single_flagOfInt n
  | real x =>
    unfold flag
    simp only
    split
    · split
      · exact single_flagOfInt _
      · exact Or.inr ⟨.notFlag, by decide, rfl⟩
    · exact Or.inr ⟨.notFlag, by decide, rfl⟩
  | text s =>
    unfold flag
    simp only
    split
    · exact Or.inl ⟨true, rfl⟩
    · split
      · exact Or.inl ⟨false, rfl⟩
      · exact Or.inr ⟨.malformedFlag, by decide, rfl⟩
  | _ => exact Or.inr ⟨.notFlag, by decide, rfl⟩

/-- A value stands for an integer exactly if it is taken for one. -/
theorem exists_whole?_iff : (∃ n, v.whole? = some n) ↔ v.IsInteger := by
  rw [← integer_flaw_iff]
  unfold Data.whole? Form.flaw?
  rcases Reading.single_integer v with ⟨n, hn⟩ | ⟨problem, -, hn⟩
  · simp [hn, Reading.problem?]
  · simp [hn, Reading.problem?, Reading.fault]

/-- Four values are a range exactly if they are integers in order. -/
theorem range_flaw_iff {vs : List Data} :
    (Form.range.flaw? (.list vs) = none ∧ (∀ step, ¬ Absent .range (.list vs) step) ∧
      ∀ step form' v', Part .range (.list vs) step form' v' → v'.IsInteger) ↔
      ∃ r : Range, vs.map Data.whole? = r.coordinates.map some := by
  constructor
  · rintro ⟨hflaw, habsent, hparts⟩
    simp only [Form.flaw?] at hflaw
    split at hflaw
    · contradiction
    rename_i hlength
    have hfour : vs.length = 4 := by
      have hthree : ¬ vs.length ≤ 3 := fun h => habsent _ (.coordinate (by omega) h)
      omega
    match vs, hfour with
    | [v₀, v₁, v₂, v₃], hfour =>
      have hwhole : ∀ (i : Nat) w, [v₀, v₁, v₂, v₃][i]? = some w → ∃ n, w.whole? = some n :=
        fun i w hw => exists_whole?_iff.mpr (hparts _ _ _ (.coordinate (Nat.le_of_eq hfour) hw))
      obtain ⟨a, ha⟩ := hwhole 0 v₀ rfl
      obtain ⟨b, hb⟩ := hwhole 1 v₁ rfl
      obtain ⟨c, hc⟩ := hwhole 2 v₂ rfl
      obtain ⟨d, hd⟩ := hwhole 3 v₃ rfl
      simp only [List.map_cons, List.map_nil, ha, hb, hc, hd, Form.disorder?] at hflaw ⊢
      split at hflaw
      · rename_i hle
        exact ⟨⟨⟨a, b⟩, ⟨c, d⟩, hle⟩, rfl⟩
      · contradiction
  · rintro ⟨r, hr⟩
    have hfour : vs.length = 4 := by simpa [Range.coordinates] using congrArg List.length hr
    refine ⟨?_, ?_, ?_⟩
    · have hle : (⟨r.start.line, r.start.column⟩ : Position) ≤ ⟨r.stop.line, r.stop.column⟩ := r.start_le_stop
      have hnot : ¬ 4 < vs.length := by omega
      simp [Form.flaw?, hnot, hr, Range.coordinates, Form.disorder?, hle]
    · rintro _ ⟨⟩
      omega
    · rintro _ _ w ⟨⟩
      rename_i i _ hi
      rw [← exists_whole?_iff]
      -- the item at an index is one of the four integers of the range
      have hmap : (vs.map Data.whole?)[i]? = some w.whole? := by rw [List.getElem?_map, hi, Option.map_some]
      rw [hr, List.getElem?_map] at hmap
      obtain ⟨n, -, hn⟩ := Option.map_eq_some_iff.mp hmap
      exact ⟨n, hn.symm⟩

/-- A slot for any node takes the records that state a kind. -/
theorem node_flaw_iff : Form.node.flaw? v = none ↔
    ∃ fs kind, v = .table fs ∧ Data.get? fs "kind" = some (.text (NodeKind.text kind)) := by
  cases v with
  | table fs =>
    simp only [Form.flaw?]
    cases hkind : Data.get? fs "kind" with
    | none => simp [hkind]
    | some w =>
      cases w with
      | text word =>
        cases hword : NodeKind.ofText? word with
        | none =>
          have hne : ∀ kind : NodeKind, word ≠ kind.text := fun kind heq => by simp [heq] at hword
          simp [hword, hkind, hne]
        | some kind =>
          obtain rfl := NodeKind.ofText?_eq_some_iff.mp hword
          refine ⟨fun _ => ⟨fs, kind, rfl, hkind⟩, fun _ => ?_⟩
          simp
      | _ => simp [hkind]
  | _ => simp [Form.flaw?]

/-- The form is that of a single value. -/
def Form.isSingle : Form → Bool
  | .text | .flag | .integer | .word _ => true
  | _ => false

/-- A value without parts fits if nothing is wrong with it by itself. -/
theorem single_fits_iff (h : form.isSingle = true) : Fits form v ↔ form.flaw? v = none := by
  cases form with
  | text =>
    rw [text_flaw_iff]
    exact ⟨fun | .text s => ⟨s, rfl⟩, fun ⟨s, hs⟩ => hs ▸ .text s⟩
  | flag =>
    rw [flag_flaw_iff]
    exact ⟨fun | .flag hv => hv, .flag⟩
  | integer =>
    rw [integer_flaw_iff]
    exact ⟨fun | .integer hv => hv, .integer⟩
  | word words =>
    constructor
    · intro hfits
      cases hfits with
      | word hw => simpa [Form.flaw?] using hw
    · intro hflaw
      cases v with
      | text w => exact .word (by simpa [Form.flaw?] using hflaw)
      | _ => simp [Form.flaw?] at hflaw
  | _ => contradiction

/-- A value is taken for a range exactly if it is the list of the integers of one. -/
theorem range_fits_iff : Fits .range v ↔
    ∃ vs, v = .list vs ∧ ∃ r : Range, vs.map Data.whole? = r.coordinates.map some := by
  constructor
  · intro hfits
    cases hfits with
    | range r hr => exact ⟨_, rfl, r, hr⟩
  · rintro ⟨vs, rfl, r, hr⟩
    exact .range r hr

/-- What a value needs to fit, apart from being right by itself. -/
def Form.Complete (form : Form) (v : Data) : Prop :=
  (∀ step, ¬ Absent form v step) ∧ ∀ step form' v', Part form v step form' v' → Fits form' v'

/-- A form without parts asks for none. -/
theorem complete_of_single (h : form.isSingle = true) : form.Complete v := by
  refine ⟨?_, ?_⟩
  · rintro step hstep
    cases hstep <;> contradiction
  · rintro step form' v' hpart
    cases hpart <;> contradiction

/-- A range is in order and has its four integers. -/
theorem range_complete_iff {vs : List Data} :
    Form.range.flaw? (.list vs) = none ∧ Form.range.Complete (.list vs) ↔ Fits .range (.list vs) := by
  have hinteger : ∀ w, Fits .integer w ↔ w.IsInteger := fun w => by
    rw [single_fits_iff rfl, integer_flaw_iff]
  have hfits : Fits .range (.list vs) ↔ ∃ r : Range, vs.map Data.whole? = r.coordinates.map some := by
    simp [range_fits_iff]
  rw [hfits, ← range_flaw_iff]
  refine and_congr_right fun _ => and_congr_right fun _ => ?_
  constructor
  · rintro h step form' w hpart
    have hw := h step form' w hpart
    cases hpart
    exact (hinteger w).mp hw
  · rintro h step form' w hpart
    have hw := h step form' w hpart
    cases hpart
    exact (hinteger w).mpr hw

/-- Lists fit if their items do, records if their fields do, and nodes if the fields of their kind do. -/
theorem list_complete_iff {item : Form} {vs : List Data} :
    (Form.list item).Complete (.list vs) ↔ Fits (.list item) (.list vs) := by
  constructor
  · rintro ⟨-, hparts⟩
    refine .list fun w hw => ?_
    obtain ⟨i, hi⟩ := List.getElem?_of_mem hw
    exact hparts _ _ _ (.item hi)
  · intro hfits
    cases hfits with
    | list hitems =>
      refine ⟨?_, ?_⟩
      · rintro step ⟨⟩
      · rintro step form' w hpart
        cases hpart with
        | item hi => exact hitems w (List.mem_of_getElem? hi)

theorem record_complete_iff {sort : RecordForm} {fs : List (String × Data)} :
    (Form.record sort).Complete (.table fs) ↔ Fits (.record sort) (.table fs) := by
  constructor
  · rintro ⟨habsent, hparts⟩
    exact .record (fun field hfield hrequired hnone => habsent _ (.field hfield hrequired hnone))
      fun field hfield w hw => hparts _ _ _ (.field hfield hw)
  · intro hfits
    cases hfits with
    | record hthere hvalues =>
      refine ⟨?_, ?_⟩
      · rintro step hstep
        cases hstep with
        | field hfield hrequired hnone => exact hthere _ hfield hrequired hnone
      · rintro step form' w hpart
        cases hpart with
        | field hfield hw => exact hvalues _ hfield w hw

theorem node_complete_iff {fs : List (String × Data)} {kind : NodeKind}
    (hkind : Data.get? fs "kind" = some (.text kind.text)) :
    Form.node.Complete (.table fs) ↔ Fits .node (.table fs) := by
  constructor
  · rintro ⟨-, hparts⟩
    exact .node hkind (hparts _ _ _ (.tagged hkind))
  · intro hfits
    cases hfits with
    | node hstated hrecord =>
      refine ⟨?_, ?_⟩
      · rintro step ⟨⟩
      · rintro step form' w hpart
        cases hpart with
        | tagged htag =>
          -- the record states one kind
          have hword := Option.some.inj (htag.symm.trans hstated)
          rw [NodeKind.text_injective (Data.text.inj hword)]
          exact hrecord

/-- **A value fits exactly if it is right by itself**, nothing is absent, and what stands inside it fits. -/
theorem fits_iff_complete : Fits form v ↔ form.flaw? v = none ∧ form.Complete v := by
  cases form with
  | text | flag | integer | word =>
    rw [single_fits_iff rfl]
    exact (and_iff_left (complete_of_single rfl)).symm
  | range =>
    cases v with
    | list vs => exact range_complete_iff.symm
    | _ => simp [Form.flaw?, range_fits_iff]
  | list item =>
    cases v with
    | list vs => simp [Form.flaw?, list_complete_iff]
    | _ =>
      simp only [Form.flaw?, reduceCtorEq, false_and, iff_false]
      rintro ⟨⟩
  | record sort =>
    cases v with
    | table fs => simp [Form.flaw?, record_complete_iff]
    | _ =>
      simp only [Form.flaw?, reduceCtorEq, false_and, iff_false]
      rintro ⟨⟩
  | node =>
    rw [node_flaw_iff]
    constructor
    · intro hfits
      cases hfits with
      | node hkind h => exact ⟨⟨_, _, rfl, hkind⟩, (node_complete_iff hkind).mpr (.node hkind h)⟩
    · rintro ⟨⟨fs, kind, rfl, hkind⟩, hcomplete⟩
      exact (node_complete_iff hkind).mp hcomplete

/-- One for the slot that takes any node, which a tag takes away. -/
def Form.rank : Form → Nat
  | .node => 1
  | _ => 0

theorem Form.rank_le (form : Form) : form.rank ≤ 1 := by cases form <;> simp [rank]

/-- How far a value is from having no parts. -/
def Form.weight (form : Form) (v : Data) : Nat := 2 * v.depth + form.rank

/-- A part is smaller than the whole, so that flaws can be looked for from the top. -/
theorem Part.weight_lt {step : Step} (h : Part form v step form' v') : form'.weight v' < form.weight v := by
  have hrank := form'.rank_le
  unfold Form.weight
  cases h with
  | item hi | coordinate _ hi =>
    have hle := Data.depth_le_of_mem (List.mem_of_getElem? hi)
    rw [Data.depth]
    omega
  | field hfield hv =>
    have hle := Data.depth_le_of_get? (FieldForm.get?_of_value? hv)
    rw [Data.depth]
    omega
  | tagged => exact Nat.lt_succ_self _

theorem Flawed.not_fits (h : Flawed form v e) : ¬ Fits form v := by
  -- by induction on the path to the flaw
  induction h with
  | own hflaw =>
    intro hfits
    rw [(fits_iff_complete.mp hfits).1] at hflaw
    contradiction
  | absent habsent => exact fun hfits => (fits_iff_complete.mp hfits).2.1 _ habsent
  | inside hpart _ ih => exact fun hfits => ih ((fits_iff_complete.mp hfits).2.2 _ _ _ hpart)

/-- **A value fits exactly if it has no flaw.** -/
theorem fits_iff (form : Form) (v : Data) : Fits form v ↔ ∀ e, ¬ Flawed form v e := by
  constructor
  · exact fun hfits e he => he.not_fits hfits
  · -- by induction on the weight, since all parts weigh less
    intro hnone
    rw [fits_iff_complete]
    refine ⟨?_, fun step hstep => hnone _ (.absent hstep), fun step form' v' hpart => ?_⟩
    · cases hflaw : form.flaw? v with
      | none => rfl
      | some problem => exact absurd (.own hflaw) (hnone _)
    · exact (fits_iff form' v').mpr fun e he => hnone _ (.inside hpart he)
  termination_by form.weight v
  decreasing_by exact hpart.weight_lt

end Caret
