import Caret.Proofs.Forms
import Caret.Proofs.Schema
/-!
# `Caret.Proofs.Faults` — the faults of a document are its flaws

Each reader follows a form: what it reports are the flaws of the value, no more and no fewer, and where it reports
nothing it gives a result (`Reading.Reports`). Readers of fields put together follow the fields put together, so
that each kind of record is one line of the table of forms. The reader of nodes follows its form by induction on the
depth of the value.

From this, every fault of a refused document has a place in the document, and every slot with something wrong in it
has a fault there or further inside (`Schema.faults_located`).

## Contents
- **Reports.** `Reading.faults`, `Reading.Reports` and how it goes through the combinators.
- **Values, fields and nodes.** `follows_text` to `follows_range`; `Follows` and `FollowsFields`; `follows_node`.
- **Documents.** `Schema.reports_script`, `Schema.faults_located`.
-/

namespace Caret

/-! ## Reports -/

namespace Reading

variable {α β : Type}

/-- The faults of a reading. -/
def faults : Reading α → List Fault
  | .done _ => []
  | .failed es => es

@[simp] theorem faults_map (f : α → β) (r : Reading α) : (f <$> r).faults = r.faults := by
  cases r <;> rfl

/-- Side by side, both readings report their faults. -/
@[simp] theorem faults_seq (f : Reading (α → β)) (r : Reading α) : (f <*> r).faults = f.faults ++ r.faults := by
  cases f <;> cases r <;> simp [faults, Seq.seq, Reading.seq]

@[simp] theorem faults_under (step : Step) (r : Reading α) :
    (r.under step).faults = r.faults.map (Fault.under step) := by
  cases r <;> rfl

/-- **What a reading reports.** Its faults are those with the property, and without any there is a result. -/
structure Reports (r : Reading α) (P : Fault → Prop) : Prop where
  mem_iff : ∀ e, e ∈ r.faults ↔ P e
  done : r.faults = [] → ∃ a, r = .done a

namespace Reports

variable {r : Reading α} {f : Reading (α → β)} {P Q : Fault → Prop}

/-- Properties of faults may be put in another way. -/
theorem congr (h : r.Reports P) (hpq : ∀ e, P e ↔ Q e) : r.Reports Q :=
  ⟨fun e => (h.mem_iff e).trans (hpq e), h.done⟩

/-- Nothing is reported where a value is read, so nothing may be wrong. -/
theorem of_done {a : α} (h : ∀ e, ¬ P e) : (Reading.done a).Reports P :=
  ⟨fun e => by simp [faults, h], fun _ => ⟨a, rfl⟩⟩

/-- One fault at the value itself. -/
theorem of_fault {problem : Problem} (h : ∀ e, P e ↔ e = ⟨[], problem⟩) : (fault problem : Reading α).Reports P :=
  ⟨fun e => by simp [faults, fault, h], fun hnil => by simp [faults, fault] at hnil⟩

theorem map (h : r.Reports P) (g : α → β) : (g <$> r).Reports P := by
  refine ⟨fun e => by rw [faults_map, h.mem_iff], fun hnil => ?_⟩
  rw [faults_map] at hnil
  obtain ⟨a, rfl⟩ := h.done hnil
  exact ⟨g a, rfl⟩

/-- Side by side, something is wrong if it is wrong on one of the sides. -/
theorem seq (hf : f.Reports P) (hr : r.Reports Q) : (f <*> r).Reports fun e => P e ∨ Q e := by
  refine ⟨fun e => by rw [faults_seq, List.mem_append, hf.mem_iff, hr.mem_iff], fun hnil => ?_⟩
  rw [faults_seq, List.append_eq_nil_iff] at hnil
  obtain ⟨g, rfl⟩ := hf.done hnil.1
  obtain ⟨a, rfl⟩ := hr.done hnil.2
  exact ⟨g a, rfl⟩

/-- Below a step of the path the same things are wrong, one step further down. -/
theorem under (h : r.Reports P) (step : Step) : (r.under step).Reports fun e => ∃ e', P e' ∧ e = e'.under step := by
  refine ⟨fun e => ?_, fun hnil => ?_⟩
  · simp only [faults_under, List.mem_map, h.mem_iff, eq_comm]
  · rw [faults_under, List.map_eq_nil_iff] at hnil
    obtain ⟨a, rfl⟩ := h.done hnil
    exact ⟨a, rfl⟩

/-- What is reported does not depend on what would have been read. -/
theorem of_failed {es : List Fault} (h : (Reading.failed es : Reading α).Reports P) :
    (Reading.failed es : Reading β).Reports P := by
  refine ⟨h.mem_iff, fun hnil => ?_⟩
  obtain ⟨a, ha⟩ := h.done hnil
  contradiction

/-- A reading that fails has a reason. -/
theorem exists_of_failed {es : List Fault} (h : (Reading.failed es : Reading α).Reports P) : ∃ e, P e := by
  cases es with
  | nil =>
    obtain ⟨a, ha⟩ := h.done rfl
    contradiction
  | cons e es => exact ⟨e, (h.mem_iff e).mp List.mem_cons_self⟩

/-- A result comes exactly where nothing is reported. -/
theorem exists_done_iff (h : r.Reports P) : (∃ a, r = .done a) ↔ ∀ e, ¬ P e := by
  constructor
  · rintro ⟨a, rfl⟩ e he
    have hmem := (h.mem_iff e).mpr he
    simp [faults] at hmem
  · intro hnone
    refine h.done (List.eq_nil_iff_forall_not_mem.mpr fun e he => hnone e ((h.mem_iff e).mp he))

end Reports
end Reading

open Reading

/-! ## Single values -/

variable {α β : Type} {form : Form} {v : Data} {e : Fault} {bound : Nat}

/-- A value without parts can only be wrong by itself. -/
theorem flawed_single_iff (h : form.isSingle = true) :
    Flawed form v e ↔ e.path = [] ∧ form.flaw? v = some e.problem := by
  constructor
  · intro he
    cases he with
    | own hflaw => exact ⟨rfl, hflaw⟩
    | absent habsent => exact absurd habsent ((complete_of_single h).1 _)
    | inside hpart _ => cases hpart <;> contradiction
  · obtain ⟨path, problem⟩ := e
    rintro ⟨rfl, hflaw⟩
    exact .own hflaw

/-- A reader of single values follows its form if it agrees on what is wrong with a value by itself. -/
theorem reports_single {r : Reading α} (hform : form.isSingle = true) (hr : r.Single)
    (hflaw : form.flaw? v = r.problem?) : r.Reports (Flawed form v) := by
  rcases hr with ⟨a, rfl⟩ | ⟨problem, -, rfl⟩
  · refine .of_done fun e he => ?_
    rw [flawed_single_iff hform, hflaw] at he
    simp [problem?] at he
  · refine .of_fault fun e => ?_
    rw [flawed_single_iff hform, hflaw]
    obtain ⟨path, problem'⟩ := e
    simp [problem?, fault, eq_comm]

/-- **A reader follows a form** on all values up to a depth. -/
def Follows (bound : Nat) (form : Form) (read : Data → Reading α) : Prop :=
  ∀ v : Data, v.depth ≤ bound → (read v).Reports (Flawed form v)

theorem follows_text : Follows bound .text text := fun v _ => reports_single rfl (single_text v) rfl

theorem follows_flag : Follows bound .flag flag := fun v _ => reports_single rfl (single_flag v) rfl

theorem follows_integer : Follows bound .integer integer := fun v _ => reports_single rfl (single_integer v) rfl

/-- A word out of a table: the words of the form are those of the table. -/
theorem follows_oneOf (words : List (String × α)) : Follows bound (.word (words.map Prod.fst)) (oneOf words) := by
  intro v _
  cases v with
  | text w =>
    have hmem : (words.lookup w).isSome ↔ w ∈ words.map Prod.fst := by
      rw [List.lookup_isSome_iff, List.mem_map]
      exact exists_congr fun p => and_congr_right fun _ => beq_iff_eq.trans eq_comm
    unfold oneOf
    simp only
    cases hw : words.lookup w with
    | none =>
      have hnot : w ∉ words.map Prod.fst := by rw [← hmem, hw]; simp
      refine reports_single rfl (Or.inr ⟨.notAllowed, by decide, rfl⟩) ?_
      simp only [Form.flaw?, if_neg hnot]
      rfl
    | some a =>
      have hin : w ∈ words.map Prod.fst := by rw [← hmem, hw]; rfl
      refine reports_single rfl (Or.inl ⟨a, rfl⟩) ?_
      simp only [Form.flaw?, if_pos hin]
      rfl
  | _ => exact reports_single rfl (Or.inr ⟨.notAllowed, by decide, rfl⟩) rfl

/-! ## Ranges -/

/-- What is wrong with an integer of a range. -/
def CoordinateFlawed (vs : List Data) (i : Nat) (e : Fault) : Prop :=
  (vs.length ≤ i ∧ e = ⟨[.index i], .missing⟩) ∨
    ∃ v e', vs[i]? = some v ∧ Flawed .integer v e' ∧ e = e'.under (.index i)

/-- One integer of a range: it is missing, or it is wrong where it stands. -/
theorem reports_item (vs : List Data) (i : Nat) : (item integer vs i).Reports (CoordinateFlawed vs i) := by
  unfold item CoordinateFlawed
  cases hi : vs[i]? with
  | none =>
    have hfault : (fault .missing : Reading Int).Reports fun e => e = ⟨[], .missing⟩ := .of_fault fun _ => Iff.rfl
    refine (hfault.under (.index i)).congr fun e => ?_
    have hlength : vs.length ≤ i := List.getElem?_eq_none_iff.mp hi
    simp [hlength, Fault.under]
  | some v =>
    have hlength : ¬ vs.length ≤ i := by
      intro hle
      rw [List.getElem?_eq_none hle] at hi
      contradiction
    refine ((follows_integer v (Nat.le_refl _)).under (.index i)).congr fun e => ?_
    simp [hlength]

/-- The four integers of a range are read side by side. -/
theorem reports_ends (vs : List Data) :
    (ends vs).Reports fun e => ∃ i < 4, CoordinateFlawed vs i e := by
  have hfour := ((((reports_item vs 0).map fun a b c d => ((⟨a, b⟩, ⟨c, d⟩) : Position × Position)).seq
    (reports_item vs 1)).seq (reports_item vs 2)).seq (reports_item vs 3)
  refine hfour.congr fun e => ?_
  constructor
  · rintro (((h | h) | h) | h)
    · exact ⟨0, by decide, h⟩
    · exact ⟨1, by decide, h⟩
    · exact ⟨2, by decide, h⟩
    · exact ⟨3, by decide, h⟩
  · rintro ⟨i, hi, h⟩
    match i, hi with
    | 0, _ => exact Or.inl (Or.inl (Or.inl h))
    | 1, _ => exact Or.inl (Or.inl (Or.inr h))
    | 2, _ => exact Or.inl (Or.inr h)
    | 3, _ => exact Or.inr h

/-- A range of at most four items is wrong by itself if its ends are in the wrong order, and otherwise at one of the
four integers. -/
theorem flawed_range_iff {vs : List Data} (hlength : vs.length ≤ 4) :
    Flawed .range (.list vs) e ↔
      (e.path = [] ∧ Form.disorder? (vs.map Data.whole?) = some e.problem) ∨ ∃ i < 4, CoordinateFlawed vs i e := by
  have hnot : ¬ 4 < vs.length := by omega
  constructor
  · intro he
    cases he with
    | own hflaw => exact Or.inl ⟨rfl, by simpa [Form.flaw?, hnot] using hflaw⟩
    | absent habsent =>
      cases habsent with
      | coordinate hi hshort => exact Or.inr ⟨_, hi, Or.inl ⟨hshort, rfl⟩⟩
    | inside hpart he =>
      cases hpart with
      | coordinate _ hi =>
        have hlt := (List.getElem?_eq_some_iff.mp hi).1
        exact Or.inr ⟨_, by omega, Or.inr ⟨_, _, hi, he, rfl⟩⟩
  · obtain ⟨path, problem⟩ := e
    rintro (⟨rfl, hdisorder⟩ | ⟨i, hi, ⟨hshort, heq⟩ | ⟨v, e', hv, he', heq⟩⟩)
    · exact .own (by simpa [Form.flaw?, hnot] using hdisorder)
    · rw [heq]
      exact .absent (.coordinate hi hshort)
    · rw [heq]
      exact .inside (.coordinate hlength hv) he'

/-- Integers that could not all be read are not in the wrong order. -/
theorem disorder?_of_flawed {vs : List Data} {i : Nat} (hi : i < 4) (h : CoordinateFlawed vs i e) :
    Form.disorder? (vs.map Data.whole?) = none := by
  cases hdisorder : Form.disorder? (vs.map Data.whole?) with
  | none => rfl
  | some problem =>
    unfold Form.disorder? at hdisorder
    split at hdisorder
    · rename_i a b c d hvs
      have hfour : vs.length = 4 := by simpa using congrArg List.length hvs
      rcases h with ⟨hshort, -⟩ | ⟨v, e', hv, he', -⟩
      · omega
      · -- the value at the index is one of the four integers
        have hwhole : (vs.map Data.whole?)[i]? = some v.whole? := by rw [List.getElem?_map, hv, Option.map_some]
        have hall : ∀ o ∈ vs.map Data.whole?, ∃ n, o = some n := by
          rw [hvs]
          simp
        have hv := exists_whole?_iff.mp (hall _ (List.mem_of_getElem? hwhole))
        exact absurd (.integer hv) he'.not_fits
    · contradiction

/-- Where nothing is looked into, only the value itself can be wrong. -/
theorem reports_own {problem : Problem} (hflaw : form.flaw? v = some problem) (habsent : ∀ step, ¬ Absent form v step)
    (hpart : ∀ step form' v', ¬ Part form v step form' v') : (fault problem : Reading α).Reports (Flawed form v) := by
  refine .of_fault fun e => ?_
  constructor
  · intro he
    cases he with
    | own hown => rw [Option.some.inj (hown.symm.trans hflaw)]
    | absent h => exact absurd h (habsent _)
    | inside h _ => exact absurd h (hpart _ _ _)
  · rintro rfl
    exact .own hflaw

/-- With all four integers read, the order of the ends is all that can be wrong. -/
theorem reports_ordered {vs : List Data} {p : Position × Position} (hlength : vs.length ≤ 4)
    (hread : ends vs = .done p) : (ordered p).Reports (Flawed .range (.list vs)) := by
  -- nothing is wrong with the integers, so only their order counts
  have hnone := (reports_ends vs).exists_done_iff.mp ⟨p, hread⟩
  have hflawed : ∀ e, Flawed .range (.list vs) e ↔ e.path = [] ∧
      (if p.1 ≤ p.2 then none else some (Problem.invalid (Reading.disorderText p.1 p.2))) =
        some e.problem := by
    intro e
    rw [flawed_range_iff hlength, coordinates_of_ends hlength hread, or_iff_left (hnone e)]
    rfl
  unfold ordered Range.ofEnds?
  by_cases hle : p.1 ≤ p.2
  · simp only [hle, dite_true]
    refine .of_done fun e he => ?_
    simp [hflawed, hle] at he
  · simp only [hle, dite_false]
    refine .of_fault fun e => ?_
    obtain ⟨path, problem⟩ := e
    simp [hflawed, hle, eq_comm]

/-- **Ranges.** More than four items are one fault; otherwise each integer is looked at, and their order if there
are four. -/
theorem follows_range : Follows bound .range range := by
  intro v _
  cases v with
  | list vs =>
    unfold range
    simp only
    split
    · rename_i hlong
      refine reports_own (by simp [Form.flaw?, hlong]) ?_ ?_
      · rintro step ⟨⟩
        omega
      · rintro step form' v' ⟨⟩
        omega
    · rename_i hlong
      have hlength : vs.length ≤ 4 := by omega
      have hreports := reports_ends vs
      show ((ends vs).andThen ordered).Reports _
      cases hread : ends vs with
      | done p => exact reports_ordered hlength hread
      | failed es =>
        -- with a fault in one of the integers their order is not looked at
        rw [hread] at hreports
        obtain ⟨_, i, hi, hflawed⟩ := hreports.exists_of_failed
        refine hreports.of_failed.congr fun e => ?_
        rw [flawed_range_iff hlength, disorder?_of_flawed hi hflawed]
        simp
  | _ =>
    refine reports_own rfl ?_ ?_
    · rintro step ⟨⟩
    · rintro step form' v' ⟨⟩

/-! ## Lists -/

theorem reports_itemsFrom {read : Data → Reading α} {vs : List Data} (i : Nat)
    (h : ∀ v ∈ vs, (read v).Reports (Flawed form v)) :
    (itemsFrom read i vs).Reports fun e =>
      ∃ j v e', vs[j]? = some v ∧ Flawed form v e' ∧ e = e'.under (.index (i + j)) := by
  -- by induction on the list: the faults of the item at `j` are under the index `i + j`
  induction vs generalizing i with
  | nil => exact .of_done fun e ⟨j, v, e', hj, _⟩ => by simp at hj
  | cons v vs ih =>
    -- the head stands at the index counted so far, and the rest is counted from the next one
    have hhead := (h v List.mem_cons_self).under (.index i)
    have htail := ih (i + 1) fun w hw => h w (List.mem_cons_of_mem v hw)
    refine ((hhead.map List.cons).seq htail).congr fun e => ?_
    constructor
    · rintro (⟨e', he', rfl⟩ | ⟨j, w, e', hj, he', rfl⟩)
      · exact ⟨0, v, e', rfl, he', rfl⟩
      · exact ⟨j + 1, w, e', hj, he', by rw [Nat.add_right_comm, Nat.add_assoc]⟩
    · rintro ⟨j, w, e', hj, he', rfl⟩
      cases j with
      | zero =>
        obtain rfl := Option.some.inj hj
        exact Or.inl ⟨e', he', rfl⟩
      | succ j => exact Or.inr ⟨j, w, e', hj, he', by rw [Nat.add_right_comm, Nat.add_assoc]⟩

/-- A list is wrong where one of its items is. -/
theorem Follows.listOf {read : Data → Reading α} (h : Follows bound form read) :
    Follows bound (.list form) (listOf read) := by
  intro v hv
  cases v with
  | list vs =>
    have hitems : ∀ w ∈ vs, (read w).Reports (Flawed form w) := by
      intro w hw
      have hle := Data.depth_le_of_mem hw
      rw [Data.depth] at hv
      exact h w (by omega)
    refine (reports_itemsFrom 0 hitems).congr fun e => ?_
    constructor
    · rintro ⟨j, w, e', hj, he', rfl⟩
      rw [Nat.zero_add]
      exact .inside (.item hj) he'
    · intro he
      cases he with
      | own hflaw => contradiction
      | absent habsent => cases habsent
      | inside hpart he' =>
        cases hpart with
        | item hj => exact ⟨_, _, _, hj, he', by rw [Nat.zero_add]⟩
  | _ =>
    refine reports_own rfl ?_ ?_
    · rintro step ⟨⟩
    · rintro step form' v' ⟨⟩

/-! ## Fields -/

/-- What is wrong with a field. -/
def FieldForm.Flawed (field : FieldForm) (fs : List (String × Data)) (e : Fault) : Prop :=
  (field.presence = .required ∧ Data.get? fs field.key = none ∧ e = ⟨[.key field.key], .missing⟩) ∨
  ∃ v e', field.value? fs = some v ∧ Caret.Flawed field.form v e' ∧ e = e'.under (.key field.key)

/-- A record is wrong in one of its fields. -/
theorem flawed_record_iff {sort : RecordForm} {fs : List (String × Data)} :
    Flawed (.record sort) (.table fs) e ↔ ∃ field ∈ sort.fields, field.Flawed fs e := by
  constructor
  · intro he
    cases he with
    | own hflaw => contradiction
    | absent habsent =>
      cases habsent with
      | field hfield hrequired hnone => exact ⟨_, hfield, Or.inl ⟨hrequired, hnone, rfl⟩⟩
    | inside hpart he' =>
      cases hpart with
      | field hfield hv => exact ⟨_, hfield, Or.inr ⟨_, _, hv, he', rfl⟩⟩
  · rintro ⟨field, hfield, ⟨hrequired, hnone, rfl⟩ | ⟨v, e', hv, he', rfl⟩⟩
    · exact .absent (.field hfield hrequired hnone)
    · exact .inside (.field hfield hv) he'

/-- **A reader of fields follows a list of fields** whose values go up to a depth. -/
def FollowsFields (bound : Nat) (fields : List FieldForm) (read : List (String × Data) → Reading α) : Prop :=
  ∀ fs : List (String × Data), Data.depthFields fs ≤ bound →
    (read fs).Reports fun e => ∃ field ∈ fields, field.Flawed fs e

section Fields

variable {read : Data → Reading α}

variable {key : String} {presence : Presence} {fs : List (String × Data)}

/-- Null counts as a value, except in a field that may be null. -/
theorem value?_eq_get? (h : presence ≠ .nullable) :
    FieldForm.value? ⟨key, presence, form⟩ fs = Data.get? fs key := by
  unfold FieldForm.value?
  split
  · rename_i hnull
    rw [if_neg h, hnull]
  · rfl

/-- A field with a value is wrong as the value is. -/
theorem reports_present {r : Reading α} (hvalue : FieldForm.value? ⟨key, presence, form⟩ fs = some v)
    (h : r.Reports (Flawed form v)) :
    (r.under (.key key)).Reports fun e => ∃ field ∈ [FieldForm.mk key presence form], field.Flawed fs e := by
  refine (h.under (.key key)).congr fun e => ?_
  simp [FieldForm.Flawed, FieldForm.get?_of_value? hvalue, hvalue]

/-- A field that may be left out has nothing wrong without a value. -/
theorem reports_left_out (hpresence : presence ≠ .required) (hvalue : FieldForm.value? ⟨key, presence, form⟩ fs = none)
    (a : α) : (Reading.done a).Reports fun e => ∃ field ∈ [FieldForm.mk key presence form], field.Flawed fs e := by
  refine .of_done fun e => ?_
  simp [FieldForm.Flawed, hpresence, hvalue]

/-- A field that has to be there. Without it, it is missing under its key. -/
theorem Follows.required (h : Follows bound form read) (key : String) :
    FollowsFields bound [⟨key, .required, form⟩] (required key read) := by
  intro fs hfs
  have hvalue : FieldForm.value? ⟨key, .required, form⟩ fs = Data.get? fs key := value?_eq_get? (by decide)
  unfold Reading.required
  cases hv : Data.get? fs key with
  | none =>
    have hfault : (fault .missing : Reading α).Reports fun e => e = ⟨[], .missing⟩ := .of_fault fun _ => Iff.rfl
    refine (hfault.under (.key key)).congr fun e => ?_
    simp [FieldForm.Flawed, hvalue, hv, Fault.under]
  | some v => exact reports_present (hvalue.trans hv) (h v (Nat.le_trans (Data.depth_le_of_get? hv) hfs))

/-- A field that may be left out. -/
theorem Follows.optional (h : Follows bound form read) (key : String) (default : α) :
    FollowsFields bound [⟨key, .optional, form⟩] (optional key default read) := by
  intro fs hfs
  have hvalue : FieldForm.value? ⟨key, .optional, form⟩ fs = Data.get? fs key := value?_eq_get? (by decide)
  unfold Reading.optional
  cases hv : Data.get? fs key with
  | none => exact reports_left_out (by decide) (hvalue.trans hv) default
  | some v => exact reports_present (hvalue.trans hv) (h v (Nat.le_trans (Data.depth_le_of_get? hv) hfs))

/-- A field that may be left out or null. -/
theorem Follows.nullable (h : Follows bound form read) (key : String) :
    FollowsFields bound [⟨key, .nullable, form⟩] (Reading.optional key none (Reading.nullable read)) := by
  intro fs hfs
  unfold Reading.optional
  cases hv : Data.get? fs key with
  | none => exact reports_left_out (by decide) (by simp [FieldForm.value?, hv]) none
  | some v =>
    have hread := h v (Nat.le_trans (Data.depth_le_of_get? hv) hfs)
    cases v with
    | null => exact reports_left_out (by decide) (by simp [FieldForm.value?, hv]) none
    | _ => exact reports_present (by simp [FieldForm.value?, hv]) (hread.map some)

variable {fields fields' : List FieldForm} {readF : List (String × Data) → Reading α}

theorem FollowsFields.map (h : FollowsFields bound fields readF) (g : α → β) :
    FollowsFields bound fields fun fs => g <$> readF fs :=
  fun fs hfs => (h fs hfs).map g

/-- Fields side by side are the fields of both sides. -/
theorem FollowsFields.seq {f : List (String × Data) → Reading (α → β)} (hf : FollowsFields bound fields f)
    (h : FollowsFields bound fields' readF) : FollowsFields bound (fields ++ fields') fun fs => f fs <*> readF fs := by
  intro fs hfs
  refine ((hf fs hfs).seq (h fs hfs)).congr fun e => ?_
  simp only [List.mem_append, or_and_right, exists_or]

/-- A record whose fields are followed is followed. -/
theorem FollowsFields.tableOf {sort : RecordForm} (h : FollowsFields bound sort.fields readF) :
    Follows bound (.record sort) (tableOf readF) := by
  intro v hv
  cases v with
  | table fs =>
    rw [Data.depth] at hv
    exact (h fs (by omega)).congr fun e => flawed_record_iff.symm
  | _ =>
    refine reports_own rfl ?_ ?_
    · rintro step ⟨⟩
    · rintro step form' v' ⟨⟩

end Fields

/-! ## Records -/

section Records

theorem follows_field : Follows bound (.record .hostField) Schema.field :=
  FollowsFields.tableOf (((follows_text.required "name").map Field.mk).seq (follows_text.required "type"))

theorem follows_method : Follows bound (.record .hostMethod) Schema.method :=
  FollowsFields.tableOf
    ((((follows_text.required "name").map Method.mk).seq (follows_text.optional "return" "void")).seq
      (follows_field.listOf.optional "parameters" []))

theorem follows_typeEntry : Follows bound (.record .hostType) Schema.typeEntry :=
  FollowsFields.tableOf (((((follows_text.required "name").map Schema.hostClass).seq
    (follows_text.nullable "qualified_name")).seq (follows_field.listOf.optional "properties" [])).seq
    (follows_method.listOf.optional "methods" []))

theorem follows_symbolNote : Follows bound (.record .symbolNote) Schema.symbolNote :=
  FollowsFields.tableOf (((((follows_oneOf Schema.valueKinds).required "kind").map _).seq
    (follows_text.required "name")).seq (follows_text.nullable "type") |>.seq (follows_flag.optional "by_ref" false))

/-- The word for a kind, where only one kind is taken. -/
theorem follows_kindIs (kind : NodeKind) :
    FollowsFields bound [⟨"kind", .required, .word [kind.text]⟩] (Schema.kindIs kind) :=
  (follows_oneOf [(kind.text, ())]).required "kind"

/-- What a kind of record has besides the word for its kind. -/
def NodeKind.contents (kind : NodeKind) : List FieldForm := ⟨"range", .required, .range⟩ :: kind.fields

/-- A slot for one kind of record follows the form of the kind. -/
theorem FollowsFields.fixed {kind : NodeKind} {readF : List (String × Data) → Reading α}
    (h : FollowsFields bound kind.contents readF) : Follows bound (.only kind) (Schema.fixed kind readF) :=
  FollowsFields.tableOf (((follows_kindIs kind).map fun _ a => a).seq h)

theorem follows_nameFields : FollowsFields bound NodeKind.nameExpression.contents Schema.nameFields :=
  (((follows_range.required "range").map Draft.Name.mk).seq (follows_text.required "name")).seq
    (follows_text.nullable "type") |>.seq (follows_symbolNote.nullable "symbol")

theorem follows_name : Follows bound (.only .nameExpression) Schema.name := follows_nameFields.fixed

variable {N : Type} {node : Data → Reading N}

/-- A range and a list of items, which many kinds of nodes are. -/
theorem Follows.groupFields {read : Data → Reading α} (h : Follows bound form read) (key : String) :
    FollowsFields bound [⟨"range", .required, .range⟩, ⟨key, .optional, .list form⟩] (Schema.groupFields key read) :=
  ((follows_range.required "range").map Group.mk).seq (h.listOf.optional key [])

theorem Follows.declarationFields (h : Follows bound .node node) :
    FollowsFields bound NodeKind.variableDeclaration.contents (Schema.declarationFields node) :=
  (((follows_range.required "range").map Declaration.mk).seq (h.nullable "type_node")).seq
      (follows_name.required "name")
    |>.seq (h.nullable "initializer")

theorem Follows.parameterFields (h : Follows bound .node node) :
    FollowsFields bound NodeKind.parameter.contents (Schema.parameterFields node) :=
  (((follows_range.required "range").map Parameter.mk).seq (h.required "type_node")).seq (follows_name.required "name")
    |>.seq (follows_flag.optional "by_ref" false)

theorem Follows.parametersFields (h : Follows bound .node node) :
    FollowsFields bound NodeKind.parameterList.contents (Schema.parametersFields node) :=
  h.parameterFields.fixed.groupFields "parameters"

theorem Follows.blockFields (h : Follows bound .node node) :
    FollowsFields bound NodeKind.statementsList.contents (Schema.blockFields node) := h.groupFields "statements"

theorem Follows.functionFields (h : Follows bound .node node) :
    FollowsFields bound NodeKind.function.contents (Schema.functionFields node) :=
  (((follows_range.required "range").map FunctionDef.mk).seq (h.required "return_type")).seq
    (follows_name.required "name") |>.seq (h.parametersFields.fixed.required "parameters")
    |>.seq (h.blockFields.fixed.required "body")

theorem Follows.forLoopFields (h : Follows bound .node node) :
    FollowsFields bound NodeKind.forLoop.contents (Schema.forLoopFields node) :=
  (((follows_range.required "range").map ForLoop.mk).seq (h.nullable "init")).seq (h.nullable "condition")
    |>.seq (h.nullable "update") |>.seq (h.required "body")

theorem Follows.foreachLoopFields (h : Follows bound .node node) :
    FollowsFields bound NodeKind.foreachLoop.contents (Schema.foreachLoopFields node) :=
  (((follows_range.required "range").map ForeachLoop.mk).seq (h.required "type_node")).seq
    (follows_name.required "name") |>.seq (h.required "iterable") |>.seq (h.required "body")

theorem Follows.staticsFields (h : Follows bound .node node) :
    FollowsFields bound NodeKind.staticVariablesList.contents (Schema.staticsFields node) :=
  h.declarationFields.fixed.groupFields "variables"

theorem Follows.functionsFields (h : Follows bound .node node) :
    FollowsFields bound NodeKind.functionsList.contents (Schema.functionsFields node) :=
  h.functionFields.fixed.groupFields "functions"

theorem Follows.unitFields (h : Follows bound .node node) :
    FollowsFields bound NodeKind.compilationUnit.contents (Schema.unitFields node) :=
  (((follows_range.required "range").map CompilationUnit.mk).seq (h.staticsFields.fixed.required "variables")).seq
    (h.functionsFields.fixed.required "functions") |>.seq (h.blockFields.fixed.required "statements")

/-- **The fields of each kind of node follow the table of forms.** -/
theorem Follows.nodeFields {node : Data → Reading Draft.Node} (h : Follows bound .node node) (kind : NodeKind) :
    FollowsFields bound kind.contents (Schema.nodeFields node kind) := by
  cases kind with
  | literal k => exact (follows_range.required "range").map _
  | plain k => exact (h.groupFields "children").map _
  | operation k => exact ((h.groupFields "children").map _).seq (follows_text.nullable "type")
  | nameExpression => exact follows_nameFields.map _
  | propertyAccess =>
    exact (((follows_range.required "range").map Draft.Node.access).seq (h.required "callee")).seq
      (follows_text.required "name") |>.seq (follows_text.nullable "member") |>.seq (follows_text.nullable "type")
  | method =>
    exact (((follows_range.required "range").map Draft.Node.method).seq (follows_text.required "owner")).seq
      (follows_text.required "method")
  | binaryOperator =>
    exact (((follows_range.required "range").map Draft.Node.binary).seq (follows_text.required "operator")).seq
      (follows_text.required "type") |>.seq (h.required "left") |>.seq (h.required "right")
  | predefinedType =>
    exact ((follows_range.required "range").map Draft.Node.typeName).seq (follows_text.required "type")
  | variableDeclaration => exact h.declarationFields.map _
  | parameter => exact h.parameterFields.map _
  | parameterList => exact h.parametersFields.map _
  | statementsList => exact h.blockFields.map _
  | function => exact h.functionFields.map _
  | forLoop => exact h.forLoopFields.map _
  | foreachLoop => exact h.foreachLoopFields.map _
  | staticVariablesList => exact h.staticsFields.map _
  | functionsList => exact h.functionsFields.map _
  | compilationUnit => exact h.unitFields.map _

end Records

/-! ## Nodes -/

/-- Behind a slot that takes any node, the faults of a record are under the tag of its kind. -/
theorem flawed_node_iff {fs : List (String × Data)} {kind : NodeKind}
    (hkind : Data.get? fs "kind" = some (.text kind.text)) :
    Flawed .node (.table fs) e ↔ ∃ e', (∃ field ∈ kind.contents, field.Flawed fs e') ∧ e = e'.under (.tag kind) := by
  -- nothing is wrong with the word for the kind itself
  have hword : ∀ e', ¬ FieldForm.Flawed ⟨"kind", .required, .word [kind.text]⟩ fs e' := by
    rintro e' (⟨-, hnone, -⟩ | ⟨w, e'', hw, he'', -⟩)
    · rw [hkind] at hnone
      contradiction
    · obtain rfl := Option.some.inj ((FieldForm.get?_of_value? hw).symm.trans hkind)
      exact he''.not_fits (.word List.mem_cons_self)
  have hrecord : ∀ e', Flawed (.only kind) (.table fs) e' ↔ ∃ field ∈ kind.contents, field.Flawed fs e' := by
    intro e'
    refine flawed_record_iff.trans ?_
    show (∃ field ∈ _ :: kind.contents, field.Flawed fs e') ↔ _
    simp only [List.mem_cons, exists_eq_or_imp, hword, false_or]
  constructor
  · intro he
    cases he with
    | own hflaw => simp [Form.flaw?, hkind] at hflaw
    | absent habsent => cases habsent
    | inside hpart he' =>
      cases hpart with
      | @tagged _ kind' htag =>
        obtain rfl : kind' = kind := NodeKind.text_injective (Data.text.inj (Option.some.inj (htag.symm.trans hkind)))
        exact ⟨_, (hrecord _).mp he', rfl⟩
  · rintro ⟨e', he', rfl⟩
    exact .inside (.tagged hkind) ((hrecord e').mpr he')

/-- A slot that takes any node reports what the fields of the stated kind report, behind a tag. -/
theorem Follows.anyNode {node : Data → Reading Draft.Node} (h : Follows bound .node node) :
    Follows (bound + 1) .node (Schema.anyNode node) := by
  intro v hv
  -- without a known kind nothing is looked into
  have hnone : ∀ {problem}, Form.node.flaw? v = some problem →
      (fault problem : Reading Draft.Node).Reports (Flawed .node v) := by
    intro problem hflaw
    refine reports_own hflaw ?_ ?_
    · rintro step ⟨⟩
    · rintro step form' v' ⟨⟩
      rename_i hkind
      simp [Form.flaw?, hkind] at hflaw
  cases v with
  | table fs =>
    rw [Data.depth] at hv
    unfold Schema.anyNode
    simp only
    cases hkind : Data.get? fs "kind" with
    | none => exact hnone (by simp [Form.flaw?, hkind])
    | some w =>
      cases w with
      | text word =>
        simp only
        cases hword : NodeKind.ofText? word with
        | none => exact hnone (by simp [Form.flaw?, hkind, hword])
        | some kind =>
          obtain rfl := NodeKind.ofText?_eq_some_iff.mp hword
          refine ((h.nodeFields kind fs (by omega)).under (.tag kind)).congr fun e => ?_
          exact (flawed_node_iff hkind).symm
      | _ => exact hnone (by simp [Form.flaw?, hkind])
  | _ => exact hnone rfl

/-- **The reader of nodes follows its form**, by induction on the depth. -/
theorem follows_node (bound : Nat) : Follows bound .node Schema.node := by
  induction bound with
  | zero => exact fun v hv => absurd hv (Nat.not_le.mpr v.depth_pos)
  | succ bound ih =>
    intro v hv
    rw [Schema.node_eq]
    exact ih.anyNode v hv

/-! ## Documents -/

/-- **The faults of a document are its flaws.** -/
theorem Schema.reports_script (doc : Data) : (Schema.script doc).Reports (Flawed (.record .script) doc) :=
  FollowsFields.tableOf (((follows_typeEntry.listOf.optional "types" []).map Draft.Script.mk).seq
    (follows_field.listOf.optional "constants" []) |>.seq ((follows_node _).unitFields.fixed.required "unit"))
    doc (Nat.le_refl _)

/-- A value that is there is not missing. -/
theorem problem?_ne_missing {r : Reading α} (h : r.Single) : r.problem? ≠ some .missing := by
  rcases h with ⟨a, rfl⟩ | ⟨problem, hproblem, rfl⟩
  · simp [problem?]
  · simpa [problem?, fault] using hproblem

/-- What is wrong with a value that is there is never that it is missing. -/
theorem flaw?_ne_missing (form : Form) (v : Data) : form.flaw? v ≠ some .missing := by
  cases form with
  | text => exact problem?_ne_missing (single_text v)
  | flag => exact problem?_ne_missing (single_flag v)
  | integer => exact problem?_ne_missing (single_integer v)
  | word words =>
    unfold Form.flaw?
    simp only
    split
    · split <;> simp
    · simp
  | range =>
    unfold Form.flaw? Form.disorder?
    simp only
    split
    · split
      · simp
      · split
        · split <;> simp
        · simp
    · simp
  | list | record =>
    unfold Form.flaw?
    simp only
    split <;> simp
  | node =>
    unfold Form.flaw?
    simp only
    split
    · split
      · split <;> simp
      · simp
      · simp
    · simp

/-- **The faults of a document have their places in it.** A document is read exactly if it fits the form of a
script. If it is refused, there are faults. A fault that is not of something missing is at the end of a path into
the document: without its tags the path leads to a value, the value is wrong by itself in the way that the fault
says, and so it does not fit the form asked of it there. A fault of something missing is one step behind a value
that is a record without this field, or a range without this integer. And at each place that a path leads to, with a
value that does not fit the form asked of it there, or further inside that value, there is a fault. -/
theorem Schema.faults_located (doc : Data) :
    ((∃ draft, script doc = .done draft) ↔ Fits (.record .script) doc) ∧
    ∀ faults, script doc = .failed faults →
      faults ≠ [] ∧
      (∀ e ∈ faults,
        (e.problem ≠ .missing ∧ ∃ form v, Reaches (.record .script) doc e.path form v ∧
          doc.walk (Step.untagged e.path) = some v ∧ form.flaw? v = some e.problem ∧ ¬ Fits form v) ∨
        (e.problem = .missing ∧ ∃ path step form v, e.path = path ++ [step] ∧
          Reaches (.record .script) doc path form v ∧ doc.walk (Step.untagged path) = some v ∧
          Absent form v step)) ∧
      ∀ path form v, Reaches (.record .script) doc path form v → ¬ Fits form v → ∃ e ∈ faults, path <+: e.path := by
  have hreports := reports_script doc
  refine ⟨hreports.exists_done_iff.trans (fits_iff _ doc).symm, fun faults hfaults => ?_⟩
  rw [hfaults] at hreports
  refine ⟨?_, ?_, ?_⟩
  · -- a reading that fails has a reason, and every reason is among the faults
    rintro rfl
    obtain ⟨e, he⟩ := hreports.exists_of_failed
    have hmem := (hreports.mem_iff e).mpr he
    contradiction
  · intro e he
    rcases ((hreports.mem_iff e).mp he).located with
      ⟨form, v, hreach, hflaw⟩ | ⟨hmissing, path, step, form, v, hpath, hreach, habsent⟩
    · refine Or.inl ⟨?_, form, v, hreach, hreach.walk, hflaw, (Flawed.own hflaw).not_fits⟩
      intro hmissing
      exact flaw?_ne_missing form v (hmissing ▸ hflaw)
    · exact Or.inr ⟨hmissing, path, step, form, v, hpath, hreach, hreach.walk, habsent⟩
  · intro path form v hreach hfits
    -- a flaw of the part is a flaw of the document, further down
    rw [fits_iff, not_forall] at hfits
    obtain ⟨e, he⟩ := hfits
    have hflawed := hreach.flawed (not_not.mp he)
    exact ⟨_, (hreports.mem_iff _).mpr hflawed, List.prefix_append path e.path⟩

/-- A loop with two things wrong inside: a literal whose range ends after two integers, and a number among the
nodes. The unit has no functions. -/
def Data.botched : Data :=
  .table [("unit", record .compilationUnit [30, 0, 31, 0]
    [("variables", record .staticVariablesList [30, 0, 30, 0] []),
     ("statements", record .statementsList [30, 0, 31, 0]
       [("statements", .list [record (.plain .whileLoop) [30, 0, 31, 0]
         [("children", .list [record (.literal .integer) [31, 0] [], .int 7])]])])])]

/-- The path to the nodes inside the loop. -/
def Data.botchedLoop : List Step :=
  [.key "unit", .key "statements", .key "statements", .index 0, .tag (.plain .whileLoop), .key "children"]

/-- The document has four faults. One leads to the number, through the tag of the loop. -/
theorem Schema.faults_located_botched :
    ∃ faults, script Data.botched = .failed faults ∧
      faults = [⟨[.key "unit", .key "functions"], .missing⟩,
        ⟨Data.botchedLoop ++ [.index 0, .tag (.literal .integer), .key "range", .index 2], .missing⟩,
        ⟨Data.botchedLoop ++ [.index 0, .tag (.literal .integer), .key "range", .index 3], .missing⟩,
        ⟨Data.botchedLoop ++ [.index 1], .notNode⟩] ∧
      ∃ form v, Reaches (.record .script) Data.botched (Data.botchedLoop ++ [.index 1]) form v ∧
        Data.botched.walk (Step.untagged (Data.botchedLoop ++ [.index 1])) = some v ∧
        form.flaw? v = some .notNode ∧ ¬ Fits form v := by
  refine ⟨_, rfl, rfl, ?_⟩
  obtain ⟨-, hfaults⟩ := faults_located Data.botched
  obtain ⟨-, hplaces, -⟩ := hfaults _ rfl
  rcases hplaces ⟨Data.botchedLoop ++ [.index 1], .notNode⟩ (by decide) with ⟨-, h⟩ | ⟨hmissing, -⟩
  · exact h
  · contradiction

end Caret
