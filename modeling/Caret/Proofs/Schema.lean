import Caret.Document.Schema
import Caret.Proofs.Order
import Caret.Proofs.Records
import Mathlib.Data.List.Forall2
/-!
# `Caret.Proofs.Schema` — what a reading says about the value

A reader goes through a record field by field. Read backwards, a field that was read says what stands under its key: a
required one a value, an optional one perhaps none, a list its items in order.

The reader of nodes counts down from the depth of the value. A count that is not smaller than the depth makes no
difference (`nodeWithin_eq`), so the reader is its own unfolding (`node_eq`) and nothing further on sees the count.

## Contents
- **Readings taken back.** `required_eq_done_iff`, `optional_eq_done_iff`, `listOf_eq_done_iff`; `reads_required`,
  `reads_optional`, `reads_items` in terms of slots.
- **The count.** `Agree` — readers that agree up to a depth; `node_eq`.
-/

namespace Caret

/-! ## Readings taken back -/

namespace Reading

variable {α β : Type} {read : Data → Reading α} {a : α} {key : String} {fs : List (String × Data)} {v : Data}

/-- What is made of a reading comes from what was read. -/
theorem map_eq_done_iff {f : α → β} {r : Reading α} {b : β} : f <$> r = .done b ↔ ∃ a, r = .done a ∧ f a = b := by
  cases r <;> simp

theorem required_eq_done_iff : required key read fs = .done a ↔ ∃ v, Data.get? fs key = some v ∧ read v = .done a := by
  unfold required
  cases Data.get? fs key with
  | none => simp [fault, under]
  | some v => simp

/-- A field that may be left out has its default then, and otherwise what is read of its value. -/
theorem optional_eq_done_iff {default : α} :
    optional key default read fs = .done a ↔
      (Data.get? fs key = none ∧ default = a) ∨ ∃ v, Data.get? fs key = some v ∧ read v = .done a := by
  unfold optional
  cases Data.get? fs key with
  | none => simp
  | some v => simp

/-- What a value is read as. -/
def Reads (read : Data → Reading α) (v : Data) (a : α) : Prop := read v = .done a

/-- A list can be read exactly if each of its items can. The index only matters for faults. -/
theorem itemsFrom_eq_done_iff {i : Nat} {vs : List Data} {as : List α} :
    itemsFrom read i vs = .done as ↔ List.Forall₂ (Reads read) vs as := by
  induction vs generalizing i as with
  | nil => simp [itemsFrom, eq_comm]
  | cons v vs ih =>
    rw [itemsFrom, seq_eq_done_iff, List.forall₂_cons_left_iff]
    constructor
    · rintro ⟨_, rest, hv, hrest, rfl⟩
      obtain ⟨a, ha, rfl⟩ := map_eq_done_iff.mp hv
      exact ⟨a, rest, under_eq_done_iff.mp ha, ih.mp hrest, rfl⟩
    · rintro ⟨a, rest, ha, hrest, rfl⟩
      exact ⟨_, rest, map_eq_done_iff.mpr ⟨a, under_eq_done_iff.mpr ha, rfl⟩, ih.mpr hrest, rfl⟩

theorem listOf_eq_done_iff {as : List α} :
    listOf read v = .done as ↔ ∃ vs, v = .list vs ∧ List.Forall₂ (Reads read) vs as := by
  cases v with
  | list vs => simp [listOf, itemsFrom_eq_done_iff]
  | _ => simp [listOf, fault]

/-- Only a text is taken for a text. -/
theorem text_eq_done_iff {s : String} : text v = .done s ↔ v = .text s := by
  cases v <;> simp [text, fault]

/-- A slot that has to be filled holds one value. -/
theorem reads_required (hnull : ∀ a, read .null ≠ .done a) (h : required key read fs = .done a) :
    List.Forall₂ (Reads read) ((Data.table fs).slot key) [a] := by
  obtain ⟨v, hv, ha⟩ := required_eq_done_iff.mp h
  have hfield : (Data.table fs).field? key = some v := hv
  have hslot : (Data.table fs).slot key = [v] := by
    unfold Data.slot
    rw [hfield]
    cases v with
    | null => exact absurd ha (hnull a)
    | _ => rfl
  rw [hslot]
  exact .cons ha .nil

/-- A slot that may be left empty holds a value exactly if one was read. -/
theorem reads_optional {o : Option α} (h : optional key none (nullable read) fs = .done o) :
    List.Forall₂ (Reads read) ((Data.table fs).slot key) o.toList := by
  have hfield : (Data.table fs).field? key = Data.get? fs key := rfl
  unfold Data.slot
  rw [hfield]
  rcases optional_eq_done_iff.mp h with ⟨hnone, rfl⟩ | ⟨v, hv, hread⟩
  · rw [hnone]
    exact .nil
  · rw [hv]
    cases v with
    | null =>
      obtain rfl : none = o := done.inj hread
      exact .nil
    | _ =>
      obtain ⟨a, ha, rfl⟩ := map_eq_done_iff.mp hread
      exact .cons ha .nil

/-- A slot for a list holds what was read, item by item. -/
theorem reads_items {as : List α} (h : optional key [] (listOf read) fs = .done as) :
    List.Forall₂ (Reads read) ((Data.table fs).slotItems key) as := by
  have hfield : (Data.table fs).field? key = Data.get? fs key := rfl
  unfold Data.slotItems
  rw [hfield]
  rcases optional_eq_done_iff.mp h with ⟨hnone, rfl⟩ | ⟨v, hv, hread⟩
  · rw [hnone]
    exact .nil
  · obtain ⟨vs, rfl, hitems⟩ := listOf_eq_done_iff.mp hread
    rw [hv]
    exact hitems

/-- A text that was read stands in the record. -/
theorem textAt?_of_required {s : String} (h : required key text fs = .done s) :
    (Data.table fs).textAt? key = some s := by
  obtain ⟨v, hv, hs⟩ := required_eq_done_iff.mp h
  obtain rfl := text_eq_done_iff.mp hs
  unfold Data.textAt?
  rw [show (Data.table fs).field? key = some (.text s) from hv]

/-- A text that may be null is in the record exactly if one was read. -/
theorem textAt?_of_optional {o : Option String} (h : optional key none (nullable text) fs = .done o) :
    (Data.table fs).textAt? key = o := by
  have hfield : (Data.table fs).field? key = Data.get? fs key := rfl
  unfold Data.textAt?
  rw [hfield]
  rcases optional_eq_done_iff.mp h with ⟨hnone, rfl⟩ | ⟨v, hv, hread⟩
  · rw [hnone]
  · rw [hv]
    cases v with
    | null => exact done.inj hread
    | text s => exact done.inj hread
    | _ => contradiction

theorem flagAt?_of_optional {b : Bool} (h : optional key false flag fs = .done b) :
    (Data.table fs).flagAt? key = some b := by
  have hfield : (Data.table fs).field? key = Data.get? fs key := rfl
  unfold Data.flagAt?
  rw [hfield]
  rcases optional_eq_done_iff.mp h with ⟨hnone, rfl⟩ | ⟨v, hv, hread⟩
  · rw [hnone]
    rfl
  · rw [hv, Option.map_some, hread]

theorem item_eq_done_iff {vs : List Data} {i : Nat} :
    item read vs i = .done a ↔ ∃ v, vs[i]? = some v ∧ read v = .done a := by
  unfold item
  cases vs[i]? with
  | none => simp [fault, under]
  | some v => simp

/-- Ends that come in order are the ends of the range. -/
theorem ordered_eq_done_iff {ends : Position × Position} {r : Range} :
    ordered ends = .done r ↔ r.start = ends.1 ∧ r.stop = ends.2 := by
  rw [← Range.ofEnds?_eq_some_iff]
  unfold ordered
  cases Range.ofEnds? ends.1 ends.2 with
  | none => simp [fault]
  | some s => simp

/-- A check after a reading gives a result exactly if both do. -/
theorem andThen_eq_done_iff {check : α → Reading β} {r : Reading α} {b : β} :
    r.andThen check = .done b ↔ ∃ a, r = .done a ∧ check a = .done b := by
  cases r <;> simp [andThen]

/-- Whatever is taken for an integer stands for it. -/
theorem whole?_of_integer {n : Int} (h : integer v = .done n) : v.whole? = some n := by
  unfold Data.whole?
  rw [h]

/-- The four integers of a range, before their order is looked at. -/
def ends (vs : List Data) : Reading (Position × Position) :=
  (fun a b c d => (⟨a, b⟩, ⟨c, d⟩)) <$> item integer vs 0 <*> item integer vs 1 <*> item integer vs 2
    <*> item integer vs 3

/-- Two positions that were read are four integers of the list, and a longer list is refused. -/
theorem coordinates_of_ends {vs : List Data} {p : Position × Position} (hlength : vs.length ≤ 4)
    (h : ends vs = .done p) :
    vs.map Data.whole? = [some p.1.line, some p.1.column, some p.2.line, some p.2.column] := by
  simp only [ends, seq_eq_done_iff, map_eq_done_iff, item_eq_done_iff] at h
  obtain ⟨_, n₃, ⟨_, n₂, ⟨_, n₁, ⟨n₀, ⟨v₀, h₀, hn₀⟩, rfl⟩, ⟨v₁, h₁, hn₁⟩, rfl⟩, ⟨v₂, h₂, hn₂⟩, rfl⟩,
    ⟨v₃, h₃, hn₃⟩, rfl⟩ := h
  have hvs : vs = [v₀, v₁, v₂, v₃] := by
    match vs, hlength, h₀, h₁, h₂, h₃ with
    | [_, _, _, _], _, rfl, rfl, rfl, rfl => rfl
    | _ :: _ :: _ :: _ :: _ :: _, hlength, _, _, _, _ =>
      simp only [List.length_cons] at hlength
      omega
  rw [hvs]
  simp only [List.map_cons, List.map_nil, whole?_of_integer hn₀, whole?_of_integer hn₁, whole?_of_integer hn₂,
    whole?_of_integer hn₃]

/-- A range that was read has the integers of its list, and there are four of them. -/
theorem coordinates_of_range {vs : List Data} {r : Range} (h : range (.list vs) = .done r) :
    vs.map Data.whole? = r.coordinates.map some := by
  rw [range] at h
  split at h
  · contradiction
  rename_i hlength
  obtain ⟨p, hends, hordered⟩ := andThen_eq_done_iff.mp h
  obtain ⟨hstart, hstop⟩ := ordered_eq_done_iff.mp hordered
  rw [coordinates_of_ends (Nat.not_lt.mp hlength) hends, Range.coordinates, hstart, hstop]
  rfl

/-- The range of a record that was read has the integers that are written in the record. -/
theorem coordinates_of_required {r : Range} (h : required "range" range fs = .done r) :
    (Data.table fs).coordinates = r.coordinates.map some := by
  obtain ⟨v, hv, hr⟩ := required_eq_done_iff.mp h
  have hfield : (Data.table fs).field? "range" = some v := hv
  cases v with
  | list vs =>
    unfold Data.coordinates Data.slotItems
    rw [hfield]
    exact coordinates_of_range hr
  | _ => contradiction

end Reading

/-! ## The count -/

namespace Schema

open Reading

section Agreement

variable {α : Type} {bound : Nat}

/-- **Agreement.** Two readers make the same of all values up to a depth. -/
def Agree (bound : Nat) (f g : Data → Reading α) : Prop := ∀ v : Data, v.depth ≤ bound → f v = g v

/-- Two readers of fields make the same of all fields whose values go up to a depth. -/
def AgreeFields (bound : Nat) (f g : List (String × Data) → Reading α) : Prop :=
  ∀ fs : List (String × Data), Data.depthFields fs ≤ bound → f fs = g fs

variable {f g : Data → Reading α} {key : String}

/-- Two readers that agree up to a depth agree on the fields of records that are no deeper. -/
theorem Agree.required (h : Agree bound f g) (key : String) : AgreeFields bound (required key f) (required key g) := by
  intro fs hfs
  unfold Reading.required
  cases hv : Data.get? fs key with
  | none => rfl
  | some v =>
    have hfg := h v (Nat.le_trans (Data.depth_le_of_get? hv) hfs)
    simp only [hfg]

theorem Agree.optional (h : Agree bound f g) (key : String) (default : α) :
    AgreeFields bound (optional key default f) (optional key default g) := by
  intro fs hfs
  unfold Reading.optional
  cases hv : Data.get? fs key with
  | none => rfl
  | some v =>
    have hfg := h v (Nat.le_trans (Data.depth_le_of_get? hv) hfs)
    simp only [hfg]

theorem Agree.nullable (h : Agree bound f g) : Agree bound (nullable f) (nullable g) := by
  intro v hv
  cases v with
  | null => rfl
  | _ => exact congrArg (some <$> ·) (h _ hv)

/-- They agree on lists, whose items are less deep. -/
theorem Agree.listOf (h : Agree bound f g) : Agree bound (listOf f) (listOf g) := by
  have hitems : ∀ (vs : List Data) (i : Nat), Data.depthList vs ≤ bound → itemsFrom f i vs = itemsFrom g i vs := by
    intro vs
    induction vs with
    | nil => intro i _; rfl
    | cons v vs ih =>
      intro i hvs
      rw [Data.depthList] at hvs
      rw [itemsFrom, itemsFrom, h v (by omega), ih (i + 1) (by omega)]
  intro v hv
  cases v with
  | list vs =>
    rw [Data.depth] at hv
    exact hitems vs 0 (by omega)
  | _ => rfl

/-- They agree on records in a slot of their own kind. -/
theorem AgreeFields.fixed {f g : List (String × Data) → Reading α} (h : AgreeFields bound f g) (kind : NodeKind) :
    Agree bound (fixed kind f) (fixed kind g) := by
  intro v hv
  cases v with
  | table fs =>
    rw [Data.depth] at hv
    show _ <*> f fs = _ <*> g fs
    rw [h fs (by omega)]
  | _ => rfl

/-- A range and a list of items. -/
theorem Agree.groupFields (h : Agree bound f g) (key : String) :
    AgreeFields bound (groupFields key f) (groupFields key g) := by
  intro fs hfs
  unfold Schema.groupFields
  rw [h.listOf.optional key [] fs hfs]

end Agreement

section Nodes

variable {bound : Nat} {N : Type} {f g : Data → Reading N}

theorem Agree.declarationFields (h : Agree bound f g) :
    AgreeFields bound (declarationFields f) (declarationFields g) := by
  intro fs hfs
  unfold Schema.declarationFields
  rw [h.nullable.optional "type_node" none fs hfs, h.nullable.optional "initializer" none fs hfs]

theorem Agree.parameterFields (h : Agree bound f g) :
    AgreeFields bound (parameterFields f) (parameterFields g) := by
  intro fs hfs
  unfold Schema.parameterFields
  rw [h.required "type_node" fs hfs]

theorem Agree.parametersFields (h : Agree bound f g) :
    AgreeFields bound (parametersFields f) (parametersFields g) :=
  (h.parameterFields.fixed .parameter).groupFields "parameters"

theorem Agree.blockFields (h : Agree bound f g) : AgreeFields bound (blockFields f) (blockFields g) :=
  h.groupFields "statements"

theorem Agree.functionFields (h : Agree bound f g) : AgreeFields bound (functionFields f) (functionFields g) := by
  intro fs hfs
  unfold Schema.functionFields
  rw [h.required "return_type" fs hfs, (h.parametersFields.fixed .parameterList).required "parameters" fs hfs,
    (h.blockFields.fixed .statementsList).required "body" fs hfs]

theorem Agree.forLoopFields (h : Agree bound f g) : AgreeFields bound (forLoopFields f) (forLoopFields g) := by
  intro fs hfs
  unfold Schema.forLoopFields
  rw [h.nullable.optional "init" none fs hfs, h.nullable.optional "condition" none fs hfs,
    h.nullable.optional "update" none fs hfs, h.required "body" fs hfs]

theorem Agree.foreachLoopFields (h : Agree bound f g) :
    AgreeFields bound (foreachLoopFields f) (foreachLoopFields g) := by
  intro fs hfs
  unfold Schema.foreachLoopFields
  rw [h.required "type_node" fs hfs, h.required "iterable" fs hfs, h.required "body" fs hfs]

theorem Agree.staticsFields (h : Agree bound f g) : AgreeFields bound (staticsFields f) (staticsFields g) :=
  (h.declarationFields.fixed .variableDeclaration).groupFields "variables"

theorem Agree.functionsFields (h : Agree bound f g) : AgreeFields bound (functionsFields f) (functionsFields g) :=
  (h.functionFields.fixed .function).groupFields "functions"

theorem Agree.unitFields (h : Agree bound f g) : AgreeFields bound (unitFields f) (unitFields g) := by
  intro fs hfs
  unfold Schema.unitFields
  rw [(h.staticsFields.fixed .staticVariablesList).required "variables" fs hfs,
    (h.functionsFields.fixed .functionsList).required "functions" fs hfs,
    (h.blockFields.fixed .statementsList).required "statements" fs hfs]

end Nodes

section Count

variable {bound : Nat} {f g : Data → Reading Draft.Node}

/-- **Readers of all kinds of records agree** if the readers of the nodes inside do, one case for each kind. -/
theorem Agree.nodeFields (h : Agree bound f g) (kind : NodeKind) :
    AgreeFields bound (nodeFields f kind) (nodeFields g kind) := by
  intro fs hfs
  cases kind with
  | literal | nameExpression | method | predefinedType => rfl
  | plain k => exact congrArg (Draft.Node.plain k <$> ·) (h.groupFields "children" fs hfs)
  | operation k => exact congrArg (Draft.Node.operation k <$> · <*> _) (h.groupFields "children" fs hfs)
  | propertyAccess =>
    unfold Schema.nodeFields
    rw [h.required "callee" fs hfs]
  | binaryOperator =>
    unfold Schema.nodeFields
    rw [h.required "left" fs hfs, h.required "right" fs hfs]
  | variableDeclaration => exact congrArg (Draft.Node.declaration <$> ·) (h.declarationFields fs hfs)
  | parameter => exact congrArg (Draft.Node.parameter <$> ·) (h.parameterFields fs hfs)
  | parameterList => exact congrArg (Draft.Node.parameters <$> ·) (h.parametersFields fs hfs)
  | statementsList => exact congrArg (Draft.Node.block <$> ·) (h.blockFields fs hfs)
  | function => exact congrArg (Draft.Node.function <$> ·) (h.functionFields fs hfs)
  | forLoop => exact congrArg (Draft.Node.forLoop <$> ·) (h.forLoopFields fs hfs)
  | foreachLoop => exact congrArg (Draft.Node.foreachLoop <$> ·) (h.foreachLoopFields fs hfs)
  | staticVariablesList => exact congrArg (Draft.Node.statics <$> ·) (h.staticsFields fs hfs)
  | functionsList => exact congrArg (Draft.Node.functions <$> ·) (h.functionsFields fs hfs)
  | compilationUnit => exact congrArg (Draft.Node.unit <$> ·) (h.unitFields fs hfs)

/-- Inside a record nodes are one level less deep. -/
theorem Agree.anyNode (h : Agree bound f g) : Agree (bound + 1) (anyNode f) (anyNode g) := by
  intro v hv
  cases v with
  | table fs =>
    rw [Data.depth] at hv
    have hfields : ∀ kind, Schema.nodeFields f kind fs = Schema.nodeFields g kind fs :=
      fun kind => h.nodeFields kind fs (by omega)
    simp only [Schema.anyNode, hfields]
  | _ => rfl

theorem nodeWithin_agree_succ (bound : Nat) : Agree bound (nodeWithin bound) (nodeWithin (bound + 1)) := by
  -- by induction on the count: one more makes no difference to a value that is not deeper
  induction bound with
  | zero => intro v hv; exact absurd hv (Nat.not_le.mpr v.depth_pos)
  | succ bound ih => exact ih.anyNode

/-- **The count makes no difference** once it covers the depth of the value. -/
theorem nodeWithin_eq {v : Data} (h : v.depth ≤ bound) : nodeWithin bound v = node v := by
  induction bound with
  | zero => exact absurd h (Nat.not_le.mpr v.depth_pos)
  | succ bound ih =>
    -- either the count is the depth itself, or one less makes no difference either
    rcases Nat.lt_or_ge bound v.depth with hlt | hge
    · rw [node, Nat.le_antisymm h hlt]
    · rw [← nodeWithin_agree_succ bound v hge, ih hge]

/-- **The reader of nodes, unfolded once.** -/
theorem node_eq (v : Data) : node v = anyNode node v := by
  rw [← nodeWithin_eq (Nat.le_succ v.depth)]
  have hagree : Agree v.depth (nodeWithin v.depth) node := fun w hw => nodeWithin_eq hw
  exact hagree.anyNode v (Nat.le_succ v.depth)

end Count

end Schema
end Caret
