import Caret.Document.Reading
import Caret.Tree.Node
/-!
# `Caret.Proofs.Records` — the tree that a document spells out

A document writes a tree as records inside records. Which slots of a record hold nodes, and in which order, depends on
the kind that the record states; `NodeKind.slots` is the table of it. Nothing here knows how a document is read: the
table, the parts of a record and its outline are taken off the values as they stand.

## Contents
- **Slots.** `NodeKind.slots`; `record` — a record of a kind; `field?`, `slot`, `slotItems`, `textAt?` — what stands
  under a key.
- **Parts.** `Data.parts` — the records inside a record, in source order; they are less deep than the record
  (`depth_lt_of_mem_parts`). `Data.follow` goes down along indexes of parts.
- **Outlines.** `Outline` — kind, range and parts, at every depth; `Data.outline` and `Node.outline`.
-/

namespace Caret

/-! ## Slots -/

/-- A place for nodes in a record. -/
inductive Slot where
  /-- One node, or none where that is allowed. -/
  | one (key : String)
  /-- A list of nodes. -/
  | many (key : String)
  /-- A section of a unit. It stands under the key under which it has its own items, and without items it does not
  count. -/
  | filled (key : String)

/-- The slots of a kind of record, in source order. -/
def NodeKind.slots : NodeKind → List Slot
  | .compilationUnit => [.filled "variables", .filled "functions", .filled "statements"]
  | .staticVariablesList => [.many "variables"]
  | .functionsList => [.many "functions"]
  | .statementsList => [.many "statements"]
  | .function => [.one "return_type", .one "name", .one "parameters", .one "body"]
  | .parameterList => [.many "parameters"]
  | .parameter => [.one "type_node", .one "name"]
  | .variableDeclaration => [.one "type_node", .one "name", .one "initializer"]
  | .forLoop => [.one "init", .one "condition", .one "update", .one "body"]
  | .foreachLoop => [.one "type_node", .one "name", .one "iterable", .one "body"]
  | .propertyAccess => [.one "callee"]
  | .binaryOperator => [.one "left", .one "right"]
  | .plain _ | .operation _ => [.many "children"]
  | .nameExpression | .method | .predefinedType | .literal _ => []

namespace Data

variable {d v : Data} {key : String}

/-- A record of a kind: its range and its other fields. -/
def record (kind : NodeKind) (range : List Int) (fields : List (String × Data)) : Data :=
  .table (("kind", .text kind.text) :: ("range", .list (range.map .int)) :: fields)

/-- The record of a unit that only has statements. -/
def statementsOnly (range : List Int) (statements : Data) : Data :=
  record .compilationUnit range
    [("variables", record .staticVariablesList [0, 0, 0, 0] []), ("functions", record .functionsList [0, 0, 0, 0] []),
     ("statements", statements)]

/-- The value under a key. -/
def field? (d : Data) (key : String) : Option Data :=
  match d with
  | .table fs => get? fs key
  | _ => none

/-- The value in a slot for one value; null is no value. -/
def slot (d : Data) (key : String) : List Data :=
  match d.field? key with
  | some .null | none => []
  | some v => [v]

/-- The items in a slot for a list. -/
def slotItems (d : Data) (key : String) : List Data :=
  match d.field? key with
  | some (.list vs) => vs
  | _ => []

/-- The text under a key. -/
def textAt? (d : Data) (key : String) : Option String :=
  match d.field? key with
  | some (.text s) => some s
  | _ => none

/-- The kind that a record states. -/
def kind? (d : Data) : Option NodeKind := (d.textAt? "kind").bind NodeKind.ofText?

/-- The integer that a value stands for. -/
def whole? (d : Data) : Option Int :=
  match Reading.integer d with
  | .done n => some n
  | .failed _ => none

/-- The flag under a key; one that is left out is not set. -/
def flagAt? (d : Data) (key : String) : Option Bool :=
  match (d.field? key).map Reading.flag with
  | some (.done b) => some b
  | some (.failed _) => none
  | none => some false

/-- The items of the range of a record, as integers. -/
def coordinates (d : Data) : List (Option Int) := (d.slotItems "range").map whole?

/-! ## Parts -/

/-- The records in a slot. -/
def fill (d : Data) : Slot → List Data
  | .one key => d.slot key
  | .many key => d.slotItems key
  | .filled key => (d.slot key).filter fun s => !(s.slotItems key).isEmpty

/-- **Parts.** The records that stand inside a record, in source order. -/
def parts (d : Data) : List Data :=
  match d.kind? with
  | some kind => kind.slots.flatMap d.fill
  | none => []

theorem parts_eq {kind : NodeKind} (h : d.textAt? "kind" = some kind.text) : d.parts = kind.slots.flatMap d.fill := by
  have hkind : d.kind? = some kind := by rw [kind?, h, Option.bind_some, NodeKind.ofText?_text]
  rw [parts, hkind]

theorem depth_pos (d : Data) : 0 < d.depth := by
  cases d with
  | list | table =>
    rw [depth]
    omega
  | _ => exact Nat.one_pos

/-- What stands in a record, a list or a slot is less deep, so that trees of records can be gone through. -/
theorem depth_le_of_get? {fs : List (String × Data)} (h : get? fs key = some v) : v.depth ≤ depthFields fs := by
  induction fs with
  | nil => contradiction
  | cons f fs ih =>
    obtain ⟨k, w⟩ := f
    rw [depthFields, depthField]
    rw [get?_cons] at h
    split at h
    · obtain rfl := Option.some.inj h
      exact Nat.le_max_left _ _
    · exact Nat.le_trans (ih h) (Nat.le_max_right _ _)

theorem depth_le_of_mem {vs : List Data} (h : v ∈ vs) : v.depth ≤ depthList vs := by
  induction vs with
  | nil => contradiction
  | cons w vs ih =>
    rw [depthList]
    rcases List.mem_cons.mp h with rfl | h
    · exact Nat.le_max_left _ _
    · exact Nat.le_trans (ih h) (Nat.le_max_right _ _)

theorem depth_lt_of_field? (h : d.field? key = some v) : v.depth < d.depth := by
  cases d with
  | table fs =>
    have hle := depth_le_of_get? h
    rw [depth]
    omega
  | _ => contradiction

theorem mem_slot (h : v ∈ d.slot key) : d.field? key = some v := by
  unfold slot at h
  split at h
  · contradiction
  · contradiction
  · rwa [List.mem_singleton.mp h]

theorem depth_lt_of_mem_slotItems (h : v ∈ d.slotItems key) : v.depth < d.depth := by
  unfold slotItems at h
  split at h
  · rename_i vs hfield
    have hitem := depth_le_of_mem h
    have hlist := depth_lt_of_field? hfield
    rw [depth] at hlist
    omega
  · contradiction

/-- A part stands under a key of its record, or is an item of a list that does. -/
theorem mem_parts (h : v ∈ d.parts) : ∃ key, d.field? key = some v ∨ v ∈ d.slotItems key := by
  unfold parts at h
  split at h
  · obtain ⟨s, -, hv⟩ := List.mem_flatMap.mp h
    cases s with
    | one key => exact ⟨key, Or.inl (mem_slot hv)⟩
    | many key => exact ⟨key, Or.inr hv⟩
    | filled key => exact ⟨key, Or.inl (mem_slot (List.mem_filter.mp hv).1)⟩
  · contradiction

/-- A part is less deep than the record that it stands in. -/
theorem depth_lt_of_mem_parts (h : v ∈ d.parts) : v.depth < d.depth := by
  obtain ⟨key, hfield | hitem⟩ := mem_parts h
  · exact depth_lt_of_field? hfield
  · exact depth_lt_of_mem_slotItems hitem

/-- The record below a record along indexes of parts. -/
def follow (d : Data) : List Nat → Option Data
  | [] => some d
  | i :: rest => d.parts[i]?.bind fun c => c.follow rest

/-- A path is followed piece by piece. -/
theorem follow_append (d : Data) (a b : List Nat) : d.follow (a ++ b) = (d.follow a).bind (·.follow b) := by
  induction a generalizing d with
  | nil => rfl
  | cons i a ih =>
    rw [List.cons_append, follow, follow]
    cases d.parts[i]? with
    | none => rfl
    | some c => exact ih c

end Data

/-! ## Outlines -/

/-- **Outlines.** What a tree is apart from names and types: the word for the kind of each node, the integers of its
range, and the outlines of its parts. -/
inductive Outline where
  | mk (kind : Option String) (range : List (Option Int)) (parts : List Outline)

/-- The outline that a record spells out. -/
def Data.outline (d : Data) : Outline :=
  .mk (d.textAt? "kind") d.coordinates (d.parts.attach.map fun c => c.1.outline)
  termination_by d.depth
  decreasing_by exact depth_lt_of_mem_parts c.2

/-- The outline of a record and that of a node are made in the same way. -/
theorem Data.outline_eq (d : Data) : d.outline = .mk (d.textAt? "kind") d.coordinates (d.parts.map outline) := by
  rw [outline]
  simp only [List.map_subtype, List.unattach_attach]

/-- The outline of a node. -/
def Node.outline : Node → Outline :=
  fold fun n below => .mk (some n.kind.text) (n.range.coordinates.map some) below

theorem Node.outline_eq (n : Node) :
    n.outline = .mk (some n.kind.text) (n.range.coordinates.map some) (n.children.map outline) := fold_eq _ n

end Caret
