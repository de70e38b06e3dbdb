import Caret.Proofs.Schema
/-!
# `Caret.Proofs.Drafts` — a draft has the parts that its document spells out

Each kind of record is taken apart here once. What was read of a record has the kind that the record states and the four
integers of its range, and its parts are what was read of the parts of the record, one by one and in the same order
(`mirrors_of_node`). A slot that only takes one kind of record reads it as a slot for any node would
(`reads_node_of_fixed`), so that all parts are read by the one reader of nodes.

## Contents
- **Drafts as trees.** `Draft.Node.kind`, `range` and `parts`, beside those of bound nodes.
- **Slots for nodes.** `reads_node`, `reads_fixed`, `reads_section` and their like: what the readers of slots say
  about parts.
- **Records.** `Mirrors`, `mirrors_of_node`, `fields_of_node`.
-/

namespace Caret

/-! ## Drafts as trees -/

namespace Draft.Node

/-- The kind of a node. -/
def kind : Draft.Node → NodeKind
  | .literal _ k => .literal k
  | .plain k _ => .plain k
  | .operation k _ _ => .operation k
  | .name _ => .nameExpression
  | .access .. => .propertyAccess
  | .method .. => .method
  | .binary .. => .binaryOperator
  | .typeName .. => .predefinedType
  | .declaration _ => .variableDeclaration
  | .parameter _ => .parameter
  | .parameters _ => .parameterList
  | .block _ => .statementsList
  | .function _ => .function
  | .forLoop _ => .forLoop
  | .foreachLoop _ => .foreachLoop
  | .statics _ => .staticVariablesList
  | .functions _ => .functionsList
  | .unit _ => .compilationUnit

/-- The range of a node. -/
def range : Draft.Node → Range
  | .literal r _ => r
  | .plain _ g => g.range
  | .operation _ g _ => g.range
  | .name n => n.range
  | .access r .. => r
  | .method r .. => r
  | .binary r .. => r
  | .typeName r _ => r
  | .declaration d => d.range
  | .parameter p => p.range
  | .parameters g => g.range
  | .block g => g.range
  | .function f => f.range
  | .forLoop l => l.range
  | .foreachLoop l => l.range
  | .statics g => g.range
  | .functions g => g.range
  | .unit u => u.range

/-- A section as a list of nodes: nothing when it has no items. -/
def sectionPart {α : Type} (node : Group α → Draft.Node) (g : Group α) : List Draft.Node :=
  if g.items.isEmpty then [] else [node g]

/-- The nodes inside a node, in source order. -/
def parts : Draft.Node → List Draft.Node
  | .literal .. | .name _ | .method .. | .typeName .. => []
  | .plain _ g | .operation _ g _ | .block g => g.items
  | .access _ callee .. => [callee]
  | .binary _ _ _ left right => [left, right]
  | .declaration d => d.typeNode.toList ++ .name d.name :: d.initializer.toList
  | .parameter p => [p.typeNode, .name p.name]
  | .parameters g => g.items.map .parameter
  | .function f => [f.returnType, .name f.name, .parameters f.parameters, .block f.body]
  | .forLoop l => l.init.toList ++ (l.condition.toList ++ (l.update.toList ++ [l.body]))
  | .foreachLoop l => [l.typeNode, .name l.name, l.iterable, l.body]
  | .statics g => g.items.map .declaration
  | .functions g => g.items.map .function
  | .unit u =>
    sectionPart .statics u.statics ++ (sectionPart .functions u.functions ++ sectionPart .block u.statements)

end Draft.Node

namespace Schema

open Reading

/-! ## Slots for nodes -/

section Slots

variable {α : Type} {kind : NodeKind} {read : List (String × Data) → Reading α} {d v : Data} {a : α}
  {fs : List (String × Data)} {key : String} {n : Draft.Node}

/-- A record in a slot of one kind states this kind. -/
theorem kindIs_eq_done_iff {u : Unit} : kindIs kind fs = .done u ↔ (Data.table fs).textAt? "kind" = some kind.text := by
  have hfield : (Data.table fs).field? "kind" = Data.get? fs "kind" := rfl
  unfold kindIs
  rw [required_eq_done_iff, Data.textAt?, hfield]
  cases Data.get? fs "kind" with
  | none => simp
  | some v =>
    cases v with
    | text s =>
      by_cases hs : s = kind.text
      · simp [oneOf, hs]
      · have hne : (s == kind.text) = false := by simpa using hs
        simp [oneOf, List.lookup_cons, hne, hs, fault]
    | _ => simp [oneOf, fault]

/-- A slot for one kind of record holds a record that states this kind. -/
theorem fixed_eq_done_iff :
    fixed kind read d = .done a ↔
      ∃ fs, d = .table fs ∧ d.textAt? "kind" = some kind.text ∧ read fs = .done a := by
  cases d with
  | table fs =>
    show (fun _ a => a) <$> kindIs kind fs <*> read fs = .done a ↔ _
    simp only [seq_eq_done_iff, map_eq_done_iff, kindIs_eq_done_iff]
    constructor
    · rintro ⟨_, a, ⟨_, hkind, rfl⟩, hread, rfl⟩
      exact ⟨fs, rfl, hkind, hread⟩
    · rintro ⟨_, ⟨⟩, hkind, hread⟩
      exact ⟨_, a, ⟨(), hkind, rfl⟩, hread, rfl⟩
  | _ => simp [fixed, tableOf, fault]

/-- A slot for any node holds a record that states a kind, and is read as that kind is. -/
theorem node_eq_done_iff :
    node d = .done n ↔
      ∃ fs kind, d = .table fs ∧ d.textAt? "kind" = some kind.text ∧ nodeFields node kind fs = .done n := by
  rw [node_eq]
  cases d with
  | table fs =>
    cases hfield : Data.get? fs "kind" with
    | none => simp [anyNode, Data.textAt?, Data.field?, hfield, fault]
    | some v =>
      cases v with
      | text word =>
        have hword : (Data.table fs).textAt? "kind" = some word := by simp only [Data.textAt?, Data.field?, hfield]
        rw [hword]
        simp only [anyNode, hfield]
        constructor
        · intro h
          split at h
          · rename_i kind hkind
            exact ⟨fs, kind, rfl, by rw [NodeKind.ofText?_eq_some_iff.mp hkind], under_eq_done_iff.mp h⟩
          · contradiction
        · rintro ⟨_, kind, ⟨⟩, hkind, h⟩
          rw [Option.some.inj hkind, NodeKind.ofText?_text]
          exact under_eq_done_iff.mpr h
      | _ => simp [anyNode, Data.textAt?, Data.field?, hfield, fault]
  | _ => simp [anyNode, fault]

/-- What a slot for one kind of record reads, a slot for any node reads too. -/
theorem reads_node_of_fixed {wrap : α → Draft.Node} (hwrap : ∀ fs, nodeFields node kind fs = wrap <$> read fs)
    (h : Reads (fixed kind read) v a) : Reads node v (wrap a) := by
  obtain ⟨fs, hv, hkind, hread⟩ := fixed_eq_done_iff.mp h
  refine node_eq_done_iff.mpr ⟨fs, kind, hv, hkind, ?_⟩
  rw [hwrap, hread, map_done]

/-- A slot that has to be filled has one part; one for a fixed kind has it as well, since any node is read alike. -/
theorem reads_node (h : required key node fs = .done n) :
    List.Forall₂ (Reads node) ((Data.table fs).slot key) [n] :=
  reads_required (fun n hn => by
    obtain ⟨_, _, hnull, -⟩ := node_eq_done_iff.mp hn
    contradiction) h

theorem reads_fixed {wrap : α → Draft.Node} (hwrap : ∀ fs, nodeFields node kind fs = wrap <$> read fs)
    (h : required key (fixed kind read) fs = .done a) :
    List.Forall₂ (Reads node) ((Data.table fs).slot key) [wrap a] := by
  have hslot := reads_required (fun a ha => by
    obtain ⟨_, hnull, -⟩ := fixed_eq_done_iff.mp ha
    contradiction) h
  obtain ⟨v, _, hv, hrest, heq⟩ := List.forall₂_cons_right_iff.mp hslot
  obtain rfl := List.forall₂_nil_right_iff.mp hrest
  rw [heq]
  exact .cons (reads_node_of_fixed hwrap hv) .nil

theorem reads_fixed_items {as : List α} {wrap : α → Draft.Node}
    (hwrap : ∀ fs, nodeFields node kind fs = wrap <$> read fs)
    (h : optional key [] (listOf (fixed kind read)) fs = .done as) :
    List.Forall₂ (Reads node) ((Data.table fs).slotItems key) (as.map wrap) :=
  List.forall₂_map_right_iff.mpr ((reads_items h).imp fun _ _ hv => reads_node_of_fixed hwrap hv)

/-- A name is read in its own slot as it is among nodes. -/
theorem reads_name {m : Draft.Name} (h : required key name fs = .done m) :
    List.Forall₂ (Reads node) ((Data.table fs).slot key) [.name m] := reads_fixed (fun _ => rfl) h

/-- Each reader of fields, taken apart: which slot gives which part of the draft. -/
theorem groupFields_eq_done {item : Data → Reading α} {g : Group α} (h : groupFields key item fs = .done g) :
    required "range" range fs = .done g.range ∧ optional key [] (listOf item) fs = .done g.items := by
  simp only [groupFields, seq_eq_done_iff, map_eq_done_iff] at h
  obtain ⟨_, items, ⟨r, hr, rfl⟩, hitems, rfl⟩ := h
  exact ⟨hr, hitems⟩

/-- A section of a unit counts exactly if it has items. -/
theorem reads_section {item : Data → Reading α} {g : Group α} {wrap : Group α → Draft.Node}
    (hwrap : ∀ fs, nodeFields node kind fs = wrap <$> groupFields key item fs)
    (h : required key (fixed kind (groupFields key item)) fs = .done g) :
    List.Forall₂ (Reads node) ((Data.table fs).fill (.filled key)) (Draft.Node.sectionPart wrap g) := by
  obtain ⟨v, _, hv, hrest, hslot⟩ := List.forall₂_cons_right_iff.mp (reads_fixed hwrap h)
  obtain rfl := List.forall₂_nil_right_iff.mp hrest
  -- the section counts by its items in the document and in the draft, and these are equally many
  have hempty : (v.slotItems key).isEmpty = g.items.isEmpty := by
    obtain ⟨w, hw, hg⟩ := required_eq_done_iff.mp h
    obtain rfl : w = v := by
      have hfield := Data.mem_slot (hslot ▸ List.mem_singleton_self v)
      exact Option.some.inj (hw.symm.trans hfield)
    obtain ⟨fs', rfl, -, hread⟩ := fixed_eq_done_iff.mp hg
    have hlength := (reads_items (groupFields_eq_done hread).2).length_eq
    rw [Bool.eq_iff_iff, List.isEmpty_iff_length_eq_zero, List.isEmpty_iff_length_eq_zero, hlength]
  rw [Data.fill, hslot, List.filter_cons, hempty, Draft.Node.sectionPart]
  cases g.items.isEmpty with
  | true => exact .nil
  | false => exact .cons hv .nil

end Slots

/-! ## Records -/

section Records

variable {N : Type} {read : Data → Reading N} {fs : List (String × Data)}

theorem declarationFields_eq_done {x : Declaration Draft.Name N} (h : declarationFields read fs = .done x) :
    required "range" range fs = .done x.range ∧ optional "type_node" none (nullable read) fs = .done x.typeNode ∧
      required "name" name fs = .done x.name ∧
      optional "initializer" none (nullable read) fs = .done x.initializer := by
  simp only [declarationFields, seq_eq_done_iff, map_eq_done_iff] at h
  obtain ⟨_, i, ⟨_, m, ⟨_, t, ⟨r, hr, rfl⟩, ht, rfl⟩, hm, rfl⟩, hi, rfl⟩ := h
  exact ⟨hr, ht, hm, hi⟩

theorem parameterFields_eq_done {x : Parameter Draft.Name N} (h : parameterFields read fs = .done x) :
    required "range" range fs = .done x.range ∧ required "type_node" read fs = .done x.typeNode ∧
      required "name" name fs = .done x.name ∧ optional "by_ref" false flag fs = .done x.byRef := by
  simp only [parameterFields, seq_eq_done_iff, map_eq_done_iff] at h
  obtain ⟨_, b, ⟨_, m, ⟨_, t, ⟨r, hr, rfl⟩, ht, rfl⟩, hm, rfl⟩, hb, rfl⟩ := h
  exact ⟨hr, ht, hm, hb⟩

theorem functionFields_eq_done {x : FunctionDef Draft.Name N} (h : functionFields read fs = .done x) :
    required "range" range fs = .done x.range ∧ required "return_type" read fs = .done x.returnType ∧
      required "name" name fs = .done x.name ∧
      required "parameters" (fixed .parameterList (parametersFields read)) fs = .done x.parameters ∧
      required "body" (fixed .statementsList (blockFields read)) fs = .done x.body := by
  simp only [functionFields, seq_eq_done_iff, map_eq_done_iff] at h
  obtain ⟨_, b, ⟨_, ps, ⟨_, m, ⟨_, t, ⟨r, hr, rfl⟩, ht, rfl⟩, hm, rfl⟩, hps, rfl⟩, hb, rfl⟩ := h
  exact ⟨hr, ht, hm, hps, hb⟩

theorem forLoopFields_eq_done {x : ForLoop N} (h : forLoopFields read fs = .done x) :
    required "range" range fs = .done x.range ∧ optional "init" none (nullable read) fs = .done x.init ∧
      optional "condition" none (nullable read) fs = .done x.condition ∧
      optional "update" none (nullable read) fs = .done x.update ∧ required "body" read fs = .done x.body := by
  simp only [forLoopFields, seq_eq_done_iff, map_eq_done_iff] at h
  obtain ⟨_, b, ⟨_, u, ⟨_, c, ⟨_, i, ⟨r, hr, rfl⟩, hi, rfl⟩, hc, rfl⟩, hu, rfl⟩, hb, rfl⟩ := h
  exact ⟨hr, hi, hc, hu, hb⟩

theorem foreachLoopFields_eq_done {x : ForeachLoop Draft.Name N} (h : foreachLoopFields read fs = .done x) :
    required "range" range fs = .done x.range ∧ required "type_node" read fs = .done x.typeNode ∧
      required "name" name fs = .done x.name ∧ required "iterable" read fs = .done x.iterable ∧
      required "body" read fs = .done x.body := by
  simp only [foreachLoopFields, seq_eq_done_iff, map_eq_done_iff] at h
  obtain ⟨_, b, ⟨_, i, ⟨_, m, ⟨_, t, ⟨r, hr, rfl⟩, ht, rfl⟩, hm, rfl⟩, hi, rfl⟩, hb, rfl⟩ := h
  exact ⟨hr, ht, hm, hi, hb⟩

theorem unitFields_eq_done {x : CompilationUnit Draft.Name N} (h : unitFields read fs = .done x) :
    required "range" range fs = .done x.range ∧
      required "variables" (fixed .staticVariablesList (staticsFields read)) fs = .done x.statics ∧
      required "functions" (fixed .functionsList (functionsFields read)) fs = .done x.functions ∧
      required "statements" (fixed .statementsList (blockFields read)) fs = .done x.statements := by
  simp only [unitFields, seq_eq_done_iff, map_eq_done_iff] at h
  obtain ⟨_, ss, ⟨_, gs, ⟨_, vs, ⟨r, hr, rfl⟩, hvs, rfl⟩, hgs, rfl⟩, hss, rfl⟩ := h
  exact ⟨hr, hvs, hgs, hss⟩

theorem nameFields_eq_done {x : Draft.Name} (h : nameFields fs = .done x) :
    required "range" range fs = .done x.range ∧ required "name" text fs = .done x.name ∧
      optional "type" none (nullable text) fs = .done x.type ∧
      optional "symbol" none (nullable symbolNote) fs = .done x.symbol := by
  simp only [nameFields, seq_eq_done_iff, map_eq_done_iff] at h
  obtain ⟨_, s, ⟨_, t, ⟨_, m, ⟨r, hr, rfl⟩, hm, rfl⟩, ht, rfl⟩, hs, rfl⟩ := h
  exact ⟨hr, hm, ht, hs⟩

end Records

/-- **A draft of a record.** It has the kind that the record states and the integers of its range, and its parts are
what the parts of the record are read as. -/
structure Mirrors (d : Data) (n : Draft.Node) : Prop where
  kind : d.textAt? "kind" = some n.kind.text
  range : d.coordinates = n.range.coordinates.map some
  parts : List.Forall₂ (Reads node) d.parts n.parts

/-- A draft mirrors its record if its kind, its range and its parts do. -/
theorem mirrors_of_fields {fs : List (String × Data)} {n : Draft.Node}
    (hkind : (Data.table fs).textAt? "kind" = some n.kind.text)
    (hrange : required "range" range fs = .done n.range)
    (hparts : List.Forall₂ (Reads node) (n.kind.slots.flatMap (Data.table fs).fill) n.parts) : Mirrors (.table fs) n :=
  ⟨hkind, coordinates_of_required hrange, by rwa [Data.parts_eq hkind]⟩

section Parts

variable {d : Data} {s : Slot} {ss : List Slot} {key : String} {n : Draft.Node} {ns ms : List Draft.Node}

/-- The parts of a record, slot by slot. -/
theorem parts_append (hs : List.Forall₂ (Reads node) (d.fill s) ns)
    (hss : List.Forall₂ (Reads node) (ss.flatMap d.fill) ms) :
    List.Forall₂ (Reads node) ((s :: ss).flatMap d.fill) (ns ++ ms) := by
  rw [List.flatMap_cons]
  exact List.rel_append hs hss

theorem parts_cons (hs : List.Forall₂ (Reads node) (d.slot key) [n])
    (hss : List.Forall₂ (Reads node) (ss.flatMap d.fill) ms) :
    List.Forall₂ (Reads node) ((.one key :: ss).flatMap d.fill) (n :: ms) :=
  parts_append (s := .one key) hs hss

theorem parts_last (hs : List.Forall₂ (Reads node) (d.fill s) ns) :
    List.Forall₂ (Reads node) ([s].flatMap d.fill) ns := by
  rw [List.flatMap_singleton]
  exact hs

end Parts

/-- **Each kind of record, taken apart.** -/
theorem mirrors_of_node {d : Data} {n : Draft.Node} (h : node d = .done n) : Mirrors d n := by
  obtain ⟨fs, kind, rfl, hkind, hfields⟩ := node_eq_done_iff.mp h
  -- the fields are taken back in the order in which they are read; the parts are put together in the order of the slots
  cases kind with
  | literal k =>
    obtain ⟨r, hr, rfl⟩ := map_eq_done_iff.mp hfields
    exact mirrors_of_fields hkind hr .nil
  | plain k =>
    obtain ⟨g, hg, rfl⟩ := map_eq_done_iff.mp hfields
    obtain ⟨hr, hitems⟩ := groupFields_eq_done hg
    exact mirrors_of_fields hkind hr (parts_last (reads_items hitems))
  | operation k =>
    simp only [nodeFields, seq_eq_done_iff, map_eq_done_iff] at hfields
    obtain ⟨_, t, ⟨g, hg, rfl⟩, ht, rfl⟩ := hfields
    obtain ⟨hr, hitems⟩ := groupFields_eq_done hg
    exact mirrors_of_fields hkind hr (parts_last (reads_items hitems))
  | nameExpression =>
    obtain ⟨m, hm, rfl⟩ := map_eq_done_iff.mp hfields
    exact mirrors_of_fields hkind (nameFields_eq_done hm).1 .nil
  | propertyAccess =>
    simp only [nodeFields, seq_eq_done_iff, map_eq_done_iff] at hfields
    obtain ⟨_, t, ⟨_, mem, ⟨_, m, ⟨_, c, ⟨r, hr, rfl⟩, hc, rfl⟩, hm, rfl⟩, hmem, rfl⟩, ht, rfl⟩ := hfields
    exact mirrors_of_fields hkind hr (parts_last (reads_node hc))
  | method =>
    simp only [nodeFields, seq_eq_done_iff, map_eq_done_iff] at hfields
    obtain ⟨_, m, ⟨_, o, ⟨r, hr, rfl⟩, ho, rfl⟩, hm, rfl⟩ := hfields
    exact mirrors_of_fields hkind hr .nil
  | binaryOperator =>
    simp only [nodeFields, seq_eq_done_iff, map_eq_done_iff] at hfields
    obtain ⟨_, y, ⟨_, x, ⟨_, t, ⟨_, o, ⟨r, hr, rfl⟩, ho, rfl⟩, ht, rfl⟩, hx, rfl⟩, hy, rfl⟩ := hfields
    exact mirrors_of_fields hkind hr (parts_cons (reads_node hx) (parts_last (reads_node hy)))
  | predefinedType =>
    simp only [nodeFields, seq_eq_done_iff, map_eq_done_iff] at hfields
    obtain ⟨_, t, ⟨r, hr, rfl⟩, ht, rfl⟩ := hfields
    exact mirrors_of_fields hkind hr .nil
  | variableDeclaration =>
    obtain ⟨x, hx, rfl⟩ := map_eq_done_iff.mp hfields
    obtain ⟨hr, ht, hm, hi⟩ := declarationFields_eq_done hx
    exact mirrors_of_fields hkind hr (parts_append (reads_optional ht)
      (parts_cons (reads_name hm) (parts_last (reads_optional hi))))
  | parameter =>
    obtain ⟨x, hx, rfl⟩ := map_eq_done_iff.mp hfields
    obtain ⟨hr, ht, hm, -⟩ := parameterFields_eq_done hx
    exact mirrors_of_fields hkind hr (parts_cons (reads_node ht) (parts_last (reads_name hm)))
  | parameterList =>
    obtain ⟨g, hg, rfl⟩ := map_eq_done_iff.mp hfields
    obtain ⟨hr, hitems⟩ := groupFields_eq_done hg
    exact mirrors_of_fields hkind hr (parts_last (reads_fixed_items (fun _ => rfl) hitems))
  | statementsList =>
    obtain ⟨g, hg, rfl⟩ := map_eq_done_iff.mp hfields
    obtain ⟨hr, hitems⟩ := groupFields_eq_done hg
    exact mirrors_of_fields hkind hr (parts_last (reads_items hitems))
  | function =>
    obtain ⟨x, hx, rfl⟩ := map_eq_done_iff.mp hfields
    obtain ⟨hr, ht, hm, hps, hb⟩ := functionFields_eq_done hx
    exact mirrors_of_fields hkind hr (parts_cons (reads_node ht) (parts_cons (reads_name hm)
      (parts_cons (reads_fixed (fun _ => rfl) hps) (parts_last (reads_fixed (fun _ => rfl) hb)))))
  | forLoop =>
    obtain ⟨x, hx, rfl⟩ := map_eq_done_iff.mp hfields
    obtain ⟨hr, hi, hc, hu, hb⟩ := forLoopFields_eq_done hx
    exact mirrors_of_fields hkind hr (parts_append (reads_optional hi) (parts_append (reads_optional hc)
      (parts_append (reads_optional hu) (parts_last (reads_node hb)))))
  | foreachLoop =>
    obtain ⟨x, hx, rfl⟩ := map_eq_done_iff.mp hfields
    obtain ⟨hr, ht, hm, hi, hb⟩ := foreachLoopFields_eq_done hx
    exact mirrors_of_fields hkind hr (parts_cons (reads_node ht) (parts_cons (reads_name hm)
      (parts_cons (reads_node hi) (parts_last (reads_node hb)))))
  | staticVariablesList =>
    obtain ⟨g, hg, rfl⟩ := map_eq_done_iff.mp hfields
    obtain ⟨hr, hitems⟩ := groupFields_eq_done hg
    exact mirrors_of_fields hkind hr (parts_last (reads_fixed_items (fun _ => rfl) hitems))
  | functionsList =>
    obtain ⟨g, hg, rfl⟩ := map_eq_done_iff.mp hfields
    obtain ⟨hr, hitems⟩ := groupFields_eq_done hg
    exact mirrors_of_fields hkind hr (parts_last (reads_fixed_items (fun _ => rfl) hitems))
  | compilationUnit =>
    obtain ⟨x, hx, rfl⟩ := map_eq_done_iff.mp hfields
    obtain ⟨hr, hvs, hgs, hss⟩ := unitFields_eq_done hx
    exact mirrors_of_fields hkind hr (parts_append (reads_section (fun _ => rfl) hvs)
      (parts_append (reads_section (fun _ => rfl) hgs) (parts_last (reads_section (fun _ => rfl) hss))))

/-- What was read as a node of a kind was read by the fields of that kind. -/
theorem fields_of_node {d : Data} {n : Draft.Node} (h : node d = .done n) :
    ∃ fs, d = .table fs ∧ nodeFields node n.kind fs = .done n := by
  obtain ⟨fs, kind, rfl, hkind, hfields⟩ := node_eq_done_iff.mp h
  obtain rfl : kind = n.kind :=
    NodeKind.text_injective (Option.some.inj (hkind.symm.trans (mirrors_of_node h).kind))
  exact ⟨fs, rfl, hfields⟩

end Schema
end Caret
