import Caret.Document.Load
import Caret.Proofs.Binding
import Caret.Proofs.Lists
import Caret.Proofs.Trail
/-!
# `Caret.Proofs.Loading` — a loaded script is the tree of its document

A record is first read as a draft and the draft is then bound. `Loads` puts both steps together, and one step down the
tree preserves it: the children of a loaded node are the loaded parts of its record, one by one (`Loads.children`).
By induction on the way down this gives a correspondence of places. Each node of the tree has its record under the same
indexes (`Loads.record_of_from`), and each record of the document its node (`Loads.node_of_follow`).

## Contents
- **One record.** `Loads`, `Loads.tag`, `Loads.range`, `Loads.fields`, `Loads.children`.
- **Whole trees.** `Loads.outline_eq`, `Loads.record_of_from`, `Loads.node_of_follow`.
- **Whole documents.** `load_eq_ok`, and the tree that a document spells out: `Script.load_preserves_outline`.
-/

namespace Caret

/-! ## One record -/

/-- **Loaded where it stands.** A record is read as a draft, and the draft is bound as a node, in a place where
declarations give variables of some kind. -/
def Loads (table : TypeTable) (kind : ValueKind) (d : Data) (n : Node) : Prop :=
  ∃ draft, Reading.Reads Schema.node d draft ∧ Binding.Binds table kind draft n

namespace Loads

variable {table : TypeTable} {kind : ValueKind} {d : Data} {n : Node}

theorem tag (h : Loads table kind d n) : d.textAt? "kind" = some n.kind.text := by
  obtain ⟨draft, hread, hbind⟩ := h
  rw [(Schema.mirrors_of_node hread).kind, (Binding.shaped_of_binds hbind).kind]

theorem range (h : Loads table kind d n) : d.coordinates = n.range.coordinates.map some := by
  obtain ⟨draft, hread, hbind⟩ := h
  rw [(Schema.mirrors_of_node hread).range, (Binding.shaped_of_binds hbind).range]

/-- A record is read by the fields of the kind of its node. -/
theorem fields (h : Loads table kind d n) :
    ∃ fs draft, d = .table fs ∧ Schema.nodeFields Schema.node n.kind fs = .done draft ∧
      Binding.Binds table kind draft n := by
  obtain ⟨draft, hread, hbind⟩ := h
  obtain ⟨fs, rfl, hfields⟩ := Schema.fields_of_node hread
  rw [← (Binding.shaped_of_binds hbind).kind] at hfields
  exact ⟨fs, draft, rfl, hfields, hbind⟩

/-- **One step down.** The children of a loaded node are its loaded parts. -/
theorem children (h : Loads table kind d n) :
    List.Forall₂ (Loads table (Binding.declaredIn n.kind)) d.parts n.children := by
  obtain ⟨draft, hread, hbind⟩ := h
  exact forall₂_comp (Schema.mirrors_of_node hread).parts (Binding.shaped_of_binds hbind).children

/-! ## Whole trees -/

/-- **A loaded tree has the outline of its record.** -/
theorem outline_eq (h : Loads table kind d n) : d.outline = n.outline := by
  induction n using Node.induction generalizing kind d with
  | step n ih =>
    -- the parts were loaded for other kinds of places, so the claim is proved for all of them at once
    rw [Data.outline_eq, Node.outline_eq, h.tag, h.range,
      map_eq_of_forall₂ h.children fun d c hc hload => ih c hc hload]

end Loads

/-- The kind of variable that declarations give where the trail ends. -/
def Trail.place : Trail → ValueKind
  | .root _ => .localVariable
  | .child t _ _ => Binding.declaredIn t.node.kind

section Places

variable {table : TypeTable} {u : Data} {root : Node}

/-- **From nodes to records.** The record that a node was loaded from stands under the same indexes as the node. -/
theorem Loads.record_of_from (hu : Loads table .localVariable u root) {t : Trail} (ht : t.From root) :
    ∃ d, u.follow t.path = some d ∧ Loads table t.place d t.node := by
  induction ht with
  | root => exact ⟨u, rfl, hu⟩
  | @child t i c _ hc ih =>
    obtain ⟨d, hd, hload⟩ := ih
    obtain ⟨e, he, hchild⟩ := forall₂_getElem?_right hload.children hc
    refine ⟨e, ?_, hchild⟩
    rw [Trail.path, Data.follow_append, hd, Option.bind_some, Data.follow, he]
    rfl

/-- Below a loaded node every record has been loaded. -/
theorem Loads.follow {t : Trail} {d e : Data} {path : List Nat} (h : Loads table t.place d t.node)
    (he : d.follow path = some e) : ∃ t', t.follow path = some t' ∧ Loads table t'.place e t'.node := by
  induction path generalizing t d with
  | nil =>
    obtain rfl := Option.some.inj he
    exact ⟨t, rfl, h⟩
  | cons i rest ih =>
    rw [Data.follow, Option.bind_eq_some_iff] at he
    obtain ⟨c, hc, hrest⟩ := he
    obtain ⟨m, hm, hchild⟩ := forall₂_getElem?_left h.children hc
    obtain ⟨t', ht', hload⟩ := ih (t := .child t i m) hchild hrest
    refine ⟨t', ?_, hload⟩
    rw [Trail.follow, hm]
    exact ht'

/-- **From records to nodes.** Each record of the tree has been loaded as the node under the same indexes. -/
theorem Loads.node_of_follow (hu : Loads table .localVariable u root) {path : List Nat} {d : Data}
    (hd : u.follow path = some d) : ∃ t, root.at? path = some t ∧ Loads table t.place d t.node :=
  Loads.follow (t := .root root) hu hd

end Places

/-! ## Whole documents -/

section Documents

variable {doc : Data} {s : Script}

theorem Schema.script_eq_done {draft : Draft.Script} (h : Schema.script doc = .done draft) :
    List.Forall₂ (Reading.Reads Schema.typeEntry) (doc.slotItems "types") draft.types ∧
      List.Forall₂ (Reading.Reads Schema.field) (doc.slotItems "constants") draft.constants ∧
        ∃ u, doc.field? "unit" = some u ∧ Reading.Reads Schema.node u (.unit draft.unit) := by
  cases doc with
  | table fs =>
    simp only [Schema.script, Reading.tableOf, Reading.seq_eq_done_iff, Reading.map_eq_done_iff] at h
    obtain ⟨_, unit, ⟨_, constants, ⟨types, htypes, rfl⟩, hconstants, rfl⟩, hunit, rfl⟩ := h
    obtain ⟨u, hu, hread⟩ := Reading.required_eq_done_iff.mp hunit
    exact ⟨Reading.reads_items htypes, Reading.reads_items hconstants, u, hu,
      Schema.reads_node_of_fixed (fun _ => rfl) hread⟩
  | _ => contradiction

theorem Schema.name_of_field {d : Data} {f : Field String} (h : Schema.field d = .done f) :
    d.textAt? "name" = some f.name := by
  cases d with
  | table fs =>
    simp only [Schema.field, Reading.tableOf, Reading.seq_eq_done_iff, Reading.map_eq_done_iff] at h
    obtain ⟨_, type, ⟨name, hname, rfl⟩, -, rfl⟩ := h
    exact Reading.textAt?_of_required hname
  | _ => contradiction

theorem Binding.script_eq_ok {draft : Draft.Script} (h : Binding.script draft = .ok s) :
    ∃ table, Binding.table draft.types = .ok table ∧
      List.Forall₂ (Binding.Gives (Binding.constant table)) draft.constants s.constants ∧
        Binding.unit table draft.unit = .ok s.unit := by
  simp only [Binding.script, Binding.bind_eq_ok, Binding.pure_eq_ok] at h
  obtain ⟨table, htable, constants, hconstants, unit, hunit, rfl⟩ := h
  exact ⟨table, htable, Binding.mapM_eq_ok hconstants, hunit⟩

/-- What a document that gives a script consists of: its classes make the table of types, and its constants and its unit
are bound by that table. -/
theorem Script.load_eq_ok (h : Script.load doc = .ok s) :
    ∃ types constants table u,
      List.Forall₂ (Reading.Reads Schema.typeEntry) (doc.slotItems "types") types ∧
      Binding.table types = .ok table ∧
      List.Forall₂ (Reading.Reads Schema.field) (doc.slotItems "constants") constants ∧
      List.Forall₂ (Binding.Gives (Binding.constant table)) constants s.constants ∧
      doc.field? "unit" = some u ∧ Loads table .localVariable u (.unit s.unit) := by
  unfold Script.load at h
  split at h
  · contradiction
  rename_i draft hdraft
  split at h
  · contradiction
  rename_i script hscript
  obtain rfl := Except.ok.inj h
  obtain ⟨htypes, hconstants, u, hu, hread⟩ := Schema.script_eq_done hdraft
  obtain ⟨table, htable, hbound, hunit⟩ := Binding.script_eq_ok hscript
  exact ⟨draft.types, draft.constants, table, u, htypes, htable, hconstants, hbound, hu,
    .unit draft.unit, hread, Binding.binds_of_node (Binding.map_eq_ok.mpr ⟨_, hunit, rfl⟩)⟩

/-- Constants are loaded one by one, with their names. -/
theorem Script.constant_names {table : TypeTable} {constants : List (Field String)}
    (hread : List.Forall₂ (Reading.Reads Schema.field) (doc.slotItems "constants") constants)
    (hbound : List.Forall₂ (Binding.Gives (Binding.constant table)) constants s.constants) :
    s.constants.map (fun c => some c.name) = (doc.slotItems "constants").map (·.textAt? "name") := by
  refine (map_eq_of_forall₂ (forall₂_comp hread hbound) ?_).symm
  rintro d c - ⟨f, hf, hc⟩
  obtain ⟨t, -, rfl⟩ := Binding.map_eq_ok.mp hc
  exact Schema.name_of_field hf

/-- **A loaded script is the tree that its document spells out**: at every depth it has the kinds and ranges that the
records state, with the parts of each record in source order and nothing else. The constants keep their order and
names. -/
theorem Script.load_preserves_outline (h : Script.load doc = .ok s) :
    ∃ u, doc.field? "unit" = some u ∧ (Node.unit s.unit).outline = u.outline ∧
      s.constants.map (fun c => some c.name) = (doc.slotItems "constants").map (·.textAt? "name") := by
  obtain ⟨_, _, table, u, -, -, hread, hbound, hu, hload⟩ := Script.load_eq_ok h
  exact ⟨u, hu, hload.outline_eq.symm, Script.constant_names hread hbound⟩

end Documents

/-! ### A document -/

namespace Data

/-- A name with the name of its type, as in the members and constants of a host. -/
def typed (name type : String) : Data := .table [("name", .text name), ("type", .text type)]

def typeRecord (range : List Int) (type : String) : Data := record .predefinedType range [("type", .text type)]

def nameRecord (range : List Int) (name : String) : Data := record .nameExpression range [("name", .text name)]

/-- The name of the constant `account` where it is used. -/
def accountRecord (range : List Int) : Data :=
  record .nameExpression range
    [("name", .text "account"),
     ("symbol", .table [("kind", .text "constant"), ("name", .text "account"), ("type", .text "Account")])]

/-- A script with all three sections, for a host with a class of accounts and an account as a constant. The static
variable `total` has a written type, the variable `left` gets its type from `account.balance + 1`, and the function
`add` takes its parameter by reference. -/
def accounts : Data :=
  .table
    [("types", .list [.table
      [("name", .text "Account"), ("properties", .list [typed "balance" "int"]),
       ("methods", .list [.table [("name", .text "deposit"), ("parameters", .list [typed "amount" "int"])]])]]),
     ("constants", .list [typed "account" "Account", typed "limit" "int"]),
     ("unit", record .compilationUnit [0, 0, 9, 0]
      [("variables", record .staticVariablesList [1, 0, 1, 14] [("variables", .list
        [record .variableDeclaration [1, 0, 1, 14]
          [("type_node", typeRecord [1, 0, 1, 3] "int"), ("name", nameRecord [1, 4, 1, 9] "total"),
           ("initializer", record (.literal .integer) [1, 12, 1, 13] [])]])]),
       ("functions", record .functionsList [2, 0, 4, 1] [("functions", .list
        [record .function [2, 0, 4, 1]
          [("return_type", typeRecord [2, 0, 2, 3] "int"), ("name", nameRecord [2, 4, 2, 7] "add"),
           ("parameters", record .parameterList [2, 7, 2, 18] [("parameters", .list [record .parameter [2, 8, 2, 17]
            [("type_node", typeRecord [2, 12, 2, 15] "int"), ("name", nameRecord [2, 16, 2, 17] "n"),
             ("by_ref", .bool true)]])]),
           ("body", record .statementsList [3, 0, 4, 1] [])]])]),
       ("statements", record .statementsList [5, 0, 8, 0] [("statements", .list
        [record .variableDeclaration [5, 0, 5, 27]
          [("name", nameRecord [5, 4, 5, 8] "left"),
           ("initializer", record .binaryOperator [5, 11, 5, 26]
            [("operator", .text "+"), ("type", .text "int"),
             ("left", record .propertyAccess [5, 11, 5, 22]
              [("callee", accountRecord [5, 11, 5, 18]), ("name", .text "balance"), ("member", .text "balance")]),
             ("right", record (.literal .integer) [5, 25, 5, 26] [])])],
         record (.plain .expressionStatement) [6, 0, 6, 21] [("children", .list
          [record (.operation .methodCall) [6, 0, 6, 20] [("children", .list
            [accountRecord [6, 0, 6, 7],
             record .method [6, 8, 6, 15] [("owner", .text "Account"), ("method", .text "deposit")],
             record (.plain .argumentsList) [6, 15, 6, 20] []])]])],
         record .foreachLoop [7, 0, 7, 24]
          [("type_node", typeRecord [7, 9, 7, 13] "char"), ("name", nameRecord [7, 14, 7, 15] "c"),
           ("iterable", record (.literal .string) [7, 19, 7, 21] []),
           ("body", record .statementsList [7, 22, 7, 24] [])]])])])]

end Data

theorem Script.load_preserves_outline_accounts :
    ∃ s u, Script.load Data.accounts = .ok s ∧ Data.accounts.field? "unit" = some u ∧
      (Node.unit s.unit).outline = u.outline ∧
      s.constants.map (fun c => some c.name) = [some "account", some "limit"] := by
  obtain ⟨u, hu, houtline, hconstants⟩ := @Script.load_preserves_outline Data.accounts _ rfl
  exact ⟨_, u, rfl, hu, houtline, hconstants⟩

end Caret
