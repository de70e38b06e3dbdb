import Caret.Proofs.Loading
/-!
# `Caret.Proofs.Typing` — types and symbols in a loaded tree

Loading looks up what a record says and checks how it fits together. What it leaves in the tree is stated here for one
node and its record (`Typed`): the types of a literal, of a member and of operands, and the symbols of declared names. A
declared name has the symbol that is written at it, or else the one that its place gives it (`Node.ownSymbol?`), and in
both cases the symbol has a type.

## Contents
- **Declared names.** `Node.declaredName?`, `Node.ownSymbol?`; `declared_of_binds` — where the symbol of a declared name
  comes from.
- **Typed nodes.** `Typed`, `typed_of_loads`, and for whole trees `Script.load_typed`.
-/

namespace Caret

/-! ## Declared names -/

namespace Node

/-- The name that a node declares. -/
def declaredName? : Node → Option NameRef
  | .declaration d => some d.name
  | .parameter p => some p.name
  | .function f => some f.name
  | .foreachLoop l => some l.name
  | _ => none

/-- The symbol that the name declared by a node has if none is written at it. The place of the node says what kind of
variable a declaration gives. -/
def ownSymbol? (place : ValueKind) : Node → Option Symbol
  | .declaration d =>
    ((d.typeNode.bind type?).or (d.initializer.bind type?)).map fun t => .value place d.name.name (some t)
  | .parameter p => p.typeNode.type?.map fun t => .value (.parameter p.byRef) p.name.name (some t)
  | .function f =>
    f.returnType.type?.map fun t =>
      .function f.name.name ⟨some t, f.parameters.items.map fun p => ⟨p.name.name, p.name.symbol.bind Symbol.type⟩⟩
  | .foreachLoop l => l.typeNode.type?.map fun t => .value .localVariable l.name.name (some t)
  | _ => none

end Node

/-- The name that a node declares. -/
def Draft.Node.declaredName? : Draft.Node → Option Draft.Name
  | .declaration d => some d.name
  | .parameter p => some p.name
  | .function f => some f.name
  | .foreachLoop l => some l.name
  | _ => none

namespace Schema

open Reading

/-- A declared name stands in the slot for it. -/
theorem reads_declaredName {d : Data} {n : Draft.Node} {m : Draft.Name} (h : node d = .done n)
    (hm : n.declaredName? = some m) : List.Forall₂ (Reads name) (d.slot "name") [m] := by
  obtain ⟨fs, rfl, hfields⟩ := fields_of_node h
  have hname : required "name" name fs = .done m := by
    cases n with
    | declaration x =>
      obtain ⟨_, hx, ⟨⟩⟩ := map_eq_done_iff.mp hfields
      exact Option.some.inj hm ▸ (declarationFields_eq_done hx).2.2.1
    | parameter x =>
      obtain ⟨_, hx, ⟨⟩⟩ := map_eq_done_iff.mp hfields
      exact Option.some.inj hm ▸ (parameterFields_eq_done hx).2.2.1
    | function x =>
      obtain ⟨_, hx, ⟨⟩⟩ := map_eq_done_iff.mp hfields
      exact Option.some.inj hm ▸ (functionFields_eq_done hx).2.2.1
    | foreachLoop x =>
      obtain ⟨_, hx, ⟨⟩⟩ := map_eq_done_iff.mp hfields
      exact Option.some.inj hm ▸ (foreachLoopFields_eq_done hx).2.2.1
    | _ => contradiction
  refine reads_required ?_ hname
  intro a ha
  obtain ⟨_, hnull, -⟩ := fixed_eq_done_iff.mp ha
  contradiction

/-- A symbol of a name stands in the slot for it. -/
theorem reads_symbol {v : Data} {m : Draft.Name} (h : name v = .done m) :
    List.Forall₂ (Reads symbolNote) (v.slot "symbol") m.symbol.toList := by
  obtain ⟨fs, rfl, -, hfields⟩ := fixed_eq_done_iff.mp h
  exact reads_optional (nameFields_eq_done hfields).2.2.2

end Schema

namespace Binding

variable {table : TypeTable}

/-- A name is declared only with a type. -/
theorem declared_eq_ok {kind : ValueKind} {name : String} {type : Option ScriptType} {o : Option Symbol}
    (h : declared kind name type = .ok o) : ∃ t, type = some t ∧ o = some (.value kind name (some t)) := by
  cases type with
  | none => contradiction
  | some t => exact ⟨t, rfl, (Except.ok.inj h).symm⟩

/-- A name has a symbol with a type if its place gives it one: a symbol that is written has a type in any case. -/
theorem symbol_of_name {m : Draft.Name} {place : Bound (Option Symbol)} {ref : NameRef}
    (h : name table m place = .ok ref) (hplace : ∀ o, place = .ok o → ∃ s t, o = some s ∧ s.type = some t) :
    ∃ s t, ref.symbol = some s ∧ s.type = some t := by
  obtain ⟨-, -, t, -, hnote, hnone⟩ := name_eq_ok h
  cases hsymbol : m.symbol with
  | none => exact hplace _ (hnone hsymbol)
  | some note =>
    obtain ⟨s, hs, href⟩ := hnote note hsymbol
    obtain ⟨_, u, -, -, rfl⟩ := symbol_eq_ok hs
    exact ⟨_, u, href, rfl⟩

theorem symbol_of_parameter {x : Parameter Draft.Name Draft.Node} {p : Parameter NameRef Node}
    (h : parameter table x = .ok p) : ∃ s, p.name.symbol = some s := by
  obtain ⟨-, -, -, t, -, hname⟩ := parameter_eq_ok h
  obtain ⟨s, _, hs, -⟩ := symbol_of_name hname fun o ho => by
    obtain ⟨t, -, rfl⟩ := declared_eq_ok ho
    exact ⟨_, t, rfl, rfl⟩
  exact ⟨s, hs⟩

/-- Where all parameters have symbols, none is left out of the signature. -/
theorem signature_eq_map {t : ScriptType} {ps : List (Parameter NameRef Node)}
    (h : ∀ p ∈ ps, ∃ s, p.name.symbol = some s) :
    signature t ps = ⟨some t, ps.map fun p => ⟨p.name.name, p.name.symbol.bind Symbol.type⟩⟩ := by
  rw [signature, ← List.filterMap_eq_map]
  congr 1
  refine List.filterMap_congr fun p hp => ?_
  obtain ⟨s, hs⟩ := h p hp
  simp only [Function.comp_apply, hs, Option.map_some, Option.bind_some]

/-- **Where the symbol of a declared name comes from.** The name is bound with what its place gives it, and that is the
own symbol of the node. -/
theorem declared_of_binds {kind : ValueKind} {draft : Draft.Node} {n : Node} (h : Binds table kind draft n)
    {ref : NameRef} (href : n.declaredName? = some ref) :
    ∃ m place, draft.declaredName? = some m ∧ name table m place = .ok ref ∧
      ∀ o, place = .ok o → o = n.ownSymbol? kind ∧ ∃ s t, o = some s ∧ s.type = some t := by
  -- the kinds agree, so each sort of node comes from one sort of draft
  have hkind := (shaped_of_binds h).kind
  cases n with
  | declaration d =>
    obtain rfl := Option.some.inj href
    cases h with
    | node hd _ => exact absurd hkind.symm hd
    | declaration h =>
      obtain ⟨-, -, -, hname⟩ := declaration_eq_ok h
      refine ⟨_, _, rfl, hname, fun o ho => ?_⟩
      obtain ⟨t, ht, rfl⟩ := declared_eq_ok ho
      rw [Node.ownSymbol?, ht, (name_eq_ok hname).2.1]
      exact ⟨rfl, _, t, rfl, rfl⟩
  | parameter p =>
    obtain rfl := Option.some.inj href
    cases draft with
    | parameter x =>
      obtain ⟨_, h⟩ := h
      obtain ⟨_, hp, ⟨⟩⟩ := map_eq_ok.mp h
      obtain ⟨-, hbyRef, -, t, ht, hname⟩ := parameter_eq_ok hp
      refine ⟨_, _, rfl, hname, fun o ho => ?_⟩
      obtain ⟨_, ⟨⟩, rfl⟩ := declared_eq_ok ho
      rw [Node.ownSymbol?, ht, (name_eq_ok hname).2.1, hbyRef]
      exact ⟨rfl, _, t, rfl, rfl⟩
    | _ => cases hkind
  | function f =>
    obtain rfl := Option.some.inj href
    cases draft with
    | function x =>
      obtain ⟨_, h⟩ := h
      obtain ⟨_, hf, ⟨⟩⟩ := map_eq_ok.mp h
      obtain ⟨-, -, hparameters, -, t, ht, hname⟩ := function_eq_ok hf
      -- the signature is made of the parameters that have symbols, and all of them do
      have hsymbols : ∀ p ∈ f.parameters.items, ∃ s, p.name.symbol = some s := by
        intro p hp
        obtain ⟨y, -, hy⟩ := forall₂_mem_right (parameters_eq_ok hparameters).2 hp
        exact symbol_of_parameter hy
      refine ⟨_, _, rfl, hname, fun o ho => ?_⟩
      obtain rfl := Except.ok.inj ho
      rw [Node.ownSymbol?, ht, (name_eq_ok hname).2.1, signature_eq_map hsymbols]
      exact ⟨rfl, _, _, rfl, rfl⟩
    | _ => cases hkind
  | foreachLoop l =>
    obtain rfl := Option.some.inj href
    cases draft with
    | foreachLoop x =>
      obtain ⟨_, h⟩ := h
      obtain ⟨_, ⟨⟩, -, -, -, -, t, ht, hname⟩ := foreachLoop_eq_ok h
      refine ⟨_, _, rfl, hname, fun o ho => ?_⟩
      obtain ⟨_, ⟨⟩, rfl⟩ := declared_eq_ok ho
      rw [Node.ownSymbol?, ht, (name_eq_ok hname).2.1]
      exact ⟨rfl, _, t, rfl, rfl⟩
    | _ => cases hkind
  | _ => contradiction

end Binding

/-! ## Typed nodes -/

/-- **Typed nodes.** How the types and symbols at a node go together, and with the record of the node. -/
structure Typed (d : Data) (place : ValueKind) (n : Node) : Prop where
  range : d.coordinates = n.range.coordinates.map some ∧ n.range.start ≤ n.range.stop
  literal : ∀ k, d.kind? = some (.literal k) → n.type? = some (.predefined k.type)
  /-- A method is the first one of its name of the written owner. -/
  method : ∀ r owner m, n = .method r owner m →
    d.textAt? "owner" = some owner.name ∧ d.textAt? "method" = some m.name ∧
      owner.methods.find? (fun x => x.name == m.name) = some m
  /-- A member is the first property of its name of the callee's type, and gives the access its type. -/
  member : ∀ a p, n = .access a → a.member = some p →
    d.textAt? "member" = some p.name ∧ n.type? = some p.type ∧
      ∃ owner, a.callee.type? = some owner ∧ owner.properties.find? (fun q => q.name == p.name) = some p
  operands : ∀ r left right op, n = .binary r left right op →
    left.type? = some op.left ∧ right.type? = some op.right ∧ n.type? = some op.result ∧
      d.textAt? "type" = some op.result.name
  byRef : ∀ p, n = .parameter p → d.flagAt? "by_ref" = some p.byRef
  symbol : ∀ ref, n.declaredName? = some ref → ∃ s t, ref.symbol = some s ∧ s.type = some t
  /-- Without a symbol that is written at it, a declared name has the symbol of its place. -/
  ownSymbol : ∀ ref, n.declaredName? = some ref → (∀ m ∈ d.slot "name", m.slot "symbol" = []) →
    ref.symbol = n.ownSymbol? place

namespace Loads

variable {table : TypeTable} {place : ValueKind} {d : Data} {n : Node}

theorem kind? (h : Loads table place d n) : d.kind? = some n.kind := by
  rw [Data.kind?, h.tag, Option.bind_some, NodeKind.ofText?_text]

/-- Literals have the type of their kind. -/
theorem literal (h : Loads table place d n) {k : LiteralKind} (hk : d.kind? = some (.literal k)) :
    n.type? = some (.predefined k.type) := by
  have hkind : n.kind = .literal k := Option.some.inj (h.kind?.symm.trans hk)
  cases n with
  | literal r k' =>
    obtain rfl := NodeKind.literal.inj hkind
    rfl
  | _ => cases hkind

theorem method {r : Range} {owner : ScriptType} {m : Method ScriptType} (h : Loads table place d (.method r owner m)) :
    ∃ name, d.textAt? "owner" = some name ∧ table.get? name = some owner ∧ d.textAt? "method" = some m.name ∧
      owner.methods.find? (fun x => x.name == m.name) = some m := by
  obtain ⟨fs, _, rfl, hfields, hbind⟩ := h.fields
  simp only [Schema.nodeFields, Node.kind, Reading.seq_eq_done_iff, Reading.map_eq_done_iff] at hfields
  obtain ⟨_, _, ⟨_, name, ⟨_, -, rfl⟩, ho, rfl⟩, hm, rfl⟩ := hfields
  obtain ⟨_, hnode⟩ := hbind
  obtain ⟨_, _, ⟨⟩, howner, rfl, hfirst⟩ := Binding.method_eq_ok hnode
  exact ⟨name, Reading.textAt?_of_required ho, howner, Reading.textAt?_of_required hm, hfirst⟩

/-- An access has the type of its member, or else the written one. -/
theorem access {a : Access Node} (h : Loads table place d (.access a)) :
    Binding.member a.callee (d.textAt? "member") = .ok a.member ∧
      ((∃ p, a.member = some p ∧ a.type = some p.type) ∨
        (a.member = none ∧ Binding.type? table (d.textAt? "type") = .ok a.type)) := by
  obtain ⟨fs, _, rfl, hfields, hbind⟩ := h.fields
  simp only [Schema.nodeFields, Node.kind, Reading.seq_eq_done_iff, Reading.map_eq_done_iff] at hfields
  obtain ⟨_, _, ⟨_, _, ⟨_, _, ⟨_, _, ⟨_, -, rfl⟩, -, rfl⟩, -, rfl⟩, hm, rfl⟩, ht, rfl⟩ := hfields
  obtain ⟨_, hnode⟩ := hbind
  obtain ⟨_, ⟨⟩, -, -, hmember, htype⟩ := Binding.access_eq_ok hnode
  rw [Reading.textAt?_of_optional hm, Reading.textAt?_of_optional ht]
  exact ⟨hmember, htype⟩

/-- An operator has its operands with their types, and a written result. -/
theorem binary {r : Range} {left right : Node} {op : Operation} (h : Loads table place d (.binary r left right op)) :
    left.type? = some op.left ∧ right.type? = some op.right ∧
      ∃ name, d.textAt? "type" = some name ∧ table.get? name = some op.result := by
  obtain ⟨fs, _, rfl, hfields, hbind⟩ := h.fields
  simp only [Schema.nodeFields, Node.kind, Reading.seq_eq_done_iff, Reading.map_eq_done_iff] at hfields
  obtain ⟨_, _, ⟨_, _, ⟨_, name, ⟨_, _, ⟨_, -, rfl⟩, -, rfl⟩, ht, rfl⟩, -, rfl⟩, -, rfl⟩ := hfields
  obtain ⟨_, hnode⟩ := hbind
  obtain ⟨_, _, _, ⟨⟩, -, -, hleft, hright, hresult⟩ := Binding.binary_eq_ok hnode
  exact ⟨hleft, hright, name, Reading.textAt?_of_required ht, hresult⟩

theorem parameter {p : Parameter NameRef Node} (h : Loads table place d (.parameter p)) :
    d.flagAt? "by_ref" = some p.byRef := by
  obtain ⟨fs, _, rfl, hfields, hbind⟩ := h.fields
  obtain ⟨x, hx, rfl⟩ := Reading.map_eq_done_iff.mp hfields
  obtain ⟨_, hnode⟩ := hbind
  obtain ⟨_, hp, ⟨⟩⟩ := Binding.map_eq_ok.mp hnode
  rw [(Binding.parameter_eq_ok hp).2.1]
  exact Reading.flagAt?_of_optional (Schema.parameterFields_eq_done hx).2.2.2

theorem symbol (h : Loads table place d n) {ref : NameRef} (href : n.declaredName? = some ref) :
    ∃ s t, ref.symbol = some s ∧ s.type = some t := by
  obtain ⟨draft, -, hbind⟩ := h
  obtain ⟨m, fromPlace, -, hname, hown⟩ := Binding.declared_of_binds hbind href
  exact Binding.symbol_of_name hname fun o ho => (hown o ho).2

/-- A name at which no symbol is written has the one that its place gives. -/
theorem ownSymbol (h : Loads table place d n) {ref : NameRef} (href : n.declaredName? = some ref)
    (hslot : ∀ m ∈ d.slot "name", m.slot "symbol" = []) : ref.symbol = n.ownSymbol? place := by
  obtain ⟨draft, hread, hbind⟩ := h
  obtain ⟨m, fromPlace, hm, hname, hown⟩ := Binding.declared_of_binds hbind href
  obtain ⟨-, -, _, -, -, hnone⟩ := Binding.name_eq_ok hname
  have hunwritten : m.symbol = none := by
    obtain ⟨v, _, hv, -, hslotName⟩ := List.forall₂_cons_right_iff.mp (Schema.reads_declaredName hread hm)
    have hsymbol := Schema.reads_symbol hv
    rw [hslot v (hslotName ▸ List.mem_cons_self), List.forall₂_nil_left_iff] at hsymbol
    exact Option.toList_eq_nil_iff.mp hsymbol
  exact (hown _ (hnone hunwritten)).1

/-- **A loaded node is typed**, provided that types stand in the table under their own names. -/
theorem typed (h : Loads table place d n) (htable : ∀ name t, table.get? name = some t → t.name = name) :
    Typed d place n where
  range := ⟨h.range, n.range.start_le_stop⟩
  literal _ := h.literal
  method := by
    rintro r owner m rfl
    obtain ⟨name, ho, hget, hm, hfirst⟩ := h.method
    -- a type is known under the name that was written
    rw [htable name owner hget]
    exact ⟨ho, hm, hfirst⟩
  member := by
    rintro a p rfl hp
    obtain ⟨hmember, htype⟩ := h.access
    rw [hp] at hmember htype
    obtain ⟨hname, howner⟩ := Binding.member_eq_ok_some hmember
    rcases htype with ⟨_, ⟨⟩, ht⟩ | ⟨⟨⟩, -⟩
    exact ⟨hname, ht, howner⟩
  operands := by
    rintro r left right op rfl
    obtain ⟨hl, hr, name, ht, hget⟩ := h.binary
    rw [htable name op.result hget]
    exact ⟨hl, hr, rfl, ht⟩
  byRef := by
    rintro p rfl
    exact h.parameter
  symbol _ := h.symbol
  ownSymbol _ := h.ownSymbol

end Loads

/-- **Every node of a loaded script is typed.** Each node has its record under the same indexes in the document. -/
theorem Script.load_typed {doc : Data} {s : Script} (h : Script.load doc = .ok s) :
    ∃ u, doc.field? "unit" = some u ∧ ∀ t : Trail, t.From (.unit s.unit) →
      ∃ d, u.follow t.path = some d ∧ Typed d t.place t.node := by
  obtain ⟨types, _, table, u, -, htable, -, -, hu, hload⟩ := Script.load_eq_ok h
  refine ⟨u, hu, fun t ht => ?_⟩
  obtain ⟨d, hd, hd_load⟩ := hload.record_of_from ht
  exact ⟨d, hd, hd_load.typed fun _ _ => Binding.name_of_get? htable⟩

/-- In `Data.accounts` the variable `left`, the first statement, is local and has the type of `account.balance + 1`. -/
theorem Script.load_typed_accounts :
    ∃ (s : Script) (u : Data) (t : Trail) (d : Data) (ref : NameRef), Script.load Data.accounts = .ok s ∧
      Data.accounts.field? "unit" = some u ∧ t.From (.unit s.unit) ∧ t.path = [2, 0] ∧ u.follow t.path = some d ∧
      Typed d .localVariable t.node ∧ t.node.declaredName? = some ref ∧
      ref.symbol = some (.value .localVariable "left" (some (.predefined .int))) := by
  obtain ⟨u, hu, hnodes⟩ := @Script.load_typed Data.accounts _ rfl
  obtain ⟨d, hd, htyped⟩ := hnodes (.child (.child (.root _) 2 _) 0 _) (.child (.child .root rfl) rfl)
  refine ⟨_, u, _, d, _, rfl, hu, .child (.child .root rfl) rfl, rfl, hd, htyped, rfl, ?_⟩
  obtain rfl := Option.some.inj hu
  obtain rfl := Option.some.inj hd
  exact htyped.ownSymbol _ rfl (List.forall_mem_singleton.mpr rfl)

end Caret
