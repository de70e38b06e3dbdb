import Caret.Document.Binding
import Caret.Proofs.Drafts
import Caret.Proofs.Lists
/-!
# `Caret.Proofs.Binding` — what a bound node says about its draft

Binding stops at the first thing that cannot be bound, so a node that came out of it says that everything on the way was
bound. Each function of the binder is taken back here once, with all that it checked on the way.

Most parts of a node are bound as nodes. Two sorts of parts depend on the node around them: a declaration in a static
section declares a static variable and a local one elsewhere, and a name that is being declared is given a symbol by its
place. `Binds kind` covers both, with the kind of variable that declarations give where the node stands, and it is
handed on from a node to its children (`shaped_of_binds`).

## Contents
- **Lookups taken back.** `type_eq_ok_iff`, `name_eq_ok`, `symbol_eq_ok`, `member_eq_ok_some`, …
- **The table of types.** `declare_eq_ok`, and by induction on the declarations `table_induction`.
- **Parts taken back.** `declaration_eq_ok`, `parameter_eq_ok`, `function_eq_ok`, …
- **Nodes.** `Binds`, `Shaped`, `shaped_of_binds`.
-/

namespace Caret
namespace Binding

/-! ## Lookups taken back -/

section Steps

variable {α β : Type}

theorem bind_eq_ok {x : Bound α} {f : α → Bound β} {b : β} : x >>= f = .ok b ↔ ∃ a, x = .ok a ∧ f a = .ok b := by
  cases x <;> simp [bind, Except.bind]

theorem map_eq_ok {x : Bound α} {f : α → β} {b : β} : f <$> x = .ok b ↔ ∃ a, x = .ok a ∧ f a = b := by
  cases x <;> simp [Functor.map, Except.map]

theorem pure_eq_ok {a b : α} : (pure a : Bound α) = .ok b ↔ a = b := by
  simp [pure, Except.pure]

/-- What something is bound as. -/
def Gives (f : α → Bound β) (a : α) (b : β) : Prop := f a = .ok b

/-- A list is bound only if each of its items is, and what it is bound as has one entry for each item. -/
theorem mapM_eq_ok {f : α → Bound β} {as : List α} {bs : List β} (h : as.mapM f = .ok bs) :
    List.Forall₂ (Gives f) as bs := by
  induction as generalizing bs with
  | nil =>
    obtain rfl := pure_eq_ok.mp h
    exact .nil
  | cons a as ih =>
    simp only [List.mapM_cons, bind_eq_ok, pure_eq_ok] at h
    obtain ⟨b, hb, rest, hrest, rfl⟩ := h
    exact .cons hb (ih hrest)

end Steps

variable {table : TypeTable}

/-- A type name is bound exactly if the table has the name. -/
theorem type_eq_ok_iff {name : String} {t : ScriptType} : type table name = .ok t ↔ table.get? name = some t := by
  unfold type
  cases table.get? name with
  | none => simp
  | some u => simp

/-- A written type that was bound is one of the table. -/
theorem get?_of_type? {written : Option String} {t : Option ScriptType} (h : type? table written = .ok t)
    {name : String} (hname : written = some name) : (table.get? name).isSome := by
  subst hname
  obtain ⟨u, hu, -⟩ := map_eq_ok.mp h
  rw [type_eq_ok_iff.mp hu]
  rfl

/-- Where an expression is asked for, a node that is let through comes out as it is. -/
theorem asExpression_eq_ok {place : Place} {n m : Node} (h : asExpression place n = .ok m) : m = n := by
  unfold asExpression at h
  split at h
  · exact (Except.ok.inj h).symm
  · contradiction

/-- Where a type is asked for, exactly the nodes with a type are let through. -/
theorem asType_eq_ok_iff {place : Place} {n : Node} {t : ScriptType} : asType place n = .ok t ↔ n.type? = some t := by
  unfold asType
  cases n.type? with
  | none => simp
  | some u => simp

theorem mapM_asExpression {place : Place} {o o' : Option Node} (h : o.mapM (asExpression place) = .ok o') : o' = o := by
  cases o with
  | none => exact (pure_eq_ok.mp h).symm
  | some n =>
    obtain ⟨m, hm, rfl⟩ := map_eq_ok.mp h
    rw [asExpression_eq_ok hm]

/-- Both operands of an operator that was bound have a type. -/
theorem operandTypes_eq_ok {left right : Node} {ts : ScriptType × ScriptType} (h : operandTypes left right = .ok ts) :
    left.type? = some ts.1 ∧ right.type? = some ts.2 := by
  unfold operandTypes at h
  split at h
  · rename_i l r hl hr
    obtain rfl := Except.ok.inj h
    exact ⟨hl, hr⟩
  · contradiction

/-- A member that was found is the first property of its name of the callee's type. -/
theorem member_eq_ok_some {callee : Node} {written : Option String} {p : Field ScriptType}
    (h : member callee written = .ok (some p)) :
    written = some p.name ∧ ∃ owner, callee.type? = some owner ∧
      owner.properties.find? (fun q => q.name == p.name) = some p := by
  unfold member at h
  split at h
  · cases h
  · rename_i name
    split at h
    · cases h
    · rename_i owner howner
      split at h
      · rename_i q hq
        obtain rfl := Option.some.inj (Except.ok.inj h)
        have hname : q.name = name := by simpa using List.find?_some hq
        exact ⟨congrArg some hname.symm, owner, howner, by rwa [hname]⟩
      · contradiction

/-- A member stays open only if none is written, or if the callee has no type. -/
theorem member_eq_ok_none {callee : Node} {written : Option String} (h : member callee written = .ok none) :
    written = none ∨ callee.type? = none := by
  unfold member at h
  split at h
  · exact Or.inl rfl
  · split at h
    · exact Or.inr ‹_›
    · split at h
      · cases h
      · contradiction

/-- A symbol that is written has the written type, unless that is empty, or else the given one. -/
theorem symbol_eq_ok {note : Draft.SymbolNote} {default : Option ScriptType} {s : Symbol}
    (h : symbol table note default = .ok s) :
    ∃ t u, type? table (written? note.type) = .ok t ∧ t.or default = some u ∧
      s = .value note.kind note.name (some u) := by
  simp only [symbol, bind_eq_ok] at h
  obtain ⟨v, hv, hs⟩ := h
  obtain ⟨t, ht, rfl⟩ := map_eq_ok.mp hv
  split at hs
  · rename_i u hu
    exact ⟨t, u, ht, hu, (Except.ok.inj hs).symm⟩
  · contradiction

/-- A name keeps its text and range. A symbol that is written at it is bound, and otherwise it has the one of its
place. -/
theorem name_eq_ok {m : Draft.Name} {place : Bound (Option Symbol)} {ref : NameRef} (h : name table m place = .ok ref) :
    ref.range = m.range ∧ ref.name = m.name ∧ ∃ t, type? table m.type = .ok t ∧
      (∀ note, m.symbol = some note → ∃ s, symbol table note t = .ok s ∧ ref.symbol = some s) ∧
      (m.symbol = none → place = .ok ref.symbol) := by
  simp only [name, bind_eq_ok] at h
  obtain ⟨t, ht, hrest⟩ := h
  cases hsymbol : m.symbol with
  | none =>
    rw [hsymbol] at hrest
    obtain ⟨s, hs, href⟩ := bind_eq_ok.mp hrest
    obtain rfl := pure_eq_ok.mp href
    refine ⟨rfl, rfl, t, ht, ?_, fun _ => hs⟩
    intro note hnote
    contradiction
  | some note =>
    rw [hsymbol] at hrest
    obtain ⟨_, hsome, href⟩ := bind_eq_ok.mp hrest
    obtain ⟨s, hs, rfl⟩ := map_eq_ok.mp hsome
    obtain rfl := pure_eq_ok.mp href
    refine ⟨rfl, rfl, t, ht, ?_, ?_⟩
    · rintro _ ⟨⟩
      exact ⟨s, hs, rfl⟩
    · intro hnone
      contradiction

/-! ## The table of types -/

/-- A class that was declared stands in the table with its members bound, and those were looked up in the table as it
was before the class. -/
theorem declare_eq_ok {c : HostClass String} {table' : TypeTable} (h : declare table c = .ok table') :
    ∃ properties methods, List.Forall₂ (Gives (field table)) c.properties properties ∧
      List.Forall₂ (Gives (method table)) c.methods methods ∧
      table' = table.declare c.name (.host ⟨c.name, c.qualifiedName, properties, methods⟩) := by
  simp only [declare, bind_eq_ok, pure_eq_ok] at h
  obtain ⟨properties, hproperties, methods, hmethods, rfl⟩ := h
  exact ⟨properties, methods, mapM_eq_ok hproperties, mapM_eq_ok hmethods, rfl⟩

/-- **Tables are made one declaration at a time.** What holds of the built-in types, and with each class that is
declared goes over to the next table, holds of the table of all the classes. -/
theorem table_induction {P : TypeTable → List (HostClass String) → Prop} (builtIn : P TypeTable.builtIn [])
    (step : ∀ table past c table', P table past → declare table c = .ok table' → P table' (past ++ [c]))
    {types : List (HostClass String)} (h : Binding.table types = .ok table) : P table types := by
  -- by induction on the classes that are still to come, for all those that have been declared
  have run : ∀ (rest past : List (HostClass String)) (start : TypeTable), P start past →
      rest.foldlM declare start = .ok table → P table (past ++ rest) := by
    intro rest
    induction rest with
    | nil =>
      intro past start hstart hrest
      obtain rfl := pure_eq_ok.mp hrest
      rwa [List.append_nil]
    | cons c rest ih =>
      intro past start hstart hrest
      rw [List.foldlM_cons, bind_eq_ok] at hrest
      obtain ⟨next, hnext, hrest⟩ := hrest
      rw [List.append_cons]
      exact ih _ next (step start past c next hstart hnext) hrest
  exact run types [] _ builtIn h

/-- A type stands in the table under its own name. -/
theorem name_of_get? {types : List (HostClass String)} (h : Binding.table types = .ok table) {name : String}
    {t : ScriptType} (ht : table.get? name = some t) : t.name = name := by
  refine table_induction (P := fun table _ => ∀ name t, table.get? name = some t → t.name = name) ?_ ?_ h name t ht
  · intro name t ht
    obtain ⟨before, after, hsplit, -⟩ := List.lookup_eq_some_iff.mp ht
    have hmem : (name, t) ∈ TypeTable.builtIn := by simp [hsplit]
    obtain ⟨p, -, heq⟩ := List.mem_map.mp hmem
    obtain ⟨rfl, rfl⟩ := Prod.mk.inj heq
    exact ScriptType.name_predefined p
  · intro table _ c table' ih hdeclare name t ht
    obtain ⟨_, _, -, -, rfl⟩ := declare_eq_ok hdeclare
    rw [TypeTable.get?_declare] at ht
    split at ht
    · obtain rfl := Option.some.inj ht
      rename_i hname
      rw [ScriptType.name_host, hname]
    · exact ih name t ht

/-! ## Parts taken back -/

section Parts

/-- The recursion over the nodes of a draft goes through lists by functions of its own; these bind item by item. -/
theorem list_eq_mapM (ds : List Draft.Node) : list table ds = ds.mapM (node table) :=
  eq_mapM_of_cons (g := list table) rfl (fun _ _ => rfl) ds

theorem declarationList_eq_mapM (xs : List (Declaration Draft.Name Draft.Node)) :
    declarationList table xs = xs.mapM (declaration table .staticVariable) :=
  eq_mapM_of_cons (g := declarationList table) rfl (fun _ _ => rfl) xs

theorem parameterList_eq_mapM (xs : List (Parameter Draft.Name Draft.Node)) :
    parameterList table xs = xs.mapM (parameter table) :=
  eq_mapM_of_cons (g := parameterList table) rfl (fun _ _ => rfl) xs

theorem functionList_eq_mapM (xs : List (FunctionDef Draft.Name Draft.Node)) :
    functionList table xs = xs.mapM (function table) :=
  eq_mapM_of_cons (g := functionList table) rfl (fun _ _ => rfl) xs

/-- A block, a section or a parameter list keeps its range, and its items are bound one by one. -/
theorem items_eq_ok {α β : Type} {many : List α → Bound (List β)} {one : α → Bound β}
    (hmany : ∀ as, many as = as.mapM one) {r : Range} {as : List α} {g : Group β}
    (h : Group.mk r <$> many as = .ok g) : g.range = r ∧ List.Forall₂ (Gives one) as g.items := by
  obtain ⟨bs, hbs, rfl⟩ := map_eq_ok.mp h
  rw [hmany] at hbs
  exact ⟨rfl, mapM_eq_ok hbs⟩

theorem group_eq_ok {x : Group Draft.Node} {g : Group Node} (h : group table x = .ok g) :
    g.range = x.range ∧ List.Forall₂ (Gives (node table)) x.items g.items := by
  obtain ⟨r, ds⟩ := x
  exact items_eq_ok list_eq_mapM h

theorem statics_eq_ok {x : Group (Declaration Draft.Name Draft.Node)} {g : Group (Declaration NameRef Node)}
    (h : statics table x = .ok g) :
    g.range = x.range ∧ List.Forall₂ (Gives (declaration table .staticVariable)) x.items g.items := by
  obtain ⟨r, xs⟩ := x
  exact items_eq_ok declarationList_eq_mapM h

theorem parameters_eq_ok {x : Group (Parameter Draft.Name Draft.Node)} {g : Group (Parameter NameRef Node)}
    (h : parameters table x = .ok g) :
    g.range = x.range ∧ List.Forall₂ (Gives (parameter table)) x.items g.items := by
  obtain ⟨r, xs⟩ := x
  exact items_eq_ok parameterList_eq_mapM h

theorem functions_eq_ok {x : Group (FunctionDef Draft.Name Draft.Node)} {g : Group (FunctionDef NameRef Node)}
    (h : functions table x = .ok g) :
    g.range = x.range ∧ List.Forall₂ (Gives (function table)) x.items g.items := by
  obtain ⟨r, xs⟩ := x
  exact items_eq_ok functionList_eq_mapM h

/-- A node that may be left out is there after binding exactly if it was there before. -/
theorem option_eq_ok {o : Option Draft.Node} {o' : Option Node} (h : option table o = .ok o') :
    List.Forall₂ (Gives (node table)) o.toList o'.toList := by
  cases o with
  | none =>
    obtain rfl := Except.ok.inj h
    exact .nil
  | some d =>
    obtain ⟨n, hn, rfl⟩ := map_eq_ok.mp h
    exact .cons hn .nil

/-- **Declarations.** The variable has the type of the type node, or without one that of the value it starts with. -/
theorem declaration_eq_ok {kind : ValueKind} {x : Declaration Draft.Name Draft.Node} {d : Declaration NameRef Node}
    (h : declaration table kind x = .ok d) :
    d.range = x.range ∧ option table x.typeNode = .ok d.typeNode ∧ option table x.initializer = .ok d.initializer ∧
      name table x.name (declared kind x.name.name
        ((d.typeNode.bind Node.type?).or (d.initializer.bind Node.type?))) = .ok d.name := by
  obtain ⟨r, t, m, i⟩ := x
  obtain ⟨typeNode, ht, h⟩ := bind_eq_ok.mp h
  obtain ⟨_, hi, h⟩ := bind_eq_ok.mp h
  obtain ⟨initializer, hexpr, h⟩ := bind_eq_ok.mp h
  obtain ⟨ref, href, h⟩ := bind_eq_ok.mp h
  obtain rfl := pure_eq_ok.mp h
  obtain rfl := mapM_asExpression hexpr
  exact ⟨rfl, ht, hi, href⟩

/-- **Parameters** have a type node with a type, and it is the type of their symbol. -/
theorem parameter_eq_ok {x : Parameter Draft.Name Draft.Node} {p : Parameter NameRef Node}
    (h : parameter table x = .ok p) :
    p.range = x.range ∧ p.byRef = x.byRef ∧ node table x.typeNode = .ok p.typeNode ∧ ∃ t, p.typeNode.type? = some t ∧
      name table x.name (declared (.parameter x.byRef) x.name.name (some t)) = .ok p.name := by
  obtain ⟨r, tn, m, b⟩ := x
  obtain ⟨typeNode, htn, h⟩ := bind_eq_ok.mp h
  obtain ⟨t, ht, h⟩ := bind_eq_ok.mp h
  obtain ⟨ref, href, h⟩ := bind_eq_ok.mp h
  obtain rfl := pure_eq_ok.mp h
  exact ⟨rfl, rfl, htn, t, asType_eq_ok_iff.mp ht, href⟩

/-- **Functions.** The symbol of a function is made of the return type and the parameters as they were bound. -/
theorem function_eq_ok {x : FunctionDef Draft.Name Draft.Node} {f : FunctionDef NameRef Node}
    (h : function table x = .ok f) :
    f.range = x.range ∧ node table x.returnType = .ok f.returnType ∧ parameters table x.parameters = .ok f.parameters ∧
      group table x.body = .ok f.body ∧ ∃ t, f.returnType.type? = some t ∧
        name table x.name (.ok (some (.function x.name.name (signature t f.parameters.items)))) = .ok f.name := by
  obtain ⟨r, tn, m, ps, b⟩ := x
  obtain ⟨returnNode, htn, h⟩ := bind_eq_ok.mp h
  obtain ⟨t, ht, h⟩ := bind_eq_ok.mp h
  obtain ⟨params, hps, h⟩ := bind_eq_ok.mp h
  obtain ⟨ref, href, h⟩ := bind_eq_ok.mp h
  obtain ⟨body, hb, h⟩ := bind_eq_ok.mp h
  obtain rfl := pure_eq_ok.mp h
  exact ⟨rfl, htn, hps, hb, t, asType_eq_ok_iff.mp ht, href⟩

/-- **Units** are bound section by section. -/
theorem unit_eq_ok {x : CompilationUnit Draft.Name Draft.Node} {u : UnitNode} (h : unit table x = .ok u) :
    u.range = x.range ∧ statics table x.statics = .ok u.statics ∧ functions table x.functions = .ok u.functions ∧
      group table x.statements = .ok u.statements := by
  obtain ⟨r, vs, fs, ss⟩ := x
  obtain ⟨_, hvs, h⟩ := bind_eq_ok.mp h
  obtain ⟨_, hfs, h⟩ := bind_eq_ok.mp h
  obtain ⟨_, hss, h⟩ := bind_eq_ok.mp h
  obtain rfl := pure_eq_ok.mp h
  exact ⟨rfl, hvs, hfs, hss⟩

/-- In the head of a `for` loop only the condition has to be an expression. -/
theorem forLoop_eq_ok {x : ForLoop Draft.Node} {n : Node} (h : node table (.forLoop x) = .ok n) :
    ∃ l : ForLoop Node, n = .forLoop l ∧ l.range = x.range ∧ option table x.init = .ok l.init ∧
      option table x.condition = .ok l.condition ∧ option table x.update = .ok l.update ∧
      node table x.body = .ok l.body := by
  obtain ⟨r, i, c, u, b⟩ := x
  obtain ⟨_, hi, h⟩ := bind_eq_ok.mp h
  obtain ⟨_, hc, h⟩ := bind_eq_ok.mp h
  obtain ⟨_, hexpr, h⟩ := bind_eq_ok.mp h
  obtain ⟨_, hu, h⟩ := bind_eq_ok.mp h
  obtain ⟨_, hb, h⟩ := bind_eq_ok.mp h
  obtain rfl := pure_eq_ok.mp h
  obtain rfl := mapM_asExpression hexpr
  exact ⟨_, rfl, rfl, hi, hc, hu, hb⟩

/-- The variable of a `foreach` loop has the type of the type node, whatever the loop goes through. -/
theorem foreachLoop_eq_ok {x : ForeachLoop Draft.Name Draft.Node} {n : Node}
    (h : node table (.foreachLoop x) = .ok n) :
    ∃ l : ForeachLoop NameRef Node, n = .foreachLoop l ∧ l.range = x.range ∧ node table x.typeNode = .ok l.typeNode ∧
      node table x.iterable = .ok l.iterable ∧ node table x.body = .ok l.body ∧ ∃ t, l.typeNode.type? = some t ∧
        name table x.name (declared .localVariable x.name.name (some t)) = .ok l.name := by
  obtain ⟨r, tn, m, i, b⟩ := x
  obtain ⟨_, htn, h⟩ := bind_eq_ok.mp h
  obtain ⟨t, ht, h⟩ := bind_eq_ok.mp h
  obtain ⟨ref, href, h⟩ := bind_eq_ok.mp h
  obtain ⟨_, hiterable, h⟩ := bind_eq_ok.mp h
  obtain ⟨_, hb, h⟩ := bind_eq_ok.mp h
  obtain rfl := pure_eq_ok.mp h
  obtain ⟨_, hi, hexpr⟩ := bind_eq_ok.mp hiterable
  obtain rfl := asExpression_eq_ok hexpr
  exact ⟨_, rfl, rfl, htn, hi, hb, t, asType_eq_ok_iff.mp ht, href⟩

theorem operation_eq_ok {k : OperationKind} {x : Group Draft.Node} {written : Option String} {n : Node}
    (h : node table (.operation k x written) = .ok n) :
    ∃ g t, n = .operation k g t ∧ group table x = .ok g ∧ type? table written = .ok t := by
  obtain ⟨g, hg, h⟩ := bind_eq_ok.mp h
  obtain ⟨t, ht, h⟩ := bind_eq_ok.mp h
  obtain rfl := pure_eq_ok.mp h
  exact ⟨g, t, rfl, hg, ht⟩

/-- A member that was found gives the access its type; only without one the written type is looked up. -/
theorem access_eq_ok {r : Range} {x : Draft.Node} {name : String} {written type : Option String} {n : Node}
    (h : node table (.access r x name written type) = .ok n) :
    ∃ a : Access Node, n = .access a ∧ a.range = r ∧ node table x = .ok a.callee ∧
      member a.callee written = .ok a.member ∧
      ((∃ p, a.member = some p ∧ a.type = some p.type) ∨ (a.member = none ∧ type? table type = .ok a.type)) := by
  obtain ⟨_, hvalue, h⟩ := bind_eq_ok.mp h
  obtain ⟨callee, hcallee, hexpr⟩ := bind_eq_ok.mp hvalue
  obtain ⟨found, hfound, hrest⟩ := bind_eq_ok.mp h
  obtain rfl := asExpression_eq_ok hexpr
  cases found with
  | some p =>
    obtain rfl := pure_eq_ok.mp hrest
    exact ⟨_, rfl, rfl, hcallee, hfound, Or.inl ⟨p, rfl, rfl⟩⟩
  | none =>
    obtain ⟨t, ht, hn⟩ := bind_eq_ok.mp hrest
    obtain rfl := pure_eq_ok.mp hn
    exact ⟨_, rfl, rfl, hcallee, hfound, Or.inr ⟨rfl, ht⟩⟩

/-- A method that was found is the first one of its name of the owner. -/
theorem method_eq_ok {r : Range} {owner name : String} {n : Node} (h : node table (.method r owner name) = .ok n) :
    ∃ t m, n = .method r t m ∧ table.get? owner = some t ∧ m.name = name ∧
      t.methods.find? (fun x => x.name == m.name) = some m := by
  obtain ⟨t, ht, hrest⟩ := bind_eq_ok.mp h
  split at hrest
  · rename_i m hm
    obtain rfl := pure_eq_ok.mp hrest
    have hname : m.name = name := by simpa using List.find?_some hm
    exact ⟨t, m, rfl, type_eq_ok_iff.mp ht, hname, by rwa [hname]⟩
  · contradiction

/-- An operator keeps the types of its operands beside that of its result. -/
theorem binary_eq_ok {r : Range} {operator type : String} {x y : Draft.Node} {n : Node}
    (h : node table (.binary r operator type x y) = .ok n) :
    ∃ left right op, n = .binary r left right op ∧ node table x = .ok left ∧ node table y = .ok right ∧
      left.type? = some op.left ∧ right.type? = some op.right ∧ table.get? type = some op.result := by
  obtain ⟨_, hl, h⟩ := bind_eq_ok.mp h
  obtain ⟨_, hr, h⟩ := bind_eq_ok.mp h
  obtain ⟨ts, hts, h⟩ := bind_eq_ok.mp h
  obtain ⟨result, hresult, h⟩ := bind_eq_ok.mp h
  obtain rfl := pure_eq_ok.mp h
  obtain ⟨left, hleft, hlexpr⟩ := bind_eq_ok.mp hl
  obtain ⟨right, hright, hrexpr⟩ := bind_eq_ok.mp hr
  obtain rfl := asExpression_eq_ok hlexpr
  obtain rfl := asExpression_eq_ok hrexpr
  obtain ⟨hl, hr⟩ := operandTypes_eq_ok hts
  exact ⟨_, _, _, rfl, hleft, hright, hl, hr, type_eq_ok_iff.mp hresult⟩

theorem typeName_eq_ok {r : Range} {type : String} {n : Node} (h : node table (.typeName r type) = .ok n) :
    ∃ t, n = .typeName r t ∧ table.get? type = some t := by
  obtain ⟨t, ht, rfl⟩ := map_eq_ok.mp h
  exact ⟨t, rfl, type_eq_ok_iff.mp ht⟩

end Parts

/-! ## Nodes -/

/-- The kind of variable that a declaration gives inside a node. -/
def declaredIn : NodeKind → ValueKind
  | .staticVariablesList => .staticVariable
  | _ => .localVariable

/-- **Bound where it stands.** A node is what a draft is bound as, in a place where declarations give variables of some
kind. -/
inductive Binds (table : TypeTable) (kind : ValueKind) : Draft.Node → Node → Prop where
  | node {d : Draft.Node} {n : Node} (hd : d.kind ≠ .variableDeclaration) (h : node table d = .ok n) :
      Binds table kind d n
  | declaration {x : Declaration Draft.Name Draft.Node} {d : Declaration NameRef Node}
      (h : declaration table kind x = .ok d) : Binds table kind (.declaration x) (.declaration d)
  /-- The symbol of a name that is being declared comes from around it. -/
  | name {m : Draft.Name} {ref : NameRef} {place : Bound (Option Symbol)} (h : name table m place = .ok ref) :
      Binds table kind (.name m) (.name ref)

/-- What is bound as a node stands where declarations give local variables. -/
theorem binds_of_node {d : Draft.Node} {n : Node} (h : Gives (node table) d n) : Binds table .localVariable d n := by
  cases d with
  | declaration x =>
    obtain ⟨d, hd, rfl⟩ := map_eq_ok.mp h
    exact .declaration hd
  | _ => exact .node (by simp [Draft.Node.kind]) h

theorem binds_of_nodes {ds : List Draft.Node} {ns : List Node} (h : List.Forall₂ (Gives (node table)) ds ns) :
    List.Forall₂ (Binds table .localVariable) ds ns := h.imp fun _ _ => binds_of_node

/-- A section counts in a draft exactly if it counts in what is bound. -/
theorem binds_section {α β : Type} {kind : ValueKind} {given : α → β → Prop} {wrap : Group α → Draft.Node}
    {wrap' : Group β → Node} {x : Group α} {g : Group β} (hitems : List.Forall₂ given x.items g.items)
    (h : Binds table kind (wrap x) (wrap' g)) :
    List.Forall₂ (Binds table kind) (Draft.Node.sectionPart wrap x) (Node.sectionNode wrap' g) := by
  have hempty : x.items.isEmpty = g.items.isEmpty := by
    rw [Bool.eq_iff_iff, List.isEmpty_iff_length_eq_zero, List.isEmpty_iff_length_eq_zero, hitems.length_eq]
  rw [Draft.Node.sectionPart, Node.sectionNode, hempty]
  cases g.items.isEmpty with
  | true => exact .nil
  | false => exact .cons h .nil

/-- **The shape of a draft.** What it is bound as has the same kind and range, and its children are what the parts are
bound as. -/
structure Shaped (table : TypeTable) (d : Draft.Node) (n : Node) : Prop where
  kind : n.kind = d.kind
  range : n.range = d.range
  children : List.Forall₂ (Binds table (declaredIn n.kind)) d.parts n.children

theorem shaped_declaration {kind : ValueKind} {x : Declaration Draft.Name Draft.Node} {d : Declaration NameRef Node}
    (h : declaration table kind x = .ok d) : Shaped table (.declaration x) (.declaration d) := by
  obtain ⟨hr, ht, hi, hm⟩ := declaration_eq_ok h
  exact ⟨rfl, hr, List.rel_append (binds_of_nodes (option_eq_ok ht))
    (.cons (.name hm) (binds_of_nodes (option_eq_ok hi)))⟩

theorem shaped_parameter {x : Parameter Draft.Name Draft.Node} {p : Parameter NameRef Node}
    (h : parameter table x = .ok p) : Shaped table (.parameter x) (.parameter p) := by
  obtain ⟨hr, -, ht, _, -, hm⟩ := parameter_eq_ok h
  exact ⟨rfl, hr, .cons (binds_of_node ht) (.cons (.name hm) .nil)⟩

/-- **Binding keeps the shape of a draft**, one case for each sort of node. -/
theorem shaped_of_binds {kind : ValueKind} {d : Draft.Node} {n : Node} (h : Binds table kind d n) :
    Shaped table d n := by
  cases h with
  | declaration h => exact shaped_declaration h
  | name h =>
    obtain ⟨hr, -⟩ := name_eq_ok h
    exact ⟨rfl, hr, .nil⟩
  | node _ h =>
    cases d with
    | literal r k =>
      obtain rfl := Except.ok.inj h
      exact ⟨rfl, rfl, .nil⟩
    | plain k x =>
      obtain ⟨g, hg, rfl⟩ := map_eq_ok.mp h
      obtain ⟨hr, hitems⟩ := group_eq_ok hg
      exact ⟨rfl, hr, binds_of_nodes hitems⟩
    | operation k x written =>
      obtain ⟨g, t, rfl, hg, -⟩ := operation_eq_ok h
      obtain ⟨hr, hitems⟩ := group_eq_ok hg
      exact ⟨rfl, hr, binds_of_nodes hitems⟩
    | name m =>
      obtain ⟨ref, href, rfl⟩ := map_eq_ok.mp h
      obtain ⟨hr, -⟩ := name_eq_ok href
      exact ⟨rfl, hr, .nil⟩
    | access r x name written type =>
      obtain ⟨a, rfl, hr, hx, -⟩ := access_eq_ok h
      exact ⟨rfl, hr, .cons (binds_of_node hx) .nil⟩
    | method r owner name =>
      obtain ⟨t, m, rfl, -⟩ := method_eq_ok h
      exact ⟨rfl, rfl, .nil⟩
    | binary r operator type x y =>
      obtain ⟨left, right, op, rfl, hx, hy, -⟩ := binary_eq_ok h
      exact ⟨rfl, rfl, .cons (binds_of_node hx) (.cons (binds_of_node hy) .nil)⟩
    | typeName r type =>
      obtain ⟨t, rfl, -⟩ := typeName_eq_ok h
      exact ⟨rfl, rfl, .nil⟩
    | declaration x =>
      obtain ⟨d, hd, rfl⟩ := map_eq_ok.mp h
      exact shaped_declaration hd
    | parameter x =>
      obtain ⟨p, hp, rfl⟩ := map_eq_ok.mp h
      exact shaped_parameter hp
    | parameters x =>
      obtain ⟨g, hg, rfl⟩ := map_eq_ok.mp h
      obtain ⟨hr, hitems⟩ := parameters_eq_ok hg
      refine ⟨rfl, hr, List.forall₂_map_left_iff.mpr (List.forall₂_map_right_iff.mpr (hitems.imp ?_))⟩
      intro y p hp
      exact binds_of_node (map_eq_ok.mpr ⟨p, hp, rfl⟩)
    | block x =>
      obtain ⟨g, hg, rfl⟩ := map_eq_ok.mp h
      obtain ⟨hr, hitems⟩ := group_eq_ok hg
      exact ⟨rfl, hr, binds_of_nodes hitems⟩
    | function x =>
      obtain ⟨f, hf, rfl⟩ := map_eq_ok.mp h
      obtain ⟨hr, ht, hps, hb, _, -, hm⟩ := function_eq_ok hf
      exact ⟨rfl, hr, .cons (binds_of_node ht) (.cons (.name hm)
        (.cons (binds_of_node (map_eq_ok.mpr ⟨_, hps, rfl⟩))
          (.cons (binds_of_node (map_eq_ok.mpr ⟨_, hb, rfl⟩)) .nil)))⟩
    | forLoop x =>
      obtain ⟨l, rfl, hr, hi, hc, hu, hb⟩ := forLoop_eq_ok h
      exact ⟨rfl, hr, List.rel_append (binds_of_nodes (option_eq_ok hi)) (List.rel_append
        (binds_of_nodes (option_eq_ok hc)) (List.rel_append (binds_of_nodes (option_eq_ok hu))
          (.cons (binds_of_node hb) .nil)))⟩
    | foreachLoop x =>
      obtain ⟨l, rfl, hr, ht, hi, hb, _, -, hm⟩ := foreachLoop_eq_ok h
      exact ⟨rfl, hr, .cons (binds_of_node ht) (.cons (.name hm)
        (.cons (binds_of_node hi) (.cons (binds_of_node hb) .nil)))⟩
    | statics x =>
      obtain ⟨g, hg, rfl⟩ := map_eq_ok.mp h
      obtain ⟨hr, hitems⟩ := statics_eq_ok hg
      refine ⟨rfl, hr, List.forall₂_map_left_iff.mpr (List.forall₂_map_right_iff.mpr (hitems.imp ?_))⟩
      -- the one place where declarations are bound as static ones
      intro y d hd
      exact .declaration hd
    | functions x =>
      obtain ⟨g, hg, rfl⟩ := map_eq_ok.mp h
      obtain ⟨hr, hitems⟩ := functions_eq_ok hg
      refine ⟨rfl, hr, List.forall₂_map_left_iff.mpr (List.forall₂_map_right_iff.mpr (hitems.imp ?_))⟩
      intro y f hf
      exact binds_of_node (map_eq_ok.mpr ⟨f, hf, rfl⟩)
    | unit x =>
      obtain ⟨u, hu, rfl⟩ := map_eq_ok.mp h
      obtain ⟨hr, hvs, hfs, hss⟩ := unit_eq_ok hu
      refine ⟨rfl, hr, List.rel_append ?_ (List.rel_append ?_ ?_)⟩
      · exact binds_section (statics_eq_ok hvs).2 (binds_of_node (map_eq_ok.mpr ⟨_, hvs, rfl⟩))
      · exact binds_section (functions_eq_ok hfs).2 (binds_of_node (map_eq_ok.mpr ⟨_, hfs, rfl⟩))
      · exact binds_section (group_eq_ok hss).2 (binds_of_node (map_eq_ok.mpr ⟨_, hss, rfl⟩))

end Binding
end Caret
