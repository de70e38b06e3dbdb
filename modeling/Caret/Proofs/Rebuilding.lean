import Caret.Proofs.Likeness
import Mathlib.Data.List.Forall2
/-!
# `Caret.Proofs.Rebuilding` — a node with other children

Each sort of node keeps its children in parts of its own: lists, optional parts, parts of a fixed kind. `withChildren`
fills these parts from a list of children again, in the order in which `children` lists them.

A child may be exchanged for another one that looks the same from outside (`Kept`): its kind, range and type, the
symbols that it declares, and how many children it has. Then the node around it looks the same from outside too, and
on the way to any position the same is read of it. This is where every sort of node is gone through once
(`rebuilt`); what follows about whole trees only uses `Rebuilt`.

## Contents
- **Other children.** `withChildren`, by way of `refill` and `refillSection`.
- **The outside of a node.** `exposed`, `Kept`, and what a kept node must be: `of_name`, `of_declaration`, …
- **Rebuilding.** `Rebuilt`, one lemma for each sort of node, `HoldsItems` for those that only hold items, and
  `rebuilt`.
-/

namespace Caret
namespace Node

/-! ## Other children -/

/-- The next child for an optional part, if that is there, and the children that are left. -/
def refill (part : Option Node) (cs : List Node) : Option Node × List Node :=
  match part, cs with
  | some _, c :: rest => (some c, rest)
  | _, _ => (part, cs)

/-- The next child for a section, if that has items, and the children that are left. -/
def refillSection {α : Type} (view : Node → Option (Group α)) (g : Group α) (cs : List Node) : Group α × List Node :=
  if g.items.isEmpty then (g, cs) else ((cs.head?.bind view).getD g, cs.tail)

/-- The parameter that a node is. -/
def parameter? : Node → Option (Parameter NameRef Node)
  | .parameter q => some q
  | _ => none

/-- The declaration that a node is. -/
def declaration? : Node → Option (Declaration NameRef Node)
  | .declaration d => some d
  | _ => none

/-- The function that a node is. -/
def function? : Node → Option (FunctionDef NameRef Node)
  | .function f => some f
  | _ => none

/-- The static section that a node is. -/
def statics? : Node → Option (Group (Declaration NameRef Node))
  | .statics g => some g
  | _ => none

/-- The function section that a node is. -/
def functions? : Node → Option (Group (FunctionDef NameRef Node))
  | .functions g => some g
  | _ => none

/-- The block that a node is. -/
def block? : Node → Option (Group Node)
  | .block g => some g
  | _ => none

/-- The node with other children: as many as it has, and of the same kind where a part has a fixed one. -/
def withChildren : Node → List Node → Node
  | .plain k g, cs => .plain k { g with items := cs }
  | .operation k g t, cs => .operation k { g with items := cs } t
  | .block g, cs => .block { g with items := cs }
  | .access a, [callee] => .access { a with callee := callee }
  | .binary r _ _ op, [left, right] => .binary r left right op
  | .declaration d, cs =>
    let type := refill d.typeNode cs
    match type.2 with
    | .name n :: rest =>
      .declaration { d with typeNode := type.1, name := n, initializer := (refill d.initializer rest).1 }
    | _ => .declaration d
  | .parameter q, [t, .name n] => .parameter { q with typeNode := t, name := n }
  | .parameters g, cs => .parameters { g with items := cs.filterMap parameter? }
  | .function f, [t, .name n, .parameters ps, .block b] =>
    .function { f with returnType := t, name := n, parameters := ps, body := b }
  | .forLoop l, cs =>
    let init := refill l.init cs
    let condition := refill l.condition init.2
    let update := refill l.update condition.2
    .forLoop { l with init := init.1, condition := condition.1, update := update.1, body := update.2.headD l.body }
  | .foreachLoop l, [t, .name n, e, b] => .foreachLoop { l with typeNode := t, name := n, iterable := e, body := b }
  | .statics g, cs => .statics { g with items := cs.filterMap declaration? }
  | .functions g, cs => .functions { g with items := cs.filterMap function? }
  | .unit u, cs =>
    let statics := refillSection statics? u.statics cs
    let functions := refillSection functions? u.functions statics.2
    let statements := refillSection block? u.statements functions.2
    .unit { u with statics := statics.1, functions := functions.1, statements := statements.1 }
  | n, _ => n

/-! ## The outside of a node -/

/-- The symbol that a statement declares. -/
def declares : Node → Option Symbol
  | .declaration d => d.name.symbol
  | _ => none

/-- Only a declaration declares something to the block around it. -/
theorem declares_eq_none {n : Node} (h : n.kind ≠ .variableDeclaration) : n.declares = none := by
  cases n with
  | declaration d => exact absurd rfl h
  | _ => rfl

/-- What a block reads of a statement. -/
def entry (n : Node) : Range × Option Symbol := (n.range, n.declares)

/-- What a node shows to those around it: the ranges and symbols of what it declares, run by run. -/
def exposed : Node → List (List (Range × Option Symbol))
  | .name n => [[(n.range, n.symbol)]]
  | .declaration d => [[(d.range, d.name.symbol)]]
  | .parameter q => [[(q.range, q.name.symbol)]]
  | .function f => [[(f.range, f.name.symbol)]]
  | .parameters g => [g.items.map fun q => (q.range, q.name.symbol)]
  | .statics g => [g.items.map fun d => (d.range, d.name.symbol)]
  | .functions g => [g.items.map fun f => (f.range, f.name.symbol)]
  | .block g => [g.items.map entry]
  | .unit u =>
    [u.statics.items.map fun d => (d.range, d.name.symbol), u.functions.items.map fun f => (f.range, f.name.symbol),
     u.statements.items.map entry]
  | _ => []

/-- **The outside of a node.** What is read of a node by those around it is the same. -/
structure Kept (n n' : Node) : Prop where
  kind : n'.kind = n.kind
  range : n'.range = n.range
  type : n'.type? = n.type?
  exposed : n'.exposed = n.exposed
  size : n'.children.length = n.children.length

namespace Kept

variable {c c' : Node}

theorem refl (n : Node) : n.Kept n := ⟨rfl, rfl, rfl, rfl, rfl⟩

/-- What shows the same to the outside is a node of the same sort. Where it shows a symbol, the symbol is the same. -/
theorem of_name {n : NameRef} (h : (Node.name n).Kept c) :
    ∃ n', c = .name n' ∧ n'.range = n.range ∧ n'.symbol = n.symbol := by
  cases c with
  | name n' => exact ⟨n', rfl, by simpa [Node.exposed] using h.exposed⟩
  | _ => cases h.kind

theorem of_declaration {d : Declaration NameRef Node} (h : (Node.declaration d).Kept c) :
    ∃ d', c = .declaration d' ∧ (d'.range, d'.name.symbol) = (d.range, d.name.symbol) := by
  cases c with
  | declaration d' => exact ⟨d', rfl, by simpa [Node.exposed] using h.exposed⟩
  | _ => cases h.kind

theorem of_parameter {q : Parameter NameRef Node} (h : (Node.parameter q).Kept c) :
    ∃ q', c = .parameter q' ∧ (q'.range, q'.name.symbol) = (q.range, q.name.symbol) := by
  cases c with
  | parameter q' => exact ⟨q', rfl, by simpa [Node.exposed] using h.exposed⟩
  | _ => cases h.kind

theorem of_function {f : FunctionDef NameRef Node} (h : (Node.function f).Kept c) :
    ∃ f', c = .function f' ∧ (f'.range, f'.name.symbol) = (f.range, f.name.symbol) := by
  cases c with
  | function f' => exact ⟨f', rfl, by simpa [Node.exposed] using h.exposed⟩
  | _ => cases h.kind

/-- Of a node that holds items, the sort is all that is needed. -/
theorem of_parameters {g : Group (Parameter NameRef Node)} (h : (Node.parameters g).Kept c) :
    ∃ g', c = .parameters g' := by
  cases c with
  | parameters g' => exact ⟨g', rfl⟩
  | _ => cases h.kind

theorem of_statics {g : Group (Declaration NameRef Node)} (h : (Node.statics g).Kept c) : ∃ g', c = .statics g' := by
  cases c with
  | statics g' => exact ⟨g', rfl⟩
  | _ => cases h.kind

theorem of_functions {g : Group (FunctionDef NameRef Node)} (h : (Node.functions g).Kept c) :
    ∃ g', c = .functions g' := by
  cases c with
  | functions g' => exact ⟨g', rfl⟩
  | _ => cases h.kind

theorem of_block {g : Group Node} (h : (Node.block g).Kept c) : ∃ g', c = .block g' := by
  cases c with
  | block g' => exact ⟨g', rfl⟩
  | _ => cases h.kind

theorem of_unit {u : UnitNode} (h : (Node.unit u).Kept c) : ∃ u', c = .unit u' := by
  cases c with
  | unit u' => exact ⟨u', rfl⟩
  | _ => cases h.kind

/-- Statements with the same outside declare the same. -/
theorem declares_eq (h : c.Kept c') : c'.declares = c.declares := by
  by_cases hd : c.kind = .variableDeclaration
  · cases c with
    | declaration d =>
      obtain ⟨d', rfl, heq⟩ := h.of_declaration
      exact (Prod.mk.inj heq).2
    | _ => cases hd
  · have hd' : c'.kind ≠ .variableDeclaration := by rwa [h.kind]
    rw [declares_eq_none hd, declares_eq_none hd']

/-- Item by item, what a block reads stays the same. -/
theorem map_entry {ns ns' : List Node} (h : List.Forall₂ Kept ns ns') : ns'.map entry = ns.map entry := by
  induction h with
  | nil => rfl
  | cons hc _ ih => rw [List.map_cons, List.map_cons, ih, entry, entry, hc.range, hc.declares_eq]

end Kept

/-- What the statements of a block declare before a position is a matter of their ranges and symbols. -/
theorem declared_priorTo_eq (ns : List Node) (p : Position) :
    declared (priorTo ns p) = (ns.map entry).filterMap fun e => if e.1.isBefore p then e.2 else none := by
  unfold declared priorTo
  rw [List.filterMap_filter, List.filterMap_map]
  rfl

/-- What is declared in a list of statements depends on their entries alone. -/
theorem declared_eq (ns : List Node) : declared ns = (ns.map entry).filterMap Prod.snd := by
  unfold declared
  rw [List.filterMap_map]
  rfl

/-! ## A node with other children -/

section Refill

variable {rest cs : List Node}

/-- A part of a node takes the child that is meant for it, and gives it back. -/
theorem refill_eq {part : Option Node} (h : List.Forall₂ Kept (part.toList ++ rest) cs) :
    ∃ part' rest', refill part cs = (part', rest') ∧ cs = part'.toList ++ rest' ∧
      List.Forall₂ Kept part.toList part'.toList ∧ List.Forall₂ Kept rest rest' ∧
      ∀ l, refill part' (part.toList ++ l) = (part, l) := by
  cases part with
  | none => exact ⟨none, cs, rfl, rfl, .nil, h, fun _ => rfl⟩
  | some n =>
    obtain ⟨c, rest', hc, hrest, rfl⟩ := List.forall₂_cons_left_iff.mp h
    exact ⟨some c, rest', rfl, rfl, .cons hc .nil, hrest, fun _ => rfl⟩

variable {α : Type} {node : Group α → Node}

/-- A section takes the child that is meant for it, if it has items, and gives it back. -/
theorem refillSection_eq (view : Node → Option (Group α)) {g : Group α} (hview : ∀ g, view (node g) = some g)
    (hkept : ∀ {c}, (node g).Kept c → ∃ g', c = node g') (hsize : ∀ g, (node g).children.length = g.items.length)
    (h : List.Forall₂ Kept (sectionNode node g ++ rest) cs) :
    ∃ g' rest', refillSection view g cs = (g', rest') ∧ cs = sectionNode node g' ++ rest' ∧ (node g).Kept (node g') ∧
      List.Forall₂ Kept rest rest' ∧ ∀ l, refillSection view g' (sectionNode node g ++ l) = (g, l) := by
  unfold refillSection
  unfold sectionNode at h ⊢
  by_cases hg : g.items.isEmpty = true
  · simp only [if_pos hg] at h ⊢
    refine ⟨g, cs, rfl, ?_, .refl _, h, ?_⟩
    · simp only [if_pos hg, List.nil_append]
    · intro l
      simp only [if_pos hg, List.nil_append]
  · simp only [if_neg hg] at h ⊢
    obtain ⟨c, rest', hc, hrest, rfl⟩ := List.forall₂_cons_left_iff.mp h
    obtain ⟨g', rfl⟩ := hkept hc
    have hlength : g'.items.length = g.items.length := by rw [← hsize, ← hsize, hc.size]
    have hg' : ¬ g'.items.isEmpty = true := by
      rwa [List.isEmpty_iff_length_eq_zero, hlength, ← List.isEmpty_iff_length_eq_zero]
    refine ⟨g', rest', ?_, ?_, hc, hrest, ?_⟩
    · simp [hview]
    · simp only [if_neg hg', List.singleton_append]
    · intro l
      simp only [if_neg hg']
      simp [hview]

end Refill

/-- **A node with other children** has these, gets its own back, and looks the same from outside and on the way to any
position. -/
structure Rebuilt (n : Node) (cs : List Node) : Prop where
  children : (n.withChildren cs).children = cs
  undo : (n.withChildren cs).withChildren n.children = n
  kept : n.Kept (n.withChildren cs)
  alike : ∀ p, n.Alike p (n.withChildren cs)

/-- It is enough to know the rebuilt node: that it has the new children, shows the same and looks alike. -/
theorem rebuilt_of_eq {n m : Node} {cs : List Node} (hnew : n.withChildren cs = m) (hchildren : m.children = cs)
    (hold : m.withChildren n.children = n) (hkept : n.Kept m) (halike : ∀ p, n.Alike p m) : n.Rebuilt cs := by
  subst hnew
  exact ⟨hchildren, hold, hkept, halike⟩

/-- With its own children a node is rebuilt as itself. -/
theorem rebuilt_self {n : Node} (h : n.withChildren n.children = n) : n.Rebuilt n.children :=
  rebuilt_of_eq h rfl h (.refl n) fun _ => .refl n

/-- Of its statements a block only reads the entries, so they need not be kept for more. -/
theorem rebuilt_block {g : Group Node} {cs : List Node} (h : cs.map entry = g.items.map entry) :
    (Node.block g).Rebuilt cs := by
  have hlength := congrArg List.length h
  rw [List.length_map, List.length_map] at hlength
  refine ⟨rfl, rfl, ⟨rfl, rfl, rfl, ?_, hlength⟩, fun p => ⟨rfl, rfl, ?_, rfl, rfl, rfl⟩⟩
  · show [cs.map entry] = [g.items.map entry]
    rw [h]
  · show declared (priorTo cs p) = declared (priorTo g.items p)
    rw [declared_priorTo_eq, declared_priorTo_eq, h]

/-- The name is the only child that is read by those around a declaration. -/
theorem rebuilt_declaration {d : Declaration NameRef Node} {cs : List Node}
    (h : List.Forall₂ Kept (Node.declaration d).children cs) : (Node.declaration d).Rebuilt cs := by
  have hsize := h.length_eq.symm
  -- the parts are taken off the list one by one, the type and the initializer only if they are there
  obtain ⟨type, rest, htype, rfl, -, hrest, htype'⟩ := refill_eq h
  obtain ⟨c, tail, hc, htail, rfl⟩ := List.forall₂_cons_left_iff.mp hrest
  obtain ⟨n, rfl, hrange, hsymbol⟩ := hc.of_name
  rw [← List.append_nil d.initializer.toList] at htail
  obtain ⟨initializer, last, hinit, rfl, -, hlast, hinit'⟩ := refill_eq htail
  cases hlast
  have hnew : (Node.declaration d).withChildren (type.toList ++ .name n :: (initializer.toList ++ [])) =
      .declaration ⟨d.range, type, n, initializer⟩ := by
    simp only [withChildren, htype, hinit]
  have hold : (Node.declaration ⟨d.range, type, n, initializer⟩).withChildren (Node.declaration d).children =
      .declaration d := by
    have hnil := hinit' []
    rw [List.append_nil] at hnil
    simp only [withChildren, children, htype', hnil]
  have hchildren : (Node.declaration ⟨d.range, type, n, initializer⟩).children =
      type.toList ++ .name n :: (initializer.toList ++ []) := by
    rw [List.append_nil]
    rfl
  refine rebuilt_of_eq hnew hchildren hold ⟨rfl, rfl, rfl, ?_, by rw [hchildren, hsize]⟩
    fun p => ⟨rfl, rfl, rfl, rfl, ?_, rfl⟩
  · show [[(d.range, n.symbol)]] = [[(d.range, d.name.symbol)]]
    rw [hsymbol]
  · show n.range.isBefore p = d.name.range.isBefore p
    rw [hrange]

/-- The symbol of a function is that of its name, and its parameters are read by the body. -/
theorem rebuilt_function {f : FunctionDef NameRef Node} {cs : List Node}
    (h : List.Forall₂ Kept (Node.function f).children cs) : (Node.function f).Rebuilt cs := by
  obtain ⟨t, cs₁, -, h₁, rfl⟩ := List.forall₂_cons_left_iff.mp h
  obtain ⟨c, cs₂, hname, h₂, rfl⟩ := List.forall₂_cons_left_iff.mp h₁
  obtain ⟨d, cs₃, hparameters, h₃, rfl⟩ := List.forall₂_cons_left_iff.mp h₂
  obtain ⟨e, cs₄, hbody, h₄, rfl⟩ := List.forall₂_cons_left_iff.mp h₃
  cases h₄
  obtain ⟨n, rfl, -, hsymbol⟩ := hname.of_name
  obtain ⟨ps, rfl⟩ := hparameters.of_parameters
  obtain ⟨b, rfl⟩ := hbody.of_block
  refine ⟨rfl, rfl, ⟨rfl, rfl, rfl, ?_, rfl⟩, fun p => ⟨rfl, rfl, ?_, rfl, rfl, rfl⟩⟩
  · show [[(f.range, n.symbol)]] = [[(f.range, f.name.symbol)]]
    rw [hsymbol]
  · -- the parameters are two levels down, so their symbols are among what their list exposes
    have hrange : b.range = f.body.range := hbody.range
    have hsymbols : ps.items.filterMap (fun q => q.name.symbol) =
        f.parameters.items.filterMap fun q => q.name.symbol := by
      have hentries := congrArg (List.filterMap Prod.snd) (List.cons.inj hparameters.exposed).1
      rwa [List.filterMap_map, List.filterMap_map] at hentries
    show (if b.range.contains p then ps.items.filterMap fun q => q.name.symbol else []) =
      if f.body.range.contains p then f.parameters.items.filterMap fun q => q.name.symbol else []
    rw [hrange, hsymbols]

/-- The head of a `for` loop may declare a variable, which is visible in the loop. -/
theorem rebuilt_forLoop {l : ForLoop Node} {cs : List Node} (h : List.Forall₂ Kept (Node.forLoop l).children cs) :
    (Node.forLoop l).Rebuilt cs := by
  have hsize := h.length_eq.symm
  obtain ⟨init, cs₁, hinit, rfl, hkept, h₁, hinit'⟩ := refill_eq h
  obtain ⟨condition, cs₂, hcondition, rfl, -, h₂, hcondition'⟩ := refill_eq h₁
  obtain ⟨update, cs₃, hupdate, rfl, -, h₃, hupdate'⟩ := refill_eq h₂
  obtain ⟨body, cs₄, -, h₄, rfl⟩ := List.forall₂_cons_left_iff.mp h₃
  cases h₄
  have hnew : (Node.forLoop l).withChildren (init.toList ++ (condition.toList ++ (update.toList ++ [body]))) =
      .forLoop ⟨l.range, init, condition, update, body⟩ := by
    simp only [withChildren, hinit, hcondition, hupdate, List.headD_cons]
  have hold : (Node.forLoop ⟨l.range, init, condition, update, body⟩).withChildren (Node.forLoop l).children =
      .forLoop l := by
    simp only [withChildren, children, hinit', hcondition', hupdate', List.headD_cons]
  refine rebuilt_of_eq hnew rfl hold ⟨rfl, rfl, rfl, rfl, hsize⟩ fun p => ⟨rfl, rfl, ?_, rfl, rfl, rfl⟩
  -- only the first part in the head declares anything
  rw [locals_eq, locals_eq]
  show declared (priorTo init.toList p) ++ [] = declared (priorTo l.init.toList p) ++ []
  rw [declared_priorTo_eq, declared_priorTo_eq, Kept.map_entry hkept]

/-- The variable of a `foreach` loop is visible in its body. -/
theorem rebuilt_foreachLoop {l : ForeachLoop NameRef Node} {cs : List Node}
    (h : List.Forall₂ Kept (Node.foreachLoop l).children cs) : (Node.foreachLoop l).Rebuilt cs := by
  obtain ⟨t, cs₁, -, h₁, rfl⟩ := List.forall₂_cons_left_iff.mp h
  obtain ⟨c, cs₂, hname, h₂, rfl⟩ := List.forall₂_cons_left_iff.mp h₁
  obtain ⟨e, cs₃, -, h₃, rfl⟩ := List.forall₂_cons_left_iff.mp h₂
  obtain ⟨b, cs₄, hbody, h₄, rfl⟩ := List.forall₂_cons_left_iff.mp h₃
  cases h₄
  obtain ⟨n, rfl, -, hsymbol⟩ := hname.of_name
  refine ⟨rfl, rfl, ⟨rfl, rfl, rfl, rfl, rfl⟩, fun p => ⟨rfl, rfl, ?_, rfl, rfl, rfl⟩⟩
  show (if b.range.contains p then n.symbol.toList else []) =
    if l.body.range.contains p then l.name.symbol.toList else []
  rw [hbody.range, hsymbol]

/-- **Nodes that hold items of one sort.** The children are made from the items, and nothing but the entries of
these is read of the node. -/
structure HoldsItems {α : Type} (holds : Group α → Node) (node : α → Node) (view : Node → Option α)
    (entry : α → Range × Option Symbol) : Prop where
  view_node : ∀ a, view (node a) = some a
  kept : ∀ {a c}, (node a).Kept c → ∃ b, c = node b ∧ entry b = entry a
  children : ∀ g, (holds g).children = g.items.map node
  withChildren : ∀ g cs, (holds g).withChildren cs = holds ⟨g.range, cs.filterMap view⟩
  type : ∀ g, (holds g).type? = none
  exposed : ∀ g, (holds g).exposed = [g.items.map entry]
  alike : ∀ g items p, (holds g).Alike p (holds ⟨g.range, items⟩)

theorem holdsItems_parameters :
    HoldsItems .parameters .parameter parameter? fun q => (q.range, q.name.symbol) where
  view_node _ := rfl
  kept := Kept.of_parameter
  children _ := rfl
  withChildren _ _ := rfl
  type _ := rfl
  exposed _ := rfl
  alike _ _ _ := ⟨rfl, rfl, rfl, rfl, rfl, rfl⟩

theorem holdsItems_statics : HoldsItems .statics .declaration declaration? fun d => (d.range, d.name.symbol) where
  view_node _ := rfl
  kept := Kept.of_declaration
  children _ := rfl
  withChildren _ _ := rfl
  type _ := rfl
  exposed _ := rfl
  alike _ _ _ := ⟨rfl, rfl, rfl, rfl, rfl, rfl⟩

theorem holdsItems_functions : HoldsItems .functions .function function? fun f => (f.range, f.name.symbol) where
  view_node _ := rfl
  kept := Kept.of_function
  children _ := rfl
  withChildren _ _ := rfl
  type _ := rfl
  exposed _ := rfl
  alike _ _ _ := ⟨rfl, rfl, rfl, rfl, rfl, rfl⟩

namespace HoldsItems

variable {α : Type} {holds : Group α → Node} {node : α → Node} {view : Node → Option α}
  {entry : α → Range × Option Symbol}

/-- Where all children are kept, so are the items that they are made from. -/
theorem exists_items (h : HoldsItems holds node view entry) {as : List α} {cs : List Node}
    (hcs : List.Forall₂ Kept (as.map node) cs) : ∃ bs : List α, cs = bs.map node ∧ bs.map entry = as.map entry := by
  induction as generalizing cs with
  | nil =>
    cases hcs
    exact ⟨[], rfl, rfl⟩
  | cons a as ih =>
    obtain ⟨c, rest, hc, hrest, rfl⟩ := List.forall₂_cons_left_iff.mp hcs
    obtain ⟨b, rfl, hb⟩ := h.kept hc
    obtain ⟨bs, rfl, hbs⟩ := ih hrest
    exact ⟨b :: bs, rfl, by rw [List.map_cons, List.map_cons, hb, hbs]⟩

/-- New items are put in place of the old ones, and the range stays. -/
theorem withChildren_map (h : HoldsItems holds node view entry) (g : Group α) (as : List α) :
    (holds g).withChildren (as.map node) = holds ⟨g.range, as⟩ := by
  have hsome : view ∘ node = some := funext h.view_node
  rw [h.withChildren, List.filterMap_map, hsome, List.filterMap_some]

/-- **Any node that holds items can be rebuilt**, whichever sort of items it holds. -/
theorem rebuilt (h : HoldsItems holds node view entry) {g : Group α} {cs : List Node}
    (hcs : List.Forall₂ Kept (holds g).children cs) : (holds g).Rebuilt cs := by
  have hsize := hcs.length_eq.symm
  rw [h.children] at hcs
  obtain ⟨bs, rfl, hbs⟩ := h.exists_items hcs
  have hold : (holds ⟨g.range, bs⟩).withChildren (holds g).children = holds g := by
    rw [h.children, h.withChildren_map]
  -- kind and range are the same at every position, so any one will do
  have hout := h.alike g bs ⟨0, 0⟩
  refine rebuilt_of_eq (h.withChildren_map g bs) (h.children _) hold
    ⟨hout.kind, hout.range, by rw [h.type, h.type], ?_, ?_⟩ (h.alike g bs)
  · rw [h.exposed, h.exposed, hbs]
  · rw [← hsize, h.children]

end HoldsItems

/-- Of a unit only the sections that are not empty are children, so the new children are found by their kinds. -/
theorem rebuilt_unit {u : UnitNode} {cs : List Node} (h : List.Forall₂ Kept (Node.unit u).children cs) :
    (Node.unit u).Rebuilt cs := by
  have hsize := h.length_eq.symm
  obtain ⟨vs, cs₁, hvs, rfl, hkv, h₁, hvs'⟩ :=
    refillSection_eq statics? (fun _ => rfl) Kept.of_statics (fun _ => List.length_map _) h
  obtain ⟨fs, cs₂, hfs, rfl, hkf, h₂, hfs'⟩ :=
    refillSection_eq functions? (fun _ => rfl) Kept.of_functions (fun _ => List.length_map _) h₁
  rw [← List.append_nil (sectionNode .block u.statements)] at h₂
  obtain ⟨ss, cs₃, hss, rfl, hks, h₃, hss'⟩ :=
    refillSection_eq block? (fun _ => rfl) Kept.of_block (fun _ => rfl) h₂
  cases h₃
  -- the new children are split into the sections that they fill
  have hnew : (Node.unit u).withChildren
      (sectionNode .statics vs ++ (sectionNode .functions fs ++ (sectionNode .block ss ++ []))) =
      .unit ⟨u.range, vs, fs, ss⟩ := by
    simp only [withChildren, hvs, hfs, hss]
  have hold : (Node.unit ⟨u.range, vs, fs, ss⟩).withChildren (Node.unit u).children = .unit u := by
    have hnil := hss' []
    rw [List.append_nil] at hnil
    simp only [withChildren, children, hvs', hfs', hnil]
  have hchildren : (Node.unit ⟨u.range, vs, fs, ss⟩).children =
      sectionNode .statics vs ++ (sectionNode .functions fs ++ (sectionNode .block ss ++ [])) := by
    rw [List.append_nil]
    rfl
  refine rebuilt_of_eq hnew hchildren hold ⟨rfl, rfl, rfl, ?_, by rw [hchildren, hsize]⟩
    fun p => ⟨rfl, rfl, rfl, rfl, rfl, rfl⟩
  have hstatics := (List.cons.inj hkv.exposed).1
  have hfunctions := (List.cons.inj hkf.exposed).1
  have hstatements := (List.cons.inj hks.exposed).1
  simp only [exposed, hstatics, hfunctions, hstatements]

/-- **Every node can be rebuilt** from children that are kept. -/
theorem rebuilt {n : Node} {cs : List Node} (h : List.Forall₂ Kept n.children cs) : n.Rebuilt cs := by
  have hsize := h.length_eq.symm
  cases n with
  | literal r k =>
    cases h
    exact rebuilt_self rfl
  | name n =>
    cases h
    exact rebuilt_self rfl
  | method r o m =>
    cases h
    exact rebuilt_self rfl
  | typeName r t =>
    cases h
    exact rebuilt_self rfl
  | plain k g => exact ⟨rfl, rfl, ⟨rfl, rfl, rfl, rfl, hsize⟩, fun p => ⟨rfl, rfl, rfl, rfl, rfl, rfl⟩⟩
  | operation k g t => exact ⟨rfl, rfl, ⟨rfl, rfl, rfl, rfl, hsize⟩, fun p => ⟨rfl, rfl, rfl, rfl, rfl, rfl⟩⟩
  | block g => exact rebuilt_block (Kept.map_entry h)
  | access a =>
    obtain ⟨c, cs₁, hc, h₁, rfl⟩ := List.forall₂_cons_left_iff.mp h
    cases h₁
    refine ⟨rfl, rfl, ⟨rfl, rfl, rfl, rfl, rfl⟩, fun p => ⟨rfl, rfl, rfl, rfl, rfl, ?_⟩⟩
    show some (a.name, a.member, c.type?) = some (a.name, a.member, a.callee.type?)
    rw [hc.type]
  | binary r left right op =>
    obtain ⟨left', cs₁, -, h₁, rfl⟩ := List.forall₂_cons_left_iff.mp h
    obtain ⟨right', cs₂, -, h₂, rfl⟩ := List.forall₂_cons_left_iff.mp h₁
    cases h₂
    exact ⟨rfl, rfl, ⟨rfl, rfl, rfl, rfl, rfl⟩, fun p => ⟨rfl, rfl, rfl, rfl, rfl, rfl⟩⟩
  | declaration d => exact rebuilt_declaration h
  | parameter q =>
    obtain ⟨t, cs₁, -, h₁, rfl⟩ := List.forall₂_cons_left_iff.mp h
    obtain ⟨c, cs₂, hc, h₂, rfl⟩ := List.forall₂_cons_left_iff.mp h₁
    obtain ⟨n, rfl, -, hsymbol⟩ := hc.of_name
    cases h₂
    refine ⟨rfl, rfl, ⟨rfl, rfl, rfl, ?_, rfl⟩, fun p => ⟨rfl, rfl, rfl, rfl, rfl, rfl⟩⟩
    show [[(q.range, n.symbol)]] = [[(q.range, q.name.symbol)]]
    rw [hsymbol]
  | parameters g => exact holdsItems_parameters.rebuilt h
  | function f => exact rebuilt_function h
  | forLoop l => exact rebuilt_forLoop h
  | foreachLoop l => exact rebuilt_foreachLoop h
  | statics g => exact holdsItems_statics.rebuilt h
  | functions g => exact holdsItems_functions.rebuilt h
  | unit u => exact rebuilt_unit h

end Node
end Caret
