import Caret.Hover
import Caret.Proofs.Lists
import Caret.Proofs.Order
import Caret.Tree.Placement
import Caret.Tree.Trail
import Mathlib.Order.Lattice
import Mathlib.Order.Monotone.Basic
/-!
# `Caret.Proofs.Relocation` — a tree with all its positions moved

A relocation moves positions and keeps their strict order, as a change of the first line and column does. Applied to
both ends of every range it gives the moved tree, which is defined by recursion over the whole tree: also the ranges
of names and of empty sections are moved, although these are no children.

All that is read of a tree are kinds, types, symbols and comparisons of positions. A relocation keeps each comparison
(`Range.contains_moved` and its like), so every view of a moved node is the moved view of the node. The descent to a
position and the check of the placement then commute with the relocation, by induction on the tree.

## Contents
- **Positions.** `Relocation`, `lt_iff`, `le_iff`, `Relocation.shift`.
- **Trees.** `Node.moved`, and the views of a moved node: `kind_moved`, `range_moved`, `children_moved`, …
- **Placement.** `misplaced?_moved`.
- **The descent.** `childAt?_moved`, `resolve_moved`, `hover_moved`.
-/

namespace Caret

/-! ## Positions -/

/-- **Relocations.** A map of positions that keeps their strict order. -/
structure Relocation where
  toFun : Position → Position
  strictMono : ∀ {p q : Position}, p < q → toFun p < toFun q

instance : CoeFun Relocation fun _ => Position → Position := ⟨Relocation.toFun⟩

namespace Relocation

variable (m : Relocation) {p q : Position}

theorem strictMono_toFun : StrictMono m.toFun := fun _ _ h => m.strictMono h

/-- The order is linear, so a relocation also reflects it. -/
theorem le_iff : m p ≤ m q ↔ p ≤ q := m.strictMono_toFun.le_iff_le

theorem lt_iff : m p < m q ↔ p < q := m.strictMono_toFun.lt_iff_lt

/-- All positions are moved by the same numbers of lines and columns. -/
def shift (lines columns : Int) : Relocation where
  toFun p := ⟨p.line + lines, p.column + columns⟩
  strictMono := by
    intro p q h
    rw [Position.lt_iff] at h ⊢
    simp only
    omega

end Relocation

namespace Range

/-- The range between the moved ends. -/
def moved (m : Relocation) (r : Range) : Range := ⟨m r.start, m r.stop, m.le_iff.mpr r.start_le_stop⟩

variable (m : Relocation) (r : Range) (p : Position)

@[simp] theorem start_moved : (r.moved m).start = m r.start := rfl

@[simp] theorem stop_moved : (r.moved m).stop = m r.stop := rfl

/-- Whether a position is in a range, before it or after it are comparisons with the ends. -/
@[simp] theorem contains_moved : (r.moved m).contains (m p) = r.contains p := by
  simp only [contains, start_moved, stop_moved, m.le_iff]

@[simp] theorem isBefore_moved : (r.moved m).isBefore (m p) = r.isBefore p := by
  simp only [isBefore, stop_moved, m.lt_iff]

@[simp] theorem isAfter_moved : (r.moved m).isAfter (m p) = r.isAfter p := by
  simp only [isAfter, start_moved, m.lt_iff]

end Range

/-! ## Trees -/

/-- A name in its moved range. -/
def NameRef.moved (m : Relocation) (n : NameRef) : NameRef := { n with range := n.range.moved m }

namespace Node

section Moved

variable (m : Relocation)

mutual

/-- **The moved tree**: both ends of every range in it are moved. -/
def moved : Node → Node
  | .literal r k => .literal (r.moved m) k
  | .plain k g => .plain k (movedGroup g)
  | .operation k g t => .operation k (movedGroup g) t
  | .name n => .name (n.moved m)
  | .access ⟨r, callee, n, member, t⟩ => .access ⟨r.moved m, moved callee, n, member, t⟩
  | .method r owner x => .method (r.moved m) owner x
  | .binary r left right op => .binary (r.moved m) (moved left) (moved right) op
  | .typeName r t => .typeName (r.moved m) t
  | .declaration d => .declaration (movedDeclaration d)
  | .parameter q => .parameter (movedParameter q)
  | .parameters g => .parameters (movedParameters g)
  | .block g => .block (movedGroup g)
  | .function f => .function (movedFunction f)
  | .forLoop ⟨r, i, c, u, b⟩ => .forLoop ⟨r.moved m, movedOption i, movedOption c, movedOption u, moved b⟩
  | .foreachLoop ⟨r, t, n, i, b⟩ => .foreachLoop ⟨r.moved m, moved t, n.moved m, moved i, moved b⟩
  | .statics g => .statics (movedStatics g)
  | .functions g => .functions (movedFunctions g)
  | .unit u => .unit (movedUnit u)

def movedGroup : Group Node → Group Node
  | ⟨r, ns⟩ => ⟨r.moved m, movedList ns⟩

def movedList : List Node → List Node
  | [] => []
  | n :: ns => moved n :: movedList ns

def movedOption : Option Node → Option Node
  | none => none
  | some n => some (moved n)

def movedDeclaration : Declaration NameRef Node → Declaration NameRef Node
  | ⟨r, t, n, i⟩ => ⟨r.moved m, movedOption t, n.moved m, movedOption i⟩

def movedDeclarationList : List (Declaration NameRef Node) → List (Declaration NameRef Node)
  | [] => []
  | d :: ds => movedDeclaration d :: movedDeclarationList ds

def movedStatics : Group (Declaration NameRef Node) → Group (Declaration NameRef Node)
  | ⟨r, ds⟩ => ⟨r.moved m, movedDeclarationList ds⟩

def movedParameter : Parameter NameRef Node → Parameter NameRef Node
  | ⟨r, t, n, b⟩ => ⟨r.moved m, moved t, n.moved m, b⟩

def movedParameterList : List (Parameter NameRef Node) → List (Parameter NameRef Node)
  | [] => []
  | q :: qs => movedParameter q :: movedParameterList qs

def movedParameters : Group (Parameter NameRef Node) → Group (Parameter NameRef Node)
  | ⟨r, qs⟩ => ⟨r.moved m, movedParameterList qs⟩

def movedFunction : FunctionDef NameRef Node → FunctionDef NameRef Node
  | ⟨r, t, n, qs, b⟩ => ⟨r.moved m, moved t, n.moved m, movedParameters qs, movedGroup b⟩

def movedFunctionList : List (FunctionDef NameRef Node) → List (FunctionDef NameRef Node)
  | [] => []
  | f :: fs => movedFunction f :: movedFunctionList fs

def movedFunctions : Group (FunctionDef NameRef Node) → Group (FunctionDef NameRef Node)
  | ⟨r, fs⟩ => ⟨r.moved m, movedFunctionList fs⟩

def movedUnit : UnitNode → UnitNode
  | ⟨r, vs, fs, ss⟩ => ⟨r.moved m, movedStatics vs, movedFunctions fs, movedGroup ss⟩

end

/-! The parts of a moved node are the moved parts. -/

/-- The recursion over the tree goes through lists by functions of its own; these move item by item. -/
theorem movedList_eq (ns : List Node) : movedList m ns = ns.map (moved m) :=
  eq_map_of_cons (g := movedList m) rfl (fun _ _ => rfl) ns

theorem movedDeclarationList_eq (ds : List (Declaration NameRef Node)) :
    movedDeclarationList m ds = ds.map (movedDeclaration m) :=
  eq_map_of_cons (g := movedDeclarationList m) rfl (fun _ _ => rfl) ds

theorem movedParameterList_eq (qs : List (Parameter NameRef Node)) :
    movedParameterList m qs = qs.map (movedParameter m) :=
  eq_map_of_cons (g := movedParameterList m) rfl (fun _ _ => rfl) qs

theorem movedFunctionList_eq (fs : List (FunctionDef NameRef Node)) :
    movedFunctionList m fs = fs.map (movedFunction m) :=
  eq_map_of_cons (g := movedFunctionList m) rfl (fun _ _ => rfl) fs

/-- The parts of a node, moved one by one. Everything that is no position is left alone. -/
theorem movedOption_eq (o : Option Node) : movedOption m o = o.map (moved m) := by
  cases o with
  | none => rfl
  | some n => rfl

theorem movedGroup_eq (g : Group Node) : movedGroup m g = ⟨g.range.moved m, g.items.map (moved m)⟩ := by
  obtain ⟨r, ns⟩ := g
  rw [← movedList_eq]
  rfl

theorem movedStatics_eq (g : Group (Declaration NameRef Node)) :
    movedStatics m g = ⟨g.range.moved m, g.items.map (movedDeclaration m)⟩ := by
  obtain ⟨r, ds⟩ := g
  rw [← movedDeclarationList_eq]
  rfl

theorem movedParameters_eq (g : Group (Parameter NameRef Node)) :
    movedParameters m g = ⟨g.range.moved m, g.items.map (movedParameter m)⟩ := by
  obtain ⟨r, qs⟩ := g
  rw [← movedParameterList_eq]
  rfl

theorem movedFunctions_eq (g : Group (FunctionDef NameRef Node)) :
    movedFunctions m g = ⟨g.range.moved m, g.items.map (movedFunction m)⟩ := by
  obtain ⟨r, fs⟩ := g
  rw [← movedFunctionList_eq]
  rfl

theorem movedDeclaration_eq (d : Declaration NameRef Node) :
    movedDeclaration m d =
      ⟨d.range.moved m, d.typeNode.map (moved m), d.name.moved m, d.initializer.map (moved m)⟩ := by
  obtain ⟨r, t, n, i⟩ := d
  rw [← movedOption_eq, ← movedOption_eq]
  rfl

theorem movedParameter_eq (q : Parameter NameRef Node) :
    movedParameter m q = ⟨q.range.moved m, q.typeNode.moved m, q.name.moved m, q.byRef⟩ := by
  obtain ⟨r, t, n, b⟩ := q
  rfl

theorem movedFunction_eq (f : FunctionDef NameRef Node) :
    movedFunction m f =
      ⟨f.range.moved m, f.returnType.moved m, f.name.moved m, movedParameters m f.parameters, movedGroup m f.body⟩ := by
  obtain ⟨r, t, n, qs, b⟩ := f
  rfl

/-- A unit is moved with all its sections, also those that are empty and no children. -/
theorem movedUnit_eq (u : UnitNode) :
    movedUnit m u =
      ⟨u.range.moved m, movedStatics m u.statics, movedFunctions m u.functions, movedGroup m u.statements⟩ := by
  obtain ⟨r, vs, fs, ss⟩ := u
  rfl

end Moved

section Views

variable (m : Relocation) (n : Node)

/-- Kinds, types and hover texts hold no positions. -/
@[simp] theorem kind_moved : (n.moved m).kind = n.kind := by
  cases n with
  | access a | forLoop a | foreachLoop a =>
    cases a
    rfl
  | _ => rfl

@[simp] theorem range_moved : (n.moved m).range = n.range.moved m := by
  cases n with
  | literal | name | method | binary | typeName => rfl
  | access a | forLoop a | foreachLoop a =>
    cases a
    rfl
  | plain k g | operation k g t | block g => exact congrArg Group.range (movedGroup_eq m g)
  | declaration d => exact congrArg Declaration.range (movedDeclaration_eq m d)
  | parameter q => exact congrArg Parameter.range (movedParameter_eq m q)
  | function f => exact congrArg FunctionDef.range (movedFunction_eq m f)
  | parameters g => exact congrArg Group.range (movedParameters_eq m g)
  | statics g => exact congrArg Group.range (movedStatics_eq m g)
  | functions g => exact congrArg Group.range (movedFunctions_eq m g)
  | unit u => exact congrArg CompilationUnit.range (movedUnit_eq m u)

@[simp] theorem type?_moved : (n.moved m).type? = n.type? := by
  cases n with
  | access a | forLoop a | foreachLoop a =>
    cases a
    rfl
  | _ => rfl

@[simp] theorem hoverLines?_moved : (n.moved m).hoverLines? = n.hoverLines? := by
  cases n with
  | typeName r t => cases t <;> rfl
  | access a | forLoop a | foreachLoop a =>
    cases a
    rfl
  | _ => rfl

/-- A section of a moved unit counts if that of the unit does. -/
theorem sectionNode_moved {α : Type} {node : Group α → Node} {g g' : Group α}
    (hlength : g'.items.length = g.items.length) (hnode : node g' = (node g).moved m) :
    sectionNode node g' = (sectionNode node g).map (moved m) := by
  have hempty : g'.items.isEmpty = g.items.isEmpty := by
    rw [Bool.eq_iff_iff, List.isEmpty_iff_length_eq_zero, List.isEmpty_iff_length_eq_zero, hlength]
  rw [sectionNode, sectionNode, hempty, hnode]
  split
  · rfl
  · rfl

/-- **The children of a moved node** are the moved children. -/
@[simp] theorem children_moved : (n.moved m).children = n.children.map (moved m) := by
  cases n with
  | literal | name | method | typeName | binary => rfl
  | access a | parameter a | function a | foreachLoop a =>
    cases a
    rfl
  | plain k g | operation k g t | block g => exact congrArg Group.items (movedGroup_eq m g)
  | declaration d =>
    show (movedDeclaration m d).typeNode.toList ++ .name (movedDeclaration m d).name ::
      (movedDeclaration m d).initializer.toList = _
    simp only [movedDeclaration_eq, children, Option.toList_map, List.map_append, List.map_cons]
    rfl
  | forLoop l =>
    obtain ⟨r, i, c, u, b⟩ := l
    show (movedOption m i).toList ++ ((movedOption m c).toList ++ ((movedOption m u).toList ++ [moved m b])) = _
    simp only [movedOption_eq, children, Option.toList_map, List.map_append, List.map_cons, List.map_nil]
  | parameters g =>
    show (movedParameters m g).items.map .parameter = (g.items.map .parameter).map (moved m)
    rw [movedParameters_eq, List.map_map, List.map_map]
    rfl
  | statics g =>
    show (movedStatics m g).items.map .declaration = (g.items.map .declaration).map (moved m)
    rw [movedStatics_eq, List.map_map, List.map_map]
    rfl
  | functions g =>
    show (movedFunctions m g).items.map .function = (g.items.map .function).map (moved m)
    rw [movedFunctions_eq, List.map_map, List.map_map]
    rfl
  | unit u =>
    obtain ⟨r, vs, fs, ss⟩ := u
    have hstatics : (movedStatics m vs).items.length = vs.items.length := by simp [movedStatics_eq]
    have hfunctions : (movedFunctions m fs).items.length = fs.items.length := by
      simp [movedFunctions_eq]
    have hstatements : (movedGroup m ss).items.length = ss.items.length := by simp [movedGroup_eq]
    show sectionNode .statics (movedStatics m vs) ++ (sectionNode .functions (movedFunctions m fs) ++
      sectionNode .block (movedGroup m ss)) = _
    rw [sectionNode_moved m hstatics rfl, sectionNode_moved m hfunctions rfl, sectionNode_moved m hstatements rfl,
      ← List.map_append, ← List.map_append]
    rfl

end Views
end Node

/-! ## Placement -/

/-- A fault of a moved tree. -/
def PlacementFault.moved (m : Relocation) : PlacementFault → PlacementFault
  | .outside child parent => .outside (child.moved m) (parent.moved m)
  | .overlap child sibling => .overlap (child.moved m) (sibling.moved m)

namespace Node

variable (m : Relocation)

/-- Both comparisons of the placement check are comparisons of ends. -/
theorem encloses_moved (n c : Node) : (n.moved m).encloses (c.moved m) = n.encloses c := by
  simp only [encloses, range_moved, Range.start_moved, Range.stop_moved, m.le_iff]

theorem follows_moved (c : Node) (previous : Option Node) :
    (c.moved m).follows (previous.map (moved m)) = c.follows previous := by
  cases previous with
  | none => rfl
  | some sibling => simp only [follows, Option.map_some, range_moved, Range.start_moved, Range.stop_moved, m.le_iff]

theorem misplacedAmong?_moved (n : Node) (previous : Option Node) (cs : List Node) :
    (n.moved m).misplacedAmong? (previous.map (moved m)) (cs.map (moved m)) =
      (n.misplacedAmong? previous cs).map (PlacementFault.moved m) := by
  -- by induction on the children, for any child before them: the same child is found
  induction cs generalizing previous with
  | nil => rfl
  | cons c cs ih =>
    rw [List.map_cons, misplacedAmong?, misplacedAmong?, encloses_moved, follows_moved]
    split
    · rfl
    · split
      · cases previous <;> rfl
      · exact ih (some c)

/-- The first fault below some children, if the check commutes with the relocation for each of them. -/
theorem findSome?_misplaced?_moved {cs : List Node}
    (h : ∀ c ∈ cs, (c.moved m).misplaced? = c.misplaced?.map (PlacementFault.moved m)) :
    (cs.map (moved m)).findSome? misplaced? = (cs.findSome? misplaced?).map (PlacementFault.moved m) := by
  induction cs with
  | nil => rfl
  | cons c cs ih =>
    rw [List.map_cons, List.findSome?_cons, List.findSome?_cons, h c List.mem_cons_self]
    cases c.misplaced? with
    | none => exact ih fun d hd => h d (List.mem_cons_of_mem c hd)
    | some fault => rfl

/-- **The check of the placement** finds the same fault in a moved tree. -/
theorem misplaced?_moved (n : Node) : (n.moved m).misplaced? = n.misplaced?.map (PlacementFault.moved m) := by
  induction n using Node.induction with
  | step n ih =>
    -- the children of the node itself are looked at first, then the subtrees from the last one on
    rw [misplaced?_eq, misplaced?_eq n, children_moved, ← List.map_reverse]
    have hown := misplacedAmong?_moved m n none n.children
    rw [Option.map_none] at hown
    rw [hown, findSome?_misplaced?_moved m fun c hc => ih c (List.mem_reverse.mp hc), Option.map_or]

end Node

/-! ## The descent -/

/-- The same way down in the moved tree. -/
def Trail.moved (m : Relocation) : Trail → Trail
  | .root n => .root (n.moved m)
  | .child t i n => .child (t.moved m) i (n.moved m)

@[simp] theorem Trail.node_moved (m : Relocation) (t : Trail) : (t.moved m).node = t.node.moved m := by
  cases t <;> rfl

@[simp] theorem Trail.path_moved (m : Relocation) (t : Trail) : (t.moved m).path = t.path := by
  induction t with
  | root n => rfl
  | child t i n ih => rw [moved, path, path, ih]

/-- What is shown for a node in the moved tree. -/
def Hover.moved (m : Relocation) (h : Hover) : Hover := { h with range := h.range.moved m }

namespace Node

variable (m : Relocation)

/-- The child that holds the position stands at the same place among the children. -/
theorem childAt?_moved (n : Node) (p : Position) :
    (n.moved m).childAt? (m p) = (n.childAt? p).map (Prod.map (moved m) id) := by
  unfold childAt?
  rw [children_moved, List.zipIdx_map, List.find?_map]
  congr 2
  funext c
  rw [Function.comp_apply, Prod.map_fst, range_moved, Range.contains_moved]

theorem descend_moved (n : Node) (p : Position) (t : Trail) :
    (n.moved m).descend (m p) (t.moved m) = (n.descend p t).moved m := by
  -- by induction on the node: each step of the descent goes to the moved child
  induction n using Node.induction generalizing t with
  | step n ih =>
    rw [descend_eq, descend_eq p n, childAt?_moved]
    cases hc : n.childAt? p with
    | none => rfl
    | some ci => exact ih ci.1 (childAt?_mem hc) (.child t ci.2 ci.1)

/-- **The descent** to a position takes the same way in a moved tree. -/
theorem resolve_moved (root : Node) (p : Position) :
    (root.moved m).resolve (m p) = (root.resolve p).map (Trail.moved m) := by
  unfold resolve
  rw [range_moved, Range.contains_moved]
  split
  · exact congrArg some (descend_moved m root p (.root root))
  · rfl

/-- Hover finds the moved node; its lines stay the same, and its range is moved. -/
theorem hover_moved (root : Node) (p : Position) :
    ((root.moved m).find? (m p)).bind hover? = ((root.find? p).bind hover?).map (Hover.moved m) := by
  unfold find? hover?
  rw [resolve_moved]
  cases root.resolve p with
  | none => rfl
  | some t =>
    simp only [Option.map_some, Option.bind_some, Trail.node_moved, hoverLines?_moved, range_moved, Option.map_map,
      Function.comp_def, Hover.moved]

end Node
end Caret
