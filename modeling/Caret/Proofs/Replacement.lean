import Caret.Proofs.Laminar
import Caret.Proofs.Rebuilding
/-!
# `Caret.Proofs.Replacement` — another statement beside the cursor

A statement that does not contain the cursor can be exchanged for any other one that has the same range and declares
the same, however large it is and wherever in the script it stands: neither completion nor hover can tell the
difference.

`Trail.plug` puts another node at the end of a trail and rebuilds the tree around it, step by step towards the root.
Each step keeps the outside of the node (`From.kept_plug`), so that it can be taken again, and the likeness of the
two trees at the cursor (`From.similar_plug`).

## Contents
- **One child.** `withChild`, and what it keeps: `Rebuilt.similar_withChild`, `Rebuilt.misplaced?_withChild`.
- **One node of a tree.** `plug`; `From.exists_plug` — it exchanges that node and nothing else.
- **One statement.** `Script.statement_beside_cursor_irrelevant`.
-/

namespace Caret

variable {p : Position}

namespace Node

/-! ## Another child in one place -/

/-- The node with another child in one place. -/
def withChild (n : Node) (i : Nat) (c : Node) : Node := n.withChildren (n.children.set i c)

variable {n c c' : Node} {i : Nat}

/-- All other children stay as they are. -/
theorem forall₂_set {ns : List Node} (hc : ns[i]? = some c) (hk : c.Kept c') : List.Forall₂ Kept ns (ns.set i c') := by
  induction ns generalizing i with
  | nil => contradiction
  | cons n ns ih =>
    have hrefl : List.Forall₂ Kept ns ns := List.forall₂_same.mpr fun m _ => .refl m
    cases i with
    | zero =>
      obtain rfl := Option.some.inj hc
      exact .cons hk hrefl
    | succ i => exact .cons (.refl n) (ih hc)

/-- With one child exchanged a node can be rebuilt. -/
theorem rebuilt_set (hc : n.children[i]? = some c) (hk : c.Kept c') : n.Rebuilt (n.children.set i c') :=
  rebuilt (forall₂_set hc hk)

theorem map_set_eq {α : Type} {f : Node → α} {ns : List Node} (hc : ns[i]? = some c) (hf : f c' = f c) :
    (ns.set i c').map f = ns.map f := by
  obtain ⟨hi, rfl⟩ := List.getElem?_eq_some_iff.mp hc
  rw [List.map_set, hf, ← List.getElem_map f (h := by rwa [List.length_map]), List.set_getElem_self]

namespace Rebuilt

theorem getElem?_withChild (h : n.Rebuilt (n.children.set i c')) (hc : n.children[i]? = some c) :
    (n.withChild i c').children[i]? = some c' := by
  obtain ⟨hi, -⟩ := List.getElem?_eq_some_iff.mp hc
  rw [withChild, h.children, List.getElem?_set_self hi]

/-- Putting the child back gives the node back. -/
theorem withChild_undo (h : n.Rebuilt (n.children.set i c')) (hc : n.children[i]? = some c) :
    (n.withChild i c').withChild i c = n := by
  obtain ⟨hi, rfl⟩ := List.getElem?_eq_some_iff.mp hc
  have hback : (n.withChild i c').children.set i n.children[i] = n.children := by
    rw [withChild, h.children, List.set_set, List.set_getElem_self]
  unfold withChild at hback ⊢
  rw [hback, h.undo]

/-- On the way to a position a node and the rebuilt one are similar, if the exchanged child is off that way or similar
itself. -/
theorem similar_withChild (h : n.Rebuilt (n.children.set i c')) (hc : n.children[i]? = some c)
    (hrange : c'.range = c.range) (hkind : n.kind = .compilationUnit → c'.kind = c.kind)
    (hbelow : c.range.contains p = true → c.Similar p c') : n.Similar p (n.withChild i c') := by
  have hchildren : (n.withChild i c').children = n.children.set i c' := h.children
  refine .intro (h.alike p) ?_ ?_ ?_
  · rw [hchildren]
    exact map_set_eq hc hrange
  · intro hk
    rw [hchildren]
    exact map_set_eq hc (hkind hk)
  · intro j d d' hd hd' hp
    rw [hchildren] at hd'
    by_cases hij : i = j
    · subst hij
      obtain rfl := Option.some.inj (hc.symm.trans hd)
      obtain ⟨hi, -⟩ := List.getElem?_eq_some_iff.mp hc
      rw [List.getElem?_set_self hi] at hd'
      obtain rfl := Option.some.inj hd'
      exact hbelow hp
    · rw [List.getElem?_set_ne hij] at hd'
      obtain rfl := Option.some.inj (hd.symm.trans hd')
      exact .refl d

/-- The placement of the other children is not touched, since the new child has the range of the old one. -/
theorem misplaced?_withChild (h : n.Rebuilt (n.children.set i c')) (hc : n.children[i]? = some c)
    (hrange : c'.range = c.range) (hn : n.misplaced? = none) (hc' : c'.misplaced? = none) :
    (n.withChild i c').misplaced? = none := by
  have hchildren : (n.withChild i c').children = n.children.set i c' := h.children
  obtain ⟨hord, hbelow⟩ := misplaced?_eq_none_iff.mp hn
  refine misplaced?_eq_none_iff.mpr ⟨hord.of_ranges h.kept.range ?_, ?_⟩
  · rw [hchildren]
    exact map_set_eq hc hrange
  · intro d hd
    rw [hchildren] at hd
    rcases List.mem_or_eq_of_mem_set hd with hd | rfl
    · exact hbelow d hd
    · exact hc'

end Rebuilt
end Node

/-! ## Another node at the end of a trail -/

namespace Trail

/-- The tree with another node at the end of the trail. -/
def plug : Trail → Node → Node
  | .root _, n => n
  | .child t i _, n => t.plug (t.node.withChild i n)

variable {root : Node} {t : Trail} {n : Node}

namespace From

theorem kept_plug (ht : t.From root) (hk : t.node.Kept n) : root.Kept (t.plug n) := by
  -- by induction on the trail: each node on the way back to the root keeps its outside
  induction ht generalizing n with
  | root => exact hk
  | child _ hc ih => exact ih (Node.rebuilt_set hc hk).kept

/-- One step further down: the new child stands below the rebuilt node, and plugging the old one in again restores
it. -/
theorem child_plug {root' : Node} {t t' : Trail} {i : Nat} {c : Node} (ht' : t'.From root')
    (hre : t.node.Rebuilt (t.node.children.set i n)) (hc : t.node.children[i]? = some c)
    (hnode : t'.node = t.node.withChild i n) :
    (Trail.child t' i n).From root' ∧ (Trail.child t' i n).plug c = t'.plug t.node := by
  refine ⟨.child ht' ?_, ?_⟩
  · rw [hnode]
    exact hre.getElem?_withChild hc
  · have hundo : t'.node.withChild i c = t.node := by
      rw [hnode]
      exact hre.withChild_undo hc
    rw [plug, hundo]

/-- **What plugging does.** The new node stands where the old one was, and plugging that one in again gives the old
tree. -/
theorem exists_plug (ht : t.From root) (hk : t.node.Kept n) :
    ∃ t' : Trail, t'.From (t.plug n) ∧ t'.path = t.path ∧ t'.node = n ∧ t'.plug t.node = root := by
  induction ht generalizing n with
  | root => exact ⟨.root n, .root, rfl, rfl, rfl⟩
  | @child t i c _ hc ih =>
    have hre := Node.rebuilt_set hc hk
    obtain ⟨t', ht', hpath, hnode, hback⟩ := ih hre.kept
    obtain ⟨hfrom, hplug⟩ := ht'.child_plug hre hc hnode
    exact ⟨.child t' i n, hfrom, by rw [path, path, hpath], rfl, hplug.trans hback⟩

theorem similar_plug (ht : t.From root) (hk : t.node.Kept n) (hs : t.node.Similar p n) : root.Similar p (t.plug n) := by
  -- by induction on the trail: each step keeps the likeness at the position
  induction ht generalizing n with
  | root => exact hs
  | child _ hc ih =>
    have hre := Node.rebuilt_set hc hk
    exact ih hre.kept (hre.similar_withChild hc hk.range (fun _ => hk.kind) fun _ => hs)

/-- No node is misplaced in the new tree if none is in the old one and in what is plugged in. -/
theorem misplaced?_plug (ht : t.From root) (hroot : root.misplaced? = none) (hk : t.node.Kept n)
    (hn : n.misplaced? = none) : (t.plug n).misplaced? = none := by
  induction ht generalizing n with
  | root => exact hn
  | child ht hc ih =>
    have hre := Node.rebuilt_set hc hk
    exact ih hre.kept (hre.misplaced?_withChild hc hk.range (ht.misplaced?_eq_none hroot) hn)

end From
end Trail

/-! ## Another statement in a block -/

theorem CompilationUnit.similar_of_kept {u u' : UnitNode} (hk : (Node.unit u).Kept (.unit u'))
    (hs : (Node.unit u).Similar p (.unit u')) : u.Similar p u' := by
  obtain ⟨hstatics, hrest⟩ := List.cons.inj hk.exposed
  obtain ⟨hfunctions, hrest⟩ := List.cons.inj hrest
  obtain ⟨hstatements, -⟩ := List.cons.inj hrest
  have hdeclarations : u'.declarations.map Node.entry = u.declarations.map Node.entry := by
    unfold declarations
    rw [List.map_map, List.map_map]
    exact hstatics
  have hempty : ∀ {α : Type} {f : α → Range × Option Symbol} {as bs : List α},
      as.map f = bs.map f → as.isEmpty = bs.isEmpty := by
    intro α f as bs h
    rw [← List.isEmpty_map (f := f), h, List.isEmpty_map]
  refine ⟨hs, ?_, ?_, ?_, ?_, hempty hstatics, hempty hfunctions, hempty hstatements⟩
  · unfold staticSymbols
    rw [Node.declared_eq, Node.declared_eq, hdeclarations]
  · rw [Node.declared_priorTo_eq, Node.declared_priorTo_eq, hdeclarations]
  · have h := congrArg (List.filterMap Prod.snd) hfunctions
    rwa [List.filterMap_map, List.filterMap_map] at h
  · unfold statementSymbols
    rw [Node.declared_eq, Node.declared_eq, hstatements]

/-- Neither statement declares a variable, or both declare one with the same symbol. -/
def Node.DeclareAlike (s s' : Node) : Prop :=
  (s.kind ≠ .variableDeclaration ∧ s'.kind ≠ .variableDeclaration) ∨
    ∃ d d', s = .declaration d ∧ s' = .declaration d' ∧ d'.name.symbol = d.name.symbol

theorem Node.DeclareAlike.declares_eq {s s' : Node} (h : s.DeclareAlike s') : s'.declares = s.declares := by
  rcases h with ⟨hs, hs'⟩ | ⟨d, d', rfl, rfl, hsymbol⟩
  · rw [Node.declares_eq_none hs, Node.declares_eq_none hs']
  · exact hsymbol

/-- **A statement beside the cursor does not matter.** In a script without a misplaced node take a statement of a
block, at any depth, that does not contain the position, and put another one in its place that has the same range,
no misplaced node in it and declares the same, if anything. Then neither completion nor hover changes at the
position. -/
theorem Script.statement_beside_cursor_irrelevant {u : UnitNode} {p : Position} {t : Trail} {g : Group Node} {i : Nat}
    {s s' : Node} (hu : (Node.unit u).misplaced? = none) (ht : t.From (.unit u)) (hblock : t.node = .block g)
    (hs : g.items[i]? = some s) (hp : s.range.contains p = false) (hrange : s'.range = s.range)
    (hs' : s'.misplaced? = none) (hdeclare : s.DeclareAlike s') :
    ∃ u' t', (Trail.child t i s).plug s' = .unit u' ∧ (Node.unit u').at? (t.path ++ [i]) = some t' ∧ t'.node = s' ∧
      t'.plug s = .unit u ∧
      (∀ constants base, complete ⟨u', constants⟩ base p = complete ⟨u, constants⟩ base p) ∧
      ((Node.unit u').find? p).bind Node.hover? = ((Node.unit u).find? p).bind Node.hover? := by
  have hc : t.node.children[i]? = some s := by
    rw [hblock]
    exact hs
  have hre : t.node.Rebuilt (t.node.children.set i s') := by
    have hentry : s'.entry = s.entry := by rw [Node.entry, Node.entry, hrange, hdeclare.declares_eq]
    rw [hblock]
    exact Node.rebuilt_block (Node.map_set_eq hs hentry)
  -- the statement is off the way to the position, and a block does not read the kinds of its statements
  have hsimilar : t.node.Similar p (t.node.withChild i s') := by
    refine hre.similar_withChild hc hrange ?_ ?_
    · intro hkind
      rw [hblock] at hkind
      contradiction
    · intro hcontains
      rw [hp] at hcontains
      contradiction
  have hm := hre.misplaced?_withChild hc hrange (ht.misplaced?_eq_none hu) hs'
  -- from the block on every step towards the root keeps the outside of a node
  have hkept := ht.kept_plug hre.kept
  obtain ⟨t', ht', hpath, hnode, hback⟩ := ht.exists_plug hre.kept
  obtain ⟨u', hu'⟩ := hkept.of_unit
  have htree := ht.similar_plug hre.kept hsimilar
  have hplaced := ht.misplaced?_plug hu hre.kept hm
  rw [hu'] at hkept ht' htree hplaced
  obtain ⟨hfrom, hplug⟩ := ht'.child_plug hre hc hnode
  refine ⟨u', .child t' i s', hu', Trail.at?_eq_some_iff.mpr ⟨hfrom, ?_⟩, rfl, hplug.trans hback, ?_, ?_⟩
  · rw [Trail.path, hpath]
  · intro constants base
    exact complete_eq_of_similar (CompilationUnit.similar_of_kept hkept htree) hu hplaced base
  · exact htree.hover_eq

/-- In the function of `nestedScopes` a loop takes the place of the inner block, with another declaration in it. In the
loop further down everything is as before. -/
theorem Script.statement_beside_cursor_irrelevant_in_nestedScopes :
    ∃ t s s' u', (Node.unit nestedScopes).at? [0, 0, 3] = some t ∧ t.node.children[1]? = some s ∧
      s' = .plain .whileLoop ⟨s.range, [.localAt 2 2 "z"]⟩ ∧ (Trail.child t 1 s).plug s' = .unit u' ∧
      (complete ⟨nestedScopes, []⟩ 0 ⟨6, 0⟩).map (·.map Suggestion.label) =
        .ok (["q", "a", "i", "c"] ++ Suggestion.statementWords) ∧
      complete ⟨u', []⟩ 0 ⟨6, 0⟩ = complete ⟨nestedScopes, []⟩ 0 ⟨6, 0⟩ := by
  have hat : ∃ t g s, (Node.unit nestedScopes).at? [0, 0, 3] = some t ∧ t.node = .block g ∧ g.items[1]? = some s ∧
      s.range = ⟨⟨2, 0⟩, ⟨3, 0⟩, by decide⟩ ∧ s.kind = .statementsList :=
    ⟨_, _, _, rfl, rfl, rfl, rfl, rfl⟩
  obtain ⟨t, g, s, ht, hblock, hs, hrange, hkind⟩ := hat
  have hfrom := (Trail.at?_eq_some_iff.mp ht).1
  have hbeside : s.range.contains ⟨6, 0⟩ = false := by rw [hrange]; rfl
  have hloop : (Node.plain .whileLoop ⟨s.range, [.localAt 2 2 "z"]⟩).range = s.range := rfl
  have hplaced : (Node.plain .whileLoop ⟨s.range, [.localAt 2 2 "z"]⟩).misplaced? = none := by rw [hrange]; rfl
  have hdeclare : s.DeclareAlike (.plain .whileLoop ⟨s.range, [.localAt 2 2 "z"]⟩) :=
    Or.inl ⟨by rw [hkind]; decide, NodeKind.noConfusion⟩
  obtain ⟨u', -, hplug, -, -, -, hcomplete, -⟩ :=
    statement_beside_cursor_irrelevant rfl hfrom hblock hs hbeside hloop hplaced hdeclare
  refine ⟨t, s, _, u', ht, ?_, rfl, hplug, rfl, hcomplete [] 0⟩
  rw [hblock]
  exact hs

end Caret
