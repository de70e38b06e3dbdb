import Caret.Proofs.Replacement
/-!
# `Caret.Proofs.EmptySections` — where an empty section stands does not matter

A section without items is no child of its unit, so nothing that goes by the children of a node meets it. The other
readers of a section take its items and not its range. Two scripts that differ only in the ranges of empty sections, of
units at any depth, are therefore answered alike, also where such a range lies outside the unit or across other nodes.

`Node.SameCode` relates two such trees. One step of it keeps what is seen of a node from outside and on the way to any
position, which gives the likeness of the two trees at every position. The check of the placement goes beyond the way to
one position. Its messages only name kinds and ranges, so they are compared in the whole tree.

## Contents
- **The relation.** `Group.SameUnlessEmpty`, `CompilationUnit.SameButEmpty`, `Node.SameCode`.
- **What it keeps.** `SameCode.kept`, `SameCode.similar`, `SameCode.nodes_of_similar`.
- **Placement.** `SameCode.misplaced?_message`.
- **Requests.** `Script.empty_sections_irrelevant`.
-/

namespace Caret

variable {p : Position}

/-! ## Trees that differ in empty sections -/

/-- Two sections are the same, or neither has an item. -/
def Group.SameUnlessEmpty {α : Type} (g g' : Group α) : Prop := g' = g ∨ (g.items = [] ∧ g'.items = [])

/-- Two units differ at most in the ranges of their own empty sections. -/
structure CompilationUnit.SameButEmpty (u u' : UnitNode) : Prop where
  range : u'.range = u.range
  statics : u.statics.SameUnlessEmpty u'.statics
  functions : u.functions.SameUnlessEmpty u'.functions
  statements : u.statements.SameUnlessEmpty u'.statements

namespace Node

/-- Two nodes are the same, or units that differ at most in the ranges of their own empty sections. -/
def SameButEmpty (n n' : Node) : Prop := n' = n ∨ ∃ u u', n = .unit u ∧ n' = .unit u' ∧ u.SameButEmpty u'

/-- **Trees that differ only in the ranges of empty sections.** With the children of the second one the first node
is the second one, up to empty sections of its own, and the children differ in the same way only. -/
inductive SameCode : Node → Node → Prop where
  | refl (n : Node) : SameCode n n
  | intro {n n' : Node} (own : (n.withChildren n'.children).SameButEmpty n')
      (size : n'.children.length = n.children.length)
      (below : ∀ {i : Nat} {c c' : Node}, n.children[i]? = some c → n'.children[i]? = some c' → SameCode c c') :
      SameCode n n'

end Node

/-! ## What is kept -/

namespace Group.SameUnlessEmpty

variable {α : Type} {g g' : Group α}

theorem items_eq (h : g.SameUnlessEmpty g') : g'.items = g.items := by
  rcases h with rfl | ⟨hg, hg'⟩
  · rfl
  · rw [hg, hg']

/-- A section that is not there does not show its range. -/
theorem sectionNode_eq (h : g.SameUnlessEmpty g') (node : Group α → Node) :
    Node.sectionNode node g' = Node.sectionNode node g := by
  rcases h with rfl | ⟨hg, hg'⟩
  · rfl
  · simp [Node.sectionNode, hg, hg']

end Group.SameUnlessEmpty

namespace Node

variable {n n' : Node}

theorem Kept.trans {a b c : Node} (hab : a.Kept b) (hbc : b.Kept c) : a.Kept c :=
  ⟨hbc.kind.trans hab.kind, hbc.range.trans hab.range, hbc.type.trans hab.type, hbc.exposed.trans hab.exposed,
    hbc.size.trans hab.size⟩

theorem Alike.trans {a b c : Node} (hab : a.Alike p b) (hbc : b.Alike p c) : a.Alike p c :=
  ⟨hbc.kind.trans hab.kind, hbc.range.trans hab.range, hbc.locals.trans hab.locals, hbc.lines.trans hab.lines,
    hbc.pastName.trans hab.pastName, hbc.accessed.trans hab.accessed⟩

namespace SameButEmpty

/-- An empty section is no child. -/
theorem children_eq (h : n.SameButEmpty n') : n'.children = n.children := by
  rcases h with rfl | ⟨u, u', rfl, rfl, h⟩
  · rfl
  · simp only [children, h.statics.sectionNode_eq, h.functions.sectionNode_eq, h.statements.sectionNode_eq]

theorem kept (h : n.SameButEmpty n') : n.Kept n' := by
  have hchildren := h.children_eq
  rcases h with rfl | ⟨u, u', rfl, rfl, h⟩
  · exact .refl _
  · refine ⟨rfl, h.range, rfl, ?_, by rw [hchildren]⟩
    simp only [exposed, h.statics.items_eq, h.functions.items_eq, h.statements.items_eq]

theorem alike (h : n.SameButEmpty n') : n.Alike p n' := by
  rcases h with rfl | ⟨u, u', rfl, rfl, h⟩
  · exact .refl _
  · exact ⟨rfl, h.range, rfl, rfl, rfl, rfl⟩

end SameButEmpty

/-- What is the same of each two children is the same of the lists of children. -/
theorem map_children_eq {α : Type} {f : Node → α} (size : n'.children.length = n.children.length)
    (below : ∀ {i : Nat} {c c' : Node}, n.children[i]? = some c → n'.children[i]? = some c' → f c' = f c) :
    n'.children.map f = n.children.map f := by
  refine List.ext_getElem (by simpa using size) ?_
  intro i hi hi'
  rw [List.length_map] at hi hi'
  rw [List.getElem_map, List.getElem_map]
  exact below (List.getElem?_eq_getElem hi') (List.getElem?_eq_getElem hi)

theorem forall₂_children {R : Node → Node → Prop} (size : n'.children.length = n.children.length)
    (below : ∀ {i : Nat} {c c' : Node}, n.children[i]? = some c → n'.children[i]? = some c' → R c c') :
    List.Forall₂ R n.children n'.children := by
  refine List.forall₂_iff_get.mpr ⟨size.symm, ?_⟩
  intro i hi hi'
  exact below (List.getElem?_eq_getElem hi) (List.getElem?_eq_getElem hi')

namespace SameCode

/-- **The outside of a node is kept.** -/
theorem kept (h : n.SameCode n') : n.Kept n' := by
  induction h with
  | refl n => exact .refl n
  | intro own size _ ih => exact (rebuilt (forall₂_children size ih)).kept.trans own.kept

/-- Children at the same place are related again. -/
theorem child (h : n.SameCode n') {i : Nat} {c c' : Node} (hc : n.children[i]? = some c)
    (hc' : n'.children[i]? = some c') : c.SameCode c' := by
  cases h with
  | refl =>
    obtain rfl := Option.some.inj (hc.symm.trans hc')
    exact .refl c
  | intro _ _ below => exact below hc hc'

/-- On the way to any position the same is read of the two nodes. -/
theorem alike (h : n.SameCode n') : n.Alike p n' := by
  cases h with
  | refl => exact .refl n
  | intro own size below =>
    -- first the children are exchanged, then the empty sections
    have hrebuilt := rebuilt (forall₂_children size fun hc hc' => (below hc hc').kept)
    exact (hrebuilt.alike p).trans own.alike

/-- **The two trees are similar at every position.** -/
theorem similar (h : n.SameCode n') : n.Similar p n' := by
  induction n using Node.induction generalizing n' with
  | step n ih =>
    have hsize := h.kept.size
    refine .intro h.alike (map_children_eq hsize fun hc hc' => (h.child hc hc').kept.range)
      (fun _ => map_children_eq hsize fun hc hc' => (h.child hc hc').kept.kind) ?_
    intro i c c' hc hc' _
    exact ih c (List.mem_of_getElem? hc) (h.child hc hc')

/-- Two ways down the trees pass through nodes that differ only in empty sections. -/
theorem nodes_of_similar (h : n.SameCode n') {t t' : Trail} (hs : t.Similar p t') (ht : t.From n) (ht' : t'.From n') :
    t.node.SameCode t'.node ∧ List.Forall₂ SameCode t.nodes t'.nodes := by
  induction hs with
  | root _ =>
    cases ht
    cases ht'
    exact ⟨h, .cons h .nil⟩
  | child _ _ ih =>
    cases ht with
    | child ht hc =>
      cases ht' with
      | child ht' hc' =>
        obtain ⟨hparent, hnodes⟩ := ih ht ht'
        exact ⟨hparent.child hc hc', .cons (hparent.child hc hc') hnodes⟩

end SameCode

/-! ## Placement -/

/-- What a message says of a node. -/
def label (n : Node) : NodeKind × Range := (n.kind, n.range)

theorem nodeText?_eq_of_label (h : n'.label = n.label) : PlacementFault.nodeText? n' = PlacementFault.nodeText? n := by
  obtain ⟨hkind, hrange⟩ := Prod.mk.inj h
  unfold PlacementFault.nodeText?
  rw [hkind, hrange]

/-- The message about the first misplaced child is a matter of labels. -/
theorem misplacedAmong?_message (hn : n'.label = n.label) {cs cs' : List Node} (hcs : cs'.map label = cs.map label)
    {previous previous' : Option Node} (hprevious : previous'.map label = previous.map label) :
    (n'.misplacedAmong? previous' cs').map PlacementFault.message? =
      (n.misplacedAmong? previous cs).map PlacementFault.message? := by
  induction cs generalizing cs' previous previous' with
  | nil =>
    obtain rfl := List.map_eq_nil_iff.mp hcs
    rfl
  | cons c cs ih =>
    cases cs' with
    | nil => contradiction
    | cons c' cs' =>
      obtain ⟨hc, hcs⟩ := List.cons.inj hcs
      have hencloses : n'.encloses c' = n.encloses c := by
        unfold encloses
        rw [(Prod.mk.inj hn).2, (Prod.mk.inj hc).2]
      have hfollows : c'.follows previous' = c.follows previous := by
        cases previous with
        | none =>
          obtain rfl := Option.map_eq_none_iff.mp hprevious
          rfl
        | some a =>
          obtain ⟨a', rfl, ha⟩ := Option.map_eq_some_iff.mp hprevious
          show decide (a'.range.stop ≤ c'.range.start) = decide (a.range.stop ≤ c.range.start)
          rw [(Prod.mk.inj ha).2, (Prod.mk.inj hc).2]
      -- the message of an overlap has a name for the sibling also where there is none
      have hsibling : (previous'.getD c').label = (previous.getD c).label := by
        cases previous with
        | none =>
          obtain rfl := Option.map_eq_none_iff.mp hprevious
          exact hc
        | some a =>
          obtain ⟨a', rfl, ha⟩ := Option.map_eq_some_iff.mp hprevious
          exact ha
      unfold misplacedAmong?
      rw [hencloses, hfollows]
      split
      · simp only [Option.map_some, PlacementFault.message?, nodeText?_eq_of_label hn, nodeText?_eq_of_label hc]
      · split
        · simp only [Option.map_some, PlacementFault.message?, nodeText?_eq_of_label hc, nodeText?_eq_of_label hsibling]
        · exact ih hcs (congrArg some hc)

theorem SameCode.label_eq (h : n.SameCode n') : n'.label = n.label := Prod.ext h.kept.kind h.kept.range

/-- **The check of the placement** finds a fault in both trees or in neither, and says the same of it. -/
theorem SameCode.misplaced?_message (h : n.SameCode n') :
    n'.misplaced?.map PlacementFault.message? = n.misplaced?.map PlacementFault.message? := by
  induction n using Node.induction generalizing n' with
  | step n ih =>
    have hsize := h.kept.size
    have hown : (n'.misplacedAmong? none n'.children).map PlacementFault.message? =
        (n.misplacedAmong? none n.children).map PlacementFault.message? :=
      misplacedAmong?_message h.label_eq (map_children_eq hsize fun hc hc' => (h.child hc hc').label_eq) rfl
    have hbelow : n'.children.map (fun c => c.misplaced?.map PlacementFault.message?) =
        n.children.map fun c => c.misplaced?.map PlacementFault.message? :=
      map_children_eq hsize fun hc hc' => ih _ (List.mem_of_getElem? hc) (h.child hc hc')
    -- the children are searched from the last one, and the first fault found is the one that is told
    have hfind : ∀ cs : List Node, (cs.reverse.findSome? misplaced?).map PlacementFault.message? =
        (cs.map fun c => c.misplaced?.map PlacementFault.message?).reverse.findSome? id := by
      intro cs
      rw [List.map_findSome?, ← List.map_reverse, List.findSome?_map]
      rfl
    rw [misplaced?_eq n', misplaced?_eq n, Option.map_or, Option.map_or, hown, hfind, hfind, hbelow]

end Node

/-! ## Requests -/

namespace Script

variable {s s' : Script} {base : Int}

/-- Two requests of whose faults the same is said, if they have one, with the same items on offer and the same symbols
visible, are answered alike. -/
theorem complete_alike
    (hfault : (s'.requestFault? base p).map RequestFault.message? = (s.requestFault? base p).map RequestFault.message?)
    (hitems : (Offers.ofPosition s'.unit p).map Offers.items = (Offers.ofPosition s.unit p).map Offers.items)
    (hvisible : s'.visible (.ofPosition s'.unit p) p = s.visible (.ofPosition s.unit p) p) :
    (∃ l, s.complete base p = .ok l ∧ s'.complete base p = .ok l) ∨
      ∃ fault fault' : RequestFault, s.complete base p = .error fault.error ∧
        s'.complete base p = .error fault'.error ∧ fault'.message? = fault.message? := by
  cases hf : s.requestFault? base p with
  | none =>
    rw [hf] at hfault
    have hf' : s'.requestFault? base p = none := Option.map_eq_none_iff.mp hfault
    obtain ⟨l, hl⟩ := complete_eq_ok hf
    refine Or.inl ⟨l, hl, ?_⟩
    rw [← hl]
    exact complete_eq_of_items (hf'.trans hf.symm) hitems hvisible
  | some fault =>
    rw [hf] at hfault
    obtain ⟨fault', hf', hmessage⟩ := Option.map_eq_some_iff.mp hfault
    exact Or.inr ⟨fault, fault', complete_eq_error hf, complete_eq_error hf', hmessage⟩

/-- If the checks of both trees say the same, so do the requests. -/
theorem requestFault?_message
    (h : (Node.unit s'.unit).misplaced?.map PlacementFault.message? =
      (Node.unit s.unit).misplaced?.map PlacementFault.message?) :
    (s'.requestFault? base p).map RequestFault.message? = (s.requestFault? base p).map RequestFault.message? := by
  have hplacement : RequestFault.message? ∘ RequestFault.placement = PlacementFault.message? := rfl
  unfold requestFault?
  rw [Option.map_or, Option.map_or, Option.map_map, Option.map_map, hplacement, h]

/-- **Empty sections do not matter.** Take two scripts that differ only in the ranges of empty sections of their
units, at any depth and wherever these ranges lie, a base and a position. The check of the placement accepts both
trees or says the same of both. The innermost node at the position is found in neither tree, or in both on the same
way through nodes that again differ in this way only. The flags of the offers are the same, and so is what is shown
for the node. Completion gives the same suggestions, or it fails on both requests and says the same of them: both
are refused with the same message, or the message of neither can be written. -/
theorem empty_sections_irrelevant (hconstants : s'.constants = s.constants)
    (h : (Node.unit s.unit).SameCode (.unit s'.unit)) (base : Int) (p : Position) :
    (Node.unit s'.unit).misplaced?.map PlacementFault.message? =
      (Node.unit s.unit).misplaced?.map PlacementFault.message? ∧
    (((Node.unit s.unit).resolve p = none ∧ (Node.unit s'.unit).resolve p = none) ∨
      ∃ t t', (Node.unit s.unit).resolve p = some t ∧ (Node.unit s'.unit).resolve p = some t' ∧ t'.path = t.path ∧
        List.Forall₂ Node.SameCode t.nodes t'.nodes) ∧
    (Offers.ofPosition s'.unit p).map Offers.flags = (Offers.ofPosition s.unit p).map Offers.flags ∧
    ((∃ l, s.complete base p = .ok l ∧ s'.complete base p = .ok l) ∨
      ∃ fault fault' : RequestFault, s.complete base p = .error fault.error ∧
        s'.complete base p = .error fault'.error ∧ fault'.message? = fault.message?) ∧
    ((Node.unit s'.unit).find? p).bind Node.hover? = ((Node.unit s.unit).find? p).bind Node.hover? := by
  obtain ⟨u, constants⟩ := s
  obtain ⟨u', _⟩ := s'
  subst hconstants
  -- all that follows only reads what similar trees have in common
  have hmessage := h.misplaced?_message
  have htree : (Node.unit u).Similar p (.unit u') := h.similar
  have hunit : u.Similar p u' := CompilationUnit.similar_of_kept h.kept htree
  refine ⟨hmessage, ?_, Offers.flags_ofPosition hunit, ?_, htree.hover_eq⟩
  · cases ho : (Node.unit u).resolve p with
    | none => exact Or.inl ⟨rfl, htree.resolve_eq_none ho⟩
    | some t =>
      obtain ⟨t', ht', hsimilar⟩ := htree.resolve_eq_some ho
      have hfrom := (Trail.resolve_eq_some_iff.mp ho).1.toFrom
      have hfrom' := (Trail.resolve_eq_some_iff.mp ht').1.toFrom
      exact Or.inr ⟨t, t', rfl, ht', hsimilar.path_eq, (h.nodes_of_similar hsimilar hfrom hfrom').2⟩
  · exact complete_alike (requestFault?_message hmessage) (Offers.items_ofPosition hunit) (visible_ofPosition hunit)

end Script

/-- A unit on the lines 40 to 49 with a unit on the lines 42 to 45 among its statements, and a declaration in each. The
empty sections of both units stand in the given places. -/
def unitWithin (outer inner : Range) : UnitNode where
  range := ⟨⟨40, 0⟩, ⟨49, 0⟩, by decide⟩
  statics := ⟨outer, []⟩
  functions := ⟨outer, []⟩
  statements := ⟨⟨⟨41, 0⟩, ⟨48, 0⟩, by decide⟩,
    [.unit
      { range := ⟨⟨42, 0⟩, ⟨45, 0⟩, by decide⟩
        statics := ⟨inner, []⟩
        functions := ⟨inner, []⟩
        statements := ⟨⟨⟨42, 0⟩, ⟨43, 0⟩, by decide⟩, [.localAt 42 2 "a"]⟩ },
     .localAt 46 2 "b"]⟩

theorem sameCode_unitWithin (outer inner outer' inner' : Range) :
    (Node.unit (unitWithin outer inner)).SameCode (.unit (unitWithin outer' inner')) := by
  refine .intro (Or.inr ⟨_, _, rfl, rfl, rfl, Or.inr ⟨rfl, rfl⟩, Or.inr ⟨rfl, rfl⟩, Or.inl rfl⟩) rfl ?_
  intro i c c' hc hc'
  cases i with
  | succ i => contradiction
  | zero =>
    cases hc
    cases hc'
    refine .intro (Or.inl rfl) rfl ?_
    intro i c c' hc hc'
    cases i with
    | zero =>
      cases hc
      cases hc'
      refine .intro (Or.inr ⟨_, _, rfl, rfl, rfl, Or.inr ⟨rfl, rfl⟩, Or.inr ⟨rfl, rfl⟩, Or.inl rfl⟩) rfl ?_
      intro i c c' hc hc'
      obtain rfl := Option.some.inj (hc.symm.trans hc')
      exact .refl c
    | succ i =>
      obtain rfl := Option.some.inj (hc.symm.trans hc')
      exact .refl c

/-- On line 47 the suggestions stay the same when the empty sections of the outer unit go across the cursor and
beyond the unit, and those of the inner one ahead of everything. -/
theorem Script.empty_sections_irrelevant_in_unitWithin :
    ∃ l, complete ⟨unitWithin (.word 40 0) (.word 42 0), []⟩ 0 ⟨47, 0⟩ = .ok l ∧
      l.map Suggestion.label = "b" :: Suggestion.statementWords ∧
      complete ⟨unitWithin ⟨⟨46, 0⟩, ⟨60, 0⟩, by decide⟩ ⟨⟨0, 40⟩, ⟨1, 40⟩, by decide⟩, []⟩ 0 ⟨47, 0⟩ = .ok l := by
  obtain ⟨-, -, -, hcomplete, -⟩ := @empty_sections_irrelevant ⟨unitWithin (.word 40 0) (.word 42 0), []⟩
    ⟨unitWithin ⟨⟨46, 0⟩, ⟨60, 0⟩, by decide⟩ ⟨⟨0, 40⟩, ⟨1, 40⟩, by decide⟩, []⟩ rfl
    (sameCode_unitWithin _ _ _ _) 0 ⟨47, 0⟩
  rcases hcomplete with ⟨l, hl, hl'⟩ | ⟨fault, fault', hfault, -⟩
  · refine ⟨l, hl, ?_, hl'⟩
    obtain rfl := Except.ok.inj hl
    rfl
  · contradiction

end Caret
