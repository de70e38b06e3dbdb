import Caret.Hover
import Caret.Proofs.Visibility
/-!
# `Caret.Proofs.Likeness` — what completion and hover read of a tree

A request at a position goes down to the innermost node there and back up. Of the nodes on this way it reads a few data
(`Alike`), of their children the ranges, and of the sections of a unit also the kinds. Below a child that does not
contain the position nothing is read at all.

`Similar p` says of two trees that all this is the same. It is a relation between two runs: the way down in the one is
followed step by step in the other, and at its end both come to the same offers, symbols and hover text.

## Contents
- **Nodes.** `Alike`, `Similar`, and the step down: `Similar.childAt?_eq_some`.
- **Trails.** `Trail.Similar` — two ways down; `Similar.resolve_eq_some`, `Similar.hover_eq`.
- **Contexts.** `Context.ofPosition_similar`, `Offers.flags_ofPosition`, `Offers.items_ofPosition`,
  `Script.visible_ofPosition`.
- **Requests.** `Script.complete_eq_of_items`, `Script.complete_eq_of_similar`.
-/

namespace Caret

variable {p : Position}

/-! ## Nodes -/

namespace Node

/-- What is read of a property access: the name as typed, the member that it is, and the type whose members may be
meant. -/
def accessed? : Node → Option (String × Option (Field ScriptType) × Option ScriptType)
  | .access a => some (a.name, a.member, a.callee.type?)
  | _ => none

/-- **Read of one node.** On the way to a position two nodes have the same data. -/
structure Alike (p : Position) (n n' : Node) : Prop where
  kind : n'.kind = n.kind
  range : n'.range = n.range
  locals : n'.locals p = n.locals p
  lines : n'.hoverLines? = n.hoverLines?
  pastName : Offers.pastName n' (some p) = Offers.pastName n (some p)
  accessed : n'.accessed? = n.accessed?

/-- **Read of a whole tree.** On the way to a position two trees have the same data, from the root down to the innermost
node. -/
inductive Similar (p : Position) : Node → Node → Prop where
  | intro {n n' : Node} (own : n.Alike p n') (ranges : n'.children.map range = n.children.map range)
      (sections : n.kind = .compilationUnit → n'.children.map kind = n.children.map kind)
      (below : ∀ {i : Nat} {c c' : Node}, n.children[i]? = some c → n'.children[i]? = some c' →
        c.range.contains p = true → Similar p c c') : Similar p n n'

theorem Alike.refl (n : Node) : n.Alike p n := ⟨rfl, rfl, rfl, rfl, rfl, rfl⟩

theorem Similar.refl (n : Node) : n.Similar p n := by
  -- by induction on the node: the child that holds the position is similar to itself
  induction n using Node.induction with
  | step n ih =>
    refine .intro (.refl n) rfl (fun _ => rfl) ?_
    intro i c c' hc hc' _
    obtain rfl := Option.some.inj (hc.symm.trans hc')
    exact ih c (List.mem_of_getElem? hc)

/-- Where the ranges agree, a child has a counterpart with its range. -/
theorem exists_child_of_ranges {n n' : Node} (h : n'.children.map range = n.children.map range) {i : Nat} {c : Node}
    (hc : n.children[i]? = some c) : ∃ c', n'.children[i]? = some c' ∧ c'.range = c.range := by
  have hi : (n'.children.map range)[i]? = some c.range := by rw [h, List.getElem?_map, hc]; rfl
  rw [List.getElem?_map] at hi
  exact Option.map_eq_some_iff.mp hi

/-- Whether the children of a node are in order is a matter of ranges. -/
theorem Ordered.of_ranges {n n' : Node} (h : n.Ordered) (hrange : n'.range = n.range)
    (hranges : n'.children.map range = n.children.map range) : n'.Ordered := by
  refine ⟨?_, ?_⟩
  · intro d' hd'
    obtain ⟨j, hj⟩ := List.getElem?_of_mem hd'
    obtain ⟨d, hd, heq⟩ := exists_child_of_ranges hranges.symm hj
    rw [hrange, ← heq]
    exact h.inside d (List.mem_of_getElem? hd)
  · have happart : (n.children.map range).Pairwise fun a b => a.stop ≤ b.start := List.pairwise_map.mpr h.apart
    rw [← hranges] at happart
    exact (List.pairwise_map (f := range)).mp happart

namespace Similar

variable {n n' : Node}

theorem own (h : n.Similar p n') : n.Alike p n' := by
  cases h with
  | intro own _ _ _ => exact own

/-- What a similar node has of its children: their ranges, and in a unit also their kinds. -/
theorem ranges (h : n.Similar p n') : n'.children.map range = n.children.map range := by
  cases h with
  | intro _ ranges _ _ => exact ranges

theorem sections (h : n.Similar p n') (hk : n.kind = .compilationUnit) :
    n'.children.map kind = n.children.map kind := by
  cases h with
  | intro _ _ sections _ => exact sections hk

/-- **The step down.** Both trees step to the child of the same index, and the two children are similar again. -/
theorem childAt?_eq_some (h : n.Similar p n') {c : Node} {i : Nat} (hc : n.childAt? p = some (c, i)) :
    ∃ c', n'.childAt? p = some (c', i) ∧ c.Similar p c' := by
  obtain ⟨hci, hp, hfirst⟩ := childAt?_eq_some_iff.mp hc
  obtain ⟨c', hci', hrange⟩ := exists_child_of_ranges h.ranges hci
  refine ⟨c', childAt?_eq_some_iff.mpr ⟨hci', by rwa [hrange], ?_⟩, ?_⟩
  · intro j d' hj hd'
    obtain ⟨d, hd, hdrange⟩ := exists_child_of_ranges h.ranges.symm hd'
    rw [← hdrange]
    exact hfirst j d hj hd
  · -- only here the relation itself is stepped down
    cases h with
    | intro _ _ _ below => exact below hci hci' hp

/-- Both descents end at the same place. -/
theorem childAt?_eq_none (h : n.Similar p n') (hc : n.childAt? p = none) : n'.childAt? p = none := by
  refine childAt?_eq_none_iff.mpr ?_
  intro c' hm
  obtain ⟨i, hi⟩ := List.getElem?_of_mem hm
  obtain ⟨c, hc', hrange⟩ := exists_child_of_ranges h.ranges.symm hi
  rw [← hrange]
  exact childAt?_eq_none_iff.mp hc c (List.mem_of_getElem? hc')

end Similar

/-- Which children are next to a position is a matter of their ranges, so their kinds agree where all kinds do. -/
theorem neighboursAmong_kind {cs cs' : List Node} (hr : cs'.map range = cs.map range) (hk : cs'.map kind = cs.map kind)
    {prev prev' : Option Node} (hprev : prev'.map kind = prev.map kind) :
    (neighboursAmong p prev' cs').1.map kind = (neighboursAmong p prev cs).1.map kind ∧
      (neighboursAmong p prev' cs').2.map kind = (neighboursAmong p prev cs).2.map kind := by
  induction cs generalizing cs' prev prev' with
  | nil =>
    obtain rfl := List.map_eq_nil_iff.mp hr
    exact ⟨hprev, rfl⟩
  | cons c cs ih =>
    cases cs' with
    | nil => contradiction
    | cons c' cs' =>
      obtain ⟨hrc, hr⟩ := List.cons.inj hr
      obtain ⟨hkc, hk⟩ := List.cons.inj hk
      unfold neighboursAmong
      rw [hrc]
      split
      · exact ih hr hk (congrArg some hkc)
      · split
        · exact ⟨hprev, congrArg some hkc⟩
        · exact ih hr hk hprev

end Node

/-! ## Trails -/

namespace Trail

/-- **Two ways down** with the same indexes, along similar nodes. -/
inductive Similar (p : Position) : Trail → Trail → Prop where
  | root {n n' : Node} (h : n.Similar p n') : Similar p (.root n) (.root n')
  | child {t t' : Trail} {i : Nat} {n n' : Node} (ht : Similar p t t') (h : n.Similar p n') :
      Similar p (.child t i n) (.child t' i n')

namespace Similar

variable {t t' : Trail}

theorem node (h : t.Similar p t') : t.node.Similar p t'.node := by
  cases h with
  | root h => exact h
  | child _ h => exact h

theorem path_eq (h : t.Similar p t') : t'.path = t.path := by
  induction h with
  | root _ => rfl
  | child _ _ ih => rw [path, path, ih]

/-- What is the same for similar nodes is the same all along the trails. -/
theorem map_nodes {α : Type} {f : Node → α} (hf : ∀ {n n' : Node}, n.Similar p n' → f n' = f n) (h : t.Similar p t') :
    t'.nodes.map f = t.nodes.map f := by
  induction h with
  | root hn => rw [nodes_root, nodes_root, List.map_singleton, List.map_singleton, hf hn]
  | child _ hn ih => rw [nodes_child, nodes_child, List.map_cons, List.map_cons, hf hn, ih]

/-- The trails give the same local symbols. -/
theorem locals_eq (h : t.Similar p t') : t'.locals p = t.locals p := by
  unfold locals
  rw [List.map_reverse, List.map_reverse, h.map_nodes fun hn => hn.own.locals]

theorem inBlock_eq (h : t.Similar p t') : t'.inBlock = t.inBlock := by
  have hkinds : t'.nodes.map Node.kind = t.nodes.map Node.kind := h.map_nodes fun hn => hn.own.kind
  have hany : ∀ t : Trail, t.inBlock = (t.nodes.map Node.kind).any (· == .statementsList) := by
    intro t
    rw [List.any_map]
    rfl
  rw [hany, hany, hkinds]

/-- The rules decide by kinds, so both climbs end at the same link. -/
theorem climb (h : t.Similar p t') (innermost : Bool) : (t.climb innermost).Similar p (t'.climb innermost) := by
  induction h generalizing innermost with
  | root hn => exact .root hn
  | child ht hn ih =>
    unfold Trail.climb
    rw [hn.own.kind]
    split
    · exact .child ht hn
    · exact ih false

/-- The item on the way from a governing node to the innermost one stands in the same place. -/
theorem pastName_eq (h : t.Similar p t') {g g' : Trail} (hg : g.Similar p g') :
    ((t'.links.find? fun link => same link.parent? (some g')).map fun link => Offers.pastName link.node (some p)) =
      (t.links.find? fun link => same link.parent? (some g)).map fun link => Offers.pastName link.node (some p) := by
  induction h with
  | root _ => rfl
  | @child t t' i n n' ht hn ih =>
    have hsame : same (some t') (some g') = same (some t) (some g) := by
      show (t'.path == g'.path) = (t.path == g.path)
      rw [ht.path_eq, hg.path_eq]
    unfold links
    rw [List.find?_cons, List.find?_cons]
    simp only [parent?]
    rw [hsame]
    cases same (some t) (some g) with
    | true => exact congrArg some hn.own.pastName
    | false => exact ih

end Similar

variable {root root' : Node} {o : Trail}

/-- The way down in one tree is followed in the other. -/
theorem Towards.similar (h : root.Similar p root') (ho : o.Towards root p) :
    ∃ o', o'.Towards root' p ∧ o.Similar p o' := by
  induction ho with
  | root hp => exact ⟨_, .root (by rwa [h.own.range]), .root h⟩
  | child _ hc ih =>
    obtain ⟨t', ht', hsim⟩ := ih
    obtain ⟨c', hc', hcsim⟩ := hsim.node.childAt?_eq_some hc
    exact ⟨_, .child ht' hc', .child hsim hcsim⟩

end Trail

namespace Node.Similar

variable {root root' : Node}

/-- A position is resolved in both trees or in none. -/
theorem resolve_eq_some (h : root.Similar p root') {o : Trail} (ho : root.resolve p = some o) :
    ∃ o', root'.resolve p = some o' ∧ o.Similar p o' := by
  obtain ⟨hto, hend⟩ := Trail.resolve_eq_some_iff.mp ho
  obtain ⟨o', hto', hsim⟩ := hto.similar h
  exact ⟨o', Trail.resolve_eq_some_iff.mpr ⟨hto', hsim.node.childAt?_eq_none hend⟩, hsim⟩

theorem resolve_eq_none (h : root.Similar p root') (hr : root.resolve p = none) : root'.resolve p = none := by
  rw [Trail.resolve_eq_none_iff] at hr ⊢
  rwa [h.own.range]

/-- Hover only reads the innermost node. -/
theorem hover_eq (h : root.Similar p root') : (root'.find? p).bind hover? = (root.find? p).bind hover? := by
  unfold find?
  cases hr : root.resolve p with
  | none => rw [h.resolve_eq_none hr]
  | some o =>
    obtain ⟨o', ho', hsim⟩ := h.resolve_eq_some hr
    have hown := hsim.node.own
    rw [ho']
    show o'.node.hover? = o.node.hover?
    unfold hover?
    rw [hown.lines, hown.range]

end Node.Similar

/-! ## Contexts -/

/-- **Read of a whole script.** The two trees are similar, and their sections declare the same at the top level. -/
structure CompilationUnit.Similar (p : Position) (u u' : UnitNode) : Prop where
  tree : (Node.unit u).Similar p (.unit u')
  statics : u'.staticSymbols = u.staticSymbols
  priorStatics : declared (priorTo u'.declarations p) = declared (priorTo u.declarations p)
  functions : u'.functionSymbols = u.functionSymbols
  statements : u'.statementSymbols = u.statementSymbols
  noStatics : u'.statics.items.isEmpty = u.statics.items.isEmpty
  noFunctions : u'.functions.items.isEmpty = u.functions.items.isEmpty
  noStatements : u'.statements.items.isEmpty = u.statements.items.isEmpty

variable {u u' : UnitNode} {g g' o o' : Trail}

theorem CompilationUnit.Similar.isEmpty_eq (h : u.Similar p u') : u'.isEmpty = u.isEmpty := by
  have hlength := congrArg List.length h.tree.ranges
  rw [List.length_map, List.length_map] at hlength
  unfold isEmpty
  rw [Bool.eq_iff_iff, List.isEmpty_iff_length_eq_zero, List.isEmpty_iff_length_eq_zero, hlength]

/-- **Two contexts of one position.** They are the same outside the code, and within it the two innermost nodes are
at the ends of similar trails. -/
theorem Context.ofPosition_similar (h : u.Similar p u') :
    ((ofPosition u p).region ≠ .within ∧ ofPosition u' p = ofPosition u p) ∨
      ∃ o o', o.Similar p o' ∧ ofPosition u p = within o.governing o p ∧
        ofPosition u' p = within o'.governing o' p := by
  have hrange : u'.range = u.range := h.tree.own.range
  unfold ofPosition
  rw [h.isEmpty_eq]
  by_cases hempty : u.isEmpty = true
  · rw [if_pos hempty, if_pos hempty]
    exact Or.inl ⟨by decide, rfl⟩
  · rw [if_neg hempty, if_neg hempty]
    cases ho : (Node.unit u).resolve p with
    | some o =>
      obtain ⟨o', ho', hsim⟩ := h.tree.resolve_eq_some ho
      rw [ho']
      exact Or.inr ⟨o, o', hsim, rfl, rfl⟩
    | none =>
      rw [h.tree.resolve_eq_none ho, hrange]
      refine Or.inl ⟨?_, rfl⟩
      by_cases hafter : u.range.isAfter p = true
      · simp [hafter]
      · simp [hafter]

/-- Between the sections of a unit the kinds of the neighbours are the same. -/
theorem Context.neighbours_kind (hg : g.Similar p g') (hrule : g.node.kind.rule = .unit) :
    (within g' o' p).prev.map Node.kind = (within g o p).prev.map Node.kind ∧
      (within g' o' p).next.map Node.kind = (within g o p).next.map Node.kind := by
  obtain ⟨v, hv⟩ := Node.eq_unit_of_rule hrule
  have hkind : g.node.kind = .compilationUnit := by rw [hv]; rfl
  exact Node.neighboursAmong_kind hg.node.ranges (hg.node.sections hkind) rfl

namespace Offers

/-- The suggestions on offer, given the visible symbols. -/
def items (o : Offers) (symbols : List Symbol) : List Suggestion :=
  o.memberSuggestions
    ++ (if o.static then [Suggestion.keyword "static"] else [])
    ++ (if o.void then [Suggestion.keyword "void"] else [])
    ++ (if o.types then Predefined.offered.map fun t => Suggestion.ofType (.predefined t) else [])
    ++ (if o.symbols || o.statements then symbols.map Suggestion.ofSymbol else [])
    ++ (if o.statements then Suggestion.statementStarts else [])

theorem suggestions_eq_items (o : Offers) (s : Script) (p : Position) :
    o.suggestions s p = o.items (s.visible o.context p) := rfl

/-- What is on offer, apart from the place: whether there are keywords, types, statements and symbols, and of a property
access whose members are offered the range, the name as typed and the type of the callee. -/
structure Flags where
  static : Bool
  void : Bool
  types : Bool
  statements : Bool
  symbols : Bool
  members : Option (Range × String × Option ScriptType)

/-- The flags of the offers. -/
def flags (o : Offers) : Flags :=
  ⟨o.static, o.void, o.types, o.statements, o.symbols, o.members.map fun a => (a.range, a.name, a.callee.type?)⟩

/-- The flags decide the items. -/
theorem items_eq_of_flags {o o' : Offers} (h : o'.flags = o.flags) : o'.items = o.items := by
  obtain ⟨hstatic, hvoid, htypes, hstatements, hsymbols, hmembers⟩ := Flags.mk.inj h
  have hsuggestions : o'.memberSuggestions = o.memberSuggestions := by
    unfold memberSuggestions
    cases hm : o.members with
    | none =>
      rw [hm] at hmembers
      rw [Option.map_eq_none_iff.mp hmembers]
    | some a =>
      rw [hm] at hmembers
      obtain ⟨a', ha', heq⟩ := Option.map_eq_some_iff.mp hmembers
      obtain ⟨-, hrest⟩ := Prod.mk.inj heq
      obtain ⟨hname, htype⟩ := Prod.mk.inj hrest
      simp only [ha', hname, htype]
  funext symbols
  unfold items
  rw [hsuggestions, hstatic, hvoid, htypes, hstatements, hsymbols]

/-- The flags depend on the kinds of the neighbours alone. -/
theorem statementsMayStart_eq {next next' : Option Node} (h : next'.map Node.kind = next.map Node.kind) :
    statementsMayStart next' = statementsMayStart next := by
  cases next with
  | none =>
    obtain rfl := Option.map_eq_none_iff.mp h
    rfl
  | some n =>
    obtain ⟨n', rfl, hk⟩ := Option.map_eq_some_iff.mp h
    show (n'.kind == _) = (n.kind == _)
    rw [hk]

theorem inUnit_flags {c c' : Context} (hprev : c'.prev.map Node.kind = c.prev.map Node.kind)
    (hnext : c'.next.map Node.kind = c.next.map Node.kind) : (inUnit c').map flags = (inUnit c).map flags := by
  unfold inUnit
  rw [hprev, statementsMayStart_eq hnext]
  cases c.prev.map Node.kind with
  | none => rfl
  | some kind =>
    cases kind with
    | _ => rfl

/-- In a static section also the item that the cursor is in is looked at, and whether its name is over. -/
theorem inStaticSection_flags (hg : g.Similar p g') (ho : o.Similar p o') (hasFunctions : Bool) :
    (inStaticSection (.within g' o' p) hasFunctions).flags = (inStaticSection (.within g o p) hasFunctions).flags := by
  have hitem : (Context.within g' o' p).sectionItem?.map (fun n => pastName n (some p)) =
      (Context.within g o p).sectionItem?.map fun n => pastName n (some p) := by
    have h := ho.pastName_eq hg
    simp only [Context.sectionItem?, Context.within, Option.map_map]
    exact h
  unfold inStaticSection
  cases hc : (Context.within g o p).sectionItem? with
  | none =>
    rw [hc] at hitem
    rw [Option.map_eq_none_iff.mp hitem]
    rfl
  | some item =>
    rw [hc] at hitem
    obtain ⟨item', hc', hpast⟩ := Option.map_eq_some_iff.mp hitem
    rw [hc']
    show ({ context := _, symbols := pastName item' (some p) } : Offers).flags =
      ({ context := _, symbols := pastName item (some p) } : Offers).flags
    rw [hpast]
    rfl

theorem atMemberAccess_flags (hg : g.Similar p g') (hrule : g.node.kind.rule = .memberAccess) :
    (atMemberAccess (.within g' o' p)).map flags = (atMemberAccess (.within g o p)).map flags := by
  obtain ⟨a, ha⟩ := Node.eq_access_of_rule hrule
  obtain ⟨a', ha'⟩ := Node.eq_access_of_rule (hg.node.own.kind.symm ▸ hrule)
  have hrange := hg.node.own.range
  have haccessed := hg.node.own.accessed
  rw [ha, ha'] at hrange haccessed
  obtain ⟨hname, hrest⟩ := Prod.mk.inj (Option.some.inj haccessed)
  obtain ⟨hmember, htype⟩ := Prod.mk.inj hrest
  have hnode : (Context.within g o p).node? = some (.access a) := congrArg some ha
  have hnode' : (Context.within g' o' p).node? = some (.access a') := congrArg some ha'
  unfold atMemberAccess
  rw [hnode, hnode']
  show Except.ok (flags { context := _, members := if a'.member.isNone then some a' else none }) =
    Except.ok (flags { context := _, members := if a.member.isNone then some a else none })
  rw [hmember]
  cases a.member with
  | none =>
    show Except.ok (Flags.mk _ _ _ _ _ (some ((Node.access a').range, a'.name, a'.callee.type?))) =
      Except.ok (Flags.mk _ _ _ _ _ (some ((Node.access a).range, a.name, a.callee.type?)))
    rw [hrange, hname, htype]
  | some _ => rfl

/-- The rule of the governing node decides. -/
theorem ofContext_within (u : UnitNode) (g o : Trail) (p : Position) :
    ofContext u (.within g o p) =
      match g.node.kind.rule with
      | .unit => inUnit (.within g o p)
      | .staticSection => .ok (inStaticSection (.within g o p) !u.functions.items.isEmpty)
      | .functionSection => .ok { context := .within g o p, void := true, types := true }
      | .statements => .ok { context := .within g o p, statements := true, symbols := true }
      | .memberAccess => atMemberAccess (.within g o p)
      | .empty => .ok { context := .within g o p }
      | .defer => .error (.unhandled .within (some .defer)) := by
  have hrule : (Context.within g o p).rule = some g.node.kind.rule := rfl
  unfold ofContext
  rw [hrule]
  cases g.node.kind.rule <;> rfl

/-- In one context the unit itself only matters for which sections it has. -/
theorem ofContext_eq_of_similar (hu : u.Similar p u') (c : Context) : ofContext u' c = ofContext u c := by
  unfold ofContext
  rw [hu.noStatics, hu.noFunctions, hu.noStatements]

/-- **The offers within the code** have the same flags. -/
theorem ofContext_within_flags (hg : g.Similar p g') (ho : o.Similar p o') :
    (ofContext u (.within g' o' p)).map flags = (ofContext u (.within g o p)).map flags := by
  rw [ofContext_within, ofContext_within, hg.node.own.kind]
  cases hrule : g.node.kind.rule with
  | unit =>
    obtain ⟨hprev, hnext⟩ := Context.neighbours_kind hg hrule
    exact inUnit_flags hprev hnext
  | staticSection => exact congrArg Except.ok (inStaticSection_flags hg ho _)
  | memberAccess => exact atMemberAccess_flags hg hrule
  | _ => rfl

/-- **The offers at a position** have the same flags. -/
theorem flags_ofPosition (hu : u.Similar p u') : (ofPosition u' p).map flags = (ofPosition u p).map flags := by
  unfold ofPosition
  rw [Context.locate_eq_ok, Context.locate_eq_ok]
  show (ofContext u' (.ofPosition u' p)).map flags = (ofContext u (.ofPosition u p)).map flags
  rw [ofContext_eq_of_similar hu]
  rcases Context.ofPosition_similar hu with ⟨-, heq⟩ | ⟨o, o', ho, hc, hc'⟩
  · rw [heq]
  · rw [hc, hc']
    exact ofContext_within_flags (ho.climb true) ho

/-- **The offers at a position** come to the same items. -/
theorem items_ofPosition (hu : u.Similar p u') : (ofPosition u' p).map items = (ofPosition u p).map items := by
  obtain ⟨o, ho, -⟩ := ofPosition_eq_ok u p
  obtain ⟨o', ho', -⟩ := ofPosition_eq_ok u' p
  have hflags := flags_ofPosition hu
  rw [ho, ho'] at hflags ⊢
  exact congrArg Except.ok (items_eq_of_flags (Except.ok.inj hflags))

end Offers

/-! ## Symbols -/

namespace Script

variable {constants : List Symbol}

/-- Between sections the kind of the last one decides. -/
theorem visibleInUnit_eq_of_prev {c c' : Context} (hu : u.Similar p u')
    (hprev : c'.prev.map Node.kind = c.prev.map Node.kind) : visibleInUnit u' c' = visibleInUnit u c := by
  unfold visibleInUnit
  rw [hprev, hu.statics, hu.functions, hu.statements]

/-- Elsewhere the trails decide. -/
theorem visibleInBlock_eq_of_similar (hu : u.Similar p u') (hg : g.Similar p g') (ho : o.Similar p o') :
    visibleInBlock u' (.within g' o' p) p = visibleInBlock u (.within g o p) p := by
  show (if some g'.node.kind.rule == some .statements || o'.inBlock then
      u'.staticSymbols ++ u'.functionSymbols ++ o'.locals p else []) =
    if some g.node.kind.rule == some .statements || o.inBlock then
      u.staticSymbols ++ u.functionSymbols ++ o.locals p else []
  rw [hg.node.own.kind, ho.inBlock_eq, ho.locals_eq, hu.statics, hu.functions]

/-- **The symbols at a position** are the same. -/
theorem visible_ofPosition (hu : u.Similar p u') :
    visible ⟨u', constants⟩ (.ofPosition u' p) p = visible ⟨u, constants⟩ (.ofPosition u p) p := by
  rcases Context.ofPosition_similar hu with ⟨hregion, heq⟩ | ⟨o, o', ho, hc, hc'⟩
  · rw [heq]
    unfold visible
    rw [hu.statics, hu.functions, hu.statements]
    cases hr : (Context.ofPosition u p).region with
    | within => exact absurd hr hregion
    | _ => rfl
  · have hg : o.governing.Similar p o'.governing := ho.climb true
    rw [hc, hc', visible_within, visible_within, hg.node.own.kind]
    congr 1
    cases hrule : o.governing.node.kind.rule with
    | unit => exact visibleInUnit_eq_of_prev hu (Context.neighbours_kind hg hrule).1
    | staticSection => exact hu.priorStatics
    | functionSection => exact congrArg₂ (· ++ ·) hu.statics hu.functions
    | _ => exact visibleInBlock_eq_of_similar hu hg ho

/-! ## Requests -/

/-- A request on two scripts has one answer if both accept or refuse it alike, the same items are on offer and the same
symbols visible. -/
theorem complete_eq_of_items {s s' : Script} {base : Int} (hfault : s'.requestFault? base p = s.requestFault? base p)
    (hitems : (Offers.ofPosition s'.unit p).map Offers.items = (Offers.ofPosition s.unit p).map Offers.items)
    (hvisible : s'.visible (.ofPosition s'.unit p) p = s.visible (.ofPosition s.unit p) p) :
    s'.complete base p = s.complete base p := by
  obtain ⟨o, ho, hcontext⟩ := Offers.ofPosition_eq_ok s.unit p
  obtain ⟨o', ho', hcontext'⟩ := Offers.ofPosition_eq_ok s'.unit p
  rw [ho, ho'] at hitems
  have hsame : o'.items = o.items := Except.ok.inj hitems
  unfold complete
  rw [hfault, ho, ho']
  simp only [Offers.suggestions_eq_items, hcontext, hcontext', hsame, hvisible]

/-- **Similar scripts complete alike.** Two scripts without a misplaced node that are similar at a position have the
same suggestions there. -/
theorem complete_eq_of_similar (hu : u.Similar p u') (hm : (Node.unit u).misplaced? = none)
    (hm' : (Node.unit u').misplaced? = none) (base : Int) :
    complete ⟨u', constants⟩ base p = complete ⟨u, constants⟩ base p := by
  refine complete_eq_of_items ?_ (Offers.items_ofPosition hu) (visible_ofPosition hu)
  unfold requestFault?
  rw [hm, hm']

end Script

end Caret
