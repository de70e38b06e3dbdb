import Caret.Document.Load
import Caret.Proofs.Records
import Caret.Proofs.Requests
import Caret.Proofs.Scoping
/-!
# `Caret.Proofs.Sources` — the nodes that visible symbols come from

Two declarations may have equal symbols, so a list of symbols does not say where they were taken. This module
repeats the collection of visible symbols with the nodes in their place: `sources` lists them, and the visible
symbols are the constants and what the sources introduce (`visible_eq_sources`).

A local declaration is a source only after it has ended, but for one place. Between the sections of a unit the
statements of the whole script are taken without a look at where they stand. For the script itself this is right:
the section before the cursor is that of its statements. A unit that stands inside another one has statements of its
own before the cursor, and those of the script need not have ended there (`future_local_in_nested_unit`).

## Contents
- **Sources.** `Trail.steps`, `itemTrails`; `staticSources`, `functionSources`, `statementSources`, `sources`.
- **What they introduce.** `Node.introduced`, `visible_eq_sources`.
- **Locals among them.** `Trail.IsLocal`, `ended_of_mem_sources`.
- **When locals have ended.** `locals_ended_exactly`.
-/

namespace Caret

/-! ## Sources -/

/-- The symbols that a node introduces: a name the one it stands for, another node those that it gives to its scope. -/
def Node.introduced : Node → List Symbol
  | .name n => n.symbol.toList
  | n => n.given

namespace Trail

/-- The trails that go one step further. -/
def steps (t : Trail) : List Trail := t.node.children.zipIdx.map fun c => .child t c.2 c.1

/-- A step goes to a child, and remembers at which place it stands. -/
theorem mem_steps {s t : Trail} : s ∈ t.steps ↔ ∃ i c, s = .child t i c ∧ t.node.children[i]? = some c := by
  unfold steps
  rw [List.mem_map]
  constructor
  · rintro ⟨⟨c, i⟩, hc, rfl⟩
    exact ⟨i, c, rfl, List.mk_mem_zipIdx_iff_getElem?.mp hc⟩
  · rintro ⟨i, c, rfl, hc⟩
    exact ⟨(c, i), List.mk_mem_zipIdx_iff_getElem?.mpr hc, rfl⟩

theorem map_node_steps (t : Trail) : t.steps.map node = t.node.children := by
  unfold steps
  rw [List.map_map]
  exact List.zipIdx_map_fst 0 t.node.children

theorem From.of_mem_steps {root : Node} {s t : Trail} (ht : t.From root) (hs : s ∈ t.steps) : s.From root := by
  obtain ⟨i, c, rfl, hc⟩ := mem_steps.mp hs
  exact .child ht hc

end Trail

namespace CompilationUnit

/-- The trails to the items of the section of a kind. -/
def itemTrails (u : UnitNode) (kind : NodeKind) : List Trail :=
  ((Trail.root (.unit u)).steps.filter fun s => s.node.kind == kind).flatMap Trail.steps

/-- The static declarations. -/
def staticSources (u : UnitNode) : List Trail := u.itemTrails .staticVariablesList

/-- The names of the functions, each of which is the second child of its function. -/
def functionSources (u : UnitNode) : List Trail := (u.itemTrails .functionsList).flatMap fun f => f.steps[1]?.toList

/-- The declarations among the statements at the top level. -/
def statementSources (u : UnitNode) : List Trail :=
  (u.itemTrails .statementsList).filter fun t => t.node.isDeclaration

/-- The sources beside the constants between two sections of a unit. -/
def sourcesInUnit (u : UnitNode) (c : Context) : List Trail :=
  match c.prev.map Node.kind with
  | some .staticVariablesList => u.staticSources
  | some .functionsList => u.staticSources ++ u.functionSources
  | some .statementsList => u.staticSources ++ u.functionSources ++ u.statementSources
  | _ => []

/-- The sources beside the constants elsewhere within the unit. -/
def sourcesInBlock (u : UnitNode) (c : Context) (p : Position) : List Trail :=
  let origin := c.origin.or c.governing
  if c.rule == some .statements || (origin.map Trail.inBlock).getD false then
    u.staticSources ++ u.functionSources ++ (origin.map (Trail.sites · p)).getD []
  else []

/-- **Sources.** The nodes whose symbols are visible at a position beside the constants, in the order of their
symbols. -/
def sources (u : UnitNode) (c : Context) (p : Position) : List Trail :=
  match c.region with
  | .afterLast => u.staticSources ++ u.functionSources ++ u.statementSources
  | .noCode | .beforeFirst => []
  | .within =>
    match c.rule with
    | some .unit => u.sourcesInUnit c
    | some .staticSection => u.staticSources.filter fun t => t.node.range.isBefore p
    | some .functionSection => u.staticSources ++ u.functionSources
    | _ => u.sourcesInBlock c p

/-! ## The sources introduce the visible symbols -/

/-- The items of a section, reached in two steps from the root. -/
theorem map_node_itemTrails (u : UnitNode) (kind : NodeKind) :
    (u.itemTrails kind).map Trail.node =
      ((Node.unit u).children.filter fun c => c.kind == kind).flatMap Node.children := by
  have hsections : (Trail.root (.unit u)).steps.map Trail.node = (Node.unit u).children := Trail.map_node_steps _
  unfold itemTrails
  rw [← hsections, List.map_flatMap, List.filter_map, List.flatMap_map]
  congr 1
  funext s
  exact Trail.map_node_steps s

end CompilationUnit

/-- A section that is there has its items as children, and one that is not there has none. -/
theorem Node.flatMap_children_sectionNode {α : Type} {node : Group α → Node} {g : Group α}
    (h : g.items = [] → (node g).children = []) : (sectionNode node g).flatMap children = (node g).children := by
  unfold sectionNode
  by_cases hg : g.items.isEmpty = true
  · rw [if_pos hg, h (List.isEmpty_iff.mp hg)]
    rfl
  · rw [if_neg hg]
    exact List.flatMap_singleton _ _

/-- A section is found by its kind, if it is there. -/
theorem Node.filter_kind_sectionNode {α : Type} {node : Group α → Node} {g : Group α} (kind : NodeKind) :
    (sectionNode node g).filter (fun c => c.kind == kind) =
      if (node g).kind = kind then sectionNode node g else [] := by
  unfold sectionNode
  by_cases hg : g.items.isEmpty = true
  · simp [hg]
  · by_cases hk : (node g).kind = kind
    · simp [hg, hk]
    · simp [hg, hk]

namespace CompilationUnit

/-- The trails to the items of a section lead to its children, whether or not it has any. -/
theorem map_node_itemTrails_kind (u : UnitNode) {sec : Node}
    (h : sec = .statics u.statics ∨ sec = .functions u.functions ∨ sec = .block u.statements) :
    (u.itemTrails sec.kind).map Trail.node = sec.children := by
  rw [map_node_itemTrails, Node.children]
  simp only [List.filter_append, Node.filter_kind_sectionNode]
  rcases h with rfl | rfl | rfl
  all_goals
    simp only [Node.kind, reduceCtorEq, if_true, if_false, List.append_nil, List.nil_append]
    exact Node.flatMap_children_sectionNode (by simp [Node.children])

/-- The sources of each section are the nodes that the collection of symbols goes through. -/
theorem map_node_staticSources (u : UnitNode) : u.staticSources.map Trail.node = u.declarations :=
  u.map_node_itemTrails_kind (Or.inl rfl)

theorem map_node_functionSources (u : UnitNode) :
    u.functionSources.map Trail.node = u.functions.items.map fun f => .name f.name := by
  have hitems : (u.itemTrails .functionsList).map Trail.node = u.functions.items.map .function :=
    u.map_node_itemTrails_kind (Or.inr (Or.inl rfl))
  have hname : ∀ f : Trail, f.steps[1]?.toList.map Trail.node = f.node.children[1]?.toList := by
    intro f
    rw [← Trail.map_node_steps f, List.getElem?_map]
    cases f.steps[1]? <;> rfl
  calc u.functionSources.map Trail.node
    _ = (u.itemTrails .functionsList).flatMap fun f => f.node.children[1]?.toList := by
      unfold functionSources
      rw [List.map_flatMap]
      simp only [hname]
    _ = ((u.itemTrails .functionsList).map Trail.node).flatMap fun n => n.children[1]?.toList := by
      rw [List.flatMap_map]
    _ = u.functions.items.map fun f => .name f.name := by
      rw [hitems, List.flatMap_map, List.map_eq_flatMap]
      rfl

theorem map_node_statementSources (u : UnitNode) :
    u.statementSources.map Trail.node = u.statements.items.filter Node.isDeclaration := by
  have hitems : (u.itemTrails .statementsList).map Trail.node = u.statements.items :=
    u.map_node_itemTrails_kind (Or.inr (Or.inr rfl))
  unfold statementSources
  rw [← hitems, List.filter_map]
  rfl

end CompilationUnit

/-- Declarations among statements, taken one by one. -/
theorem declared_eq_flatMap (ns : List Node) :
    declared ns = (ns.filter Node.isDeclaration).flatMap Node.introduced := by
  induction ns with
  | nil => rfl
  | cons n ns ih =>
    rw [declared_cons, ih, List.filter_cons]
    by_cases hn : n.isDeclaration = true
    · obtain ⟨d, rfl⟩ := Node.isDeclaration_iff.mp hn
      rw [if_pos hn, if_pos hn, List.flatMap_cons]
      rfl
    · rw [if_neg hn, if_neg hn, List.nil_append]

namespace CompilationUnit

variable {u : UnitNode} {c : Context} {p : Position} {t : Trail}

theorem flatMap_introduced (ts : List Trail) :
    (ts.flatMap fun t => t.node.introduced) = (ts.map Trail.node).flatMap Node.introduced := by
  rw [List.flatMap_map]

/-- Of the static declarations, whichever are left when some are dropped, all are declarations. -/
theorem filter_isDeclaration_of_subset {ns : List Node} (h : ns ⊆ u.declarations) :
    ns.filter Node.isDeclaration = ns := by
  refine List.filter_eq_self.mpr ?_
  intro n hn
  obtain ⟨d, -, rfl⟩ := List.mem_map.mp (h hn)
  rfl

/-- The symbols of a section are those that its sources introduce, in the same order. -/
theorem staticSymbols_eq (u : UnitNode) : u.staticSymbols = u.staticSources.flatMap fun t => t.node.introduced := by
  rw [flatMap_introduced, map_node_staticSources, ← filter_isDeclaration_of_subset (List.Subset.refl u.declarations)]
  exact declared_eq_flatMap _

/-- In the static section only the declarations that have ended are taken. -/
theorem declared_priorTo_declarations (u : UnitNode) (p : Position) :
    declared (priorTo u.declarations p) =
      (u.staticSources.filter fun t => t.node.range.isBefore p).flatMap fun t => t.node.introduced := by
  have hprior : (u.staticSources.filter fun t => t.node.range.isBefore p).map Trail.node =
      priorTo u.declarations p := by
    rw [← map_node_staticSources]
    unfold priorTo
    rw [List.filter_map]
    rfl
  have hsub : priorTo u.declarations p ⊆ u.declarations := fun _ hn => List.mem_of_mem_filter hn
  rw [flatMap_introduced, hprior, declared_eq_flatMap, filter_isDeclaration_of_subset hsub]

theorem functionSymbols_eq (u : UnitNode) :
    u.functionSymbols = u.functionSources.flatMap fun t => t.node.introduced := by
  rw [flatMap_introduced, map_node_functionSources, List.flatMap_map]
  unfold functionSymbols
  rw [List.filterMap_eq_flatMap_toList]
  rfl

theorem statementSymbols_eq (u : UnitNode) :
    u.statementSymbols = u.statementSources.flatMap fun t => t.node.introduced := by
  rw [flatMap_introduced, map_node_statementSources]
  exact declared_eq_flatMap _

end CompilationUnit

namespace Trail

variable {root : Node} {p : Position} {o s t : Trail}

/-- A site is a declaration, or a node with a body that its symbols are for. -/
theorem introduced_of_mem_sites (h : t ∈ o.sites p) : t.node.introduced = t.node.given := by
  rcases mem_ownSites.mp (mem_sites.mp h).2 with ⟨i, d, heq, -, -⟩ | ⟨heq, r, hr, -⟩
  · rw [heq]
    rfl
  · rw [heq]
    cases hn : t.scope.node with
    | name n =>
      rw [hn] at hr
      contradiction
    | _ => rfl

/-- Local symbols, collected along the trail. -/
theorem locals_eq_sources (o : Trail) (p : Position) : o.locals p = (o.sites p).flatMap fun t => t.node.introduced := by
  rw [locals_eq_flatMap_sites]
  exact List.flatMap_congr fun t ht => (introduced_of_mem_sites ht).symm

end Trail

namespace CompilationUnit

variable {u : UnitNode} {c : Context} {p : Position} {t : Trail}

/-- Both ways to collect symbols within the unit have their sources. -/
theorem visibleInUnit_eq (u : UnitNode) (c : Context) :
    Script.visibleInUnit u c = (u.sourcesInUnit c).flatMap fun t => t.node.introduced := by
  unfold Script.visibleInUnit sourcesInUnit
  cases c.prev.map Node.kind with
  | none => rfl
  | some kind =>
    cases kind with
    | staticVariablesList => exact staticSymbols_eq u
    | functionsList => simp only [List.flatMap_append, staticSymbols_eq, functionSymbols_eq]
    | statementsList => simp only [List.flatMap_append, staticSymbols_eq, functionSymbols_eq, statementSymbols_eq]
    | _ => rfl

theorem visibleInBlock_eq (u : UnitNode) (c : Context) (p : Position) :
    Script.visibleInBlock u c p = (u.sourcesInBlock c p).flatMap fun t => t.node.introduced := by
  unfold Script.visibleInBlock sourcesInBlock
  by_cases hblock : (c.rule == some .statements || ((c.origin.or c.governing).map Trail.inBlock).getD false) = true
  · simp only [hblock, if_true]
    rw [List.flatMap_append, List.flatMap_append, staticSymbols_eq, functionSymbols_eq]
    congr 1
    cases c.origin.or c.governing with
    | none => rfl
    | some o => exact Trail.locals_eq_sources o p
  · simp only [hblock]
    rfl

/-- **Visible symbols by their sources.** In every context the visible symbols are the constants and what the sources
introduce, source after source. -/
theorem visible_eq_sources (s : Script) (c : Context) (p : Position) :
    s.visible c p = s.constants ++ (s.unit.sources c p).flatMap fun t => t.node.introduced := by
  unfold Script.visible sources
  congr 1
  cases c.region with
  | noCode => rfl
  | beforeFirst => rfl
  | afterLast =>
    simp only [List.flatMap_append, staticSymbols_eq, functionSymbols_eq, statementSymbols_eq]
  | within =>
    cases c.rule with
    | none => exact visibleInBlock_eq s.unit c p
    | some rule =>
      cases rule with
      | unit => exact visibleInUnit_eq s.unit c
      | staticSection => exact declared_priorTo_declarations s.unit p
      | functionSection => simp only [List.flatMap_append, staticSymbols_eq, functionSymbols_eq]
      | _ => exact visibleInBlock_eq s.unit c p

end CompilationUnit

/-! ## Locals among the sources -/

namespace Trail

variable {root : Node} {p : Position} {o t : Trail}

/-- **Local declarations.** The trail leads to a declaration that is a statement of a block or stands first in the
head of a counting loop. -/
def IsLocal (t : Trail) : Prop :=
  ∃ s i d, t = .child s i (.declaration d) ∧ s.node.declaring[i]? = some (.declaration d)

/-- A local declaration is a site only once it has ended. -/
theorem stop_lt_of_mem_sites (h : t ∈ o.sites p) (hl : t.IsLocal) : t.node.range.stop < p := by
  obtain ⟨s, i, d, rfl, -⟩ := hl
  rcases mem_ownSites.mp (mem_sites.mp h).2 with ⟨j, e, heq, -, hstop⟩ | ⟨heq, r, hr, -⟩
  · rw [heq]
    exact hstop
  · -- a declaration has no body
    rw [← heq] at hr
    contradiction

/-- Sites lie in the tree of the trail they are taken from. -/
theorem From.of_mem_sites (ho : o.From root) (h : t ∈ o.sites p) : t.From root := by
  obtain ⟨hscope, hown⟩ := mem_sites.mp h
  have hfrom : t.scope.From root := ho.of_mem_links hscope
  rcases mem_ownSites.mp hown with ⟨i, d, heq, hd, -⟩ | ⟨heq, -⟩
  · rw [heq]
    exact .child hfrom (Node.children_of_declaring hd)
  · rw [heq]
    exact hfrom

end Trail

namespace CompilationUnit

variable {u : UnitNode} {p : Position} {t : Trail} {kind : NodeKind}

/-- Where the items of a section stand in the tree. -/
theorem mem_itemTrails :
    t ∈ u.itemTrails kind ↔
      ∃ i sec j n, t = .child (.child (.root (.unit u)) i sec) j n ∧ (Node.unit u).children[i]? = some sec ∧
        sec.kind = kind ∧ sec.children[j]? = some n := by
  unfold itemTrails
  rw [List.mem_flatMap]
  constructor
  · rintro ⟨s, hs, ht⟩
    obtain ⟨hsteps, hkind⟩ := List.mem_filter.mp hs
    obtain ⟨i, sec, rfl, hsec⟩ := Trail.mem_steps.mp hsteps
    obtain ⟨j, n, rfl, hn⟩ := Trail.mem_steps.mp ht
    exact ⟨i, sec, j, n, rfl, hsec, by simpa [Trail.node] using hkind, hn⟩
  · rintro ⟨i, sec, j, n, rfl, hsec, hkind, hn⟩
    refine ⟨.child (.root (.unit u)) i sec, List.mem_filter.mpr ⟨Trail.mem_steps.mpr ⟨i, sec, rfl, hsec⟩, ?_⟩, ?_⟩
    · simpa [Trail.node] using hkind
    · exact Trail.mem_steps.mpr ⟨j, n, rfl, hn⟩

theorem from_of_mem_itemTrails (h : t ∈ u.itemTrails kind) : t.From (.unit u) := by
  obtain ⟨i, sec, j, n, rfl, hsec, -, hn⟩ := mem_itemTrails.mp h
  exact .child (.child .root hsec) hn

theorem from_of_mem_functionSources (h : t ∈ u.functionSources) : t.From (.unit u) := by
  obtain ⟨f, hf, ht⟩ := List.mem_flatMap.mp h
  have hstep : t ∈ f.steps := List.mem_of_getElem? (Option.mem_toList.mp ht)
  exact (from_of_mem_itemTrails hf).of_mem_steps hstep

/-- A static declaration is not local. -/
theorem not_isLocal_of_mem_staticSources (h : t ∈ u.staticSources) : ¬ t.IsLocal := by
  obtain ⟨i, sec, j, n, rfl, hsec, hkind, -⟩ := mem_itemTrails.mp h
  rintro ⟨s, k, d, heq, hd⟩
  obtain ⟨rfl, -, -⟩ := Trail.child.inj heq
  rcases Node.mem_children_unit.mp (List.mem_of_getElem? hsec) with ⟨rfl, -⟩ | ⟨rfl, -⟩ | ⟨rfl, -⟩
  · contradiction
  · contradiction
  · contradiction

/-- The name of a function is no declaration. -/
theorem not_isLocal_of_mem_functionSources (h : t ∈ u.functionSources) : ¬ t.IsLocal := by
  have hnode : t.node ∈ u.functionSources.map Trail.node := List.mem_map_of_mem h
  rw [map_node_functionSources] at hnode
  obtain ⟨f, -, hf⟩ := List.mem_map.mp hnode
  rintro ⟨s, i, d, rfl, -⟩
  contradiction

/-- The declarations among the statements of the script as a whole. -/
theorem mem_statementSources :
    t ∈ u.statementSources ↔
      ∃ i j d, t = .child (.child (.root (.unit u)) i (.block u.statements)) j (.declaration d) ∧
        (Node.unit u).children[i]? = some (.block u.statements) ∧ u.statements.items[j]? = some (.declaration d) := by
  unfold statementSources
  rw [List.mem_filter, mem_itemTrails]
  constructor
  · rintro ⟨⟨i, sec, j, n, rfl, hsec, hkind, hn⟩, hdecl⟩
    obtain ⟨d, rfl⟩ := Node.isDeclaration_iff.mp hdecl
    rcases Node.mem_children_unit.mp (List.mem_of_getElem? hsec) with ⟨rfl, -⟩ | ⟨rfl, -⟩ | ⟨rfl, -⟩
    · contradiction
    · contradiction
    · exact ⟨i, j, d, rfl, hsec, hn⟩
  · rintro ⟨i, j, d, rfl, hsec, hd⟩
    exact ⟨⟨i, _, j, _, rfl, hsec, rfl, hd⟩, rfl⟩

/-- The statements of a script have ended where their section has. -/
theorem stop_lt_of_mem_statementSources (hu : (Node.unit u).misplaced? = none) (h : t ∈ u.statementSources)
    (hp : u.statements.range.stop < p) : t.node.range.stop < p := by
  obtain ⟨i, j, d, rfl, hsec, hd⟩ := mem_statementSources.mp h
  have hord : (Node.block u.statements).Ordered := (Trail.From.child .root hsec).ordered hu
  exact lt_of_le_of_lt (hord.inside _ (List.mem_of_getElem? hd)).2 hp

end CompilationUnit

/-- **After the statements of a nested unit.** A unit that stands inside another one governs, and its statements
have ended before the cursor. -/
def Context.PastNestedStatements (c : Context) : Prop :=
  (∃ t i v, c.governing = some (.child t i (.unit v))) ∧ c.prev.map Node.kind = some .statementsList

namespace CompilationUnit

variable {u : UnitNode} {c : Context} {p : Position} {t : Trail}

/-- Between the sections, statements are sources only behind them. -/
theorem mem_sourcesInUnit (h : t ∈ u.sourcesInUnit c) :
    t ∈ u.staticSources ∨ t ∈ u.functionSources ∨
      t ∈ u.statementSources ∧ c.prev.map Node.kind = some .statementsList := by
  unfold sourcesInUnit at h
  cases hprev : c.prev.map Node.kind with
  | none =>
    rw [hprev] at h
    contradiction
  | some kind =>
    rw [hprev] at h
    cases kind with
    | staticVariablesList => exact Or.inl h
    | functionsList => exact (List.mem_append.mp h).imp_right Or.inl
    | statementsList =>
      rcases List.mem_append.mp h with h | h
      · exact (List.mem_append.mp h).imp_right Or.inl
      · exact Or.inr (Or.inr ⟨h, rfl⟩)
    | _ => contradiction

/-- Elsewhere, beside the top level, all sources are sites of one trail. -/
theorem mem_sourcesInBlock (h : t ∈ u.sourcesInBlock c p) :
    t ∈ u.staticSources ∨ t ∈ u.functionSources ∨ ∃ o, c.origin.or c.governing = some o ∧ t ∈ o.sites p := by
  unfold sourcesInBlock at h
  by_cases hblock : (c.rule == some .statements || ((c.origin.or c.governing).map Trail.inBlock).getD false) = true
  · simp only [hblock, if_true] at h
    rcases List.mem_append.mp h with h | h
    · exact (List.mem_append.mp h).imp_right Or.inl
    · cases ho : c.origin.or c.governing with
      | none =>
        rw [ho] at h
        contradiction
      | some o =>
        rw [ho] at h
        exact Or.inr (Or.inr ⟨o, rfl, h⟩)
  · simp only [hblock] at h
    contradiction

/-- **Where a source was taken.** Sources are static declarations, names of functions and sites along the way to the
innermost node; the statements of the script as a whole are taken after the code, and between the sections of a unit
when the one before the cursor holds statements. -/
theorem mem_sources (h : t ∈ u.sources c p) :
    t ∈ u.staticSources ∨ t ∈ u.functionSources ∨ (∃ o, c.origin.or c.governing = some o ∧ t ∈ o.sites p) ∨
      t ∈ u.statementSources ∧ (c.region = .afterLast ∨
        c.region = .within ∧ c.rule = some .unit ∧ c.prev.map Node.kind = some .statementsList) := by
  unfold sources at h
  cases hregion : c.region with
  | noCode =>
    rw [hregion] at h
    contradiction
  | beforeFirst =>
    rw [hregion] at h
    contradiction
  | afterLast =>
    rw [hregion] at h
    rcases List.mem_append.mp h with h | h
    · exact (List.mem_append.mp h).imp_right Or.inl
    · exact Or.inr (Or.inr (Or.inr ⟨h, Or.inl rfl⟩))
  | within =>
    rw [hregion] at h
    cases hrule : c.rule with
    | none =>
      rw [hrule] at h
      exact (mem_sourcesInBlock h).imp_right (Or.imp_right Or.inl)
    | some rule =>
      rw [hrule] at h
      cases rule with
      | unit =>
        rcases mem_sourcesInUnit h with h | h | ⟨h, hprev⟩
        · exact Or.inl h
        · exact Or.inr (Or.inl h)
        · exact Or.inr (Or.inr (Or.inr ⟨h, Or.inr ⟨rfl, rfl, hprev⟩⟩))
      | staticSection => exact Or.inl (List.mem_of_mem_filter h)
      | functionSection => exact (List.mem_append.mp h).imp_right Or.inl
      | _ => exact (mem_sourcesInBlock h).imp_right (Or.imp_right Or.inl)

/-- The sources at a position are nodes of the script. -/
theorem from_of_mem_sources (h : t ∈ u.sources (.ofPosition u p) p) : t.From (.unit u) := by
  rcases mem_sources h with h | h | ⟨o, ho, h⟩ | ⟨h, -⟩
  · exact from_of_mem_itemTrails h
  · exact from_of_mem_functionSources h
  · rcases Context.ofPosition_cases u p with ⟨-, hc⟩ | ⟨-, hc⟩ | ⟨-, hc⟩ | ⟨o', ho', hc⟩
    · rw [hc] at ho
      contradiction
    · rw [hc] at ho
      contradiction
    · rw [hc] at ho
      contradiction
    · rw [hc] at ho
      obtain rfl : o' = o := Option.some.inj ho
      exact (Trail.resolve_eq_some_iff.mp ho').1.toFrom.of_mem_sites h
  · exact from_of_mem_itemTrails (List.mem_of_mem_filter h)

/-- Where the section on the left of the cursor is that of the statements of the script, they have ended. -/
theorem stop_lt_of_prev (hu : (Node.unit u).misplaced? = none)
    (hprev : ((Node.unit u).neighbours p).1.map Node.kind = some .statementsList) : u.statements.range.stop < p := by
  obtain ⟨sec, hsec, hkind⟩ := Option.map_eq_some_iff.mp hprev
  have hord := Node.ordered_of_misplaced?_eq_none hu
  have hended : sec.range.stop < p := (Node.of_neighbours_fst hord hord.apart hsec).1
  rcases Node.mem_children_unit.mp (Node.neighbours_fst_mem hsec) with ⟨rfl, -⟩ | ⟨rfl, -⟩ | ⟨rfl, -⟩
  · contradiction
  · contradiction
  · exact hended

/-- **Local sources have ended**, unless a nested unit governs and what is taken are the statements of the script. -/
theorem ended_of_mem_sources (hu : (Node.unit u).misplaced? = none) (h : t ∈ u.sources (.ofPosition u p) p)
    (hl : t.IsLocal) :
    t.node.range.stop < p ∨ (Context.ofPosition u p).PastNestedStatements ∧ t ∈ u.statementSources := by
  rcases mem_sources h with h | h | ⟨o, ho, h⟩ | ⟨h, hplace⟩
  · exact absurd hl (not_isLocal_of_mem_staticSources h)
  · exact absurd hl (not_isLocal_of_mem_functionSources h)
  · exact Or.inl (Trail.stop_lt_of_mem_sites h hl)
  · rcases Context.ofPosition_cases u p with ⟨-, hc⟩ | ⟨-, hc⟩ | ⟨hp, hc⟩ | ⟨o, ho, hc⟩
    · rw [hc] at hplace
      simp at hplace
    · rw [hc] at hplace
      simp at hplace
    · -- after the code everything has ended
      refine Or.inl (stop_lt_of_mem_statementSources hu h ?_)
      obtain ⟨i, j, d, -, hsec, -⟩ := mem_statementSources.mp h
      have hin := (Node.ordered_of_misplaced?_eq_none hu).inside _ (List.mem_of_getElem? hsec)
      exact lt_of_le_of_lt hin.2 hp
    · rw [hc] at hplace ⊢
      obtain ⟨-, hrule, hprev⟩ := hplace.resolve_left Region.noConfusion
      obtain ⟨v, hv⟩ := Node.eq_unit_of_rule (Option.some.inj hrule)
      have hfrom : o.governing.From (.unit u) :=
        (Trail.resolve_eq_some_iff.mp ho).1.toFrom.of_mem_links (Trail.climb_mem_links o true)
      -- at the root the statements of the script have ended; a nested unit has statements of its own
      generalize o.governing = g at *
      cases hfrom with
      | root => exact Or.inl (stop_lt_of_mem_statementSources hu h (stop_lt_of_prev hu hprev))
      | @child s i n hs hn =>
        obtain rfl : n = .unit v := hv
        exact Or.inr ⟨⟨⟨s, i, v, rfl⟩, hprev⟩, h⟩

/-- After the statements of a nested unit all statements of the script are taken. -/
theorem statementSources_subset (h : (Context.ofPosition u p).PastNestedStatements) :
    u.statementSources ⊆ u.sources (.ofPosition u p) p := by
  obtain ⟨⟨t, i, v, hgov⟩, hprev⟩ := h
  obtain ⟨o, -, -, hc⟩ := Context.ofPosition_eq_within hgov
  rw [hc] at hprev ⊢
  have hsources : u.sources (.within (.child t i (.unit v)) o p) p =
      u.staticSources ++ u.functionSources ++ u.statementSources := by
    show u.sourcesInUnit _ = _
    unfold sourcesInUnit
    rw [hprev]
  rw [hsources]
  exact List.subset_append_right _ _

end CompilationUnit

/-! ## When locals have ended -/

/-- **Which locals are visible too early.** In a script without a misplaced node every position has a context, and
what is visible there beside the constants comes from nodes of the script. All local declarations among these have
ended before the position, exactly if a gap after the statements of a nested unit is not the place, or the
statements of the script declare nothing that is still to end there. -/
theorem Script.locals_ended_exactly {s : Script} (hs : (Node.unit s.unit).misplaced? = none) (p : Position) :
    ∃ c, Context.locate s.unit p = .ok c ∧
      s.visible c p = s.constants ++ (s.unit.sources c p).flatMap (fun t => t.node.introduced) ∧
      (∀ t ∈ s.unit.sources c p, t.From (.unit s.unit)) ∧
      ((∀ t ∈ s.unit.sources c p, t.IsLocal → t.node.introduced ≠ [] → t.node.range.stop < p) ↔
        (c.PastNestedStatements →
          ∀ d, Node.declaration d ∈ s.unit.statements.items → d.name.symbol ≠ none → d.range.stop < p)) := by
  refine ⟨.ofPosition s.unit p, Context.locate_eq_ok s.unit p, CompilationUnit.visible_eq_sources s _ p,
    fun t ht => CompilationUnit.from_of_mem_sources ht, ?_, ?_⟩
  · intro hall hnested d hd hsymbol
    -- the declaration is a source, as all statements of the script are
    obtain ⟨j, hj⟩ := List.getElem?_of_mem hd
    have hsection : Node.block s.unit.statements ∈ (Node.unit s.unit).children :=
      Node.mem_children_unit.mpr (Or.inr (Or.inr ⟨rfl, List.ne_nil_of_mem hd⟩))
    obtain ⟨i, hi⟩ := List.getElem?_of_mem hsection
    have hsource := CompilationUnit.statementSources_subset hnested
      (CompilationUnit.mem_statementSources.mpr ⟨i, j, d, rfl, hi, hj⟩)
    refine hall _ hsource ⟨_, j, d, rfl, hj⟩ ?_
    exact mt Option.toList_eq_nil_iff.mp hsymbol
  · intro hlate t ht hl hsymbol
    rcases CompilationUnit.ended_of_mem_sources hs ht hl with hended | ⟨hnested, hstatement⟩
    · exact hended
    · obtain ⟨i, j, d, rfl, -, hd⟩ := CompilationUnit.mem_statementSources.mp hstatement
      exact hlate hnested d (List.mem_of_getElem? hd) (mt Option.toList_eq_nil_iff.mpr hsymbol)

/-- In the loop of `nestedScopes` three locals are visible beside the parameter, and all of them have ended. -/
theorem Script.locals_ended_in_nestedScopes :
    (Node.unit nestedScopes).misplaced? = none ∧
    ∃ c, Context.locate nestedScopes ⟨6, 0⟩ = .ok c ∧
      (Script.visible ⟨nestedScopes, []⟩ c ⟨6, 0⟩).map Symbol.name = ["q", "a", "i", "c"] ∧
      ∀ t ∈ nestedScopes.sources c ⟨6, 0⟩, t.IsLocal → t.node.introduced ≠ [] → t.node.range.stop < ⟨6, 0⟩ := by
  refine ⟨rfl, ?_⟩
  obtain ⟨c, hc, -, -, hended⟩ := Script.locals_ended_exactly (s := ⟨nestedScopes, []⟩) rfl ⟨6, 0⟩
  refine ⟨c, hc, ?_, hended.mpr ?_⟩
  · obtain rfl := Except.ok.inj hc
    rfl
  · intro _ d hd
    contradiction

/-! ## A local that is visible too early -/

namespace Data

/-- A script with two statements. The first one is a unit with a statement of its own on line 1, and extends to line 5.
The second one declares `late` on line 7. -/
def nestedUnit : Data :=
  .table [("unit", statementsOnly [0, 0, 9, 0] (record .statementsList [0, 0, 9, 0] [("statements", .list
    [statementsOnly [1, 0, 5, 0] (record .statementsList [1, 0, 2, 0] [("statements", .list
      [record (.plain .expressionStatement) [1, 0, 2, 0] []])]),
     record .variableDeclaration [7, 0, 7, 10]
      [("type_node", record .predefinedType [7, 0, 7, 3] [("type", .text "int")]),
       ("name", record .nameExpression [7, 4, 7, 10] [("name", .text "late")])]])]))]

end Data

/-- On line 4, after the statement of the inner unit, the only source is a local declaration that ends on line 7. -/
theorem Script.future_local_in_nested_unit :
    ∃ s c t, Script.load Data.nestedUnit = .ok s ∧ (Node.unit s.unit).misplaced? = none ∧
      Context.locate s.unit ⟨4, 0⟩ = .ok c ∧ (s.visible c ⟨4, 0⟩).map Symbol.name = ["late"] ∧
      s.unit.sources c ⟨4, 0⟩ = [t] ∧ t.IsLocal ∧ t.node.introduced ≠ [] ∧ ¬ t.node.range.stop < ⟨4, 0⟩ :=
  ⟨_, _, _, rfl, rfl, rfl, rfl, rfl, ⟨_, 1, _, rfl, rfl⟩, List.cons_ne_nil _ _, by decide⟩

end Caret
