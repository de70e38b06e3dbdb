import Caret.Completion.Complete
import Caret.Proofs.Relocation
import Caret.Proofs.Scoping
/-!
# `Caret.Proofs.Invariance` — queries only depend on the order of positions

A request at a position of a script is answered the same way when the script and the position are moved by a
relocation. Each stage of a request is taken by itself and commutes with the relocation, on the results and on the
errors: the neighbours and the governing node, the context, the offers, the visible symbols, and the suggestions in
the end. The only place where a position is compared with anything outside the tree is the check of the cursor
against the base.

## Contents
- **Contexts.** `Context.moved`, `Context.locate_moved`, `Context.sectionItem?_moved`.
- **Offers.** `Offers.moved`, `Offers.ofPosition_moved`.
- **Visibility.** `Node.locals_moved`, `Script.visible_moved`.
- **Requests.** `Script.complete_moved`, and all queries at once: `Script.queries_order_invariant`.
-/

namespace Caret

variable (m : Relocation)

/-! ## Contexts -/

/-- A context in the moved tree. -/
def Context.moved (c : Context) : Context :=
  { region := c.region, governing := c.governing.map (Trail.moved m), prev := c.prev.map (Node.moved m),
    next := c.next.map (Node.moved m), rule := c.rule, origin := c.origin.map (Trail.moved m),
    position := c.position.map m }

/-- An inconsistency at a moved position. -/
def Inconsistency.moved : Inconsistency → Inconsistency
  | .nowhere p => .nowhere (m p)
  | .undecided p => .undecided (m p)
  | e => e

/-- A script in its moved place; the constants have none. -/
def Script.moved (s : Script) : Script := ⟨Node.movedUnit m s.unit, s.constants⟩

theorem Node.moved_unit (u : UnitNode) : Node.unit (movedUnit m u) = (Node.unit u).moved m := rfl

theorem Node.neighboursAmong_moved (p : Position) (prev : Option Node) (cs : List Node) :
    neighboursAmong (m p) (prev.map (moved m)) (cs.map (moved m)) =
      Prod.map (Option.map (moved m)) (Option.map (moved m)) (neighboursAmong p prev cs) := by
  -- by induction on the children, for any last one before the position
  induction cs generalizing prev with
  | nil => rfl
  | cons c cs ih =>
    rw [List.map_cons, neighboursAmong, neighboursAmong, range_moved, Range.isBefore_moved, Range.isAfter_moved]
    split
    · exact ih (some c)
    · split
      · rfl
      · exact ih prev

theorem Node.neighbours_moved (n : Node) (p : Position) :
    (n.moved m).neighbours (m p) = Prod.map (Option.map (moved m)) (Option.map (moved m)) (n.neighbours p) := by
  rw [neighbours, children_moved]
  exact neighboursAmong_moved m p none n.children

namespace Trail

/-- The rules look at kinds and at nothing else, so the same link of the trail decides. -/
theorem decider?_moved (innermost : Bool) (t : Trail) :
    (t.moved m).decider? innermost = (t.decider? innermost).map (moved m) := by
  induction t generalizing innermost with
  | root n =>
    rw [moved, decider?, decider?, Node.kind_moved]
    split
    · rfl
    · rfl
  | child t i n ih =>
    rw [moved, decider?, decider?, Node.kind_moved]
    split
    · rfl
    · exact ih false

/-- Trails, link by link. -/
theorem links_moved (t : Trail) : (t.moved m).links = t.links.map (moved m) := by
  induction t with
  | root n => rfl
  | child t i n ih => rw [moved, links, links, ih, List.map_cons, moved]

theorem nodes_moved (t : Trail) : (t.moved m).nodes = t.nodes.map (Node.moved m) := by
  simp only [nodes, links_moved, List.map_map, Function.comp_def, node_moved]

theorem parent?_moved (t : Trail) : (t.moved m).parent? = t.parent?.map (moved m) := by
  cases t <;> rfl

/-- Trails are told apart by their indexes, and those stay. -/
theorem same_moved (s t : Option Trail) : same (s.map (moved m)) (t.map (moved m)) = same s t := by
  cases s <;> cases t <;> simp only [Option.map_none, Option.map_some, same, path_moved]

end Trail

namespace Context

/-- What a context says about kinds is not moved. -/
theorem region_moved (c : Context) : (c.moved m).region = c.region := rfl

theorem rule_moved (c : Context) : (c.moved m).rule = c.rule := rfl

theorem prevKind_moved (c : Context) : (c.moved m).prev.map Node.kind = c.prev.map Node.kind := by
  simp only [Context.moved, Option.map_map, Function.comp_def, Node.kind_moved]

/-- The neighbours of the governing node are the moved neighbours. -/
theorem within_moved (governing origin : Trail) (p : Position) :
    within (governing.moved m) (origin.moved m) (m p) = (within governing origin p).moved m := by
  simp only [within, Context.moved, Trail.node_moved, Node.neighbours_moved, Node.kind_moved, Prod.map_fst,
    Prod.map_snd, Option.map_some]

/-- **The context** of a moved position is the moved context. -/
theorem locate_moved (u : UnitNode) (p : Position) :
    locate (Node.movedUnit m u) (m p) = ((locate u p).map (Context.moved m)).mapError (Inconsistency.moved m) := by
  have hempty : (Node.movedUnit m u).isEmpty = u.isEmpty := by
    rw [CompilationUnit.isEmpty, Node.moved_unit, Node.children_moved, List.isEmpty_map]
    rfl
  have hrange : (Node.movedUnit m u).range = u.range.moved m := by rw [Node.movedUnit_eq]
  unfold locate
  rw [hempty, Node.moved_unit, Node.resolve_moved, hrange, Range.isAfter_moved, Range.isBefore_moved]
  split
  · rfl
  · cases (Node.unit u).resolve p with
    | some origin =>
      simp only [Option.map_some, Trail.decider?_moved]
      cases origin.decider? true with
      | some governing => exact congrArg Except.ok (within_moved m governing origin p)
      | none => rfl
    | none =>
      simp only [Option.map_none]
      split
      · rfl
      · split
        · rfl
        · rfl

/-- The item of a section that the cursor is in is found by comparing links of one trail. -/
theorem sectionItem?_moved (c : Context) : (c.moved m).sectionItem? = c.sectionItem?.map (Node.moved m) := by
  unfold sectionItem?
  rw [Context.moved]
  cases c.origin with
  | none => rfl
  | some origin =>
    simp only [Option.map_some, Trail.links_moved, List.find?_map, Option.map_map, Function.comp_def,
      Trail.parent?_moved, Trail.same_moved, Trail.node_moved]

end Context

/-! ## Offers -/

/-- A property access in its moved place. -/
def Access.moved (a : Access Node) : Access Node := { a with range := a.range.moved m, callee := a.callee.moved m }

/-- The offers in a moved context: what is offered is the same. -/
def Offers.moved (o : Offers) : Offers :=
  { o with context := o.context.moved m, members := o.members.map (Access.moved m) }

namespace Offers

/-- Whether the cursor is past a name is a comparison with the end of the name. -/
theorem pastName_moved (item : Node) (position : Option Position) :
    pastName (item.moved m) (position.map m) = pastName item position := by
  cases position with
  | none =>
    have hnone : ∀ n : Node, pastName n none = false := by
      intro n
      cases n <;> rfl
    rw [Option.map_none, hnone, hnone]
  | some p =>
    cases item with
    | declaration d =>
      show (Node.movedDeclaration m d).name.range.isBefore (m p) = d.name.range.isBefore p
      rw [Node.movedDeclaration_eq]
      exact Range.isBefore_moved m d.name.range p
    | access a | forLoop a | foreachLoop a =>
      cases a
      rfl
    | _ => rfl

theorem statementsMayStart_moved (next : Option Node) :
    statementsMayStart (next.map (Node.moved m)) = statementsMayStart next := by
  cases next with
  | none => rfl
  | some n => simp only [Option.map_some, statementsMayStart, Node.kind_moved]

/-- The offers of each rule, as flags and, for a property access, with the moved access. -/
theorem inUnit_moved (c : Context) :
    inUnit (c.moved m) = ((inUnit c).map (Offers.moved m)).mapError (Inconsistency.moved m) := by
  have hnext : statementsMayStart (c.moved m).next = statementsMayStart c.next := statementsMayStart_moved m c.next
  unfold inUnit
  rw [Context.prevKind_moved, hnext]
  split
  all_goals rfl

theorem inStaticSection_moved (c : Context) (hasFunctions : Bool) :
    inStaticSection (c.moved m) hasFunctions = (inStaticSection c hasFunctions).moved m := by
  unfold inStaticSection
  rw [Context.sectionItem?_moved]
  cases c.sectionItem? with
  | none => rfl
  | some item =>
    have hpast : pastName (item.moved m) (c.moved m).position = pastName item c.position :=
      pastName_moved m item c.position
    simp only [Option.map_some, hpast, Offers.moved, Option.map_none]

theorem atMemberAccess_moved (c : Context) :
    atMemberAccess (c.moved m) = ((atMemberAccess c).map (Offers.moved m)).mapError (Inconsistency.moved m) := by
  have hnode : (c.moved m).node? = c.node?.map (Node.moved m) := by
    simp only [Context.node?, Context.moved, Option.map_map, Function.comp_def, Trail.node_moved]
  unfold atMemberAccess
  rw [hnode]
  cases c.node? with
  | none => rfl
  | some n =>
    cases n with
    | access a =>
      obtain ⟨r, callee, name, member, type⟩ := a
      cases member with
      | none => rfl
      | some p => rfl
    | forLoop a | foreachLoop a =>
      cases a
      rfl
    | _ => rfl

/-- One case for each rule. -/
theorem ofContext_moved (u : UnitNode) (c : Context) :
    ofContext (Node.movedUnit m u) (c.moved m) =
      ((ofContext u c).map (Offers.moved m)).mapError (Inconsistency.moved m) := by
  simp only [ofContext, Context.region_moved, Context.rule_moved, inUnit_moved, inStaticSection_moved,
    atMemberAccess_moved, Node.movedUnit_eq, Node.movedStatics_eq, Node.movedFunctions_eq, Node.movedGroup_eq,
    List.isEmpty_map]
  split
  · rfl
  · rfl
  · rfl
  · split
    all_goals rfl

/-- **The offers** at a moved position are those at the position. -/
theorem ofPosition_moved (u : UnitNode) (p : Position) :
    ofPosition (Node.movedUnit m u) (m p) =
      ((ofPosition u p).map (Offers.moved m)).mapError (Inconsistency.moved m) := by
  unfold ofPosition
  rw [Context.locate_moved]
  cases Context.locate u p with
  | error e => rfl
  | ok c => exact ofContext_moved m u c

end Offers

/-! ## Visibility -/

/-- Symbols hold no positions, so declarations keep theirs. -/
theorem declared_moved (ns : List Node) : declared (ns.map (Node.moved m)) = declared ns := by
  unfold declared
  rw [List.filterMap_map]
  congr 1
  funext n
  cases n with
  | declaration d =>
    show (Node.movedDeclaration m d).name.symbol = d.name.symbol
    rw [Node.movedDeclaration_eq]
    rfl
  | access a | forLoop a | foreachLoop a =>
    cases a
    rfl
  | _ => rfl

/-- The declarations that have ended at a position. -/
theorem priorTo_moved (ns : List Node) (p : Position) :
    priorTo (ns.map (Node.moved m)) (m p) = (priorTo ns p).map (Node.moved m) := by
  simp only [priorTo, List.filter_map, Function.comp_def, Node.range_moved, Range.isBefore_moved]

namespace CompilationUnit

variable (u : UnitNode)

/-- The symbols of the three sections. -/
theorem declarations_moved : (Node.movedUnit m u).declarations = u.declarations.map (Node.moved m) := by
  simp only [declarations, Node.movedUnit_eq, Node.movedStatics_eq, List.map_map]
  rfl

theorem staticSymbols_moved : (Node.movedUnit m u).staticSymbols = u.staticSymbols := by
  rw [staticSymbols, declarations_moved, declared_moved, staticSymbols]

theorem functionSymbols_moved : (Node.movedUnit m u).functionSymbols = u.functionSymbols := by
  simp only [functionSymbols, Node.movedUnit_eq, Node.movedFunctions_eq, List.filterMap_map, Function.comp_def,
    Node.movedFunction_eq, NameRef.moved]

theorem statementSymbols_moved : (Node.movedUnit m u).statementSymbols = u.statementSymbols := by
  simp only [statementSymbols, Node.movedUnit_eq, Node.movedGroup_eq, declared_moved]

end CompilationUnit

/-- What a moved node contributes at a moved position. -/
theorem Node.locals_moved (n : Node) (p : Position) : (n.moved m).locals (m p) = n.locals p := by
  cases n with
  | block g =>
    show Caret.declared (priorTo (movedGroup m g).items (m p)) = Caret.declared (priorTo g.items p)
    rw [movedGroup_eq, priorTo_moved, declared_moved]
  | function f =>
    show (if (movedFunction m f).body.range.contains (m p) then
      (movedFunction m f).parameters.items.filterMap fun q => q.name.symbol else []) = _
    simp only [movedFunction_eq, movedGroup_eq, movedParameters_eq, Range.contains_moved, List.filterMap_map,
      Function.comp_def, movedParameter_eq, NameRef.moved]
    rfl
  | forLoop l =>
    obtain ⟨r, init, condition, update, body⟩ := l
    cases init with
    | none => rfl
    | some n =>
      show (if (n.moved m).range.isBefore (m p) then Caret.declared [n.moved m] else []) =
        if n.range.isBefore p then Caret.declared [n] else []
      have hdeclared : Caret.declared [n.moved m] = Caret.declared [n] := declared_moved m [n]
      rw [range_moved, Range.isBefore_moved, hdeclared]
  | foreachLoop l =>
    obtain ⟨r, type, name, iterable, body⟩ := l
    show (if (body.moved m).range.contains (m p) then (name.moved m).symbol.toList else []) =
      if body.range.contains p then name.symbol.toList else []
    rw [range_moved, Range.contains_moved]
    rfl
  | access a =>
    cases a
    rfl
  | _ => rfl

namespace Trail

/-- Local variables, collected link by link. -/
theorem locals_moved (t : Trail) (p : Position) : (t.moved m).locals (m p) = t.locals p := by
  simp only [locals, nodes_moved, ← List.map_reverse, List.map_map, Function.comp_def, Node.locals_moved]

theorem inBlock_moved (t : Trail) : (t.moved m).inBlock = t.inBlock := by
  simp only [inBlock, nodes_moved, List.any_map, Function.comp_def, Node.kind_moved]

end Trail

namespace Script

/-- The visible symbols between the sections of a unit and elsewhere. -/
theorem visibleInUnit_moved (u : UnitNode) (c : Context) :
    visibleInUnit (Node.movedUnit m u) (c.moved m) = visibleInUnit u c := by
  simp only [visibleInUnit, Context.prevKind_moved, CompilationUnit.staticSymbols_moved,
    CompilationUnit.functionSymbols_moved, CompilationUnit.statementSymbols_moved]

theorem visibleInBlock_moved (u : UnitNode) (c : Context) (p : Position) :
    visibleInBlock (Node.movedUnit m u) (c.moved m) (m p) = visibleInBlock u c p := by
  have horigin : (c.moved m).origin.or (c.moved m).governing = (c.origin.or c.governing).map (Trail.moved m) :=
    Option.map_or.symm
  simp only [visibleInBlock, horigin, Context.rule_moved, CompilationUnit.staticSymbols_moved,
    CompilationUnit.functionSymbols_moved, Option.map_map, Function.comp_def, Trail.locals_moved,
    Trail.inBlock_moved]

/-- **The visible symbols** at a moved position are those at the position. -/
theorem visible_moved (s : Script) (c : Context) (p : Position) :
    (s.moved m).visible (c.moved m) (m p) = s.visible c p := by
  simp only [visible, Script.moved, Context.region_moved, Context.rule_moved, CompilationUnit.staticSymbols_moved,
    CompilationUnit.functionSymbols_moved, CompilationUnit.statementSymbols_moved, visibleInUnit_moved,
    visibleInBlock_moved, CompilationUnit.declarations_moved, priorTo_moved, declared_moved]

end Script

/-! ## Requests -/

/-- The fault of a request in the moved script. -/
def RequestFault.moved : RequestFault → RequestFault
  | .cursor p base => .cursor (m p) base
  | .placement fault => .placement (fault.moved m)

/-- Why there is no completion in the moved script. Whether a fault can be told depends on the integers that it has
after the move. -/
def CompletionError.moved : CompletionError → CompletionError
  | .refused fault | .unwritable fault => (fault.moved m).error
  | .inconsistent error => .inconsistent (error.moved m)

/-- A fault may have a message before the move and none after it: what is moved is the fault, and then it is told. -/
theorem RequestFault.moved_error (fault : RequestFault) : fault.error.moved m = (fault.moved m).error := by
  rw [error]
  split <;> rfl

/-- Suggestions are made of names, types and symbols. -/
theorem Offers.suggestions_moved (o : Offers) (s : Script) (p : Position) :
    (o.moved m).suggestions (s.moved m) (m p) = o.suggestions s p := by
  have hmembers : (o.moved m).memberSuggestions = o.memberSuggestions := by
    unfold memberSuggestions
    rw [Offers.moved]
    cases o.members with
    | none => rfl
    | some a => simp only [Option.map_some, Access.moved, Node.type?_moved]
  have hvisible : (s.moved m).visible (o.moved m).context (m p) = s.visible o.context p :=
    Script.visible_moved m s o.context p
  unfold suggestions
  rw [hmembers, hvisible]
  rfl

/-- **Completion** at a moved cursor gives the same suggestions, as long as both cursors are past the first position of
their scripts. -/
theorem Script.complete_moved {s : Script} {p : Position} {base base' : Int} (hp : p.fault? base = none)
    (hp' : (m p).fault? base' = none) :
    (s.moved m).complete base' (m p) = (s.complete base p).mapError (CompletionError.moved m) := by
  have hfault : (s.moved m).requestFault? base' (m p) = (s.requestFault? base p).map (RequestFault.moved m) := by
    rw [requestFault?, requestFault?, hp, hp', Option.none_or, Option.none_or, Script.moved, Node.moved_unit,
      Node.misplaced?_moved, Option.map_map, Option.map_map]
    rfl
  -- past this check of the cursor nothing depends on the base
  have hoffers : Offers.ofPosition (s.moved m).unit (m p) = _ := Offers.ofPosition_moved m s.unit p
  unfold complete
  rw [hfault, hoffers]
  cases s.requestFault? base p with
  | some fault => exact congrArg Except.error (RequestFault.moved_error m fault).symm
  | none =>
    cases Offers.ofPosition s.unit p with
    | error e => rfl
    | ok o => exact congrArg Except.ok (Offers.suggestions_moved m o s p)

/-- **Queries only depend on the order of positions.** When a script and a cursor are moved, the placement check
finds the moved fault if it finds one, and the descent takes the same way. The flags of the offers and the visible
symbols stay the same, and so do the lines of a hover, whose range is moved. Completion gives the same suggestions
if both cursors are past the first positions of their scripts. -/
theorem Script.queries_order_invariant (s : Script) (p : Position) :
    (Node.unit (s.moved m).unit).misplaced? = (Node.unit s.unit).misplaced?.map (PlacementFault.moved m) ∧
    (Node.unit (s.moved m).unit).resolve (m p) = ((Node.unit s.unit).resolve p).map (Trail.moved m) ∧
    Offers.ofPosition (s.moved m).unit (m p) =
      ((Offers.ofPosition s.unit p).map (Offers.moved m)).mapError (Inconsistency.moved m) ∧
    (Context.locate (s.moved m).unit (m p)).map (fun c => (s.moved m).visible c (m p)) =
      ((Context.locate s.unit p).map fun c => s.visible c p).mapError (Inconsistency.moved m) ∧
    ((Node.unit (s.moved m).unit).find? (m p)).bind Node.hover? =
      (((Node.unit s.unit).find? p).bind Node.hover?).map (Hover.moved m) ∧
    ∀ base base', p.fault? base = none → (m p).fault? base' = none →
      (s.moved m).complete base' (m p) = (s.complete base p).mapError (CompletionError.moved m) := by
  have hunit : Node.unit (s.moved m).unit = (Node.unit s.unit).moved m := Node.moved_unit m s.unit
  have hlocate : Context.locate (s.moved m).unit (m p) = _ := Context.locate_moved m s.unit p
  rw [hunit, hlocate]
  refine ⟨Node.misplaced?_moved m _, Node.resolve_moved m _ p, Offers.ofPosition_moved m s.unit p, ?_,
    Node.hover_moved m _ p, fun _ _ => complete_moved m⟩
  cases Context.locate s.unit p with
  | error e => rfl
  | ok c => exact congrArg Except.ok (visible_moved m s c p)

/-- With lines and columns counted from one, `nestedScopes` gives the suggestions that it gives with both counted from
zero. -/
theorem Script.queries_order_invariant_shift :
    ∃ l, complete ⟨nestedScopes, []⟩ 0 ⟨6, 0⟩ = .ok l ∧
      l.map Suggestion.label = ["q", "a", "i", "c"] ++ Suggestion.statementWords ∧
      complete (Script.moved (.shift 1 1) ⟨nestedScopes, []⟩) 1 ⟨7, 1⟩ = .ok l := by
  obtain ⟨-, -, -, -, -, hcomplete⟩ := queries_order_invariant (.shift 1 1) ⟨nestedScopes, []⟩ ⟨6, 0⟩
  exact ⟨_, rfl, rfl, hcomplete 0 1 rfl rfl⟩

end Caret
