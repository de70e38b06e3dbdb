import Caret.Proofs.Likeness
import Caret.Proofs.Visibility
/-!
# `Caret.Proofs.Padding` — the range of a unit around its sections

The sections of a unit need not reach to the ends of its range. A position beyond all of them is outside the code if the
range ends where the sections do, and in a gap of the unit if the range goes on. What is offered there is decided in two
ways: outside the code by which sections the unit has, in a gap by the section before the position and the one after it.

After the last section both ways come to the same. Before the first section they do so only if the unit has no static
variables: outside the code nothing but `static` may come before those, while in the gap functions are offered as well.

## Contents
- **Same sections.** `CompilationUnit.SameSections` — two units that differ in their range at most.
- **The ends of a unit.** `neighbours_of_ended`, `neighbours_of_ahead`, and the contexts `ofPosition_past_sections` and
  `ofPosition_ahead_of_sections`.
- **Offers.** `items_after_last`, `inUnit_before_first`.
- **Padding.** `Script.complete_padded`.
-/

namespace Caret

variable {u u' : UnitNode} {p : Position}

/-! ## Same sections -/

theorem Node.children_unit (u : UnitNode) :
    (Node.unit u).children = sectionNode .statics u.statics ++
      (sectionNode .functions u.functions ++ sectionNode .block u.statements) := rfl

/-- Two units have the same sections. The ranges around them may differ. -/
structure CompilationUnit.SameSections (u u' : UnitNode) : Prop where
  statics : u'.statics = u.statics
  functions : u'.functions = u.functions
  statements : u'.statements = u.statements

namespace CompilationUnit.SameSections

variable (h : u.SameSections u')
include h

theorem children_eq : (Node.unit u').children = (Node.unit u).children := by
  rw [Node.children_unit, Node.children_unit, h.statics, h.functions, h.statements]

theorem isEmpty_eq : u'.isEmpty = u.isEmpty := congrArg List.isEmpty h.children_eq

/-- What is visible at the top level goes by the sections alone. -/
theorem topLevelSymbols_eq (p : Position) : u'.topLevelSymbols p = u.topLevelSymbols p := by
  unfold topLevelSymbols functionsAt declarations functionSymbols
  rw [h.statics, h.functions, h.statements]

end CompilationUnit.SameSections

/-! ## The ends of a unit -/

namespace Range

variable {r : Range}

theorem contains_eq_false_of_stop_lt (h : r.stop < p) : r.contains p = false := by
  apply Bool.eq_false_iff.mpr
  intro hin
  exact not_lt.mpr (contains_iff.mp hin).2 h

theorem contains_eq_false_of_lt_start (h : p < r.start) : r.contains p = false := by
  apply Bool.eq_false_iff.mpr
  intro hin
  exact not_lt.mpr (contains_iff.mp hin).1 h

end Range

namespace Node

variable {n : Node}

/-- Behind all children the last of them is on the left, and none on the right. -/
theorem neighbours_of_ended (h : n.Ordered) (hended : ∀ c ∈ n.children, c.range.stop < p) :
    n.neighbours p = (n.children.getLast?, none) := by
  have hleft : n.children.filter (fun c => c.range.isBefore p) = n.children :=
    List.filter_eq_self.mpr fun c hc => Range.isBefore_iff.mpr (hended c hc)
  have hright : n.children.find? (fun c => c.range.isAfter p) = none := by
    apply List.find?_eq_none.mpr
    intro c hc hafter
    exact Range.not_lt_start_of_stop_lt (hended c hc) (Range.isAfter_iff.mp hafter)
  rw [neighbours_eq h, hleft, hright]

/-- Ahead of all children none is on the left, and the first of them on the right. -/
theorem neighbours_of_ahead (h : n.Ordered) (hahead : ∀ c ∈ n.children, p < c.range.start) :
    n.neighbours p = (none, n.children.head?) := by
  have hleft : n.children.filter (fun c => c.range.isBefore p) = [] := by
    apply List.filter_eq_nil_iff.mpr
    intro c hc hbefore
    exact Range.not_lt_start_of_stop_lt (Range.isBefore_iff.mp hbefore) (hahead c hc)
  have hright : n.children.find? (fun c => c.range.isAfter p) = n.children.head? := by
    cases hcs : n.children with
    | nil => rfl
    | cons c cs =>
      rw [List.head?_cons]
      apply List.find?_cons_of_pos
      exact Range.isAfter_iff.mpr (hahead c (by simp [hcs]))
  rw [neighbours_eq h, hleft, hright]
  rfl

end Node

namespace Context

/-- Outside the range of a unit with code the context says on which side. -/
theorem ofPosition_of_outside (hcode : u.isEmpty = false) (hout : u.range.contains p = false) :
    ofPosition u p = if u.range.isAfter p then { region := .beforeFirst } else { region := .afterLast } := by
  have hresolve : (Node.unit u).resolve p = none := Trail.resolve_eq_none_iff.mpr hout
  unfold ofPosition
  rw [if_neg (by simp [hcode]), hresolve]

theorem ofPosition_eq_beforeFirst (hcode : u.isEmpty = false) (hp : p < u.range.start) :
    ofPosition u p = { region := .beforeFirst } := by
  rw [ofPosition_of_outside hcode (Range.contains_eq_false_of_lt_start hp)]
  exact if_pos (Range.isAfter_iff.mpr hp)

theorem ofPosition_eq_afterLast (hcode : u.isEmpty = false) (hp : u.range.stop < p) :
    ofPosition u p = { region := .afterLast } := by
  rw [ofPosition_of_outside hcode (Range.contains_eq_false_of_stop_lt hp)]
  exact if_neg (by simp [Range.isAfter_eq_false_of_isBefore (Range.isBefore_iff.mpr hp)])

/-- The context in a gap between the sections of a unit. -/
def gap (u : UnitNode) (prev next : Option Node) (p : Position) : Context :=
  { region := .within, governing := some (.root (.unit u)), prev := prev, next := next, rule := some .unit,
    origin := some (.root (.unit u)), position := some p }

/-- A position in the range of a unit and in none of its sections is in a gap. -/
theorem ofPosition_eq_gap (hcode : u.isEmpty = false) (hp : u.range.contains p = true)
    (hout : ∀ c ∈ (Node.unit u).children, c.range.contains p = false) :
    ofPosition u p = gap u ((Node.unit u).neighbours p).1 ((Node.unit u).neighbours p).2 p := by
  have hresolve : (Node.unit u).resolve p = some (.root (.unit u)) :=
    Trail.resolve_eq_some_iff.mpr ⟨.root hp, Node.childAt?_eq_none_iff.mpr hout⟩
  unfold ofPosition
  rw [if_neg (by simp [hcode]), hresolve]
  rfl

theorem ofPosition_past_sections (hcode : u.isEmpty = false) (h : (Node.unit u).Ordered)
    (hp : u.range.contains p = true) (hended : ∀ c ∈ (Node.unit u).children, c.range.stop < p) :
    ofPosition u p = gap u (Node.unit u).children.getLast? none p := by
  rw [ofPosition_eq_gap hcode hp, Node.neighbours_of_ended h hended]
  intro c hc
  exact Range.contains_eq_false_of_stop_lt (hended c hc)

theorem ofPosition_ahead_of_sections (hcode : u.isEmpty = false) (h : (Node.unit u).Ordered)
    (hp : u.range.contains p = true) (hahead : ∀ c ∈ (Node.unit u).children, p < c.range.start) :
    ofPosition u p = gap u none (Node.unit u).children.head? p := by
  rw [ofPosition_eq_gap hcode hp, Node.neighbours_of_ahead h hahead]
  intro c hc
  exact Range.contains_eq_false_of_lt_start (hahead c hc)

end Context

/-! ## Offers -/

namespace Node

section
variable {α : Type} {node : Group α → Node} {g : Group α}

theorem sectionNode_of_items (h : g.items ≠ []) : sectionNode node g = [node g] :=
  if_neg (by simpa using h)

theorem sectionNode_of_no_items (h : g.items = []) : sectionNode node g = [] :=
  if_pos (by simpa using h)

end

/-- A unit with code whose last two sections have no items has static variables. -/
theorem statics_items_ne_nil (hcode : u.isEmpty = false) (hf : u.functions.items = []) (hs : u.statements.items = []) :
    u.statics.items ≠ [] := by
  intro hv
  have hnil : (Node.unit u).children = [] := by
    rw [children_unit, sectionNode_of_no_items hv, sectionNode_of_no_items hf, sectionNode_of_no_items hs]
    rfl
  rw [show u.isEmpty = true from List.isEmpty_iff.mpr hnil] at hcode
  contradiction

/-- The last section of a unit that has items, and which ones after it have none. -/
theorem getLast?_children_unit (hcode : u.isEmpty = false) :
    (u.statements.items ≠ [] ∧ (Node.unit u).children.getLast? = some (.block u.statements)) ∨
    (u.statements.items = [] ∧ u.functions.items ≠ [] ∧
      (Node.unit u).children.getLast? = some (.functions u.functions)) ∨
    (u.statements.items = [] ∧ u.functions.items = [] ∧
      (Node.unit u).children.getLast? = some (.statics u.statics)) := by
  rw [children_unit]
  by_cases hs : u.statements.items = []
  · rw [sectionNode_of_no_items hs]
    by_cases hf : u.functions.items = []
    · rw [sectionNode_of_no_items hf, sectionNode_of_items (statics_items_ne_nil hcode hf hs)]
      exact Or.inr (Or.inr ⟨hs, hf, rfl⟩)
    · rw [sectionNode_of_items hf, List.append_nil, List.getLast?_concat]
      exact Or.inr (Or.inl ⟨hs, hf, rfl⟩)
  · rw [sectionNode_of_items hs, ← List.append_assoc, List.getLast?_concat]
    exact Or.inl ⟨hs, rfl⟩

end Node

namespace Offers

theorem ofContext_beforeFirst (u : UnitNode) :
    ofContext u { region := .beforeFirst } = .ok
      { context := { region := .beforeFirst }, static := true, void := u.statics.items.isEmpty,
        types := u.statics.items.isEmpty, statements := u.statics.items.isEmpty && u.functions.items.isEmpty } := by
  simp only [ofContext, Bool.not_not]

theorem ofContext_afterLast (u : UnitNode) :
    ofContext u { region := .afterLast } = .ok
      { context := { region := .afterLast }, static := u.functions.items.isEmpty && u.statements.items.isEmpty,
        void := u.statements.items.isEmpty, types := u.statements.items.isEmpty, statements := true } := by
  simp only [ofContext, Bool.not_not]

/-- **After the last section** the section before the position says as much as which sections there are. -/
theorem items_after_last (hcode : u.isEmpty = false) {c : Context} (hprev : c.prev = (Node.unit u).children.getLast?)
    (hnext : c.next = none) : (inUnit c).map items = (ofContext u { region := .afterLast }).map items := by
  unfold inUnit
  rw [ofContext_afterLast, hprev, hnext]
  -- what may follow a section depends on which one it is, and the ones after it have no items
  rcases Node.getLast?_children_unit hcode with ⟨hs, hlast⟩ | ⟨hs, hf, hlast⟩ | ⟨hs, hf, hlast⟩
  · rw [hlast, List.isEmpty_eq_false_iff.mpr hs, Bool.and_false]
    rfl
  · rw [hlast, hs, List.isEmpty_eq_false_iff.mpr hf]
    rfl
  · rw [hlast, hs, hf]
    rfl

/-- The first section of a unit is that of the statements only if the others have no items. -/
theorem statementsMayStart_head? (hcode : u.isEmpty = false) :
    statementsMayStart (Node.unit u).children.head? = (u.statics.items.isEmpty && u.functions.items.isEmpty) := by
  rw [Node.children_unit]
  cases hv : u.statics.items with
  | cons d ds =>
    rw [Node.sectionNode_of_items (by simp [hv])]
    rfl
  | nil =>
    rw [Node.sectionNode_of_no_items hv]
    cases hf : u.functions.items with
    | cons f fs =>
      rw [Node.sectionNode_of_items (by simp [hf])]
      rfl
    | nil =>
      rw [Node.sectionNode_of_no_items hf]
      by_cases hs : u.statements.items = []
      · exact absurd hv (Node.statics_items_ne_nil hcode hf hs)
      · rw [Node.sectionNode_of_items hs]
        rfl

/-- **Before the first section** everything is offered, statements only if nothing else has to come first. -/
theorem inUnit_before_first (hcode : u.isEmpty = false) {c : Context} (hprev : c.prev = none)
    (hnext : c.next = (Node.unit u).children.head?) :
    inUnit c = .ok { context := c, static := true, void := true, types := true,
                     statements := u.statics.items.isEmpty && u.functions.items.isEmpty } := by
  unfold inUnit
  rw [hprev, hnext, statementsMayStart_head? hcode]
  rfl

end Offers

/-! ## Padding -/

namespace Script

variable {constants : List Symbol} {base : Int}

/-- At the top level of two units with the same sections the same symbols are visible, so the offers decide. -/
theorem complete_eq_of_sameSections (hsame : u.SameSections u') (hu : (Node.unit u).misplaced? = none)
    (hu' : (Node.unit u').misplaced? = none) (h : (Context.ofPosition u p).TopLevel u)
    (h' : (Context.ofPosition u' p).TopLevel u')
    (hitems : (Offers.ofPosition u' p).map Offers.items = (Offers.ofPosition u p).map Offers.items) :
    complete ⟨u', constants⟩ base p = complete ⟨u, constants⟩ base p := by
  have hfault : requestFault? ⟨u', constants⟩ base p = requestFault? ⟨u, constants⟩ base p := by
    unfold requestFault?
    rw [hu, hu']
  have hvisible : visible ⟨u', constants⟩ (.ofPosition u' p) p = visible ⟨u, constants⟩ (.ofPosition u p) p :=
    calc visible ⟨u', constants⟩ (.ofPosition u' p) p
        = constants ++ u'.topLevelSymbols p := CompilationUnit.visible_topLevel ⟨u', constants⟩ hu' h'
      _ = constants ++ u.topLevelSymbols p := by rw [hsame.topLevelSymbols_eq]
      _ = visible ⟨u, constants⟩ (.ofPosition u p) p := (CompilationUnit.visible_topLevel ⟨u, constants⟩ hu h).symm
  exact complete_eq_of_items hfault hitems hvisible

section

variable (hsame : u.SameSections u') (hcode : u.isEmpty = false) (hu : (Node.unit u).misplaced? = none)
  (hu' : (Node.unit u').misplaced? = none) (hp : u'.range.contains p = true)
include hsame hcode hu hu' hp

/-- Behind a unit the padded one has a gap after its last section. -/
theorem ofPosition_padded_after (hafter : u.range.stop < p) :
    Context.ofPosition u' p = .gap u' (Node.unit u').children.getLast? none p := by
  apply Context.ofPosition_past_sections (hsame.isEmpty_eq.trans hcode) (Node.ordered_of_misplaced?_eq_none hu') hp
  rw [hsame.children_eq]
  intro c hc
  exact lt_of_le_of_lt ((Node.ordered_of_misplaced?_eq_none hu).inside c hc).2 hafter

/-- Ahead of a unit the padded one has a gap before its first section. -/
theorem ofPosition_padded_before (hbefore : p < u.range.start) :
    Context.ofPosition u' p = .gap u' none (Node.unit u').children.head? p := by
  apply Context.ofPosition_ahead_of_sections (hsame.isEmpty_eq.trans hcode) (Node.ordered_of_misplaced?_eq_none hu') hp
  rw [hsame.children_eq]
  intro c hc
  exact lt_of_lt_of_le hbefore ((Node.ordered_of_misplaced?_eq_none hu).inside c hc).1

theorem offers_padded_before (hbefore : p < u.range.start) :
    Offers.ofContext u' (.ofPosition u' p) = .ok
      { context := .ofPosition u' p, static := true, void := true, types := true,
        statements := u.statics.items.isEmpty && u.functions.items.isEmpty } := by
  have hcontext := ofPosition_padded_before hsame hcode hu hu' hp hbefore
  rw [hcontext]
  show Offers.inUnit (.gap u' none (Node.unit u').children.head? p) = _
  exact Offers.inUnit_before_first hcode rfl (congrArg List.head? hsame.children_eq)

/-- Behind a unit the padded one has the same suggestions. -/
theorem complete_padded_after (hafter : u.range.stop < p) :
    complete ⟨u', constants⟩ base p = complete ⟨u, constants⟩ base p := by
  have hcontext := Context.ofPosition_eq_afterLast hcode hafter
  have hcontext' := ofPosition_padded_after hsame hcode hu hu' hp hafter
  apply complete_eq_of_sameSections hsame hu hu'
  · rw [hcontext]
    exact Or.inl Region.noConfusion
  · rw [hcontext']
    exact Or.inr (Or.inl rfl)
  · rw [Offers.ofPosition_eq, Offers.ofPosition_eq, hcontext, hcontext']
    exact Offers.items_after_last hcode (congrArg List.getLast? hsame.children_eq) rfl

/-- Ahead of a unit without static variables the padded one has the same suggestions. -/
theorem complete_padded_before (hbefore : p < u.range.start) (hstatics : u.statics.items = []) :
    complete ⟨u', constants⟩ base p = complete ⟨u, constants⟩ base p := by
  have hcontext := Context.ofPosition_eq_beforeFirst hcode hbefore
  have hcontext' := ofPosition_padded_before hsame hcode hu hu' hp hbefore
  apply complete_eq_of_sameSections hsame hu hu'
  · rw [hcontext]
    exact Or.inl Region.noConfusion
  · rw [hcontext']
    exact Or.inr (Or.inl rfl)
  · -- the two offers differ only in what static variables would forbid
    rw [Offers.ofPosition_eq, Offers.ofPosition_eq, offers_padded_before hsame hcode hu hu' hp hbefore, hcontext,
      Offers.ofContext_beforeFirst, hstatics]
    rfl

end

/-- **Padding the range of a unit.** Take a unit with code, and one with the same sections whose range holds a
position that the range of the first does not, a request being well-formed for both. Behind the first unit, in a gap
after the last section of the second, both have the same suggestions. Ahead of it, in a gap before the first section
of the second, they have the same if there are no static variables. If there are some, `static` alone is suggested
outside the code, and `void` and the built-in types besides it in the gap. -/
theorem complete_padded (hsame : u.SameSections u') (hcode : u.isEmpty = false)
    (hu : ¬ Malformed ⟨u, constants⟩ base p) (hu' : ¬ Malformed ⟨u', constants⟩ base p)
    (hp : u'.range.contains p = true) :
    (u.range.stop < p →
      Context.locate u p = .ok { region := .afterLast } ∧
      Context.locate u' p = .ok (.gap u' (Node.unit u').children.getLast? none p) ∧
      ∃ answer, complete ⟨u, constants⟩ base p = .ok answer ∧ complete ⟨u', constants⟩ base p = .ok answer) ∧
    (p < u.range.start →
      Context.locate u p = .ok { region := .beforeFirst } ∧
      Context.locate u' p = .ok (.gap u' none (Node.unit u').children.head? p) ∧
      (u.statics.items = [] →
        ∃ answer, complete ⟨u, constants⟩ base p = .ok answer ∧ complete ⟨u', constants⟩ base p = .ok answer) ∧
      (u.statics.items ≠ [] →
        complete ⟨u, constants⟩ base p = .ok [.keyword "static"] ∧
        complete ⟨u', constants⟩ base p = .ok
          (.keyword "static" :: .keyword "void" ::
            [Predefined.boolean, .int, .char, .float, .string].map fun t => .ofType (.predefined t)))) := by
  have hfault := requestFault?_eq_none_iff.mpr hu
  have hfault' := requestFault?_eq_none_iff.mpr hu'
  have hplaced := misplaced?_eq_none_of_not_malformed hu
  have hplaced' := misplaced?_eq_none_of_not_malformed hu'
  obtain ⟨answer, hanswer⟩ := complete_eq_ok hfault
  rw [Context.locate_eq_ok, Context.locate_eq_ok]
  constructor
  · -- the rule for what follows the code and that for the gap behind the last section agree
    intro hafter
    refine ⟨congrArg _ (Context.ofPosition_eq_afterLast hcode hafter),
      congrArg _ (ofPosition_padded_after hsame hcode hplaced hplaced' hp hafter), answer, hanswer, ?_⟩
    rw [complete_padded_after hsame hcode hplaced hplaced' hp hafter]
    exact hanswer
  · intro hbefore
    have hcontext := Context.ofPosition_eq_beforeFirst hcode hbefore
    refine ⟨congrArg _ hcontext,
      congrArg _ (ofPosition_padded_before hsame hcode hplaced hplaced' hp hbefore), ?_, ?_⟩
    · intro hstatics
      refine ⟨answer, hanswer, ?_⟩
      rw [complete_padded_before hsame hcode hplaced hplaced' hp hbefore hstatics]
      exact hanswer
    · -- the rule for what precedes the code only looks for static variables, that for the gap offers more
      intro hstatics
      have hitems : u.statics.items.isEmpty = false := List.isEmpty_eq_false_iff.mpr hstatics
      have hoffers := (congrArg (Offers.ofContext u) hcontext).trans (Offers.ofContext_beforeFirst u)
      have hoffers' := offers_padded_before hsame hcode hplaced hplaced' hp hbefore
      rw [hitems] at hoffers hoffers'
      rw [← hcontext] at hoffers
      exact ⟨complete_of_offers hfault hoffers, complete_of_offers hfault' hoffers'⟩

/-- A unit with a call on line 22, and what static variables are given on line 21. -/
def noteUnit (range : Range) (ds : List (Declaration NameRef Node)) : UnitNode where
  range := range
  statics := ⟨⟨⟨21, 2⟩, ⟨21, 6⟩, by decide⟩, ds⟩
  functions := ⟨⟨⟨21, 6⟩, ⟨21, 6⟩, by decide⟩, []⟩
  statements := ⟨⟨⟨22, 0⟩, ⟨22, 4⟩, by decide⟩, [.plain .expressionStatement ⟨⟨⟨22, 0⟩, ⟨22, 4⟩, by decide⟩, []⟩]⟩

/-- A static variable that is all of the section in `noteUnit`. -/
def noteVariable : Declaration NameRef Node :=
  ⟨⟨⟨21, 2⟩, ⟨21, 6⟩, by decide⟩, none,
    ⟨⟨⟨21, 2⟩, ⟨21, 6⟩, by decide⟩, "note", some (.value .staticVariable "note" none), none⟩, none⟩

def noteRange : Range := ⟨⟨21, 2⟩, ⟨22, 4⟩, by decide⟩

def noteRangePadded : Range := ⟨⟨20, 0⟩, ⟨23, 9⟩, by decide⟩

/-- One line below the code both units suggest the variable and the words for a statement. One line above they
differ, and without the variable they do not. -/
theorem complete_padded_note :
    (∃ answer, complete ⟨noteUnit noteRange [noteVariable], []⟩ 0 ⟨23, 0⟩ = .ok answer ∧
      complete ⟨noteUnit noteRangePadded [noteVariable], []⟩ 0 ⟨23, 0⟩ = .ok answer ∧
      answer.map Suggestion.label = ["note", "for", "foreach", "if", "return", "while"]) ∧
    complete ⟨noteUnit noteRange [noteVariable], []⟩ 0 ⟨20, 5⟩ = .ok [.keyword "static"] ∧
    complete ⟨noteUnit noteRangePadded [noteVariable], []⟩ 0 ⟨20, 5⟩ = .ok
      (.keyword "static" :: .keyword "void" ::
        [Predefined.boolean, .int, .char, .float, .string].map fun t => .ofType (.predefined t)) ∧
    ∃ answer, complete ⟨noteUnit noteRange [], []⟩ 0 ⟨20, 5⟩ = .ok answer ∧
      complete ⟨noteUnit noteRangePadded [], []⟩ 0 ⟨20, 5⟩ = .ok answer ∧ answer.length = 12 := by
  have hsame : ∀ ds, (noteUnit noteRange ds).SameSections (noteUnit noteRangePadded ds) :=
    fun _ => ⟨rfl, rfl, rfl⟩
  have hwell : ∀ (u : UnitNode) (p : Position), requestFault? ⟨u, []⟩ 0 p = none → ¬ Malformed ⟨u, []⟩ 0 p :=
    fun _ _ => requestFault?_eq_none_iff.mp
  refine ⟨?_, ?_⟩
  · have hpadded := complete_padded (hsame [noteVariable]) rfl (hwell _ ⟨23, 0⟩ rfl) (hwell _ _ rfl) rfl
    obtain ⟨-, -, answer, hanswer, hanswer'⟩ := hpadded.1 (by decide)
    refine ⟨answer, hanswer, hanswer', ?_⟩
    obtain rfl := Except.ok.inj hanswer
    rfl
  · have hpadded := complete_padded (hsame [noteVariable]) rfl (hwell _ ⟨20, 5⟩ rfl) (hwell _ _ rfl) rfl
    obtain ⟨-, -, -, hstatics⟩ := hpadded.2 (by decide)
    refine ⟨(hstatics (List.cons_ne_nil _ _)).1, (hstatics (List.cons_ne_nil _ _)).2, ?_⟩
    have hbare := complete_padded (hsame []) rfl (hwell _ ⟨20, 5⟩ rfl) (hwell _ _ rfl) rfl
    obtain ⟨-, -, hnone, -⟩ := hbare.2 (by decide)
    obtain ⟨answer, hanswer, hanswer'⟩ := hnone rfl
    refine ⟨answer, hanswer, hanswer', ?_⟩
    obtain rfl := Except.ok.inj hanswer
    rfl

end Script
end Caret
