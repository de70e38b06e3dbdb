import Caret.Proofs.Requests
/-!
# `Caret.Proofs.Sections` — offers keep the order of the sections

A script has its static variables first, then its functions, then its statements. A static variable may be written where
no function and no statement has ended yet (`StaticFits`), a function where no statement has (`FunctionFits`), a
statement where no static variable and no function is still to start (`StatementFits`). The classification looks at no
item of a section: it goes by the sections next to the cursor, and this module shows that the two agree.

## Contents
- **Sections in order.** `place`, `lt_iff_place_lt`, `precedes_of_place_lt` — the sections of a unit by their place.
- **Sections and their items.** `staticFits_iff`, `functionFits_iff`, `statementFits_iff`; outside a section all of its
  items are on one side (`Ordered.ended_iff`, `Ordered.ahead_iff`).
- **Gating.** `Gated` — the offers go by the sections, in each context outside of them.
- **The sections themselves.** `fits_of_atSection` — inside a section.
- **The order is kept.** `Offers.keep_section_order`.
-/

namespace Caret

/-! ## Sections in order -/

namespace Node

/-- The place of a section in a script: static variables, functions, statements. -/
def place : Node → Nat
  | .statics _ => 0
  | .functions _ => 1
  | _ => 2

/-- The sections stand in their order. -/
theorem pairwise_place (u : UnitNode) : (Node.unit u).children.Pairwise fun c d => c.place < d.place := by
  simp only [children, List.pairwise_append, List.mem_append, mem_sectionNode]
  have hsingle : ∀ {α : Type} (node : Group α → Node) (g : Group α),
      (sectionNode node g).Pairwise fun c d => c.place < d.place := by
    intro α node g
    unfold sectionNode
    split
    · exact List.Pairwise.nil
    · exact List.pairwise_singleton _ _
  refine ⟨hsingle _ _, ⟨hsingle _ _, hsingle _ _, ?_⟩, ?_⟩
  · rintro _ ⟨rfl, -⟩ _ ⟨rfl, -⟩
    exact Nat.one_lt_two
  · rintro _ ⟨rfl, -⟩ _ (⟨rfl, -⟩ | ⟨rfl, -⟩)
    · exact Nat.zero_lt_one
    · exact Nat.zero_lt_two

variable {u : UnitNode} {p : Position} {c d : Node}

theorem lt_iff_place_lt {i j : Nat} (hc : (Node.unit u).children[i]? = some c)
    (hd : (Node.unit u).children[j]? = some d) : i < j ↔ c.place < d.place := by
  obtain ⟨hi, rfl⟩ := List.getElem?_eq_some_iff.mp hc
  obtain ⟨hj, rfl⟩ := List.getElem?_eq_some_iff.mp hd
  have hplace := List.pairwise_iff_getElem.mp (pairwise_place u)
  refine ⟨hplace i j hi hj, ?_⟩
  intro hlt
  rcases Nat.lt_trichotomy i j with hij | rfl | hij
  · exact hij
  · exact absurd hlt (Nat.lt_irrefl _)
  · exact absurd hlt (Nat.lt_asymm (hplace j i hj hi hij))

/-- Of two sections in order the one with the lower place has ended when the other one starts. -/
theorem precedes_of_place_lt (h : (Node.unit u).Ordered) (hc : c ∈ (Node.unit u).children)
    (hd : d ∈ (Node.unit u).children) (hlt : c.place < d.place) : Precedes c d := by
  obtain ⟨i, hi⟩ := List.getElem?_of_mem hc
  obtain ⟨j, hj⟩ := List.getElem?_of_mem hd
  exact h.precedes_of_lt hi hj ((lt_iff_place_lt hi hj).mpr hlt)

/-- A section that has ended before a position has a lower place than one that starts after it. -/
theorem place_lt_of_ended_of_ahead (h : (Node.unit u).Ordered) (hc : c ∈ (Node.unit u).children)
    (hd : d ∈ (Node.unit u).children) (hended : c.range.stop < p) (hahead : p < d.range.start) :
    c.place < d.place := by
  obtain ⟨i, hi⟩ := List.getElem?_of_mem hc
  obtain ⟨j, hj⟩ := List.getElem?_of_mem hd
  have hstop : p ≤ d.range.stop := le_trans (le_of_lt hahead) d.range.start_le_stop
  exact (lt_iff_place_lt hi hj).mp (h.lt_of_stop_lt hi hj hended hstop)

/-! ## Sections and their items -/

namespace Ordered

variable {n : Node}

theorem start_lt_of_ended (h : n.Ordered) {x : Node} (hx : x ∈ n.children) (hended : x.range.stop < p) :
    n.range.start < p := by
  have hle : n.range.start ≤ x.range.stop := le_trans (h.inside x hx).1 x.range.start_le_stop
  exact lt_of_le_of_lt hle hended

theorem lt_stop_of_ahead (h : n.Ordered) {x : Node} (hx : x ∈ n.children) (hahead : p < x.range.start) :
    p < n.range.stop := by
  have hle : x.range.start ≤ n.range.stop := le_trans x.range.start_le_stop (h.inside x hx).2
  exact lt_of_lt_of_le hahead hle

/-- Outside a node either all of its children have ended or none has. -/
theorem ended_iff (h : n.Ordered) (hne : n.children ≠ []) (hout : n.range.contains p = false) :
    (∀ x ∈ n.children, ¬ x.range.stop < p) ↔ ¬ n.range.stop < p := by
  constructor
  · intro hall hended
    obtain ⟨x, hx⟩ := List.exists_mem_of_ne_nil _ hne
    exact hall x hx (lt_of_le_of_lt (h.inside x hx).2 hended)
  · intro hnot x hx hended
    have hin : n.range.contains p = true :=
      Range.contains_iff.mpr ⟨le_of_lt (h.start_lt_of_ended hx hended), not_lt.mp hnot⟩
    rw [hout] at hin
    contradiction

/-- Outside a node either all of its children are still to start or none is. -/
theorem ahead_iff (h : n.Ordered) (hne : n.children ≠ []) (hout : n.range.contains p = false) :
    (∀ x ∈ n.children, ¬ p < x.range.start) ↔ ¬ p < n.range.start := by
  constructor
  · intro hall hahead
    obtain ⟨x, hx⟩ := List.exists_mem_of_ne_nil _ hne
    exact hall x hx (lt_of_lt_of_le hahead (h.inside x hx).1)
  · intro hnot x hx hahead
    have hin : n.range.contains p = true :=
      Range.contains_iff.mpr ⟨not_lt.mp hnot, le_of_lt (h.lt_stop_of_ahead hx hahead)⟩
    rw [hout] at hin
    contradiction

end Ordered

/-- Inside a section no item of a later one has ended. -/
theorem not_ended_of_place_lt (hu : (Node.unit u).misplaced? = none) (hc : c ∈ (Node.unit u).children)
    (hd : d ∈ (Node.unit u).children) (hp : p ≤ c.range.stop) (hlt : c.place < d.place) :
    ∀ x ∈ d.children, ¬ x.range.stop < p := by
  obtain ⟨hord, hbelow⟩ := misplaced?_eq_none_iff.mp hu
  intro x hx hended
  have hstart : d.range.start < p := (ordered_of_misplaced?_eq_none (hbelow d hd)).start_lt_of_ended hx hended
  have hcd : c.range.stop ≤ d.range.start := precedes_of_place_lt hord hc hd hlt
  exact lt_irrefl _ (lt_of_le_of_lt (le_trans hp hcd) hstart)

/-- Inside a section no item of an earlier one is still to start. -/
theorem not_ahead_of_place_lt (hu : (Node.unit u).misplaced? = none) (hc : c ∈ (Node.unit u).children)
    (hd : d ∈ (Node.unit u).children) (hp : c.range.start ≤ p) (hlt : d.place < c.place) :
    ∀ x ∈ d.children, ¬ p < x.range.start := by
  obtain ⟨hord, hbelow⟩ := misplaced?_eq_none_iff.mp hu
  intro x hx hahead
  have hstop : p < d.range.stop := (ordered_of_misplaced?_eq_none (hbelow d hd)).lt_stop_of_ahead hx hahead
  have hdc : d.range.stop ≤ c.range.start := precedes_of_place_lt hord hd hc hlt
  exact lt_irrefl _ (lt_of_lt_of_le hstop (le_trans hdc hp))

theorem children_ne_nil_of_mem_children_unit (hc : c ∈ (Node.unit u).children) : c.children ≠ [] := by
  rcases mem_children_unit.mp hc with ⟨rfl, h⟩ | ⟨rfl, h⟩ | ⟨rfl, h⟩
  · simpa [children] using h
  · simpa [children] using h
  · simpa [children] using h

end Node

namespace CompilationUnit

variable {u : UnitNode} {p : Position}

/-- A static variable fits at a position: no function and no statement has ended before it. -/
def StaticFits (u : UnitNode) (p : Position) : Prop :=
  (∀ f ∈ u.functions.items, ¬ f.range.stop < p) ∧ ∀ s ∈ u.statements.items, ¬ s.range.stop < p

/-- A function fits at a position: no statement has ended before it. -/
def FunctionFits (u : UnitNode) (p : Position) : Prop :=
  ∀ s ∈ u.statements.items, ¬ s.range.stop < p

/-- A statement fits at a position: no static variable and no function starts after it. -/
def StatementFits (u : UnitNode) (p : Position) : Prop :=
  (∀ d ∈ u.statics.items, ¬ p < d.range.start) ∧ ∀ f ∈ u.functions.items, ¬ p < f.range.start

/-- What holds of the items of every section that has some holds of the items of all three. -/
theorem forall_items_iff {P : Nat → Node → Prop} :
    (∀ c ∈ (Node.unit u).children, ∀ x ∈ c.children, P c.place x) ↔
      (∀ d ∈ u.statics.items, P 0 (.declaration d)) ∧ (∀ f ∈ u.functions.items, P 1 (.function f)) ∧
      ∀ s ∈ u.statements.items, P 2 s := by
  constructor
  · intro h
    refine ⟨fun d hd => ?_, fun f hf => ?_, fun s hs => ?_⟩
    · exact h (.statics u.statics) (Node.mem_children_unit.mpr (Or.inl ⟨rfl, List.ne_nil_of_mem hd⟩)) _
        (List.mem_map_of_mem hd)
    · exact h (.functions u.functions) (Node.mem_children_unit.mpr (Or.inr (Or.inl ⟨rfl, List.ne_nil_of_mem hf⟩))) _
        (List.mem_map_of_mem hf)
    · exact h (.block u.statements) (Node.mem_children_unit.mpr (Or.inr (Or.inr ⟨rfl, List.ne_nil_of_mem hs⟩))) s hs
  · rintro ⟨hstatics, hfunctions, hstatements⟩ c hc x hx
    rcases Node.mem_children_unit.mp hc with ⟨rfl, -⟩ | ⟨rfl, -⟩ | ⟨rfl, -⟩
    · obtain ⟨d, hd, rfl⟩ := List.mem_map.mp hx
      exact hstatics d hd
    · obtain ⟨f, hf, rfl⟩ := List.mem_map.mp hx
      exact hfunctions f hf
    · exact hstatements x hx

/-- What fits at a position, by the places of the sections. -/
theorem staticFits_iff :
    u.StaticFits p ↔ ∀ c ∈ (Node.unit u).children, ∀ x ∈ c.children, 0 < c.place → ¬ x.range.stop < p := by
  rw [forall_items_iff (P := fun k x => 0 < k → ¬ x.range.stop < p)]
  simp [StaticFits, Node.range]

theorem functionFits_iff :
    u.FunctionFits p ↔ ∀ c ∈ (Node.unit u).children, ∀ x ∈ c.children, 1 < c.place → ¬ x.range.stop < p := by
  rw [forall_items_iff (P := fun k x => 1 < k → ¬ x.range.stop < p)]
  simp [FunctionFits]

theorem statementFits_iff :
    u.StatementFits p ↔ ∀ c ∈ (Node.unit u).children, ∀ x ∈ c.children, c.place < 2 → ¬ p < x.range.start := by
  rw [forall_items_iff (P := fun k x => k < 2 → ¬ p < x.range.start)]
  simp [StatementFits, Node.range]

/-- What holds of the place of every section that has items. -/
theorem forall_place_iff {P : Nat → Prop} :
    (∀ c ∈ (Node.unit u).children, P c.place) ↔
      (u.statics.items ≠ [] → P 0) ∧ (u.functions.items ≠ [] → P 1) ∧ (u.statements.items ≠ [] → P 2) := by
  constructor
  · intro h
    refine ⟨fun hs => ?_, fun hf => ?_, fun hb => ?_⟩
    · exact h (.statics u.statics) (Node.mem_children_unit.mpr (Or.inl ⟨rfl, hs⟩))
    · exact h (.functions u.functions) (Node.mem_children_unit.mpr (Or.inr (Or.inl ⟨rfl, hf⟩)))
    · exact h (.block u.statements) (Node.mem_children_unit.mpr (Or.inr (Or.inr ⟨rfl, hb⟩)))
  · rintro ⟨hs, hf, hb⟩ c hc
    rcases Node.mem_children_unit.mp hc with ⟨rfl, h⟩ | ⟨rfl, h⟩ | ⟨rfl, h⟩
    · exact hs h
    · exact hf h
    · exact hb h

end CompilationUnit

/-! ## Gating by sections -/

namespace Offers

variable {u : UnitNode} {p : Position} {o : Offers}

/-- **Offers that go by the sections.** Which of them have ended before the position and which are still to start
decides what is offered. -/
structure Gated (u : UnitNode) (p : Position) (o : Offers) : Prop where
  static_iff : o.static = true ↔ ∀ c ∈ (Node.unit u).children, 0 < c.place → ¬ c.range.stop < p
  of_void : o.void = true → ∀ c ∈ (Node.unit u).children, 1 < c.place → ¬ c.range.stop < p
  void_eq : o.void = o.types
  statements_iff : o.statements = true ↔ ∀ c ∈ (Node.unit u).children, c.place < 2 → ¬ p < c.range.start

/-- The offers outside the code, case by case. -/
theorem gated_noCode (hu : u.isEmpty = true) (ho : ofContext u { region := .noCode } = .ok o) : o.Gated u p := by
  have hnil : (Node.unit u).children = [] := List.isEmpty_iff.mp hu
  obtain rfl := Except.ok.inj ho
  constructor
  · simp [hnil]
  · simp [hnil]
  · rfl
  · simp [hnil]

theorem gated_beforeFirst (h : (Node.unit u).Ordered) (hp : p < u.range.start)
    (ho : ofContext u { region := .beforeFirst } = .ok o) : o.Gated u p := by
  have hahead : ∀ c ∈ (Node.unit u).children, p < c.range.start :=
    fun c hc => lt_of_lt_of_le hp (h.inside c hc).1
  have hended : ∀ c ∈ (Node.unit u).children, ¬ c.range.stop < p :=
    fun c hc hlt => Range.not_lt_start_of_stop_lt hlt (hahead c hc)
  obtain rfl := Except.ok.inj ho
  refine ⟨?_, ?_, rfl, ?_⟩
  · exact ⟨fun _ c hc _ => hended c hc, fun _ => rfl⟩
  · intro _ c hc _
    exact hended c hc
  · -- every section is ahead, so what is asked is that none of the first two has items
    have hplace := CompilationUnit.forall_place_iff (u := u) (P := fun k => ¬ k < 2)
    have hiff : (∀ c ∈ (Node.unit u).children, c.place < 2 → ¬ p < c.range.start) ↔
        ∀ c ∈ (Node.unit u).children, ¬ c.place < 2 :=
      ⟨fun hall c hc hk => hall c hc hk (hahead c hc), fun hall c hc hk => absurd hk (hall c hc)⟩
    rw [hiff, hplace]
    simp

theorem gated_afterLast (h : (Node.unit u).Ordered) (hp : u.range.stop < p)
    (ho : ofContext u { region := .afterLast } = .ok o) : o.Gated u p := by
  have hended : ∀ c ∈ (Node.unit u).children, c.range.stop < p :=
    fun c hc => lt_of_le_of_lt (h.inside c hc).2 hp
  have hahead : ∀ c ∈ (Node.unit u).children, ¬ p < c.range.start :=
    fun c hc => Range.not_lt_start_of_stop_lt (hended c hc)
  have hiff : ∀ k : Nat, (∀ c ∈ (Node.unit u).children, k < c.place → ¬ c.range.stop < p) ↔
      ∀ c ∈ (Node.unit u).children, ¬ k < c.place := by
    intro k
    exact ⟨fun hall c hc hk => hall c hc hk (hended c hc), fun hall c hc hk => absurd hk (hall c hc)⟩
  obtain rfl := Except.ok.inj ho
  refine ⟨?_, ?_, rfl, ?_⟩
  · rw [hiff 0, CompilationUnit.forall_place_iff (P := fun k => ¬ 0 < k)]
    simp
  · rw [hiff 1, CompilationUnit.forall_place_iff (P := fun k => ¬ 1 < k)]
    simp
  · exact ⟨fun _ c hc _ => hahead c hc, fun _ => rfl⟩

/-- The next section allows a statement exactly when no section that comes before the statements is ahead. -/
theorem statementsMayStart_iff {next : Option Node} (hnext : next = ((Node.unit u).neighbours p).2) :
    statementsMayStart next = true ↔
      ∀ c ∈ (Node.unit u).children, c.place < 2 → ¬ p < c.range.start := by
  cases hn : next with
  | none =>
    have hahead := Node.not_ahead_of_neighbours_snd (hnext.symm.trans hn)
    exact ⟨fun _ c hc _ => hahead c hc, fun _ => rfl⟩
  | some n =>
    obtain ⟨hmem, hlt, hfirst⟩ := Node.of_neighbours_snd (Node.pairwise_place u) (hnext.symm.trans hn)
    have hkind : statementsMayStart (some n) = true ↔ ¬ n.place < 2 := by
      rcases Node.mem_children_unit.mp hmem with ⟨rfl, -⟩ | ⟨rfl, -⟩ | ⟨rfl, -⟩ <;>
        simp [statementsMayStart, Node.kind, Node.place]
    rw [hkind]
    constructor
    · intro hplace c hc hk hahead
      rcases hfirst c hc hahead with rfl | hnc
      · exact hplace hk
      · omega
    · intro hall hk
      exact hall n hmem hk hlt

/-- **Between the sections.** What is offered goes by the section on the left, and for statements also by the one on the
right. -/
theorem gated_inUnit (h : (Node.unit u).Ordered) {c : Context} (hprev : c.prev = ((Node.unit u).neighbours p).1)
    (hnext : c.next = ((Node.unit u).neighbours p).2) (ho : inUnit c = .ok o) : o.Gated u p := by
  have hmay := statementsMayStart_iff hnext
  unfold inUnit at ho
  cases hp : c.prev with
  | none =>
    have hended := Node.not_ended_of_neighbours_fst h (hprev.symm.trans hp)
    rw [hp] at ho
    obtain rfl := Except.ok.inj ho
    exact ⟨⟨fun _ d hd _ => hended d hd, fun _ => rfl⟩, fun _ d hd _ => hended d hd, rfl, hmay⟩
  | some s =>
    have hs : s ∈ (Node.unit u).children := Node.neighbours_fst_mem (hprev.symm.trans hp)
    obtain ⟨hlt, hlast⟩ := Node.of_neighbours_fst h (Node.pairwise_place u) (hprev.symm.trans hp)
    -- what has ended comes no later than `s`, and what is ahead comes later
    have hended : ∀ d ∈ (Node.unit u).children, s.place < d.place → ¬ d.range.stop < p := by
      intro d hd hk hdp
      rcases hlast d hd hdp with rfl | hds
      · exact Nat.lt_irrefl _ hk
      · exact Nat.lt_asymm hk hds
    have hahead : ∀ d ∈ (Node.unit u).children, d.place ≤ s.place → ¬ p < d.range.start := by
      intro d hd hk hdp
      exact Nat.not_lt.mpr hk (Node.place_lt_of_ended_of_ahead h hs hd hlt hdp)
    rw [hp] at ho
    rcases Node.mem_children_unit.mp hs with ⟨rfl, -⟩ | ⟨rfl, -⟩ | ⟨rfl, -⟩
    · obtain rfl := Except.ok.inj ho
      refine ⟨⟨fun _ => hended, fun _ => rfl⟩, ?_, rfl, hmay⟩
      intro _ d hd hk
      exact hended d hd (Nat.lt_of_succ_lt hk)
    · -- the functions have ended, so `static` is not offered, and only the statements can be ahead
      obtain rfl := Except.ok.inj ho
      refine ⟨⟨fun hf => absurd hf Bool.false_ne_true, ?_⟩, fun _ => hended, rfl, ⟨?_, fun _ => rfl⟩⟩
      · intro hall
        exact absurd hlt (hall _ hs Nat.zero_lt_one)
      · intro _ d hd hk
        exact hahead d hd (Nat.le_of_lt_succ hk)
    · obtain rfl := Except.ok.inj ho
      refine ⟨⟨fun hf => absurd hf Bool.false_ne_true, ?_⟩, fun hf => absurd hf Bool.false_ne_true, rfl,
        ⟨?_, fun _ => rfl⟩⟩
      · intro hall
        exact absurd hlt (hall _ hs Nat.zero_lt_two)
      · intro _ d hd hk
        exact hahead d hd (Nat.le_of_lt hk)

end Offers

/-! ## The contexts of a unit and of its sections -/

namespace Context

/-- The context of the unit itself: outside the code, or within it and between the sections. -/
def AtUnit (u : UnitNode) (c : Context) : Prop :=
  c.region ≠ .within ∨ c.governing = some (.root (.unit u))

/-- A context that one of the sections of the unit governs. -/
def AtSection (u : UnitNode) (c : Context) : Prop :=
  ∃ i s, c.governing = some (.child (.root (.unit u)) i s)

end Context

namespace Offers

variable {u : UnitNode} {p : Position} {o : Offers}

theorem ofPosition_eq (u : UnitNode) (p : Position) : ofPosition u p = ofContext u (.ofPosition u p) := by
  unfold ofPosition
  rw [Context.locate_eq_ok]

/-- At the unit itself the offers go by the sections, and the position is in none of them. -/
theorem gated_of_atUnit (h : (Node.unit u).Ordered) (ho : ofContext u (.ofPosition u p) = .ok o)
    (hat : (Context.ofPosition u p).AtUnit u) :
    o.Gated u p ∧ ∀ c ∈ (Node.unit u).children, c.range.contains p = false := by
  rcases Context.ofPosition_cases u p with ⟨hu, hc⟩ | ⟨hp, hc⟩ | ⟨hp, hc⟩ | ⟨origin, hr, hc⟩
  · rw [hc] at ho
    refine ⟨gated_noCode hu ho, ?_⟩
    intro c hc
    rw [List.isEmpty_iff.mp hu] at hc
    contradiction
  · rw [hc] at ho
    refine ⟨gated_beforeFirst h hp ho, ?_⟩
    intro c hc
    refine Bool.eq_false_iff.mpr fun hin => ?_
    have hstart := le_trans (h.inside c hc).1 (Range.contains_iff.mp hin).1
    exact lt_irrefl _ (lt_of_lt_of_le hp hstart)
  · rw [hc] at ho
    refine ⟨gated_afterLast h hp ho, ?_⟩
    intro c hc
    refine Bool.eq_false_iff.mpr fun hin => ?_
    have hstop := le_trans (Range.contains_iff.mp hin).2 (h.inside c hc).2
    exact lt_irrefl _ (lt_of_le_of_lt hstop hp)
  · -- within the code, only the root itself can be governed by the root
    rw [hc] at ho hat
    obtain ⟨hto, hend⟩ := Trail.resolve_eq_some_iff.mp hr
    have hgov : origin.governing = .root (.unit u) := by
      rcases hat with hregion | hgov
      · exact absurd rfl hregion
      · exact Option.some.inj hgov
    obtain rfl : origin = .root (.unit u) := Trail.eq_root_of_climb_eq_root hto.toFrom hgov
    exact ⟨gated_inUnit h rfl rfl ho, Node.childAt?_eq_none_iff.mp hend⟩

/-- Outside the sections the offers go by their items, too. -/
theorem Gated.fits (ho : o.Gated u p) (hu : (Node.unit u).misplaced? = none)
    (hout : ∀ c ∈ (Node.unit u).children, c.range.contains p = false) :
    (o.static = true ↔ u.StaticFits p) ∧ (o.void = true → u.FunctionFits p) ∧ o.void = o.types ∧
      (o.statements = true ↔ u.StatementFits p) := by
  have hord : ∀ c ∈ (Node.unit u).children, c.Ordered := fun c hc =>
    Node.ordered_of_misplaced?_eq_none ((Node.misplaced?_eq_none_iff.mp hu).2 c hc)
  have hended : ∀ c ∈ (Node.unit u).children, (∀ x ∈ c.children, ¬ x.range.stop < p) ↔ ¬ c.range.stop < p :=
    fun c hc => (hord c hc).ended_iff (Node.children_ne_nil_of_mem_children_unit hc) (hout c hc)
  have hahead : ∀ c ∈ (Node.unit u).children, (∀ x ∈ c.children, ¬ p < x.range.start) ↔ ¬ p < c.range.start :=
    fun c hc => (hord c hc).ahead_iff (Node.children_ne_nil_of_mem_children_unit hc) (hout c hc)
  rw [CompilationUnit.staticFits_iff, CompilationUnit.functionFits_iff, CompilationUnit.statementFits_iff]
  refine ⟨ho.static_iff.trans ?_, fun hv c hc x hx hk => ?_, ho.void_eq, ho.statements_iff.trans ?_⟩
  · exact ⟨fun hall c hc x hx hk => (hended c hc).mpr (hall c hc hk) x hx,
      fun hall c hc hk => (hended c hc).mp fun x hx => hall c hc x hx hk⟩
  · exact (hended c hc).mpr (ho.of_void hv c hc hk) x hx
  · exact ⟨fun hall c hc x hx hk => (hahead c hc).mpr (hall c hc hk) x hx,
      fun hall c hc hk => (hahead c hc).mp fun x hx => hall c hc x hx hk⟩

/-- In a static section the start of a function is offered like a type, and no statement is. -/
theorem inStaticSection_spec (c : Context) (hasFunctions : Bool) :
    (inStaticSection c hasFunctions).void = (inStaticSection c hasFunctions).types ∧
      (inStaticSection c hasFunctions).statements = false := by
  unfold inStaticSection
  cases c.sectionItem? with
  | none => exact ⟨rfl, rfl⟩
  | some item => exact ⟨rfl, rfl⟩

/-- **Inside a section** only what the order allows there is offered. -/
theorem fits_of_atSection (hu : (Node.unit u).misplaced? = none) (ho : ofContext u (.ofPosition u p) = .ok o)
    (hat : (Context.ofPosition u p).AtSection u) :
    (o.static = true → u.StaticFits p) ∧ (o.void = true → u.FunctionFits p) ∧ o.void = o.types ∧
      (o.statements = true → u.StatementFits p) := by
  obtain ⟨i, s, hgov⟩ := hat
  obtain ⟨origin, hr, hclimb, hc⟩ := Context.ofPosition_eq_within hgov
  rw [hc] at ho
  have hto : (Trail.child (.root (.unit u)) i s).Towards (.unit u) p := by
    refine (Trail.mem_links_iff_towards hr).mp ?_
    rw [← hclimb]
    exact Trail.climb_mem_links origin true
  have hs : s ∈ (Node.unit u).children := List.mem_of_getElem? hto.toFrom.child_mem
  obtain ⟨hstart, hstop⟩ := Range.contains_iff.mp hto.contains
  have hended := fun c hc hk => Node.not_ended_of_place_lt (c := s) (d := c) hu hs hc hstop hk
  have hahead := fun c hc hk => Node.not_ahead_of_place_lt (c := s) (d := c) hu hs hc hstart hk
  -- in a section no later one has ended and no earlier one is still ahead
  rcases Node.mem_children_unit.mp hs with ⟨rfl, -⟩ | ⟨rfl, -⟩ | ⟨rfl, -⟩
  · have hfit : u.StaticFits p := CompilationUnit.staticFits_iff.mpr fun c hc x hx hk => hended c hc hk x hx
    obtain rfl := Except.ok.inj ho
    obtain ⟨hvoid, hstatements⟩ :=
      inStaticSection_spec (.within (.child (.root (.unit u)) i (.statics u.statics)) origin p)
        (!u.functions.items.isEmpty)
    exact ⟨fun _ => hfit, fun _ => hfit.2, hvoid, fun hf => absurd (hf.symm.trans hstatements) (by simp)⟩
  · have hfit : u.FunctionFits p := CompilationUnit.functionFits_iff.mpr fun c hc x hx hk => hended c hc hk x hx
    obtain rfl := Except.ok.inj ho
    exact ⟨fun hf => absurd hf Bool.false_ne_true, fun _ => hfit, rfl, fun hf => absurd hf Bool.false_ne_true⟩
  · have hfit : u.StatementFits p := CompilationUnit.statementFits_iff.mpr fun c hc x hx hk => hahead c hc hk x hx
    obtain rfl := Except.ok.inj ho
    exact ⟨fun hf => absurd hf Bool.false_ne_true, fun hf => absurd hf Bool.false_ne_true, rfl, fun _ => hfit⟩

/-! ## The order is kept -/

/-- **Offers keep the order of the sections.** In a unit without a misplaced node every position has offers. Outside the
code, between the sections and in a section, `static` is offered only where a static variable fits, `void` and the types
together and only where a function fits, and a statement only where one fits. Outside the sections, `static` and a
statement are offered wherever they fit. -/
theorem keep_section_order {u : UnitNode} (hu : (Node.unit u).misplaced? = none) (p : Position) :
    ∃ o, ofPosition u p = .ok o ∧
      (o.context.AtUnit u ∨ o.context.AtSection u →
        (o.static = true → u.StaticFits p) ∧ (o.void = o.types ∧ (o.void = true → u.FunctionFits p)) ∧
          (o.statements = true → u.StatementFits p)) ∧
      (o.context.AtUnit u → (o.static = true ↔ u.StaticFits p) ∧ (o.statements = true ↔ u.StatementFits p)) := by
  obtain ⟨o, ho, hcontext⟩ := ofPosition_eq_ok u p
  have hof : ofContext u (.ofPosition u p) = .ok o := by
    rw [← ofPosition_eq]
    exact ho
  have hunit : o.context.AtUnit u → (o.static = true ↔ u.StaticFits p) ∧ (o.void = true → u.FunctionFits p) ∧
      o.void = o.types ∧ (o.statements = true ↔ u.StatementFits p) := by
    intro hat
    rw [hcontext] at hat
    obtain ⟨hgated, hout⟩ := gated_of_atUnit (Node.ordered_of_misplaced?_eq_none hu) hof hat
    exact hgated.fits hu hout
  refine ⟨o, ho, ?_, ?_⟩
  · rintro (hat | hat)
    · obtain ⟨hstatic, hvoid, htypes, hstatements⟩ := hunit hat
      exact ⟨hstatic.mp, ⟨htypes, hvoid⟩, hstatements.mp⟩
    · rw [hcontext] at hat
      obtain ⟨hstatic, hvoid, htypes, hstatements⟩ := fits_of_atSection hu hof hat
      exact ⟨hstatic, ⟨htypes, hvoid⟩, hstatements⟩
  · intro hat
    obtain ⟨hstatic, -, -, hstatements⟩ := hunit hat
    exact ⟨hstatic, hstatements⟩

/-- A static variable on line 0, a function on line 2 and a statement on line 4. -/
def threeSections : UnitNode where
  range := ⟨⟨0, 0⟩, ⟨4, 9⟩, by decide⟩
  statics := ⟨⟨⟨0, 0⟩, ⟨0, 10⟩, by decide⟩,
    [{ range := ⟨⟨0, 0⟩, ⟨0, 10⟩, by decide⟩
       typeNode := some (.typeName ⟨⟨0, 0⟩, ⟨0, 3⟩, by decide⟩ (.predefined .int))
       name := ⟨⟨⟨0, 4⟩, ⟨0, 10⟩, by decide⟩, "amount", some (.value .staticVariable "amount" none), none⟩
       initializer := none }]⟩
  functions := ⟨⟨⟨2, 0⟩, ⟨2, 16⟩, by decide⟩,
    [{ range := ⟨⟨2, 0⟩, ⟨2, 16⟩, by decide⟩
       returnType := .typeName ⟨⟨2, 0⟩, ⟨2, 4⟩, by decide⟩ (.predefined .int)
       name := ⟨⟨⟨2, 5⟩, ⟨2, 10⟩, by decide⟩, "reset", none, none⟩
       parameters := ⟨⟨⟨2, 10⟩, ⟨2, 12⟩, by decide⟩, []⟩
       body := ⟨⟨⟨2, 13⟩, ⟨2, 16⟩, by decide⟩, []⟩ }]⟩
  statements := ⟨⟨⟨4, 0⟩, ⟨4, 9⟩, by decide⟩, [.plain .expressionStatement ⟨⟨⟨4, 0⟩, ⟨4, 9⟩, by decide⟩, []⟩]⟩

/-- Between the static variable and the function, `static` and `void` are offered and fit. Statements are not
offered and do not fit. -/
theorem keep_section_order_gap :
    (Node.unit threeSections).misplaced? = none ∧
    ∃ o, ofPosition threeSections ⟨1, 0⟩ = .ok o ∧ o.context.AtUnit threeSections ∧
      (o.static = true ∧ threeSections.StaticFits ⟨1, 0⟩) ∧ (o.void = true ∧ threeSections.FunctionFits ⟨1, 0⟩) ∧
      (o.statements = false ∧ ¬ threeSections.StatementFits ⟨1, 0⟩) := by
  refine ⟨rfl, ?_⟩
  obtain ⟨o, ho, hfits, hexact⟩ := keep_section_order (u := threeSections) rfl ⟨1, 0⟩
  obtain ⟨hat, hstatic, hvoid, hstatements⟩ :
      o.context.AtUnit threeSections ∧ o.static = true ∧ o.void = true ∧ o.statements = false := by
    obtain rfl := Except.ok.inj ho
    exact ⟨Or.inr rfl, rfl, rfl, rfl⟩
  refine ⟨o, ho, hat, ⟨hstatic, (hexact hat).1.mp hstatic⟩, ⟨hvoid, (hfits (Or.inl hat)).2.1.2 hvoid⟩, hstatements, ?_⟩
  intro hfit
  rw [(hexact hat).2.mpr hfit] at hstatements
  contradiction

end Offers
end Caret
