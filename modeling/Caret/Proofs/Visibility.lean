import Caret.Proofs.Resolution
import Caret.Proofs.Scoping
import Caret.Proofs.Sections
import Mathlib.Data.List.Flatten
/-!
# `Caret.Proofs.Visibility` — what is visible stays visible further on

Moving the cursor forward never hides a symbol, as long as it stays in one innermost node or at the top level of the
script. Two arguments are behind this.

At the top level the visible symbols follow one rule wherever the cursor is, though each context collects them in
its own way: the static variables and the statements that have ended, and the functions once their section has begun
(`visible_topLevel`). Each of the three parts can only grow.

With one innermost node, the same nodes contribute at both positions. A declaration that has ended stays so. A body that
contains the first position contains the second one too, because the way down from both goes through the body
(`bodyRange?_contains_of_le`).

## Contents
- **The top level.** `symbolsUpTo` — the symbols of the first sections; `topLevelSymbols` — by position.
- **Top-level contexts.** `Past`, `Inside`; `visible_topLevel`.
- **One innermost node.** `locals_sublist`, `visible_sublist_of_resolve`.
- **Both.** `Script.visible_monotone`.
-/

namespace Caret

variable {p q : Position}

/-! ## Declarations that have ended -/

theorem priorTo_eq_self {ns : List Node} (h : ∀ n ∈ ns, n.range.stop < p) : priorTo ns p = ns :=
  List.filter_eq_self.mpr fun n hn => Range.isBefore_iff.mpr (h n hn)

theorem priorTo_eq_nil {ns : List Node} (h : ∀ n ∈ ns, ¬ n.range.stop < p) : priorTo ns p = [] :=
  List.filter_eq_nil_iff.mpr fun n hn => mt Range.isBefore_iff.mp (h n hn)

/-- What has ended before a position has ended before every later one. -/
theorem declared_priorTo_sublist (ns : List Node) (hpq : p ≤ q) :
    (declared (priorTo ns p)).Sublist (declared (priorTo ns q)) := by
  refine List.Sublist.filterMap _ (List.monotone_filter_right ns ?_)
  intro n hn
  exact Range.isBefore_iff.mpr (lt_of_lt_of_le (Range.isBefore_iff.mp hn) hpq)

/-! ## The top level -/

/-- There are three places for sections. -/
theorem Node.place_lt_three (n : Node) : n.place < 3 := by
  unfold place
  split <;> decide

/-- A unit has one section for each place. -/
theorem Node.eq_of_place_eq {u : UnitNode} {c d : Node} (hc : c ∈ (Node.unit u).children)
    (hd : d ∈ (Node.unit u).children) (heq : c.place = d.place) : c = d := by
  obtain ⟨i, hi⟩ := List.getElem?_of_mem hc
  obtain ⟨j, hj⟩ := List.getElem?_of_mem hd
  have hij : ¬ i < j := fun h => Nat.lt_irrefl _ (heq ▸ (lt_iff_place_lt hi hj).mp h)
  have hji : ¬ j < i := fun h => Nat.lt_irrefl _ (heq ▸ (lt_iff_place_lt hj hi).mp h)
  obtain rfl : i = j := Nat.le_antisymm (Nat.not_lt.mp hji) (Nat.not_lt.mp hij)
  exact Option.some.inj (hi.symm.trans hj)

namespace CompilationUnit

variable {u : UnitNode}

/-- The symbols of the first sections of a unit, as many as are asked for. -/
def symbolsUpTo (u : UnitNode) (k : Nat) : List Symbol :=
  (if 0 < k then u.staticSymbols else []) ++ (if 1 < k then u.functionSymbols else []) ++
    (if 2 < k then u.statementSymbols else [])

/-- The functions, once their section has begun and the one before it has ended. -/
def functionsAt (u : UnitNode) (p : Position) : List Symbol :=
  if u.functions.range.start ≤ p ∧ (u.statics.items = [] ∨ u.statics.range.stop < p) then u.functionSymbols else []

/-- **Visible at the top level**: the static variables that have ended, the functions once they have begun, and the
statements that have ended. -/
def topLevelSymbols (u : UnitNode) (p : Position) : List Symbol :=
  declared (priorTo u.declarations p) ++ u.functionsAt p ++ declared (priorTo u.statements.items p)

theorem ite_sublist {α : Type} {P Q : Prop} [Decidable P] [Decidable Q] (h : P → Q) (l : List α) :
    (if P then l else []).Sublist (if Q then l else []) := by
  by_cases hP : P
  · rw [if_pos hP, if_pos (h hP)]
  · rw [if_neg hP]
    exact List.nil_sublist _

/-- More sections have more symbols. -/
theorem symbolsUpTo_sublist (u : UnitNode) {k l : Nat} (hkl : k ≤ l) : (u.symbolsUpTo k).Sublist (u.symbolsUpTo l) :=
  have hlt {j : Nat} (h : j < k) : j < l := Nat.lt_of_lt_of_le h hkl
  ((ite_sublist hlt _).append (ite_sublist hlt _)).append (ite_sublist hlt _)

/-- Going on, more declarations have ended and the functions stay visible. -/
theorem topLevelSymbols_sublist (u : UnitNode) (hpq : p ≤ q) : (u.topLevelSymbols p).Sublist (u.topLevelSymbols q) := by
  have hfunctions : (u.functionsAt p).Sublist (u.functionsAt q) := by
    refine ite_sublist ?_ _
    rintro ⟨hstart, hstatics⟩
    exact ⟨le_trans hstart hpq, hstatics.imp_right fun h => lt_of_lt_of_le h hpq⟩
  exact ((declared_priorTo_sublist _ hpq).append hfunctions).append (declared_priorTo_sublist _ hpq)

/-- **Outside the sections** the first ones have ended, and the others are still to start. -/
structure Past (u : UnitNode) (p : Position) (k : Nat) : Prop where
  ended : ∀ c ∈ (Node.unit u).children, c.place < k → c.range.stop < p
  ahead : ∀ c ∈ (Node.unit u).children, k ≤ c.place → p < c.range.start

/-- A section is among the children of the unit if it has items. -/
def IsSection (u : UnitNode) (sec : Node) : Prop := sec.children ≠ [] → sec ∈ (Node.unit u).children

/-- The sections that hold declarations are children of the unit if they have items. -/
theorem isSection_statics (u : UnitNode) : u.IsSection (.statics u.statics) := fun h =>
  Node.mem_children_unit.mpr (Or.inl ⟨rfl, fun hnil => h (by rw [Node.children, hnil]; rfl)⟩)

theorem isSection_statements (u : UnitNode) : u.IsSection (.block u.statements) := fun h =>
  Node.mem_children_unit.mpr (Or.inr (Or.inr ⟨rfl, h⟩))

/-- The items of a section have ended where the section has. -/
theorem IsSection.priorTo_eq_self {sec : Node} (hsec : u.IsSection sec) (hu : (Node.unit u).misplaced? = none)
    (h : sec ∈ (Node.unit u).children → sec.range.stop < p) : priorTo sec.children p = sec.children := by
  refine Caret.priorTo_eq_self ?_
  intro x hx
  have hmem := hsec (List.ne_nil_of_mem hx)
  have hord := Node.ordered_of_misplaced?_eq_none ((Node.misplaced?_eq_none_iff.mp hu).2 sec hmem)
  exact lt_of_le_of_lt (hord.inside x hx).2 (h hmem)

/-- Outside the sections, the items of one of them have all ended or are all still to start. -/
theorem Past.declared_priorTo (hu : (Node.unit u).misplaced? = none) {k : Nat} (h : u.Past p k) {sec : Node}
    (hsec : u.IsSection sec) :
    declared (priorTo sec.children p) = if sec.place < k then declared sec.children else [] := by
  by_cases hk : sec.place < k
  · rw [if_pos hk, hsec.priorTo_eq_self hu fun hmem => h.ended sec hmem hk]
  · have hnone : priorTo sec.children p = [] := by
      refine priorTo_eq_nil ?_
      intro x hx hended
      have hmem := hsec (List.ne_nil_of_mem hx)
      have hord := Node.ordered_of_misplaced?_eq_none ((Node.misplaced?_eq_none_iff.mp hu).2 sec hmem)
      have hahead : p < x.range.start :=
        lt_of_lt_of_le (h.ahead sec hmem (Nat.not_lt.mp hk)) (hord.inside x hx).1
      exact Range.not_lt_start_of_stop_lt hended hahead
    rw [if_neg hk, hnone]
    rfl

/-- The static section is over if it has no items, wherever its range lies. -/
theorem statics_over (h : Node.statics u.statics ∈ (Node.unit u).children → u.statics.range.stop < p) :
    u.statics.items = [] ∨ u.statics.range.stop < p := by
  by_cases hnone : u.statics.items = []
  · exact Or.inl hnone
  · exact Or.inr (h (Node.mem_children_unit.mpr (Or.inl ⟨rfl, hnone⟩)))

/-- Outside the sections the functions are visible exactly behind their section. -/
theorem Past.functionsAt_eq {k : Nat} (h : u.Past p k) : u.functionsAt p = if 1 < k then u.functionSymbols else [] := by
  unfold functionsAt
  by_cases hnil : u.functions.items = []
  · have hnone : u.functionSymbols = [] := by rw [functionSymbols, hnil]; rfl
    rw [hnone, ite_self, ite_self]
  · have hmem : Node.functions u.functions ∈ (Node.unit u).children :=
      Node.mem_children_unit.mpr (Or.inr (Or.inl ⟨rfl, hnil⟩))
    by_cases hk : 1 < k
    · have hstop : u.functions.range.stop < p := h.ended _ hmem hk
      have hstart : u.functions.range.start ≤ p :=
        le_trans u.functions.range.start_le_stop (le_of_lt hstop)
      have hstatics := statics_over fun hmem => h.ended _ hmem (Nat.lt_of_succ_lt hk)
      rw [if_pos hk, if_pos ⟨hstart, hstatics⟩]
    · have hahead : p < u.functions.range.start := h.ahead _ hmem (Nat.not_lt.mp hk)
      rw [if_neg hk, if_neg]
      rintro ⟨hstart, -⟩
      exact not_lt.mpr hstart hahead

/-- Outside the sections what is visible at the top level are the symbols of those that have ended. -/
theorem Past.topLevelSymbols_eq (hu : (Node.unit u).misplaced? = none) {k : Nat} (h : u.Past p k) :
    u.topLevelSymbols p = u.symbolsUpTo k := by
  have hstatics := h.declared_priorTo hu u.isSection_statics
  have hstatements := h.declared_priorTo hu u.isSection_statements
  unfold topLevelSymbols symbolsUpTo
  rw [h.functionsAt_eq]
  exact congrArg₂ (· ++ ·) (congrArg (· ++ _) hstatics) hstatements

/-! ## Contexts at the top level -/

/-- Between the sections of a unit, nested or not, the visible symbols are those of the sections of the script up to the
place of the section on the left. -/
theorem visibleInUnit_eq_symbolsUpTo (u : UnitNode) {v : UnitNode} {c : Context}
    (hprev : ∀ n, c.prev = some n → n ∈ (Node.unit v).children) :
    Script.visibleInUnit u c = u.symbolsUpTo (c.prev.elim 0 fun n => n.place + 1) := by
  unfold Script.visibleInUnit symbolsUpTo
  cases hp : c.prev with
  | none => rfl
  | some n =>
    rcases Node.mem_children_unit.mp (hprev n hp) with ⟨rfl, -⟩ | ⟨rfl, -⟩ | ⟨rfl, -⟩
    · simp [Node.kind, Node.place]
    · simp [Node.kind, Node.place]
    · simp [Node.kind, Node.place]

/-- The last child before the position says how many sections are over. -/
theorem past_of_neighbours (h : (Node.unit u).Ordered)
    (hout : ∀ c ∈ (Node.unit u).children, c.range.contains p = false) :
    u.Past p (((Node.unit u).neighbours p).1.elim 0 fun n => n.place + 1) := by
  have hahead : ∀ c ∈ (Node.unit u).children, ¬ c.range.stop < p → p < c.range.start := by
    intro c hc hnot
    rcases Range.isBefore_or_isAfter (hout c hc) with hb | ha
    · exact absurd (Range.isBefore_iff.mp hb) hnot
    · exact Range.isAfter_iff.mp ha
  -- a child that holds no position and has not ended is still to start
  cases hprev : ((Node.unit u).neighbours p).1 with
  | none =>
    have hnone := Node.not_ended_of_neighbours_fst h hprev
    exact ⟨fun c _ hk => absurd hk (Nat.not_lt_zero _), fun c hc _ => hahead c hc (hnone c hc)⟩
  | some n =>
    have hn := Node.neighbours_fst_mem hprev
    obtain ⟨hlt, hlast⟩ := Node.of_neighbours_fst h (Node.pairwise_place u) hprev
    refine ⟨?_, ?_⟩
    · intro c hc hk
      rcases Nat.lt_or_eq_of_le (Nat.le_of_lt_succ hk) with hless | heq
      · have hcn : c.range.stop ≤ n.range.start := Node.precedes_of_place_lt h hc hn hless
        exact lt_of_le_of_lt (le_trans hcn n.range.start_le_stop) hlt
      · rwa [Node.eq_of_place_eq hc hn heq]
    · intro c hc hk
      refine hahead c hc ?_
      intro hended
      rcases hlast c hc hended with rfl | hless
      · exact Nat.not_succ_le_self _ hk
      · exact Nat.lt_irrefl _ (Nat.lt_trans hless hk)

/-- **Inside a section** to which the position resolves, all sections before it have ended: the position is in none of
them, or it would have resolved to that one. -/
structure Inside (u : UnitNode) (p : Position) (sec : Node) : Prop where
  mem : sec ∈ (Node.unit u).children
  contains : sec.range.contains p = true
  ended : ∀ c ∈ (Node.unit u).children, c.place < sec.place → c.range.stop < p

/-- On the way to a position the children before have ended and those after are still to start. -/
theorem inside_of_towards (h : (Node.unit u).Ordered) {i : Nat} {sec : Node}
    (ht : (Trail.child (.root (.unit u)) i sec).Towards (.unit u) p) : u.Inside p sec := by
  obtain ⟨hsec, hcontains, hfirst⟩ := Node.childAt?_eq_some_iff.mp ht.childAt?_eq
  refine ⟨List.mem_of_getElem? hsec, hcontains, ?_⟩
  intro c hc hk
  obtain ⟨j, hj⟩ := List.getElem?_of_mem hc
  have hout := hfirst j c ((Node.lt_iff_place_lt hj hsec).mpr hk) hj
  rcases Range.isBefore_or_isAfter hout with hb | ha
  · exact Range.isBefore_iff.mp hb
  · have hle : c.range.start ≤ p :=
      calc c.range.start
        _ ≤ c.range.stop := c.range.start_le_stop
        _ ≤ sec.range.start := Node.precedes_of_place_lt h hc (List.mem_of_getElem? hsec) hk
        _ ≤ p := (Range.contains_iff.mp hcontains).1
    exact absurd (Range.isAfter_iff.mp ha) (not_lt.mpr hle)

namespace Inside

variable {sec : Node}

/-- Inside a section no statement has ended, if the statements come later. -/
theorem priorTo_statements (hu : (Node.unit u).misplaced? = none) (h : u.Inside p sec) (hk : sec.place < 2) :
    priorTo u.statements.items p = [] := by
  refine priorTo_eq_nil ?_
  intro x hx
  have hmem := u.isSection_statements (List.ne_nil_of_mem hx)
  exact Node.not_ended_of_place_lt hu h.mem hmem (Range.contains_iff.mp h.contains).2 hk x hx

/-- In a later section all static variables have ended. -/
theorem priorTo_declarations (hu : (Node.unit u).misplaced? = none) (h : u.Inside p sec) (hk : 0 < sec.place) :
    priorTo u.declarations p = u.declarations :=
  u.isSection_statics.priorTo_eq_self hu fun hmem => h.ended _ hmem hk

theorem functionsAt_statics (h : u.Inside p (.statics u.statics)) : u.functionsAt p = [] := by
  have hne : u.statics.items ≠ [] := by
    rcases Node.mem_children_unit.mp h.mem with ⟨-, hne⟩ | ⟨heq, -⟩ | ⟨heq, -⟩
    · exact hne
    · contradiction
    · contradiction
  unfold functionsAt
  rw [if_neg]
  rintro ⟨-, hnil | hstop⟩
  · exact hne hnil
  · exact not_lt.mpr (Range.contains_iff.mp h.contains).2 hstop

/-- In the section of the functions or behind it, the functions are visible. -/
theorem functionsAt_later (h : u.Inside p sec) (hk : 0 < sec.place)
    (hstart : u.functions.items ≠ [] → u.functions.range.start ≤ p) : u.functionsAt p = u.functionSymbols := by
  unfold functionsAt
  by_cases hnil : u.functions.items = []
  · have hnone : u.functionSymbols = [] := by rw [functionSymbols, hnil]; rfl
    rw [hnone, ite_self]
  · rw [if_pos ⟨hstart hnil, statics_over fun hmem => h.ended _ hmem hk⟩]

end Inside

/-- A section governs where it is the innermost node. -/
theorem governing_section {i : Nat} {sec : Node} (hsec : sec ∈ (Node.unit u).children) :
    (Trail.child (.root (.unit u)) i sec).governing = .child (.root (.unit u)) i sec :=
  if_pos (Node.decides_of_mem_children_unit hsec true)

/-- Inside a section the symbols are those of the top level, too. -/
theorem visible_of_inside (s : Script) (hu : (Node.unit s.unit).misplaced? = none) {i : Nat} {sec : Node}
    (h : s.unit.Inside p sec) :
    s.visible (.within (.child (.root (.unit s.unit)) i sec) (.child (.root (.unit s.unit)) i sec) p) p =
      s.constants ++ s.unit.topLevelSymbols p := by
  unfold topLevelSymbols
  rcases Node.mem_children_unit.mp h.mem with ⟨rfl, -⟩ | ⟨rfl, hne⟩ | ⟨rfl, -⟩
  · rw [h.functionsAt_statics, h.priorTo_statements hu Nat.zero_lt_two]
    show s.constants ++ declared (priorTo s.unit.declarations p) = _
    rw [List.append_nil, show declared [] = [] from rfl, List.append_nil]
  · rw [h.priorTo_declarations hu Nat.zero_lt_one, h.priorTo_statements hu Nat.one_lt_two,
      h.functionsAt_later Nat.zero_lt_one fun _ => (Range.contains_iff.mp h.contains).1]
    show s.constants ++ (s.unit.staticSymbols ++ s.unit.functionSymbols) = _
    rw [show declared [] = [] from rfl, List.append_nil]
    rfl
  · rw [h.priorTo_declarations hu Nat.zero_lt_two, h.functionsAt_later Nat.zero_lt_two]
    · show s.constants ++ (s.unit.staticSymbols ++ s.unit.functionSymbols ++
        ([] ++ (declared (priorTo s.unit.statements.items p) ++ []))) = _
      rw [List.nil_append, List.append_nil]
      rfl
    · intro hne
      have hmem : Node.functions s.unit.functions ∈ (Node.unit s.unit).children :=
        Node.mem_children_unit.mpr (Or.inr (Or.inl ⟨rfl, hne⟩))
      have hended : s.unit.functions.range.stop < p := h.ended _ hmem Nat.one_lt_two
      exact le_trans s.unit.functions.range.start_le_stop (le_of_lt hended)

end CompilationUnit

/-- **The top level.** The position is outside the code, or its innermost node is the unit or one of its sections. -/
def Context.TopLevel (u : UnitNode) (c : Context) : Prop :=
  c.region ≠ .within ∨ c.origin = some (.root (.unit u)) ∨ ∃ i sec, c.origin = some (.child (.root (.unit u)) i sec)

namespace CompilationUnit

variable {u : UnitNode}

/-- **One rule for the top level.** Before and after the code, between the sections and in them, the visible symbols
are the constants, the static variables and statements that have ended, and the functions once they have begun. -/
theorem visible_topLevel (s : Script) (hu : (Node.unit s.unit).misplaced? = none)
    (h : (Context.ofPosition s.unit p).TopLevel s.unit) :
    s.visible (.ofPosition s.unit p) p = s.constants ++ s.unit.topLevelSymbols p := by
  have hord := Node.ordered_of_misplaced?_eq_none hu
  rcases Context.ofPosition_cases s.unit p with ⟨hempty, hc⟩ | ⟨hp, hc⟩ | ⟨hp, hc⟩ | ⟨o, ho, hc⟩
  · -- without code no section is over
    have hpast : s.unit.Past p 0 := by
      have hnil := List.isEmpty_iff.mp hempty
      exact ⟨by simp [hnil], by simp [hnil]⟩
    rw [hc, hpast.topLevelSymbols_eq hu]
    rfl
  · have hpast : s.unit.Past p 0 :=
      ⟨fun c _ hk => absurd hk (Nat.not_lt_zero _), fun c hm _ => lt_of_lt_of_le hp (hord.inside c hm).1⟩
    rw [hc, hpast.topLevelSymbols_eq hu]
    rfl
  · -- behind the code all three are over
    have hpast : s.unit.Past p 3 := by
      refine ⟨fun c hm _ => lt_of_le_of_lt (hord.inside c hm).2 hp, ?_⟩
      intro c _ hk
      exact absurd c.place_lt_three (Nat.not_lt.mpr hk)
    rw [hc, hpast.topLevelSymbols_eq hu]
    rfl
  · rw [hc] at h ⊢
    obtain ⟨hto, hend⟩ := Trail.resolve_eq_some_iff.mp ho
    rcases h with hregion | horigin | ⟨i, sec, horigin⟩
    · exact absurd rfl hregion
    · -- between the sections, the last one before the position says how many are over
      obtain rfl := Option.some.inj horigin
      have hpast := past_of_neighbours hord (Node.childAt?_eq_none_iff.mp hend)
      rw [hpast.topLevelSymbols_eq hu]
      exact congrArg (s.constants ++ ·) (visibleInUnit_eq_symbolsUpTo s.unit fun n hn => Node.neighbours_fst_mem hn)
    · -- in a section, what is visible depends on the items before the position
      obtain rfl := Option.some.inj horigin
      have hinside := inside_of_towards hord hto
      rw [governing_section hinside.mem]
      exact visible_of_inside s hu hinside

end CompilationUnit

/-! ## One innermost node -/

namespace Trail

variable {root : Node} {o s : Trail}

/-- **A body that contains the first position contains the second one.** The way down goes through the body, or else
through a part before it, which has ended where the body starts. -/
theorem bodyRange?_contains_of_le (hroot : root.misplaced? = none) (hpq : p ≤ q) (hp : root.resolve p = some o)
    (hq : root.resolve q = some o) (hs : s ∈ o.links) {r : Range} (hr : s.node.bodyRange? = some r)
    (hrp : r.contains p = true) : r.contains q = true := by
  obtain ⟨b, hb, rfl⟩ := Node.child_of_bodyRange? hr
  have hord : s.node.Ordered := ((mem_links_iff_towards hp).mp hs).toFrom.ordered hroot
  rcases child_mem_of_mem_links hs with rfl | ⟨i, c, hc⟩
  · have hnone := Node.childAt?_eq_none_iff.mp (resolve_eq_some_iff.mp hp).2 b (List.mem_of_getElem? hb)
    rw [hrp] at hnone
    contradiction
  · have hcp := ((mem_links_iff_towards hp).mp hc).childAt?_eq
    have hcq := (mem_links_iff_towards hq).mp hc
    have hci : s.node.children[i]? = some c := hcq.toFrom.child_mem
    -- the body is the fourth child
    rcases Nat.lt_trichotomy i 3 with hlt | rfl | hgt
    · have hcb : c.range.stop ≤ b.range.start := hord.precedes_of_lt hci hb hlt
      have hqb : q ≤ b.range.start := le_trans (Range.contains_iff.mp hcq.contains).2 hcb
      exact Range.contains_iff.mpr
        ⟨le_trans (Range.contains_iff.mp hrp).1 hpq, le_trans hqb b.range.start_le_stop⟩
    · obtain rfl : c = b := Option.some.inj (hci.symm.trans hb)
      exact hcq.contains
    · -- the body comes first and contains `p`, so the way down would have gone through it
      exact absurd hcp (Node.childAt?_ne_of_lt hb hgt hrp)

/-- With one innermost node the local symbols at a position are local symbols at every later one. -/
theorem locals_sublist (hroot : root.misplaced? = none) (hpq : p ≤ q) (hp : root.resolve p = some o)
    (hq : root.resolve q = some o) : (o.locals p).Sublist (o.locals q) := by
  unfold locals
  rw [← List.flatMap_def, ← List.flatMap_def]
  refine List.Sublist.flatMap_right _ ?_
  intro n hn
  obtain ⟨s, hs, rfl⟩ := List.mem_map.mp (List.mem_reverse.mp hn)
  rw [Node.locals_eq, Node.locals_eq]
  refine (declared_priorTo_sublist _ hpq).append (CompilationUnit.ite_sublist ?_ _)
  intro hbody
  obtain ⟨r, hr, hrp⟩ := (Option.any_eq_true _ _).mp hbody
  exact (Option.any_eq_true _ _).mpr ⟨r, hr, bodyRange?_contains_of_le hroot hpq hp hq hs hr hrp⟩

end Trail

/-- Further on the section on the left is the same or a later one. -/
theorem Node.place_prev_le {v : UnitNode} (h : (Node.unit v).Ordered) (hpq : p ≤ q) :
    (((Node.unit v).neighbours p).1.elim 0 fun n => n.place + 1) ≤
      ((Node.unit v).neighbours q).1.elim 0 fun n => n.place + 1 := by
  cases hp : ((Node.unit v).neighbours p).1 with
  | none => exact Nat.zero_le _
  | some a =>
    have ha := neighbours_fst_mem hp
    have haq : a.range.stop < q := lt_of_lt_of_le (of_neighbours_fst h h.apart hp).1 hpq
    cases hq : ((Node.unit v).neighbours q).1 with
    | none => exact absurd haq (not_ended_of_neighbours_fst h hq a ha)
    | some b =>
      rcases (of_neighbours_fst h (pairwise_place v) hq).2 a ha haq with rfl | hlt
      · exact Nat.le_refl _
      · exact Nat.succ_le_succ (Nat.le_of_lt hlt)

namespace Script

variable {s : Script} {o : Trail}

/-- Within the unit the rule of the governing node says how symbols are collected. -/
theorem visible_within (s : Script) (g o : Trail) (p : Position) :
    s.visible (.within g o p) p = s.constants ++
      match g.node.kind.rule with
      | .unit => visibleInUnit s.unit (.within g o p)
      | .staticSection => declared (priorTo s.unit.declarations p)
      | .functionSection => s.unit.staticSymbols ++ s.unit.functionSymbols
      | _ => visibleInBlock s.unit (.within g o p) p := by
  have hrule : (Context.within g o p).rule = some g.node.kind.rule := rfl
  unfold visible
  rw [hrule]
  cases g.node.kind.rule <;> rfl

/-- Elsewhere than between sections and static declarations, the same conditions hold at both positions. -/
theorem visibleInBlock_sublist (hu : (Node.unit s.unit).misplaced? = none) (hpq : p ≤ q) (g : Trail)
    (hp : (Node.unit s.unit).resolve p = some o) (hq : (Node.unit s.unit).resolve q = some o) :
    (visibleInBlock s.unit (.within g o p) p).Sublist (visibleInBlock s.unit (.within g o q) q) := by
  show List.Sublist
    (if some g.node.kind.rule == some .statements || o.inBlock then
      s.unit.staticSymbols ++ s.unit.functionSymbols ++ o.locals p else [])
    (if some g.node.kind.rule == some .statements || o.inBlock then
      s.unit.staticSymbols ++ s.unit.functionSymbols ++ o.locals q else [])
  split
  · exact (List.Sublist.refl _).append (Trail.locals_sublist hu hpq hp hq)
  · exact List.Sublist.refl _

/-- At two positions with the same innermost node both collect in the same way. -/
theorem visible_sublist_of_resolve (hu : (Node.unit s.unit).misplaced? = none) (hpq : p ≤ q)
    (hp : (Node.unit s.unit).resolve p = some o) (hq : (Node.unit s.unit).resolve q = some o) :
    (s.visible (.ofPosition s.unit p) p).Sublist (s.visible (.ofPosition s.unit q) q) := by
  unfold Context.ofPosition
  rw [hp, hq]
  by_cases hempty : s.unit.isEmpty = true
  · rw [if_pos hempty, if_pos hempty]
    exact List.Sublist.refl _
  · rw [if_neg hempty, if_neg hempty, visible_within, visible_within]
    refine (List.Sublist.refl _).append ?_
    have hfrom : o.governing.From (.unit s.unit) :=
      (Trail.resolve_eq_some_iff.mp hp).1.toFrom.of_mem_links (Trail.climb_mem_links o true)
    cases hrule : o.governing.node.kind.rule with
    | unit =>
      obtain ⟨v, hv⟩ := Node.eq_unit_of_rule hrule
      have hord : (Node.unit v).Ordered := hv ▸ hfrom.ordered hu
      -- the unit that governs may be nested, and still the sections of the whole script are counted
      have hat : ∀ r, CompilationUnit.symbolsUpTo s.unit (((Node.unit v).neighbours r).1.elim 0 fun n => n.place + 1) =
          visibleInUnit s.unit (.within o.governing o r) := by
        intro r
        rw [← hv]
        symm
        apply CompilationUnit.visibleInUnit_eq_symbolsUpTo s.unit (v := v)
        intro n hn
        rw [← hv]
        exact Node.neighbours_fst_mem hn
      simp only [← hat]
      exact CompilationUnit.symbolsUpTo_sublist _ (Node.place_prev_le hord hpq)
    | staticSection => exact declared_priorTo_sublist _ hpq
    | functionSection => exact List.Sublist.refl _
    | _ => exact visibleInBlock_sublist hu hpq _ hp hq

/-! ## What is visible stays visible -/

/-- **What is visible stays visible further on.** In a script without a misplaced node take two positions in order.
If they have one innermost node, or are both at the top level, then the symbols visible at the first one are, in the
same order, among those visible at the second one. -/
theorem visible_monotone {s : Script} (hs : (Node.unit s.unit).misplaced? = none) {p q : Position} (hpq : p ≤ q) :
    ∃ c d, Context.locate s.unit p = .ok c ∧ Context.locate s.unit q = .ok d ∧
      ((∃ o, (Node.unit s.unit).resolve p = some o ∧ (Node.unit s.unit).resolve q = some o) ∨
          c.TopLevel s.unit ∧ d.TopLevel s.unit →
        (s.visible c p).Sublist (s.visible d q)) := by
  refine ⟨_, _, Context.locate_eq_ok s.unit p, Context.locate_eq_ok s.unit q, ?_⟩
  rintro (⟨o, hp, hq⟩ | ⟨hp, hq⟩)
  · exact visible_sublist_of_resolve hs hpq hp hq
  · rw [CompilationUnit.visible_topLevel s hs hp, CompilationUnit.visible_topLevel s hs hq]
    exact (List.Sublist.refl _).append (CompilationUnit.topLevelSymbols_sublist s.unit hpq)

/-- In the block of the loop of `nestedScopes` the local `d` joins the others once it has ended. -/
theorem visible_monotone_in_nestedScopes :
    (Node.unit nestedScopes).misplaced? = none ∧ (⟨6, 0⟩ : Position) ≤ ⟨7, 20⟩ ∧
    ∃ c d, Context.locate nestedScopes ⟨6, 0⟩ = .ok c ∧ Context.locate nestedScopes ⟨7, 20⟩ = .ok d ∧
      (visible ⟨nestedScopes, []⟩ c ⟨6, 0⟩).map Symbol.name = ["q", "a", "i", "c"] ∧
      (visible ⟨nestedScopes, []⟩ d ⟨7, 20⟩).map Symbol.name = ["q", "a", "i", "c", "d"] ∧
      (visible ⟨nestedScopes, []⟩ c ⟨6, 0⟩).Sublist (visible ⟨nestedScopes, []⟩ d ⟨7, 20⟩) := by
  have hpq : (⟨6, 0⟩ : Position) ≤ ⟨7, 20⟩ := by decide
  refine ⟨rfl, hpq, ?_⟩
  obtain ⟨c, d, hc, hd, hsublist⟩ := visible_monotone (s := ⟨nestedScopes, []⟩) rfl hpq
  refine ⟨c, d, hc, hd, ?_, ?_, hsublist (Or.inl ⟨_, rfl, rfl⟩)⟩
  · obtain rfl := Except.ok.inj hc
    rfl
  · obtain rfl := Except.ok.inj hd
    rfl

end Script
end Caret
