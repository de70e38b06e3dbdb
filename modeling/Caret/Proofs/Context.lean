import Caret.Completion.Offers
import Caret.Proofs.Trail
/-!
# `Caret.Proofs.Context` — the context that a position has

A position of a unit always has a context: a range has a position in it, before it or after it, and the way up from the
innermost node ends at a unit, which decides. `Context.locate` therefore never fails and comes to
`Context.ofPosition` (`locate_eq_ok`), whose four outcomes `ofPosition_cases` lists.

## Contents
- **Units.** `mem_children_unit` — the children of a unit are its sections that have items.
- **Governing nodes.** `decider?_eq_some_climb`, `climb_mem_links`, `rule_climb_ne_defer`.
- **Neighbours.** `neighbours_eq` — among children in order, the last one before the position and the first one after
  it; `of_neighbours_fst` and `of_neighbours_snd` place them among all children on their side.
- **Contexts.** `locate_eq_ok`, `ofPosition_cases`, and `ofPosition_eq_within` where a node governs.
-/

namespace Caret

/-! ## Units -/

namespace Node

theorem mem_sectionNode {α : Type} {node : Group α → Node} {g : Group α} {c : Node} :
    c ∈ sectionNode node g ↔ c = node g ∧ g.items ≠ [] := by
  unfold sectionNode
  cases hg : g.items with
  | nil => simp
  | cons a as => simp

/-- The children of a unit are its sections that have items. -/
theorem mem_children_unit {u : UnitNode} {c : Node} :
    c ∈ (Node.unit u).children ↔
      (c = .statics u.statics ∧ u.statics.items ≠ []) ∨ (c = .functions u.functions ∧ u.functions.items ≠ []) ∨
      (c = .block u.statements ∧ u.statements.items ≠ []) := by
  simp only [children, List.mem_append, mem_sectionNode]

/-- A section decides what may be offered in it, wherever the cursor is. -/
theorem decides_of_mem_children_unit {u : UnitNode} {c : Node} (hc : c ∈ (Node.unit u).children) (innermost : Bool) :
    c.kind.rule.decides innermost = true := by
  rcases mem_children_unit.mp hc with ⟨rfl, -⟩ | ⟨rfl, -⟩ | ⟨rfl, -⟩
  · rfl
  · rfl
  · rfl

end Node

/-! ## The governing node -/

namespace Trail

variable {u : UnitNode} {t : Trail}

/-- On the way up to a unit there is a node that decides. -/
theorem decider?_eq_some_climb (ht : t.From (.unit u)) (innermost : Bool) :
    t.decider? innermost = some (t.climb innermost) := by
  induction ht generalizing innermost with
  | root => rfl
  | @child t i c _ _ ih =>
    unfold decider? climb
    by_cases hd : c.kind.rule.decides innermost = true
    · rw [if_pos hd, if_pos hd]
    · rw [if_neg hd, if_neg hd, ih false]

theorem climb_mem_links (t : Trail) (innermost : Bool) : t.climb innermost ∈ t.links := by
  induction t generalizing innermost with
  | root n => exact mem_links_self _
  | child t i n ih =>
    unfold climb
    by_cases hd : n.kind.rule.decides innermost = true
    · rw [if_pos hd]
      exact mem_links_self _
    · rw [if_neg hd]
      exact mem_links_child.mpr (Or.inr (ih false))

/-- The node that governs does not leave the decision to another one. -/
theorem rule_climb_ne_defer (ht : t.From (.unit u)) (innermost : Bool) :
    (t.climb innermost).node.kind.rule ≠ .defer := by
  induction ht generalizing innermost with
  | root => exact Rule.noConfusion
  | @child t i c _ _ ih =>
    unfold climb
    by_cases hd : c.kind.rule.decides innermost = true
    · rw [if_pos hd]
      intro hdefer
      rw [show c.kind.rule = .defer from hdefer] at hd
      contradiction
    · rw [if_neg hd]
      exact ih false

/-- The unit governs only where it is the innermost node: each of its sections decides. -/
theorem eq_root_of_climb_eq_root {n : Node} (ht : t.From (.unit u)) {innermost : Bool}
    (h : t.climb innermost = .root n) : t = .root n := by
  induction ht generalizing innermost with
  | root => exact h
  | @child t i c ht hc ih =>
    unfold climb at h
    by_cases hd : c.kind.rule.decides innermost = true
    · rw [if_pos hd] at h
      contradiction
    · rw [if_neg hd] at h
      obtain rfl := ih h
      cases ht with
      | root => exact absurd (Node.decides_of_mem_children_unit (List.mem_of_getElem? hc) innermost) hd

end Trail

/-! ## Neighbours -/

namespace Range

variable {r : Range} {p : Position}

/-- A range that has ended before a position does not start after it. -/
theorem not_lt_start_of_stop_lt (h : r.stop < p) : ¬ p < r.start := by
  intro hlt
  exact lt_irrefl _ (lt_of_le_of_lt r.start_le_stop (lt_trans h hlt))

theorem isAfter_eq_false_of_isBefore (h : r.isBefore p = true) : r.isAfter p = false :=
  Bool.eq_false_iff.mpr fun ha => not_lt_start_of_stop_lt (isBefore_iff.mp h) (isAfter_iff.mp ha)

theorem isBefore_or_isAfter (h : r.contains p = false) : r.isBefore p = true ∨ r.isAfter p = true := by
  rcases r.contains_or_outside p with hc | hout
  · rw [h] at hc
    contradiction
  · exact hout

end Range

namespace Node

variable {p : Position}

theorem isBefore_eq_false_of_precedes {c d : Node} (hc : c.range.isAfter p = true) (hcd : Precedes c d) :
    d.range.isBefore p = false := by
  rw [Bool.eq_false_iff]
  intro hd
  have hlt : d.range.stop < c.range.start := lt_trans (Range.isBefore_iff.mp hd) (Range.isAfter_iff.mp hc)
  have hle : c.range.start ≤ d.range.stop :=
    le_trans c.range.start_le_stop (le_trans hcd d.range.start_le_stop)
  exact lt_irrefl _ (lt_of_lt_of_le hlt hle)

theorem neighboursAmong_snd (prev : Option Node) (cs : List Node) :
    (neighboursAmong p prev cs).2 = cs.find? fun c => c.range.isAfter p := by
  induction cs generalizing prev with
  | nil => rfl
  | cons c cs ih =>
    unfold neighboursAmong
    by_cases hb : c.range.isBefore p = true
    · rw [if_pos hb, ih, List.find?_cons_of_neg (by simp [Range.isAfter_eq_false_of_isBefore hb])]
    · by_cases ha : c.range.isAfter p = true
      · rw [if_neg hb, if_pos ha, List.find?_cons_of_pos (by exact ha)]
      · rw [if_neg hb, if_neg ha, ih, List.find?_cons_of_neg (by exact ha)]

theorem neighboursAmong_fst {cs : List Node} (h : cs.Pairwise Precedes) (prev : Option Node) :
    (neighboursAmong p prev cs).1 = (cs.filter fun c => c.range.isBefore p).getLast?.or prev := by
  induction cs generalizing prev with
  | nil => rfl
  | cons c cs ih =>
    obtain ⟨hc, hcs⟩ := List.pairwise_cons.mp h
    unfold neighboursAmong
    by_cases hb : c.range.isBefore p = true
    · rw [if_pos hb, ih hcs, List.filter_cons_of_pos (by exact hb), List.getLast?_cons]
      cases (cs.filter fun c => c.range.isBefore p).getLast? <;> rfl
    · by_cases ha : c.range.isAfter p = true
      · -- what follows a child after the position comes after it too
        have hnil : (c :: cs).filter (fun c => c.range.isBefore p) = [] := by
          refine List.filter_eq_nil_iff.mpr ?_
          intro d hd
          rcases List.mem_cons.mp hd with rfl | hd
          · exact hb
          · simp [isBefore_eq_false_of_precedes ha (hc d hd)]
        rw [if_neg hb, if_pos ha, hnil]
        rfl
      · rw [if_neg hb, if_neg ha, ih hcs, List.filter_cons_of_neg (by exact hb)]

/-- **Neighbours of a position.** Among children in order they are the last one that has ended before the position and
the first one that starts after it. -/
theorem neighbours_eq {n : Node} (h : n.Ordered) (p : Position) :
    n.neighbours p =
      ((n.children.filter fun c => c.range.isBefore p).getLast?, n.children.find? fun c => c.range.isAfter p) := by
  unfold neighbours
  refine Prod.ext ?_ (neighboursAmong_snd none n.children)
  rw [neighboursAmong_fst h.apart none, Option.or_none]

theorem neighboursAmong_fst_mem {prev : Option Node} {cs : List Node} {c : Node}
    (h : (neighboursAmong p prev cs).1 = some c) : prev = some c ∨ c ∈ cs := by
  induction cs generalizing prev with
  | nil => exact Or.inl h
  | cons d cs ih =>
    unfold neighboursAmong at h
    by_cases hb : d.range.isBefore p = true
    · rw [if_pos hb] at h
      rcases ih h with hd | hd
      · exact Or.inr (List.mem_cons.mpr (Or.inl (Option.some.inj hd).symm))
      · exact Or.inr (List.mem_cons_of_mem d hd)
    · by_cases ha : d.range.isAfter p = true
      · rw [if_neg hb, if_pos ha] at h
        exact Or.inl h
      · rw [if_neg hb, if_neg ha] at h
        exact (ih h).imp_right (List.mem_cons_of_mem d)

/-- In order or not, the node on the left of a position is a child. -/
theorem neighbours_fst_mem {n c : Node} (h : (n.neighbours p).1 = some c) : c ∈ n.children := by
  rcases neighboursAmong_fst_mem h with hnone | hc
  · contradiction
  · exact hc

/-- No child has ended before the position when there is none on its left. -/
theorem not_ended_of_neighbours_fst {n : Node} (h : n.Ordered) (hnone : (n.neighbours p).1 = none) :
    ∀ c ∈ n.children, ¬ c.range.stop < p := by
  rw [neighbours_eq h] at hnone
  intro c hc hlt
  have hnil := List.getLast?_eq_none_iff.mp hnone
  exact List.filter_eq_nil_iff.mp hnil c hc (Range.isBefore_iff.mpr hlt)

/-- The child on the left of a position is the last of those that have ended before it. -/
theorem of_neighbours_fst {n c : Node} (h : n.Ordered) {R : Node → Node → Prop} (hR : n.children.Pairwise R)
    (hsome : (n.neighbours p).1 = some c) :
    c.range.stop < p ∧ ∀ d ∈ n.children, d.range.stop < p → d = c ∨ R d c := by
  rw [neighbours_eq h] at hsome
  obtain ⟨earlier, hsplit⟩ := List.getLast?_eq_some_iff.mp hsome
  have hmem : ∀ d, d ∈ n.children ∧ d.range.isBefore p = true ↔ d ∈ earlier ++ [c] := by
    intro d
    rw [← hsplit, List.mem_filter]
  refine ⟨Range.isBefore_iff.mp ((hmem c).mpr (by simp)).2, ?_⟩
  intro d hd hlt
  have hpair : (earlier ++ [c]).Pairwise R := by
    rw [← hsplit]
    exact hR.filter _
  rcases List.mem_append.mp ((hmem d).mp ⟨hd, Range.isBefore_iff.mpr hlt⟩) with hd | hd
  · exact Or.inr ((List.pairwise_append.mp hpair).2.2 d hd c (List.mem_singleton_self c))
  · exact Or.inl (List.mem_singleton.mp hd)

/-- No child starts after the position when there is none on its right. -/
theorem not_ahead_of_neighbours_snd {n : Node} (hnone : (n.neighbours p).2 = none) :
    ∀ c ∈ n.children, ¬ p < c.range.start := by
  rw [neighbours, neighboursAmong_snd] at hnone
  intro c hc hlt
  exact List.find?_eq_none.mp hnone c hc (Range.isAfter_iff.mpr hlt)

/-- The child on the right of a position is the first of those that start after it. -/
theorem of_neighbours_snd {n c : Node} {R : Node → Node → Prop} (hR : n.children.Pairwise R)
    (hsome : (n.neighbours p).2 = some c) :
    c ∈ n.children ∧ p < c.range.start ∧ ∀ d ∈ n.children, p < d.range.start → d = c ∨ R c d := by
  rw [neighbours, neighboursAmong_snd] at hsome
  obtain ⟨hc, earlier, later, hsplit, hnot⟩ := List.find?_eq_some_iff_append.mp hsome
  refine ⟨List.mem_of_find?_eq_some hsome, Range.isAfter_iff.mp hc, ?_⟩
  intro d hd hlt
  rw [hsplit] at hd hR
  rcases List.mem_append.mp hd with hd | hd
  · have hnd := hnot d hd
    rw [Range.isAfter_iff.mpr hlt] at hnd
    contradiction
  · rcases List.mem_cons.mp hd with hd | hd
    · exact Or.inl hd
    · exact Or.inr ((List.pairwise_cons.mp (List.pairwise_append.mp hR).2.1).1 d hd)

end Node

/-! ## Contexts -/

namespace Context

/-- **Every position has a context.** Looking for it fails neither outside the code nor within. -/
theorem locate_eq_ok (u : UnitNode) (p : Position) : locate u p = .ok (ofPosition u p) := by
  unfold locate ofPosition
  by_cases hu : u.isEmpty = true
  · rw [if_pos hu, if_pos hu]
  · rw [if_neg hu, if_neg hu]
    cases ho : (Node.unit u).resolve p with
    | some o =>
      have hfrom : o.From (.unit u) := (Trail.resolve_eq_some_iff.mp ho).1.toFrom
      simp only [Trail.decider?_eq_some_climb hfrom true]
      rfl
    | none =>
      have hout : u.range.contains p = false := Trail.resolve_eq_none_iff.mp ho
      by_cases ha : u.range.isAfter p = true
      · simp only [if_pos ha]
      · have hb : u.range.isBefore p = true := (Range.isBefore_or_isAfter hout).resolve_right ha
        simp only [if_neg ha, if_pos hb]

/-- **The four contexts.** There is no code, or the position lies before it, after it or within it. -/
theorem ofPosition_cases (u : UnitNode) (p : Position) :
    (u.isEmpty = true ∧ ofPosition u p = { region := .noCode }) ∨
    (p < u.range.start ∧ ofPosition u p = { region := .beforeFirst }) ∨
    (u.range.stop < p ∧ ofPosition u p = { region := .afterLast }) ∨
    (∃ o, (Node.unit u).resolve p = some o ∧ ofPosition u p = within o.governing o p) := by
  unfold ofPosition
  by_cases hu : u.isEmpty = true
  · exact Or.inl ⟨hu, if_pos hu⟩
  · rw [if_neg hu]
    cases ho : (Node.unit u).resolve p with
    | some o => exact Or.inr (Or.inr (Or.inr ⟨o, rfl, rfl⟩))
    | none =>
      have hout : u.range.contains p = false := Trail.resolve_eq_none_iff.mp ho
      rcases Range.isBefore_or_isAfter hout with hb | ha
      · have hna := Range.isAfter_eq_false_of_isBefore hb
        exact Or.inr (Or.inr (Or.inl ⟨Range.isBefore_iff.mp hb, if_neg (by simp [hna])⟩))
      · exact Or.inr (Or.inl ⟨Range.isAfter_iff.mp ha, if_pos ha⟩)

/-- A node governs only within the code. -/
theorem ofPosition_eq_within {u : UnitNode} {p : Position} {g : Trail} (h : (ofPosition u p).governing = some g) :
    ∃ o, (Node.unit u).resolve p = some o ∧ o.governing = g ∧ ofPosition u p = within g o p := by
  rcases ofPosition_cases u p with ⟨-, hc⟩ | ⟨-, hc⟩ | ⟨-, hc⟩ | ⟨o, ho, hc⟩
  · rw [hc] at h
    contradiction
  · rw [hc] at h
    contradiction
  · rw [hc] at h
    contradiction
  · rw [hc] at h
    obtain rfl : o.governing = g := Option.some.inj h
    exact ⟨o, ho, rfl, hc⟩

end Context
end Caret
