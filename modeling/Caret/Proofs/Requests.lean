import Caret.Completion.Complete
import Caret.Proofs.Context
/-!
# `Caret.Proofs.Requests` — which completion requests fail

A request fails for its cursor or for a tree with a misplaced node, and for nothing else: wherever the cursor is,
the context has a rule that classifies it. The rule for units meets only the sections of a unit before the cursor, also
where the unit stands deep inside another one, and the rule for members meets only property accesses.

## Contents
- **Rules and nodes.** `eq_unit_of_rule`, `eq_access_of_rule` — the node behind a rule.
- **Classification.** `Offers.ofPosition_eq_ok` — every position of every unit is classified.
- **Requests.** `Script.Malformed`, `Script.complete_eq_error`, `Script.complete_eq_ok`, `Script.complete_of_offers`.
-/

namespace Caret

/-! ## Rules and nodes -/

namespace Node

variable {n : Node}

/-- Two rules rely on the sort of the node that governs: it is a unit, or a property access. -/
theorem eq_unit_of_rule (h : n.kind.rule = .unit) : ∃ u, n = .unit u := by
  cases n with
  | unit u => exact ⟨u, rfl⟩
  | _ => contradiction

theorem eq_access_of_rule (h : n.kind.rule = .memberAccess) : ∃ a, n = .access a := by
  cases n with
  | access a => exact ⟨a, rfl⟩
  | _ => contradiction

end Node

/-! ## Every position is classified -/

namespace Offers

/-- Between the sections of a unit, nested or not, what stands before the cursor is a section. -/
theorem inUnit_eq_ok {u : UnitNode} {c : Context} (hprev : ∀ n, c.prev = some n → n ∈ (Node.unit u).children) :
    ∃ o, inUnit c = .ok o ∧ o.context = c := by
  unfold inUnit
  cases hp : c.prev with
  | none => exact ⟨_, rfl, rfl⟩
  | some n =>
    rcases Node.mem_children_unit.mp (hprev n hp) with ⟨rfl, -⟩ | ⟨rfl, -⟩ | ⟨rfl, -⟩
    · exact ⟨_, rfl, rfl⟩
    · exact ⟨_, rfl, rfl⟩
    · exact ⟨_, rfl, rfl⟩

/-- Within the code the rule of a node classifies the context, unless it is the one that leaves the decision open. -/
theorem ofContext_within_eq_ok (u : UnitNode) {governing : Trail} (h : governing.node.kind.rule ≠ .defer)
    (origin : Trail) (p : Position) :
    ∃ o, ofContext u (.within governing origin p) = .ok o ∧ o.context = .within governing origin p := by
  generalize hc : Context.within governing origin p = c
  have hregion : c.region = .within := by rw [← hc]; rfl
  have hrule : c.rule = some governing.node.kind.rule := by rw [← hc]; rfl
  unfold ofContext
  simp only [hregion, hrule]
  cases hr : governing.node.kind.rule with
  | unit =>
    -- the neighbours in a unit are sections, and each sort of section has its offers
    obtain ⟨v, hv⟩ := Node.eq_unit_of_rule hr
    refine inUnit_eq_ok (u := v) ?_
    intro n hn
    rw [← hc] at hn
    rw [← hv]
    exact Node.neighbours_fst_mem hn
  | memberAccess =>
    obtain ⟨a, ha⟩ := Node.eq_access_of_rule hr
    have hnode : c.node? = some (.access a) := by
      rw [← ha, ← hc]
      rfl
    unfold atMemberAccess
    rw [hnode]
    exact ⟨_, rfl, rfl⟩
  | staticSection =>
    unfold inStaticSection
    cases c.sectionItem? with
    | none => exact ⟨_, rfl, rfl⟩
    | some item => exact ⟨_, rfl, rfl⟩
  | functionSection => exact ⟨_, rfl, rfl⟩
  | statements => exact ⟨_, rfl, rfl⟩
  | empty => exact ⟨_, rfl, rfl⟩
  | defer => exact absurd hr h

/-- **Every position is classified.** No unit, whether its nodes are in place or not, has a position without offers. -/
theorem ofPosition_eq_ok (u : UnitNode) (p : Position) :
    ∃ o, ofPosition u p = .ok o ∧ o.context = .ofPosition u p := by
  unfold ofPosition
  rw [Context.locate_eq_ok]
  rcases Context.ofPosition_cases u p with ⟨-, hc⟩ | ⟨-, hc⟩ | ⟨-, hc⟩ | ⟨o, ho, hc⟩
  · rw [hc]
    exact ⟨_, rfl, rfl⟩
  · rw [hc]
    exact ⟨_, rfl, rfl⟩
  · rw [hc]
    exact ⟨_, rfl, rfl⟩
  · have hfrom : o.From (.unit u) := (Trail.resolve_eq_some_iff.mp ho).1.toFrom
    rw [hc]
    exact ofContext_within_eq_ok u (Trail.rule_climb_ne_defer hfrom true) o p

end Offers

/-! ## Requests -/

namespace Script

variable {s : Script} {base : Int} {p : Position}

/-- **A malformed request.** The cursor lies before the first line or column, or the tree has a misplaced node. -/
def Malformed (s : Script) (base : Int) (p : Position) : Prop :=
  p.line < base ∨ p.column < base ∨ ∃ fault, (Node.unit s.unit).misplaced? = some fault

theorem requestFault?_eq_none_iff : s.requestFault? base p = none ↔ ¬ s.Malformed base p := by
  unfold requestFault? Position.fault? Malformed
  by_cases hcursor : p.line < base ∨ p.column < base
  · rw [if_pos hcursor, ← or_assoc]
    simp [hcursor]
  · rw [if_neg hcursor, ← or_assoc, Option.none_or, Option.map_eq_none_iff]
    simp [hcursor, Option.eq_none_iff_forall_ne_some]

theorem misplaced?_eq_none_of_not_malformed (h : ¬ s.Malformed base p) : (Node.unit s.unit).misplaced? = none := by
  apply Option.eq_none_iff_forall_ne_some.mpr
  intro fault hfault
  exact h (Or.inr (Or.inr ⟨fault, hfault⟩))

/-- Whatever fault there is, completion fails with it. -/
theorem complete_eq_error {fault : RequestFault} (h : s.requestFault? base p = some fault) :
    s.complete base p = .error fault.error := by
  unfold complete
  rw [h]

/-- Without a fault there is an answer, since classification gives one. -/
theorem complete_eq_ok (h : s.requestFault? base p = none) : ∃ suggestions, s.complete base p = .ok suggestions := by
  obtain ⟨o, ho, -⟩ := Offers.ofPosition_eq_ok s.unit p
  unfold complete
  rw [h, ho]
  exact ⟨_, rfl⟩

/-- A request that is not refused is answered with the suggestions on offer in the context of the position. -/
theorem complete_of_offers (h : s.requestFault? base p = none) {o : Offers}
    (ho : Offers.ofContext s.unit (.ofPosition s.unit p) = .ok o) : s.complete base p = .ok (o.suggestions s p) := by
  have hoffers : Offers.ofPosition s.unit p = .ok o := by
    unfold Offers.ofPosition
    rw [Context.locate_eq_ok]
    exact ho
  unfold complete
  rw [h, hoffers]

end Script
end Caret
