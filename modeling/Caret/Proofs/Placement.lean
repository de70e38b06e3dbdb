import Caret.Proofs.Order
import Caret.Tree.Placement
import Mathlib.Data.List.Chain
/-!
# `Caret.Proofs.Placement` — what a tree without a misplaced node looks like

The check of a tree reports the first node out of place. This module says what it means that there is none: every node
is `Ordered`, its children lying within it and one after the other. Neighbouring siblings may share one position, so
the order is between the end of one and the start of the next, and it passes on from neighbours to all pairs because
no range ends before it starts.
-/

namespace Caret
namespace Node

/-- The first node has ended when the second one starts. -/
def Precedes (a b : Node) : Prop := a.range.stop ≤ b.range.start

theorem Precedes.trans {a b c : Node} (hab : Precedes a b) (hbc : Precedes b c) : Precedes a c :=
  le_trans hab (le_trans b.range.start_le_stop hbc)

instance : Trans Precedes Precedes Precedes := ⟨Precedes.trans⟩

/-- **Children in order.** Every child lies within the node, and of two children the earlier one has ended when the
later one starts. -/
structure Ordered (n : Node) : Prop where
  inside : ∀ c ∈ n.children, n.range.start ≤ c.range.start ∧ c.range.stop ≤ n.range.stop
  apart : n.children.Pairwise Precedes

theorem encloses_iff {parent child : Node} :
    parent.encloses child = true ↔
      parent.range.start ≤ child.range.start ∧ child.range.stop ≤ parent.range.stop := by
  simp [encloses]

theorem isChain_cons_iff_follows {previous : Option Node} {c : Node} {cs : List Node} :
    (previous.toList ++ c :: cs).IsChain Precedes ↔ c.follows previous = true ∧ (c :: cs).IsChain Precedes := by
  cases previous with
  | none => simp [follows]
  | some a =>
    rw [Option.toList_some, List.singleton_append, List.isChain_cons_cons]
    simp [follows, Precedes]

/-- The children that are left have no misplaced one among them exactly when they lie within the parent and each
follows the one before, the first of them following `previous`. -/
theorem misplacedAmong?_eq_none_iff {parent : Node} {previous : Option Node} {cs : List Node} :
    parent.misplacedAmong? previous cs = none ↔
      (∀ c ∈ cs, parent.encloses c = true) ∧ (previous.toList ++ cs).IsChain Precedes := by
  induction cs generalizing previous with
  | nil => cases previous <;> simp [misplacedAmong?]
  | cons c cs ih =>
    rw [isChain_cons_iff_follows, List.forall_mem_cons]
    unfold misplacedAmong?
    by_cases he : parent.encloses c = true
    · by_cases hf : c.follows previous = true
      · rw [if_neg (by simp [he]), if_neg (by simp [hf]), ih]
        simp only [he, hf, true_and, Option.toList_some, List.singleton_append]
      · rw [if_neg (by simp [he]), if_pos (by simp [hf])]
        simp [hf]
    · rw [if_pos (by simp [he])]
      simp [he]

theorem ordered_iff {n : Node} : n.misplacedAmong? none n.children = none ↔ n.Ordered := by
  rw [misplacedAmong?_eq_none_iff, Option.toList_none, List.nil_append, List.isChain_iff_pairwise]
  constructor
  · rintro ⟨hin, hap⟩
    exact ⟨fun c hc => encloses_iff.mp (hin c hc), hap⟩
  · rintro ⟨hin, hap⟩
    exact ⟨fun c hc => encloses_iff.mpr (hin c hc), hap⟩

/-- **Acceptance, one level at a time.** A tree has no misplaced node exactly when the children of its root are in
order and none of their trees has one. -/
theorem misplaced?_eq_none_iff {n : Node} :
    n.misplaced? = none ↔ n.Ordered ∧ ∀ c ∈ n.children, c.misplaced? = none := by
  rw [misplaced?_eq, Option.or_eq_none_iff, ordered_iff, List.findSome?_eq_none_iff]
  simp only [List.mem_reverse]

theorem ordered_of_misplaced?_eq_none {n : Node} (h : n.misplaced? = none) : n.Ordered :=
  (misplaced?_eq_none_iff.mp h).1

namespace Ordered

variable {n : Node} {i j : Nat} {a b : Node}

/-- Of two children the earlier one has ended when the later one starts. -/
theorem precedes_of_lt (h : n.Ordered) (ha : n.children[i]? = some a) (hb : n.children[j]? = some b) (hij : i < j) :
    Precedes a b := by
  obtain ⟨hi, rfl⟩ := List.getElem?_eq_some_iff.mp ha
  obtain ⟨hj, rfl⟩ := List.getElem?_eq_some_iff.mp hb
  exact List.pairwise_iff_getElem.mp h.apart i j hi hj hij

/-- A child that has ended where another one has not comes before it. -/
theorem lt_of_stop_lt (h : n.Ordered) {p : Position} (ha : n.children[i]? = some a) (hb : n.children[j]? = some b)
    (hap : a.range.stop < p) (hbp : p ≤ b.range.stop) : i < j := by
  rcases Nat.lt_trichotomy i j with hij | hij | hij
  · exact hij
  · subst hij
    obtain rfl : a = b := Option.some.inj (ha.symm.trans hb)
    exact absurd (lt_of_lt_of_le hap hbp) (lt_irrefl _)
  · have hba : b.range.stop ≤ a.range.start := h.precedes_of_lt hb ha hij
    have hbb : b.range.stop < p :=
      lt_of_le_of_lt (le_trans hba a.range.start_le_stop) hap
    exact absurd (lt_of_lt_of_le hbb hbp) (lt_irrefl _)

end Ordered
end Node
end Caret
