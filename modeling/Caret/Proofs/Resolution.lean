import Caret.Proofs.Trail
/-!
# `Caret.Proofs.Resolution` — which node a position resolves to

Ranges hold both their ends and siblings may touch, so several children of a node can contain one position. The descent
takes the first of them. In a tree without a misplaced node that choice is only open at a seam: the children that
contain the position share it as an end or a start, and every node that the position is past the start of is met on the
way down whatever is chosen.

* `Resolved` — what holds of a trail that a position resolves to, said by ranges alone;
* `eq_stop_and_eq_start_of_contains` — two children contain a position only where they touch;
* `resolve_exact` — resolving gives such a trail whenever the root contains the position.
-/

namespace Caret
namespace Trail

variable {root : Node} {p : Position} {o t : Trail}

/-! ## The nodes along a trail -/

theorem head?_nodes (t : Trail) : t.nodes.head? = some t.node := by
  cases t <;> rfl

theorem From.getLast?_nodes (ht : t.From root) : t.nodes.getLast? = some root := by
  induction ht with
  | root => rfl
  | @child t i c _ _ ih =>
    rw [nodes_child, List.getLast?_cons, ih]
    rfl

theorem From.isChain_nodes (ht : t.From root) : t.nodes.IsChain fun c n => c ∈ n.children := by
  induction ht with
  | root => exact .singleton _
  | @child t i c _ hc ih =>
    cases t with
    | root n => exact List.isChain_cons_cons.mpr ⟨List.mem_of_getElem? hc, ih⟩
    | child t j n => exact List.isChain_cons_cons.mpr ⟨List.mem_of_getElem? hc, ih⟩

/-- **A resolved position.** The nodes of the trail run from the innermost one up to the root, each a child of the next.
They all contain the position, no child of the innermost one does, and no node of the tree that the position is past the
start of is left out. -/
structure Resolved (root : Node) (p : Position) (o : Trail) : Prop where
  starts : o.nodes.head? = some o.node
  ends : o.nodes.getLast? = some root
  linked : o.nodes.IsChain fun c n => c ∈ n.children
  contains : ∀ n ∈ o.nodes, n.range.contains p = true
  innermost : ∀ c ∈ o.node.children, c.range.contains p = false
  complete : ∀ t : Trail, t.From root → t.node.range.start < p → p ≤ t.node.range.stop → t ∈ o.links

theorem resolved_of_resolve_eq_some (hroot : root.misplaced? = none) (ho : root.resolve p = some o) :
    Resolved root p o := by
  obtain ⟨hto, hend⟩ := resolve_eq_some_iff.mp ho
  refine ⟨head?_nodes o, hto.toFrom.getLast?_nodes, hto.toFrom.isChain_nodes, ?_, ?_, ?_⟩
  · intro n hn
    obtain ⟨s, hs, rfl⟩ := List.mem_map.mp hn
    exact (hto.of_mem_links hs).contains
  · exact Node.childAt?_eq_none_iff.mp hend
  · intro t ht hstart hstop
    exact (mem_links_iff_towards ho).mpr (ht.towards hroot hstart hstop)

end Trail

namespace Node

/-! ## Children that share a position -/

/-- **Two children contain a position only where they touch.** -/
theorem Ordered.eq_stop_and_eq_start_of_contains {n a b : Node} {i j : Nat} {p : Position} (h : n.Ordered)
    (ha : n.children[i]? = some a) (hb : n.children[j]? = some b) (hij : i < j)
    (hap : a.range.contains p = true) (hbp : b.range.contains p = true) :
    p = a.range.stop ∧ p = b.range.start := by
  have hab : a.range.stop ≤ b.range.start := h.precedes_of_lt ha hb hij
  have hpa : p ≤ a.range.stop := (Range.contains_iff.mp hap).2
  have hpb : b.range.start ≤ p := (Range.contains_iff.mp hbp).1
  exact ⟨le_antisymm hpa (le_trans hab hpb), le_antisymm (le_trans hpa hab) hpb⟩

/-- The descent never steps to a child behind another one that contains the position. -/
theorem childAt?_ne_of_lt {n a b : Node} {i j : Nat} {p : Position} (ha : n.children[i]? = some a) (hij : i < j)
    (hap : a.range.contains p = true) : n.childAt? p ≠ some (b, j) := by
  intro hb
  have hnot := (childAt?_eq_some_iff.mp hb).2.2 i a hij ha
  rw [hap] at hnot
  contradiction

/-! ## Resolution is exact -/

/-- **Resolution is exact.** In a tree without a misplaced node a position resolves exactly when the root contains it,
and then to a trail that is `Resolved`. Two children of one node contain it only if it is the end of the earlier and the
start of the later one, and the resolved trail does not lead through the later one. -/
theorem resolve_exact {root : Node} (hroot : root.misplaced? = none) (p : Position) :
    (root.resolve p = none ↔ root.range.contains p = false) ∧
    (∀ o, root.resolve p = some o → Trail.Resolved root p o) ∧
    (∀ (t : Trail) (i j : Nat) (a b : Node), t.From root →
      t.node.children[i]? = some a → t.node.children[j]? = some b → i < j →
      a.range.contains p = true → b.range.contains p = true →
      p = a.range.stop ∧ p = b.range.start ∧ ∀ o, root.resolve p = some o → Trail.child t j b ∉ o.links) := by
  refine ⟨Trail.resolve_eq_none_iff, fun o ho => Trail.resolved_of_resolve_eq_some hroot ho, ?_⟩
  intro t i j a b ht ha hb hij hap hbp
  obtain ⟨hstop, hstart⟩ := (ht.ordered hroot).eq_stop_and_eq_start_of_contains ha hb hij hap hbp
  refine ⟨hstop, hstart, ?_⟩
  intro o ho hmem
  exact childAt?_ne_of_lt ha hij hap ((Trail.mem_links_iff_towards ho).mp hmem).childAt?_eq

/-- A block with an empty statement on the seam between two literals: three children contain one position. -/
def seam : Node :=
  .block ⟨⟨⟨0, 0⟩, ⟨0, 9⟩, by decide⟩,
    [.literal ⟨⟨0, 1⟩, ⟨0, 4⟩, by decide⟩ .integer, .plain .expressionStatement ⟨⟨⟨0, 4⟩, ⟨0, 4⟩, by decide⟩, []⟩,
     .literal ⟨⟨0, 4⟩, ⟨0, 8⟩, by decide⟩ .string]⟩

theorem resolve_exact_seam :
    seam.misplaced? = none ∧
    ∃ o, seam.resolve ⟨0, 4⟩ = some o ∧ o.path = [0] ∧ Trail.Resolved seam ⟨0, 4⟩ o ∧
      ∀ c, seam.children[2]? = some c → Trail.child (.root seam) 2 c ∉ o.links := by
  refine ⟨rfl, _, rfl, rfl, (resolve_exact rfl ⟨0, 4⟩).2.1 _ rfl, ?_⟩
  intro c hc
  obtain rfl := Option.some.inj hc
  exact ((resolve_exact rfl ⟨0, 4⟩).2.2 (.root seam) 0 2 _ _ .root rfl rfl (by decide) rfl rfl).2.2 _ rfl

end Node
end Caret
