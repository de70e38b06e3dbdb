import Caret.Proofs.Placement
import Caret.Tree.Trail
/-!
# `Caret.Proofs.Trail` — the nodes of a tree as trails, and the descent to a position

Two equal subtrees may stand in one tree, so a node of a tree is told by the trail that leads to it. `From root` holds
of the trails of one tree, and `links` of a trail are the node and its ancestors.

`Towards root p` holds of a trail that steps, at every link, to the first child that contains `p`. The descent
of `Node.resolve` ends in the longest of these trails (`resolve_eq_some_iff`), and they are all on its way
(`mem_links_iff_towards`); what is said of the resolved trail is proved of `Towards` by induction on the links.

## Contents
- **Ancestors.** `mem_links_trans`, `child_mem_of_mem_links`, `pairwise_links`.
- **Trails of a tree.** `From`, and what placement says along a trail: `From.ordered`, `From.range_le`.
- **Descent.** `childAt?_eq_some_iff`, `Towards`, `resolve_eq_some_iff`, `mem_links_iff_towards`.
- **Completeness.** `From.towards` — a node that a position is past the start of lies on the descent.
-/

namespace Caret
namespace Trail

/-! ## Ancestors -/

@[simp] theorem mem_links_root {s : Trail} {n : Node} : s ∈ (Trail.root n).links ↔ s = .root n := by
  simp [links]

/-- The links of a trail: itself and those of the trail before its last step. -/
@[simp] theorem mem_links_child {s t : Trail} {i : Nat} {n : Node} :
    s ∈ (Trail.child t i n).links ↔ s = .child t i n ∨ s ∈ t.links := by
  simp [links]

@[simp] theorem mem_links_self (t : Trail) : t ∈ t.links := by
  cases t <;> simp

/-- An ancestor of an ancestor is an ancestor. -/
theorem mem_links_trans {r s t : Trail} (hr : r ∈ s.links) (hs : s ∈ t.links) : r ∈ t.links := by
  induction t with
  | root n =>
    rw [mem_links_root] at hs
    rwa [hs] at hr
  | child t i n ih =>
    rcases mem_links_child.mp hs with rfl | hs
    · exact hr
    · exact mem_links_child.mpr (Or.inr (ih hs))

theorem parent_mem_links {s t : Trail} {i : Nat} {c : Node} (h : Trail.child s i c ∈ t.links) : s ∈ t.links :=
  mem_links_trans (mem_links_child.mpr (Or.inr (mem_links_self s))) h

/-- Below an ancestor the trail goes on to one of its children. -/
theorem child_mem_of_mem_links {s t : Trail} (h : s ∈ t.links) : s = t ∨ ∃ i c, Trail.child s i c ∈ t.links := by
  induction t with
  | root n => exact Or.inl (mem_links_root.mp h)
  | child t i n ih =>
    rcases mem_links_child.mp h with hs | hs
    · exact Or.inl hs
    · rcases ih hs with rfl | ⟨j, c, hc⟩
      · exact Or.inr ⟨i, n, mem_links_self _⟩
      · exact Or.inr ⟨j, c, mem_links_child.mpr (Or.inr hc)⟩

/-- A link is no longer than the trail. -/
theorem length_links_le {s t : Trail} (h : s ∈ t.links) : s.links.length ≤ t.links.length := by
  induction t with
  | root n => rw [mem_links_root.mp h]
  | child t i n ih =>
    rcases mem_links_child.mp h with rfl | hs
    · exact Nat.le_refl _
    · exact Nat.le_succ_of_le (ih hs)

/-- A trail is no link of the one before its last step. -/
theorem child_not_mem_links (t : Trail) (i : Nat) (n : Node) : Trail.child t i n ∉ t.links := by
  intro h
  have hlen := length_links_le h
  simp only [links, List.length_cons] at hlen
  omega

theorem child_ne (t : Trail) (i : Nat) (n : Node) : Trail.child t i n ≠ t := by
  intro h
  refine child_not_mem_links t i n ?_
  rw [h]
  exact mem_links_self t

/-- Going outwards along a trail, what comes later is a proper ancestor of what comes earlier. -/
theorem pairwise_links (t : Trail) : t.links.Pairwise fun b a => a ∈ b.links ∧ a ≠ b := by
  induction t with
  | root n => simp [links]
  | child t i n ih =>
    refine List.pairwise_cons.mpr ⟨?_, ih⟩
    intro a ha
    refine ⟨mem_links_child.mpr (Or.inr ha), ?_⟩
    rintro rfl
    exact child_not_mem_links t i n ha

/-! ## Trails of a tree -/

/-- **Trails of a tree.** The trail starts at the root, and each link leads to a child of the node before it. -/
inductive From (root : Node) : Trail → Prop where
  | root : From root (.root root)
  | child {t : Trail} {i : Nat} {c : Node} (ht : From root t) (hc : t.node.children[i]? = some c) :
      From root (.child t i c)

namespace From

variable {root : Node} {s t : Trail}

theorem of_mem_links (ht : t.From root) (hs : s ∈ t.links) : s.From root := by
  induction ht with
  | root =>
    rw [mem_links_root.mp hs]
    exact .root
  | child ht hc ih =>
    rcases mem_links_child.mp hs with rfl | hs
    · exact .child ht hc
    · exact ih hs

/-- Every trail starts at the root. -/
theorem root_mem_links (ht : t.From root) : Trail.root root ∈ t.links := by
  induction ht with
  | root => exact mem_links_self _
  | child _ _ ih => exact mem_links_child.mpr (Or.inr ih)

/-- The last step of a trail goes to a child. -/
theorem child_mem {i : Nat} {c : Node} (h : (Trail.child t i c).From root) : t.node.children[i]? = some c := by
  cases h with
  | child _ hc => exact hc

/-- In a tree without a misplaced node the same holds below every node. -/
theorem misplaced?_eq_none (ht : t.From root) (hroot : root.misplaced? = none) : t.node.misplaced? = none := by
  induction ht with
  | root => exact hroot
  | child _ hc ih => exact (Node.misplaced?_eq_none_iff.mp ih).2 _ (List.mem_of_getElem? hc)

/-- In a tree without a misplaced node the children of every node are in order. -/
theorem ordered (ht : t.From root) (hroot : root.misplaced? = none) : t.node.Ordered :=
  Node.ordered_of_misplaced?_eq_none (ht.misplaced?_eq_none hroot)

/-- In a tree without a misplaced node every node lies within its ancestors. -/
theorem range_le (ht : t.From root) (hroot : root.misplaced? = none) (hs : s ∈ t.links) :
    s.node.range.start ≤ t.node.range.start ∧ t.node.range.stop ≤ s.node.range.stop := by
  induction ht with
  | root =>
    rw [mem_links_root.mp hs]
    exact ⟨le_refl _, le_refl _⟩
  | @child t i c ht hc ih =>
    rcases mem_links_child.mp hs with rfl | hs
    · exact ⟨le_refl _, le_refl _⟩
    · have hin := (ht.ordered hroot).inside c (List.mem_of_getElem? hc)
      exact ⟨le_trans (ih hs).1 hin.1, le_trans hin.2 (ih hs).2⟩

end From
end Trail

/-! ## The descent to a position -/

namespace Node

/-- The child that the descent steps to contains the position, and no child before it does. -/
theorem childAt?_eq_some_iff {n c : Node} {p : Position} {i : Nat} :
    n.childAt? p = some (c, i) ↔
      n.children[i]? = some c ∧ c.range.contains p = true ∧
        ∀ (j : Nat) (d : Node), j < i → n.children[j]? = some d → d.range.contains p = false := by
  unfold childAt?
  rw [List.find?_eq_some_iff_getElem]
  constructor
  · rintro ⟨hp, k, hk, heq, hfirst⟩
    rw [List.getElem_zipIdx, Nat.zero_add] at heq
    obtain ⟨rfl, rfl⟩ := Prod.mk.inj heq
    rw [List.length_zipIdx] at hk
    refine ⟨List.getElem?_eq_getElem hk, hp, ?_⟩
    intro j d hj hd
    obtain ⟨hlt, rfl⟩ := List.getElem?_eq_some_iff.mp hd
    simpa using hfirst j hj
  · rintro ⟨hc, hp, hfirst⟩
    obtain ⟨hi, rfl⟩ := List.getElem?_eq_some_iff.mp hc
    refine ⟨hp, i, by rwa [List.length_zipIdx], by simp, ?_⟩
    intro j hj
    have hjlt : j < n.children.length := Nat.lt_trans hj hi
    simpa using hfirst j _ hj (List.getElem?_eq_getElem hjlt)

end Node

namespace Trail

/-- **The way down to a position.** The root contains the position, and each link leads to the first child that
does. -/
inductive Towards (root : Node) (p : Position) : Trail → Prop where
  | root (h : root.range.contains p = true) : Towards root p (.root root)
  | child {t : Trail} {i : Nat} {c : Node} (ht : Towards root p t) (hc : t.node.childAt? p = some (c, i)) :
      Towards root p (.child t i c)

namespace Towards

variable {root : Node} {p : Position} {s t : Trail}

theorem toFrom (ht : t.Towards root p) : t.From root := by
  induction ht with
  | root _ => exact .root
  | child _ hc ih => exact .child ih (Node.childAt?_index hc)

/-- All nodes on the way to a position hold it. -/
theorem contains (ht : t.Towards root p) : t.node.range.contains p = true := by
  cases ht with
  | root h => exact h
  | child _ hc => exact Node.childAt?_contains hc

theorem of_mem_links (ht : t.Towards root p) (hs : s ∈ t.links) : s.Towards root p := by
  induction ht with
  | root h =>
    rw [mem_links_root.mp hs]
    exact .root h
  | child ht hc ih =>
    rcases mem_links_child.mp hs with rfl | hs
    · exact .child ht hc
    · exact ih hs

/-- Each step of the way is the one that the descent takes. -/
theorem childAt?_eq {i : Nat} {c : Node} (h : (Trail.child t i c).Towards root p) :
    t.node.childAt? p = some (c, i) := by
  cases h with
  | child _ hc => exact hc

/-- From every node on its way the descent comes to the same end. -/
theorem descend_eq (ht : t.Towards root p) : root.descend p (.root root) = t.node.descend p t := by
  induction ht with
  | root _ => rfl
  | @child t i c _ hc ih => rw [ih, Node.descend_eq, hc]; rfl

/-- A descent that has come to a node goes on by the rule, and stops where no child contains the position. -/
theorem descend (ht : t.Towards root p) :
    (t.node.descend p t).Towards root p ∧ (t.node.descend p t).node.childAt? p = none := by
  generalize hn : t.node = n
  induction n using Node.induction generalizing t with
  | step n ih =>
    rw [Node.descend_eq]
    cases hc : n.childAt? p with
    | none => exact ⟨ht, hn ▸ hc⟩
    | some ci =>
      obtain ⟨c, i⟩ := ci
      subst hn
      exact ih c (Node.childAt?_mem hc) (.child ht hc) rfl

end Towards

/-- **What resolving gives.** The resolved trail is the way down to the position that cannot be continued. -/
theorem resolve_eq_some_iff {root : Node} {p : Position} {o : Trail} :
    root.resolve p = some o ↔ o.Towards root p ∧ o.node.childAt? p = none := by
  unfold Node.resolve
  constructor
  · intro h
    split at h
    · obtain rfl := Option.some.inj h
      exact Towards.descend (.root ‹_›)
    · contradiction
  · rintro ⟨ho, hend⟩
    have hroot : root.range.contains p = true := (ho.of_mem_links ho.toFrom.root_mem_links).contains
    rw [if_pos hroot, ho.descend_eq, Node.descend_eq, hend]

/-- The root is asked first. -/
theorem resolve_eq_none_iff {root : Node} {p : Position} : root.resolve p = none ↔ root.range.contains p = false := by
  unfold Node.resolve
  split
  · simp [*]
  · simp [*]

/-- **The links of the resolved trail** are all the trails that lead towards the position. -/
theorem mem_links_iff_towards {root : Node} {p : Position} {o s : Trail} (ho : root.resolve p = some o) :
    s ∈ o.links ↔ s.Towards root p := by
  obtain ⟨hto, hend⟩ := resolve_eq_some_iff.mp ho
  constructor
  · exact hto.of_mem_links
  · intro hs
    induction hs with
    | root _ => exact hto.toFrom.root_mem_links
    | @child t i c ht hc ih =>
      rcases child_mem_of_mem_links ih with rfl | ⟨j, d, hd⟩
      · rw [hend] at hc
        contradiction
      · -- the step is determined by the node, so the resolved trail takes the same one
        have heq := (hto.of_mem_links hd).childAt?_eq
        obtain ⟨rfl, rfl⟩ := Prod.mk.inj (Option.some.inj (hc.symm.trans heq))
        exact hd

/-! ## Completeness of the descent -/

/-- **A node that a position is past the start of lies on the descent.** Its ancestors have the position past their
start too, and no earlier sibling can still contain it. -/
theorem From.towards {root : Node} {p : Position} {t : Trail} (ht : t.From root) (hroot : root.misplaced? = none)
    (hstart : t.node.range.start < p) (hstop : p ≤ t.node.range.stop) : t.Towards root p := by
  induction ht with
  | root => exact .root (Range.contains_iff.mpr ⟨le_of_lt hstart, hstop⟩)
  | @child t i c ht hc ih =>
    have hord := ht.ordered hroot
    have hin := hord.inside c (List.mem_of_getElem? hc)
    refine .child (ih (lt_of_le_of_lt hin.1 hstart) (le_trans hstop hin.2)) ?_
    refine Node.childAt?_eq_some_iff.mpr ⟨hc, Range.contains_iff.mpr ⟨le_of_lt hstart, hstop⟩, ?_⟩
    intro j d hj hd
    have hdc : d.range.stop ≤ c.range.start := hord.precedes_of_lt hd hc hj
    have hnot : ¬ p ≤ d.range.stop := not_le.mpr (lt_of_le_of_lt hdc hstart)
    exact Bool.eq_false_iff.mpr fun hd => hnot (Range.contains_iff.mp hd).2

end Trail
end Caret
