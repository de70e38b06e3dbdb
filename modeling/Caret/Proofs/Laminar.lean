import Caret.Proofs.Trail
import Mathlib.Algebra.GroupWithZero.Nat
/-!
# `Caret.Proofs.Laminar` — the trees that the placement check accepts

The check compares a child with its parent and with the sibling before it, and nothing else. What it guarantees is about
all pairs of nodes: a node lies within each of its ancestors, and of two nodes on different branches the one on the
earlier branch has ended when the other one starts. This module proves the two equal, and says what a reported fault
means.

Nodes are told by their paths. That a path is a prefix of another one makes its node an ancestor, and the
lexicographic order of paths is the order of branches.

## Contents
- **The worklist.** `Sweep` — the check as a loop over a stack of nodes. `run_pending`: it ends, after at most one turn
  more than there are nodes, with the fault that `Node.misplaced?` gives.
- **Paths.** `at?_eq_some_iff` — the trail along a path, so that paths tell trails apart (`From.eq_of_path_eq`);
  `exists_fork` — where two branches part.
- **All pairs of nodes.** `Laminar`, and `misplaced?_eq_none_iff_laminar`.
- **Faults.** `FoundAt` — what is wrong where a fault is reported; `exists_foundAt`.
-/

namespace Caret

/-! ## The check as a worklist -/

namespace Node

/-- The number of nodes in a tree. -/
def count : Node → Nat := fold fun _ below => 1 + below.sum

theorem count_eq (n : Node) : n.count = 1 + (n.children.map count).sum := fold_eq _ n

end Node

/-- **How far a check has come.** Nodes are waiting on a stack, the next one first, or the check is over with the fault
that it found, if any. -/
inductive Sweep where
  | pending (stack : List Node)
  | over (fault : Option PlacementFault)

namespace Sweep

/-- One turn. The next node is taken from the stack; its children go on top, the last one first, if all of them are
where they may be. -/
def turn : Sweep → Sweep
  | .pending [] => .over none
  | .pending (n :: rest) =>
    match n.misplacedAmong? none n.children with
    | some fault => .over (some fault)
    | none => .pending (n.children.reverse ++ rest)
  | .over fault => .over fault

/-- A number of turns. -/
def run : Nat → Sweep → Sweep
  | 0, s => s
  | k + 1, s => run k s.turn

theorem run_over (k : Nat) (fault : Option PlacementFault) : run k (.over fault) = .over fault := by
  induction k with
  | zero => rfl
  | succ k ih => exact ih

/-- **The worklist comes to an end.** Every turn takes one node for good, so a run of more turns than there are nodes
below the stack is over, with the first fault that the trees on the stack have. -/
theorem run_pending {k : Nat} {stack : List Node} (h : (stack.map Node.count).sum < k) :
    run k (.pending stack) = .over (stack.findSome? Node.misplaced?) := by
  induction k generalizing stack with
  | zero => exact absurd h (Nat.not_lt_zero _)
  | succ k ih =>
    cases stack with
    | nil => exact run_over k none
    | cons n rest =>
      have hn := Node.misplaced?_eq n
      cases hc : n.misplacedAmong? none n.children with
      | some fault =>
        rw [hc, Option.some_or] at hn
        have hturn : turn (.pending (n :: rest)) = .over (some fault) := by simp only [turn, hc]
        rw [run, hturn, run_over, List.findSome?_cons, hn]
      | none =>
        rw [hc, Option.none_or] at hn
        have hturn : turn (.pending (n :: rest)) = .pending (n.children.reverse ++ rest) := by simp only [turn, hc]
        have hless : ((n.children.reverse ++ rest).map Node.count).sum < k := by
          have hcount := Node.count_eq n
          simp only [List.map_cons, List.sum_cons] at h
          rw [List.map_append, List.sum_append, List.map_reverse, List.sum_reverse]
          omega
        rw [run, hturn, ih hless, List.findSome?_append, List.findSome?_cons, ← hn]
        cases n.misplaced? <;> rfl

end Sweep

/-! ## Paths -/

namespace Trail

variable {root : Node} {s t : Trail} {a b : List Nat}

theorem follow_append (t : Trail) (a b : List Nat) : t.follow (a ++ b) = (t.follow a).bind (·.follow b) := by
  induction a generalizing t with
  | nil => rfl
  | cons i a ih =>
    rw [List.cons_append, follow, follow]
    cases t.node.children[i]? with
    | none => rfl
    | some c => exact ih _

/-- Following a path leads to a node below, along the indexes of the path. -/
theorem of_follow (h : t.follow a = some s) (ht : t.From root) :
    s.From root ∧ s.path = t.path ++ a ∧ t ∈ s.links := by
  induction a generalizing t with
  | nil =>
    obtain rfl := Option.some.inj h
    exact ⟨ht, (List.append_nil _).symm, mem_links_self t⟩
  | cons i a ih =>
    rw [follow] at h
    cases hc : t.node.children[i]? with
    | none =>
      rw [hc] at h
      contradiction
    | some c =>
      rw [hc] at h
      obtain ⟨hs, hpath, hlink⟩ := ih h (.child ht hc)
      refine ⟨hs, ?_, parent_mem_links hlink⟩
      rw [hpath, path, List.append_assoc, List.singleton_append]

/-- **The node at a path** is the one whose trail takes the steps of the path. -/
theorem at?_eq_some_iff : root.at? a = some t ↔ t.From root ∧ t.path = a := by
  constructor
  · intro h
    obtain ⟨ht, hpath, -⟩ := of_follow h .root
    exact ⟨ht, hpath⟩
  · rintro ⟨ht, rfl⟩
    induction ht with
    | root => rfl
    | @child t i c _ hc ih =>
      unfold Node.at? at ih ⊢
      rw [path, follow_append, ih, Option.bind_some, follow, hc]
      rfl

theorem at?_path (ht : t.From root) : root.at? t.path = some t := at?_eq_some_iff.mpr ⟨ht, rfl⟩

/-- Within one tree a path tells trails apart. -/
theorem From.eq_of_path_eq (hs : s.From root) (ht : t.From root) (h : s.path = t.path) : s = t := by
  have hat := at?_path hs
  rw [h, at?_path ht] at hat
  exact (Option.some.inj hat).symm

theorem exists_of_at?_append (h : root.at? (a ++ b) = some t) : ∃ m, root.at? a = some m ∧ m.follow b = some t := by
  unfold Node.at? at h ⊢
  rw [follow_append] at h
  exact Option.bind_eq_some_iff.mp h

theorem exists_of_follow_cons {i : Nat} (h : s.follow (i :: a) = some t) :
    ∃ c, s.node.children[i]? = some c ∧ (Trail.child s i c).follow a = some t := by
  rw [follow] at h
  cases hc : s.node.children[i]? with
  | none =>
    rw [hc] at h
    contradiction
  | some c =>
    rw [hc] at h
    exact ⟨c, rfl, h⟩

/-- **Two branches part** at a first index in which they differ. -/
theorem exists_fork (hlt : a < b) (hstart : ¬ a <+: b) :
    ∃ c i j d e, a = c ++ i :: d ∧ b = c ++ j :: e ∧ i < j := by
  induction hlt with
  | nil => exact absurd List.nil_prefix hstart
  | @rel i d j e hij => exact ⟨[], i, j, d, e, rfl, rfl, hij⟩
  | @cons i d e _ ih =>
    have htail : ¬ d <+: e := fun h => hstart (List.cons_prefix_cons.mpr ⟨rfl, h⟩)
    obtain ⟨c, k, l, d', e', rfl, rfl, hkl⟩ := ih htail
    exact ⟨i :: c, k, l, d', e', rfl, rfl, hkl⟩

end Trail

/-! ## All pairs of nodes -/

namespace Node

variable {root : Node}

/-- **Laminar trees.** Whatever the distance between two nodes: one that is an ancestor of the other encloses it, and if
neither is, the one on the earlier branch has ended when the other one starts. -/
structure Laminar (root : Node) : Prop where
  nested : ∀ {a b : List Nat} {s t : Trail}, root.at? a = some s → root.at? b = some t → a <+: b →
    s.node.range.start ≤ t.node.range.start ∧ t.node.range.stop ≤ s.node.range.stop
  apart : ∀ {a b : List Nat} {s t : Trail}, root.at? a = some s → root.at? b = some t →
    a < b → ¬ a <+: b → ¬ b <+: a → s.node.range.stop ≤ t.node.range.start

/-- The check accepts a tree exactly when the children of every node in it are in order. -/
theorem misplaced?_eq_none_iff_ordered :
    root.misplaced? = none ↔ ∀ t : Trail, t.From root → t.node.Ordered := by
  constructor
  · intro h t ht
    exact ht.ordered h
  · intro h
    have hbelow : ∀ n : Node, ∀ t : Trail, t.From root → t.node = n → n.misplaced? = none := by
      intro n
      induction n using Node.induction with
      | step n ih =>
        rintro t ht rfl
        refine misplaced?_eq_none_iff.mpr ⟨h t ht, ?_⟩
        intro c hc
        obtain ⟨i, hi⟩ := List.getElem?_of_mem hc
        exact ih c hc _ (.child ht hi) rfl
    exact hbelow root _ .root rfl

/-- From parent and child, and from neighbours, to all pairs of nodes. -/
theorem laminar_of_misplaced?_eq_none (h : root.misplaced? = none) : root.Laminar := by
  refine ⟨?_, ?_⟩
  · rintro a _ s t hs ht ⟨d, rfl⟩
    obtain ⟨m, hm, hfollow⟩ := Trail.exists_of_at?_append ht
    obtain rfl := Option.some.inj (hs.symm.trans hm)
    obtain ⟨hfrom, -, hlink⟩ := Trail.of_follow hfollow (Trail.at?_eq_some_iff.mp hs).1
    exact hfrom.range_le h hlink
  · intro a b s t hs ht hlt hab _
    obtain ⟨c, i, j, d, e, rfl, rfl, hij⟩ := Trail.exists_fork hlt hab
    obtain ⟨m, hm, hsm⟩ := Trail.exists_of_at?_append hs
    obtain ⟨m', hm', htm⟩ := Trail.exists_of_at?_append ht
    obtain rfl := Option.some.inj (hm.symm.trans hm')
    have hfrom : m.From root := (Trail.at?_eq_some_iff.mp hm).1
    obtain ⟨x, hx, hsx⟩ := Trail.exists_of_follow_cons hsm
    obtain ⟨y, hy, hty⟩ := Trail.exists_of_follow_cons htm
    obtain ⟨hsfrom, -, hslink⟩ := Trail.of_follow hsx (.child hfrom hx)
    obtain ⟨htfrom, -, htlink⟩ := Trail.of_follow hty (.child hfrom hy)
    -- the two nodes lie below two children of the node where their branches part
    calc s.node.range.stop
      _ ≤ x.range.stop := (hsfrom.range_le h hslink).2
      _ ≤ y.range.start := (hfrom.ordered h).precedes_of_lt hx hy hij
      _ ≤ t.node.range.start := (htfrom.range_le h htlink).1

theorem ordered_of_laminar (h : root.Laminar) {t : Trail} (ht : t.From root) : t.node.Ordered := by
  have hchild : ∀ {i : Nat} {c : Node}, t.node.children[i]? = some c →
      root.at? (t.path ++ [i]) = some (.child t i c) := fun hc => Trail.at?_path (.child ht hc)
  refine ⟨?_, List.pairwise_iff_getElem.mpr ?_⟩
  · intro c hc
    obtain ⟨i, hi⟩ := List.getElem?_of_mem hc
    exact h.nested (Trail.at?_path ht) (hchild hi) (List.prefix_append _ _)
  · intro i j hi hj hij
    have hlt : t.path ++ [i] < t.path ++ [j] := List.append_left_lt (List.Lex.rel hij)
    have hparts : ∀ {k l : Nat}, k ≠ l → ¬ t.path ++ [k] <+: t.path ++ [l] := by
      intro k l hkl hstart
      have hsingle := (List.prefix_append_right_inj t.path).mp hstart
      exact hkl (List.cons_prefix_cons.mp hsingle).1
    exact h.apart (hchild (List.getElem?_eq_getElem hi)) (hchild (List.getElem?_eq_getElem hj)) hlt
      (hparts (Nat.ne_of_lt hij)) (hparts (Nat.ne_of_gt hij))

/-- **Acceptance is laminarity.** -/
theorem misplaced?_eq_none_iff_laminar : root.misplaced? = none ↔ root.Laminar :=
  ⟨laminar_of_misplaced?_eq_none,
    fun h => misplaced?_eq_none_iff_ordered.mpr fun _ ht => ordered_of_laminar h ht⟩

/-! ## Faults -/

end Node

/-- **What a fault means** at the node where it is found: the child is one of its children and reaches beyond it, or
starts before the end of the child just before. -/
def PlacementFault.FoundAt (n : Node) : PlacementFault → Prop
  | .outside child parent =>
    parent = n ∧ child ∈ n.children ∧
      (child.range.start < parent.range.start ∨ parent.range.stop < child.range.stop)
  | .overlap child sibling =>
    ∃ i, n.children[i]? = some sibling ∧ n.children[i + 1]? = some child ∧ child.range.start < sibling.range.stop

namespace Node

variable {root : Node} {fault : PlacementFault}

/-- While the children are looked at one by one, `previous` is the last of those that were found in place. -/
theorem foundAt_of_misplacedAmong? {n : Node} {seen rest : List Node} (hsplit : n.children = seen ++ rest)
    (h : n.misplacedAmong? seen.getLast? rest = some fault) : fault.FoundAt n := by
  induction rest generalizing seen with
  | nil => contradiction
  | cons c rest ih =>
    unfold misplacedAmong? at h
    by_cases he : n.encloses c = true
    · rw [if_neg (by simp [he])] at h
      by_cases hf : c.follows seen.getLast? = true
      · -- the child is in place, so it is the sibling to compare the next one with
        rw [if_neg (by simp [hf])] at h
        have hnext : n.children = (seen ++ [c]) ++ rest := by rw [hsplit, List.append_assoc, List.singleton_append]
        refine ih hnext ?_
        rw [List.getLast?_concat]
        exact h
      · rw [if_pos (by simp [hf])] at h
        obtain rfl := Option.some.inj h
        cases hlast : seen.getLast? with
        | none =>
          rw [hlast] at hf
          exact absurd rfl hf
        | some sibling =>
          rw [hlast] at hf
          obtain ⟨before, rfl⟩ := List.getLast?_eq_some_iff.mp hlast
          refine ⟨before.length, ?_, ?_, ?_⟩
          · rw [hsplit]
            simp
          · rw [hsplit]
            simp
          · exact not_le.mp (by simpa [follows] using hf)
    · rw [if_pos (by simp [he])] at h
      obtain rfl := Option.some.inj h
      refine ⟨rfl, by simp [hsplit], ?_⟩
      rw [encloses_iff, not_and_or, not_le, not_le] at he
      exact he

/-- **A reported fault is real.** Some node of the tree has the fault among its children. -/
theorem exists_foundAt (h : root.misplaced? = some fault) : ∃ t : Trail, t.From root ∧ fault.FoundAt t.node := by
  have hbelow : ∀ n : Node, ∀ t : Trail, t.From root → t.node = n → n.misplaced? = some fault →
      ∃ s : Trail, s.From root ∧ fault.FoundAt s.node := by
    intro n
    induction n using Node.induction with
    | step n ih =>
      rintro t ht rfl hfault
      rw [misplaced?_eq] at hfault
      rcases Option.or_eq_some_iff.mp hfault with hown | ⟨-, hsub⟩
      · have hsplit : t.node.children = [] ++ t.node.children := rfl
        exact ⟨t, ht, foundAt_of_misplacedAmong? hsplit hown⟩
      · obtain ⟨c, hc, hcfault⟩ := List.exists_of_findSome?_eq_some hsub
        have hmem : c ∈ t.node.children := List.mem_reverse.mp hc
        obtain ⟨i, hi⟩ := List.getElem?_of_mem hmem
        exact ih c hmem _ (.child ht hi) rfl hcfault
  exact hbelow root _ .root rfl h

/-- **The placement check is exact.** On every tree the worklist comes to its end, with the answer of the check; the
tree is accepted exactly when it is laminar; and a fault that is reported is there, between a child and its parent
or between a child and the sibling just before it. -/
theorem placement_check_exact (root : Node) :
    Sweep.run (root.count + 1) (.pending [root]) = .over root.misplaced? ∧
    (root.misplaced? = none ↔ root.Laminar) ∧
    ∀ fault, root.misplaced? = some fault → ∃ path t, root.at? path = some t ∧ fault.FoundAt t.node := by
  refine ⟨?_, misplaced?_eq_none_iff_laminar, ?_⟩
  · have hsize : ([root].map count).sum < root.count + 1 := by simp
    rw [Sweep.run_pending hsize, List.findSome?_cons]
    cases root.misplaced? <;> rfl
  · intro fault hfault
    obtain ⟨t, ht, hfound⟩ := exists_foundAt hfault
    exact ⟨t.path, t, Trail.at?_path ht, hfound⟩

end Node
end Caret
