import Caret.Proofs.Context
/-!
# `Caret.Proofs.Governing` — the node that governs at a cursor, and what stands around the cursor in it

Two loops decide what a context says. One climbs from the innermost node and passes over nodes of two sorts: those that
defer in any case, and property accesses, which defer unless the cursor is in them and in none of their children. The
other goes through the children of the node where the climb ends, remembers the last one that has ended and stops at the
first one that is still ahead, and passes silently over children that contain the cursor.

The climb is described by a cut of the trail (`Governs`), the scan by a cut of the children into three (`Around`). That
the scan meets the three parts in this order is the order of siblings: one that has ended comes before one that contains
the cursor, also where several siblings touch there or have no width.

## Contents
- **The climb.** `Governs` and `governs_governing`, from `exists_links_eq_climb` and `decides_climb`.
- **The scan.** `Around` and `Ordered.exists_around`, from `neighboursAmong_eq`.
- **Contexts.** `Context.locate_governing`.
-/

namespace Caret

/-! ## The climb -/

/-- A rule leaves the decision to another node if it defers, and so does the rule for property accesses if it is not
asked for the innermost node. -/
theorem Rule.decides_eq_false_iff {r : Rule} {innermost : Bool} :
    r.decides innermost = false ↔ r = .defer ∨ (r = .memberAccess ∧ innermost = false) := by
  cases r <;> simp [decides]

namespace Trail

variable {u : UnitNode} {g o t : Trail}

/-- **The governing node.** On the way from the innermost node to the root, all nodes below it leave the decision to
another one: their rule defers, or it is the rule for property accesses and the node is not the innermost one. Its own
rule does not defer, and it is a property access only as the innermost node. -/
structure Governs (g o : Trail) : Prop where
  below : ∃ lower upper, o.links = lower ++ g :: upper ∧
    ∀ t ∈ lower, t.node.kind.rule = .defer ∨ (t.node.kind.rule = .memberAccess ∧ t ≠ o)
  decides : g.node.kind.rule ≠ .defer
  access : g.node.kind.rule = .memberAccess → g = o

/-- The climb cuts the trail where it ends, and no node below the cut decides. Only the first of them is asked as the
innermost one. -/
theorem exists_links_eq_climb (t : Trail) (innermost : Bool) :
    ∃ lower upper, t.links = lower ++ t.climb innermost :: upper ∧
      ∀ s ∈ lower, (s = t ∧ s.node.kind.rule.decides innermost = false) ∨
        (s ≠ t ∧ s.node.kind.rule.decides false = false) := by
  induction t generalizing innermost with
  | root n => exact ⟨[], [], rfl, by simp⟩
  | child t i n ih =>
    by_cases hd : n.kind.rule.decides innermost = true
    · -- the innermost node decides, and nothing is below it
      refine ⟨[], t.links, ?_, by simp⟩
      rw [climb, if_pos hd]
      rfl
    · obtain ⟨lower, upper, hlinks, hlower⟩ := ih false
      refine ⟨.child t i n :: lower, upper, ?_, ?_⟩
      · rw [climb, if_neg hd, links, hlinks]
        rfl
      · intro s hs
        rcases List.mem_cons.mp hs with rfl | hs
        · exact Or.inl ⟨rfl, Bool.eq_false_iff.mpr hd⟩
        · -- further up a node is a proper ancestor, and it was not asked as the innermost one
          have hmem : s ∈ t.links := by
            rw [hlinks]
            exact List.mem_append_left _ hs
          have hne : s ≠ .child t i n := by
            rintro rfl
            exact child_not_mem_links t i n hmem
          rcases hlower s hs with ⟨-, hfalse⟩ | ⟨-, hfalse⟩
          · exact Or.inr ⟨hne, hfalse⟩
          · exact Or.inr ⟨hne, hfalse⟩

/-- The node where the climb ends decides. It is asked as the innermost one only if the climb does not leave it. -/
theorem decides_climb (ht : t.From (.unit u)) (innermost : Bool) :
    (t.climb innermost = t ∧ (t.climb innermost).node.kind.rule.decides innermost = true) ∨
      (t.climb innermost).node.kind.rule.decides false = true := by
  induction ht generalizing innermost with
  | root => exact Or.inr rfl
  | @child t i c _ _ ih =>
    by_cases hd : c.kind.rule.decides innermost = true
    · rw [climb, if_pos hd]
      exact Or.inl ⟨rfl, hd⟩
    · rw [climb, if_neg hd]
      rcases ih false with ⟨-, htrue⟩ | htrue
      · exact Or.inr htrue
      · exact Or.inr htrue

/-- **The climb ends at the governing node.** -/
theorem governs_governing (ho : o.From (.unit u)) : o.governing.Governs o := by
  obtain ⟨lower, upper, hlinks, hlower⟩ := exists_links_eq_climb o true
  refine ⟨⟨lower, upper, hlinks, ?_⟩, rule_climb_ne_defer ho true, ?_⟩
  · intro t ht
    rcases hlower t ht with ⟨-, hfalse⟩ | ⟨hne, hfalse⟩
    · rcases Rule.decides_eq_false_iff.mp hfalse with hdefer | ⟨-, hinner⟩
      · exact Or.inl hdefer
      · contradiction
    · rcases Rule.decides_eq_false_iff.mp hfalse with hdefer | ⟨haccess, -⟩
      · exact Or.inl hdefer
      · exact Or.inr ⟨haccess, hne⟩
  · intro haccess
    rcases decides_climb ho true with ⟨heq, -⟩ | htrue
    · exact heq
    · rw [show (o.climb true).node.kind.rule = .memberAccess from haccess] at htrue
      contradiction

end Trail

/-! ## The scan -/

namespace Node

variable {p : Position}

/-- **What stands around a position.** The children of a node are some that have ended before the position, then some
that contain it, then some that start after it. -/
structure Around (n : Node) (p : Position) (befores containing afters : List Node) : Prop where
  children : n.children = befores ++ containing ++ afters
  ended : ∀ c ∈ befores, c.range.stop < p
  contains : ∀ c ∈ containing, c.range.contains p = true
  ahead : ∀ c ∈ afters, p < c.range.start

/-- A sibling of a node that has ended has ended too, if it comes first. -/
theorem Precedes.stop_lt {c d : Node} (hcd : Precedes c d) (hd : d.range.stop < p) : c.range.stop < p :=
  lt_of_le_of_lt (le_trans hcd d.range.start_le_stop) hd

/-- A sibling of a node that is ahead is ahead too, if it comes later. -/
theorem Precedes.lt_start {c d : Node} (hcd : Precedes c d) (hc : p < c.range.start) : p < d.range.start :=
  lt_of_lt_of_le hc (le_trans c.range.start_le_stop hcd)

/-- **The scan meets three parts.** Over children in order it gives the last one of the first part, or else what it was
started with, and the first one of the third part. -/
theorem neighboursAmong_eq {cs : List Node} (h : cs.Pairwise Precedes) (p : Position) (prev : Option Node) :
    ∃ befores containing afters, cs = befores ++ containing ++ afters ∧
      (∀ c ∈ befores, c.range.stop < p) ∧ (∀ c ∈ containing, c.range.contains p = true) ∧
      (∀ c ∈ afters, p < c.range.start) ∧
      neighboursAmong p prev cs = (befores.getLast?.or prev, afters.head?) := by
  induction cs generalizing prev with
  | nil => exact ⟨[], [], [], rfl, by simp, by simp, by simp, rfl⟩
  | cons c cs ih =>
    obtain ⟨hc, hcs⟩ := List.pairwise_cons.mp h
    by_cases hb : c.range.isBefore p = true
    · obtain ⟨befores, containing, afters, heq, hended, hin, hahead, hscan⟩ := ih hcs (some c)
      refine ⟨c :: befores, containing, afters, by rw [heq]; rfl, ?_, hin, hahead, ?_⟩
      · exact List.forall_mem_cons.mpr ⟨Range.isBefore_iff.mp hb, hended⟩
      · rw [neighboursAmong, if_pos hb, hscan, List.getLast?_cons]
        cases befores.getLast? <;> rfl
    · by_cases ha : c.range.isAfter p = true
      · -- the loop stops here; what it does not look at is ahead as well
        refine ⟨[], [], c :: cs, rfl, by simp, by simp, ?_, ?_⟩
        · intro d hd
          rcases List.mem_cons.mp hd with rfl | hd
          · exact Range.isAfter_iff.mp ha
          · exact (hc d hd).lt_start (Range.isAfter_iff.mp ha)
        · rw [neighboursAmong, if_neg hb, if_pos ha]
          rfl
      · obtain ⟨befores, containing, afters, heq, hended, hin, hahead, hscan⟩ := ih hcs prev
        have hcin : c.range.contains p = true := by
          rcases c.range.contains_or_outside p with hcin | hbefore | hafter
          · exact hcin
          · exact absurd hbefore hb
          · exact absurd hafter ha
        -- behind a child that contains the position none has ended
        have hnil : befores = [] := by
          refine List.eq_nil_iff_forall_not_mem.mpr ?_
          intro d hd
          have hmem : d ∈ cs := by
            rw [heq]
            exact List.mem_append_left _ (List.mem_append_left _ hd)
          exact hb (Range.isBefore_iff.mpr ((hc d hmem).stop_lt (hended d hd)))
        subst hnil
        refine ⟨[], c :: containing, afters, by rw [heq]; rfl, by simp, ?_, hahead, ?_⟩
        · exact List.forall_mem_cons.mpr ⟨hcin, hin⟩
        · rw [neighboursAmong, if_neg hb, if_neg ha, hscan]

theorem Ordered.exists_around {n : Node} (h : n.Ordered) (p : Position) :
    ∃ befores containing afters, n.Around p befores containing afters ∧
      n.neighbours p = (befores.getLast?, afters.head?) := by
  obtain ⟨befores, containing, afters, heq, hended, hin, hahead, hscan⟩ := neighboursAmong_eq h.apart p none
  refine ⟨befores, containing, afters, ⟨heq, hended, hin, hahead⟩, ?_⟩
  rw [neighbours, hscan, Option.or_none]

/-- Where no child contains the position, the second part is empty. -/
theorem Around.containing_eq_nil {n : Node} {befores containing afters : List Node}
    (h : n.Around p befores containing afters) (hnone : ∀ c ∈ n.children, c.range.contains p = false) :
    containing = [] := by
  refine List.eq_nil_iff_forall_not_mem.mpr ?_
  intro c hc
  have hmem : c ∈ n.children := by
    rw [h.children]
    exact List.mem_append_left _ (List.mem_append_right _ hc)
  have hin := h.contains c hc
  rw [hnone c hmem] at hin
  contradiction

end Node

/-! ## Contexts -/

namespace Context

/-- **The governing node and its neighbours.** In a unit that is not empty and has no misplaced node, every position
inside its range has a context within the code. The node that governs there is cut out of the chain of the resolved
trail as `Trail.Governs` says. Its children are parted by the position into three, of which the context has the last one
of the first part and the first one of the third. Where the innermost node itself governs, the second part is empty, so
that the two are next to each other. -/
theorem locate_governing {u : UnitNode} {p : Position} (hcode : u.isEmpty = false)
    (hplaced : (Node.unit u).misplaced? = none) (hp : u.range.contains p = true) :
    ∃ origin entry befores containing afters,
      (Node.unit u).resolve p = some origin ∧
      locate u p = .ok
        { region := .within, governing := some entry, prev := befores.getLast?, next := afters.head?,
          rule := some entry.node.kind.rule, origin := some origin, position := some p } ∧
      entry.Governs origin ∧
      entry.node.Around p befores containing afters ∧
      (entry = origin → containing = []) := by
  obtain ⟨origin, ho⟩ : ∃ origin, (Node.unit u).resolve p = some origin := by
    refine Option.ne_none_iff_exists'.mp ?_
    intro hnone
    have hout : u.range.contains p = false := Trail.resolve_eq_none_iff.mp hnone
    rw [hp] at hout
    contradiction
  obtain ⟨hto, hend⟩ := Trail.resolve_eq_some_iff.mp ho
  have hgoverns := Trail.governs_governing hto.toFrom
  have hfrom : origin.governing.From (.unit u) := hto.toFrom.of_mem_links (Trail.climb_mem_links origin true)
  obtain ⟨befores, containing, afters, haround, hscan⟩ := (hfrom.ordered hplaced).exists_around p
  refine ⟨origin, origin.governing, befores, containing, afters, ho, ?_, hgoverns, haround, ?_⟩
  · rw [locate_eq_ok, ofPosition, if_neg (by simp [hcode]), ho]
    show Except.ok (within origin.governing origin p) = _
    rw [within, hscan]
  · intro heq
    rw [heq] at haround
    exact haround.containing_eq_nil (Node.childAt?_eq_none_iff.mp hend)

/-- A statement that has ended, one whose callee ends at column 9, one without width at that column, and one ahead. -/
def seamStatements : UnitNode where
  range := ⟨⟨6, 0⟩, ⟨6, 20⟩, by decide⟩
  statics := ⟨⟨⟨6, 0⟩, ⟨6, 0⟩, by decide⟩, []⟩
  functions := ⟨⟨⟨6, 0⟩, ⟨6, 0⟩, by decide⟩, []⟩
  statements := ⟨⟨⟨6, 0⟩, ⟨6, 20⟩, by decide⟩,
    [.plain .expressionStatement ⟨⟨⟨6, 0⟩, ⟨6, 4⟩, by decide⟩, []⟩,
     .plain .expressionStatement ⟨⟨⟨6, 5⟩, ⟨6, 9⟩, by decide⟩,
       [.access ⟨⟨⟨6, 5⟩, ⟨6, 9⟩, by decide⟩,
         .name ⟨⟨⟨6, 5⟩, ⟨6, 9⟩, by decide⟩, "list", none, none⟩, "", none, none⟩]⟩,
     .plain .expressionStatement ⟨⟨⟨6, 9⟩, ⟨6, 9⟩, by decide⟩, []⟩,
     .plain .returnStatement ⟨⟨⟨6, 10⟩, ⟨6, 20⟩, by decide⟩, []⟩]⟩

/-- At the end of the callee three nodes leave the decision to the block, two of whose children contain the cursor. -/
theorem locate_governing_seam :
    seamStatements.isEmpty = false ∧ (Node.unit seamStatements).misplaced? = none ∧
    seamStatements.range.contains ⟨6, 9⟩ = true ∧
    ∃ (origin entry : Trail) (befores containing afters : List Node),
      origin.nodes.map (·.kind.rule) = [.defer, .memberAccess, .defer, .statements, .unit] ∧
      locate seamStatements ⟨6, 9⟩ = .ok
        { region := .within, governing := some entry, prev := befores.getLast?, next := afters.head?,
          rule := some .statements, origin := some origin, position := some ⟨6, 9⟩ } ∧
      entry.Governs origin ∧
      entry.node.Around ⟨6, 9⟩ befores containing afters := by
  refine ⟨rfl, rfl, rfl, ?_⟩
  obtain ⟨origin, entry, befores, containing, afters, ho, hlocate, hgoverns, haround, -⟩ :=
    locate_governing (u := seamStatements) (p := ⟨6, 9⟩) rfl rfl rfl
  have hrules : origin.nodes.map (·.kind.rule) = [.defer, .memberAccess, .defer, .statements, .unit] := by
    obtain rfl := Option.some.inj ho
    rfl
  have hrule : entry.node.kind.rule = .statements := by
    have hsame := congrArg (Except.map Context.rule) hlocate
    exact (Option.some.inj (Except.ok.inj hsame)).symm
  rw [hrule] at hlocate
  exact ⟨origin, entry, befores, containing, afters, hrules, hlocate, hgoverns, haround⟩

end Context
end Caret
