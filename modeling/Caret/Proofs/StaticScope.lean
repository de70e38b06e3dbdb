import Caret.Proofs.Governing
import Caret.Proofs.Laminar
import Caret.Proofs.Likeness
import Caret.Proofs.Visibility
/-!
# `Caret.Proofs.StaticScope` — the static section offers what stands above the cursor

Two parts of a completion look at the static section, each in its own way. What may be offered depends on the
declaration that holds the cursor, and this one is looked for among the ancestors of the innermost node, by
comparing trails. The visible symbols are those of the declarations that have ended, whatever holds the cursor. Both
speak of one place in the list: the declarations that have ended are a prefix of it, and the declaration that the
descent goes through is the first one after that prefix. Where two declarations touch at the cursor, or one has no
width, this rests on the descent taking the first child that contains the cursor.

## Contents
- **The prefix that has ended.** `exists_priorTo_eq_take`, and `Ordered.ended_iff_lt` beside the child that holds the
  cursor.
- **The item.** `Context.sectionItem?_within` — it is the child of the governing node that the descent goes on to.
- **Offers in the section.** `Offers.inStaticSection_of_item` and `Offers.inStaticSection_of_gap`.
- **Declarations.** `Ordered.exists_declared_eq_take` — the symbols of the section are those of a prefix.
- **Scoping.** `Script.StaticScope` and `Script.static_section_scope`.
-/

namespace Caret

variable {p : Position}

/-! ## The prefix that has ended -/

/-- Of siblings in order, those that have ended before a position come first. -/
theorem exists_priorTo_eq_take {ns : List Node} (h : ns.Pairwise Node.Precedes) (p : Position) :
    ∃ k, priorTo ns p = ns.take k ∧ ∀ (j : Nat) (n : Node), ns[j]? = some n → (n.range.stop < p ↔ j < k) := by
  obtain ⟨befores, containing, afters, hsplit, hended, hin, hahead, -⟩ := Node.neighboursAmong_eq h p none
  rw [List.append_assoc] at hsplit
  have hrest : ∀ n ∈ containing ++ afters, ¬ n.range.stop < p := by
    intro n hn hlt
    rcases List.mem_append.mp hn with hn | hn
    · exact not_lt.mpr (Range.contains_iff.mp (hin n hn)).2 hlt
    · exact Range.not_lt_start_of_stop_lt hlt (hahead n hn)
  refine ⟨befores.length, ?_, ?_⟩
  · calc priorTo ns p
        = priorTo befores p ++ priorTo (containing ++ afters) p := by rw [hsplit]; exact List.filter_append ..
      _ = befores := by rw [priorTo_eq_self hended, priorTo_eq_nil hrest, List.append_nil]
      _ = ns.take befores.length := by rw [hsplit, List.take_left]
  · intro j n hj
    rw [hsplit] at hj
    by_cases hlt : j < befores.length
    · rw [List.getElem?_append_left hlt] at hj
      exact iff_of_true (hended n (List.mem_of_getElem? hj)) hlt
    · rw [List.getElem?_append_right (Nat.not_lt.mp hlt)] at hj
      exact iff_of_false (hrest n (List.mem_of_getElem? hj)) hlt

/-- **The children before the one that holds the position** are those that have ended. One that only touches the
position has not ended, and it would have been taken first. -/
theorem Node.Ordered.ended_iff_lt {n c d : Node} {i j : Nat} (h : n.Ordered) (hc : n.childAt? p = some (c, i))
    (hd : n.children[j]? = some d) : d.range.stop < p ↔ j < i := by
  obtain ⟨hi, hin, hfirst⟩ := Node.childAt?_eq_some_iff.mp hc
  obtain ⟨hstart, hstop⟩ := Range.contains_iff.mp hin
  constructor
  · intro hlt
    exact h.lt_of_stop_lt hd hi hlt hstop
  · intro hlt
    have hdc : d.range.stop ≤ c.range.start := h.precedes_of_lt hd hi hlt
    have hdp : d.range.start ≤ p :=
      le_trans d.range.start_le_stop (le_trans hdc hstart)
    apply not_le.mp
    intro hle
    have hout := hfirst j d hlt hd
    rw [Range.contains_iff.mpr ⟨hdp, hle⟩] at hout
    contradiction

/-- A prefix of the children that holds those that have ended reaches up to the child that holds the position. -/
theorem Node.Ordered.eq_of_ended {n c : Node} {i k : Nat} (h : n.Ordered) (hc : n.childAt? p = some (c, i))
    (hk : ∀ (j : Nat) (d : Node), n.children[j]? = some d → (d.range.stop < p ↔ j < k)) : k = i := by
  have hi := Node.childAt?_index hc
  have hle : ¬ i < k := by
    intro hlt
    exact Nat.lt_irrefl i ((h.ended_iff_lt hc hi).mp ((hk i c hi).mpr hlt))
  by_cases hlt : k < i
  · obtain ⟨hlength, -⟩ := List.getElem?_eq_some_iff.mp hi
    have hd := List.getElem?_eq_getElem (Nat.lt_trans hlt hlength)
    exact absurd ((hk k _ hd).mp ((h.ended_iff_lt hc hd).mpr hlt)) (Nat.lt_irrefl k)
  · omega

/-! ## The item that holds the cursor -/

/-- The link whose parent is compared with a trail of the same tree is a child of that very trail. -/
theorem Trail.From.eq_child_of_same {root : Node} {s g : Trail} (hs : s.From root) (hg : g.From root)
    (h : Trail.same s.parent? (some g) = true) : ∃ i n, s = .child g i n := by
  cases hs with
  | root => contradiction
  | @child t i n ht hn =>
    have hpath : t.path = g.path := beq_iff_eq.mp h
    obtain rfl := ht.eq_of_path_eq hg hpath
    exact ⟨i, n, rfl⟩

/-- **The item of the governing node.** However deep the innermost node is, comparing the parents of its ancestors with
the governing node finds the child that the descent went on to from there. -/
theorem Context.sectionItem?_within {root : Node} {g o : Trail} (ho : root.resolve p = some o) (hg : g ∈ o.links) :
    (within g o p).sectionItem? = (g.node.childAt? p).map Prod.fst := by
  have hgto := (Trail.mem_links_iff_towards ho).mp hg
  -- every link that the search accepts is the step of the descent
  have hstep : ∀ s ∈ o.links, Trail.same s.parent? (some g) = true → ∃ i, g.node.childAt? p = some (s.node, i) := by
    intro s hs hsame
    have hsto := (Trail.mem_links_iff_towards ho).mp hs
    obtain ⟨i, n, rfl⟩ := hsto.toFrom.eq_child_of_same hgto.toFrom hsame
    exact ⟨i, hsto.childAt?_eq⟩
  show (o.links.find? fun s => Trail.same s.parent? (some g)).map Trail.node = _
  cases hfind : o.links.find? fun s => Trail.same s.parent? (some g) with
  | some s =>
    have hsame := List.find?_some hfind
    obtain ⟨i, hi⟩ := hstep s (List.mem_of_find?_eq_some hfind) hsame
    rw [hi]
    rfl
  | none =>
    cases hc : g.node.childAt? p with
    | none => rfl
    | some step =>
      obtain ⟨n, i⟩ := step
      have hmem : Trail.child g i n ∈ o.links := (Trail.mem_links_iff_towards ho).mpr (.child hgto hc)
      exact absurd (beq_self_eq_true g.path) (List.find?_eq_none.mp hfind _ hmem)

/-! ## Offers in the section -/

namespace Offers

variable {root : Node} {g o : Trail}

/-- In a declaration only values may be offered, and only after its name. -/
theorem inStaticSection_of_item (ho : root.resolve p = some o) (hg : g ∈ o.links) {j : Nat}
    {d : Declaration NameRef Node} (hd : g.node.childAt? p = some (.declaration d, j)) (hasFunctions : Bool) :
    inStaticSection (.within g o p) hasFunctions =
      { context := .within g o p, symbols := decide (d.name.range.stop < p) } := by
  unfold inStaticSection
  rw [Context.sectionItem?_within ho hg, hd]
  rfl

/-- Between the declarations a new one may be started, and a function if there is none yet. -/
theorem inStaticSection_of_gap (ho : root.resolve p = some o) (hg : g ∈ o.links) (hgap : g.node.childAt? p = none)
    (hasFunctions : Bool) :
    inStaticSection (.within g o p) hasFunctions =
      { context := .within g o p, static := true, void := !hasFunctions, types := !hasFunctions } := by
  unfold inStaticSection
  rw [Context.sectionItem?_within ho hg, hgap]
  rfl

/-- Where only values may be offered, the suggestions are the visible symbols. -/
theorem suggestions_of_symbols (s : Script) (c : Context) (b : Bool) (p : Position) :
    suggestions { context := c, symbols := b } s p = if b then (s.visible c p).map Suggestion.ofSymbol else [] := by
  cases b with
  | false => rfl
  | true => exact List.append_nil _

end Offers

/-! ## Declarations -/

/-- The symbols of some static declarations, in order. -/
def symbolsOf (ds : List (Declaration NameRef Node)) : List Symbol := ds.filterMap fun d => d.name.symbol

theorem declared_map_declaration (ds : List (Declaration NameRef Node)) :
    declared (ds.map .declaration) = symbolsOf ds := by
  unfold declared symbolsOf
  rw [List.filterMap_map]
  rfl

namespace Node

variable {g : Group (Declaration NameRef Node)}

theorem getElem?_children_statics {j : Nat} {n : Node} :
    (Node.statics g).children[j]? = some n ↔ ∃ d, g.items[j]? = some d ∧ .declaration d = n := by
  show (g.items.map Node.declaration)[j]? = some n ↔ _
  rw [List.getElem?_map, Option.map_eq_some_iff]

theorem childAt?_statics_eq_none_iff :
    (Node.statics g).childAt? p = none ↔ ∀ d ∈ g.items, d.range.contains p = false :=
  childAt?_eq_none_iff.trans List.forall_mem_map

/-- The symbols that a static section contributes at a position are those of a prefix of its declarations. -/
theorem Ordered.exists_declared_eq_take (h : (Node.statics g).Ordered) (p : Position) :
    ∃ k, declared (priorTo (g.items.map .declaration) p) = symbolsOf (g.items.take k) ∧
      ∀ (j : Nat) (n : Node), (Node.statics g).children[j]? = some n → (n.range.stop < p ↔ j < k) := by
  obtain ⟨k, htake, hended⟩ := exists_priorTo_eq_take h.apart p
  refine ⟨k, ?_, hended⟩
  calc declared (priorTo (g.items.map .declaration) p)
      = declared ((g.items.map .declaration).take k) := congrArg declared htake
    _ = declared ((g.items.take k).map .declaration) := by rw [List.map_take]
    _ = symbolsOf (g.items.take k) := declared_map_declaration _

end Node

/-! ## Scoping -/

/-- Where a static section directly below the unit governs, it is the one of the unit, and the innermost node is in
it. -/
theorem Context.ofPosition_of_static_section {u : UnitNode} {i : Nat} {g : Group (Declaration NameRef Node)}
    (h : (ofPosition u p).governing = some (.child (.root (.unit u)) i (.statics g))) :
    g = u.statics ∧ ∃ origin, (Node.unit u).resolve p = some origin ∧
      Trail.child (.root (.unit u)) i (.statics g) ∈ origin.links ∧
      ofPosition u p = within (.child (.root (.unit u)) i (.statics g)) origin p := by
  obtain ⟨origin, ho, hgov, hwithin⟩ := ofPosition_eq_within h
  have hmem : Trail.child (.root (.unit u)) i (.statics g) ∈ origin.links := by
    rw [← hgov]
    exact Trail.climb_mem_links origin true
  refine ⟨?_, origin, ho, hmem, hwithin⟩
  have hchild := ((Trail.mem_links_iff_towards ho).mp hmem).toFrom.child_mem
  rcases Node.mem_children_unit.mp (List.mem_of_getElem? hchild) with ⟨heq, -⟩ | ⟨heq, -⟩ | ⟨heq, -⟩
  · exact Node.statics.inj heq
  · contradiction
  · contradiction

namespace Script

/-- **Scoping in the static section** at the trail `entry`, for a cursor whose innermost node is at `origin`. The first
`k` declarations are visible. -/
structure StaticScope (s : Script) (c : Context) (p : Position) (entry origin : Trail) (o : Offers) (k : Nat) :
    Prop where
  /-- Beside the constants, the symbols are those of the first `k` declarations. -/
  visible : s.visible c p = s.constants ++ symbolsOf (s.unit.statics.items.take k)
  /-- The first `k` declarations are those that end before the cursor. -/
  ended : ∀ (j : Nat) (d : Declaration NameRef Node),
    s.unit.statics.items[j]? = some d → (d.range.stop < p ↔ j < k)
  /-- In a declaration the prefix is what precedes it, and what is offered after its name is what is visible. -/
  inside : ∀ (j : Nat) (d : Declaration NameRef Node), Trail.child entry j (.declaration d) ∈ origin.links →
    s.unit.statics.items[j]? = some d ∧ k = j ∧
    o = { context := c, symbols := decide (d.name.range.stop < p) } ∧
    o.suggestions s p =
      if d.name.range.stop < p then
        (s.constants ++ symbolsOf (s.unit.statics.items.take j)).map Suggestion.ofSymbol
      else []
  /-- Where a declaration contains the cursor, the innermost node was reached through one. -/
  reached : (∃ d ∈ s.unit.statics.items, d.range.contains p = true) →
    ∃ (j : Nat) (d : Declaration NameRef Node), Trail.child entry j (.declaration d) ∈ origin.links
  /-- Between the declarations `static` is offered, and `void` and the types if the unit has no function. -/
  between : (∀ d ∈ s.unit.statics.items, d.range.contains p = false) →
    o = { context := c, static := true, void := s.unit.functions.items.isEmpty,
          types := s.unit.functions.items.isEmpty }

/-- **The static section offers what stands above the cursor.** This holds in every unit without a misplaced node, at
every position that its static section governs. -/
theorem static_section_scope {s : Script} {p : Position} {c : Context} {i : Nat}
    {g : Group (Declaration NameRef Node)} (hs : (Node.unit s.unit).misplaced? = none)
    (hc : Context.locate s.unit p = .ok c)
    (hg : c.governing = some (.child (.root (.unit s.unit)) i (.statics g))) :
    ∃ origin o k, (Node.unit s.unit).resolve p = some origin ∧ Offers.ofPosition s.unit p = .ok o ∧
      s.StaticScope c p (.child (.root (.unit s.unit)) i (.statics g)) origin o k := by
  rw [Context.locate_eq_ok] at hc
  obtain rfl := Except.ok.inj hc
  obtain ⟨rfl, origin, ho, hmem, hwithin⟩ := Context.ofPosition_of_static_section hg
  have hto := (Trail.mem_links_iff_towards ho).mp hmem
  have hord := hto.toFrom.ordered hs
  obtain ⟨k, hprefix, hended⟩ := Node.Ordered.exists_declared_eq_take hord p
  have hvisible : s.visible (.ofPosition s.unit p) p = s.constants ++ symbolsOf (s.unit.statics.items.take k) := by
    rw [hwithin, visible_within]
    exact congrArg (s.constants ++ ·) hprefix
  have hoffers : Offers.ofPosition s.unit p =
      .ok (Offers.inStaticSection (.ofPosition s.unit p) !s.unit.functions.items.isEmpty) := by
    rw [Offers.ofPosition_eq, hwithin, Offers.ofContext_within]
    rfl
  refine ⟨origin, _, k, ho, hoffers, hvisible, ?_, ?_, ?_, ?_⟩
  · intro j d hd
    exact hended j (.declaration d) (Node.getElem?_children_statics.mpr ⟨d, hd, rfl⟩)
  · -- a link below the section is the step that the descent takes there, and the prefix ends where it steps
    intro j d hd
    have hstep := ((Trail.mem_links_iff_towards ho).mp hd).childAt?_eq
    obtain ⟨e, he, hed⟩ := Node.getElem?_children_statics.mp (Node.childAt?_index hstep)
    obtain rfl := Node.declaration.inj hed
    obtain rfl : k = j := hord.eq_of_ended hstep hended
    have hitem := Offers.inStaticSection_of_item ho hmem hstep !s.unit.functions.items.isEmpty
    rw [← hwithin] at hitem
    refine ⟨he, rfl, hitem, ?_⟩
    rw [hitem, Offers.suggestions_of_symbols, hvisible]
    simp only [decide_eq_true_eq]
  · -- a declaration that holds the position makes the descent go on
    rintro ⟨d, hd, hin⟩
    cases hstep : (Node.statics s.unit.statics).childAt? p with
    | none =>
      rw [Node.childAt?_statics_eq_none_iff.mp hstep d hd] at hin
      contradiction
    | some step =>
      obtain ⟨n, j⟩ := step
      obtain ⟨e, -, rfl⟩ := Node.getElem?_children_statics.mp (Node.childAt?_index hstep)
      exact ⟨j, e, (Trail.mem_links_iff_towards ho).mpr (.child hto hstep)⟩
  · -- between the declarations the descent ends at the section
    intro hout
    have hgap := Node.childAt?_statics_eq_none_iff.mpr hout
    have hitem := Offers.inStaticSection_of_gap ho hmem hgap !s.unit.functions.items.isEmpty
    rwa [← hwithin, Bool.not_not] at hitem

/-- Three static variables that touch, the second one with a value, and a function. -/
def touchingStatics : UnitNode where
  range := ⟨⟨14, 0⟩, ⟨15, 8⟩, by decide⟩
  statics := ⟨⟨⟨14, 0⟩, ⟨14, 18⟩, by decide⟩,
    [⟨⟨⟨14, 0⟩, ⟨14, 6⟩, by decide⟩, none,
       ⟨⟨⟨14, 0⟩, ⟨14, 5⟩, by decide⟩, "a", some (.value .staticVariable "a" none), none⟩, none⟩,
     ⟨⟨⟨14, 6⟩, ⟨14, 12⟩, by decide⟩, none,
       ⟨⟨⟨14, 6⟩, ⟨14, 7⟩, by decide⟩, "b", some (.value .staticVariable "b" none), none⟩,
       some (.name ⟨⟨⟨14, 8⟩, ⟨14, 12⟩, by decide⟩, "a", none, none⟩)⟩,
     ⟨⟨⟨14, 12⟩, ⟨14, 18⟩, by decide⟩, none,
       ⟨⟨⟨14, 12⟩, ⟨14, 18⟩, by decide⟩, "c", some (.value .staticVariable "c" none), none⟩, none⟩]⟩
  functions := ⟨⟨⟨15, 0⟩, ⟨15, 8⟩, by decide⟩,
    [{ range := ⟨⟨15, 0⟩, ⟨15, 8⟩, by decide⟩
       returnType := .typeName ⟨⟨15, 0⟩, ⟨15, 2⟩, by decide⟩ (.predefined .int)
       name := ⟨⟨⟨15, 3⟩, ⟨15, 4⟩, by decide⟩, "f", none, none⟩
       parameters := ⟨⟨⟨15, 4⟩, ⟨15, 6⟩, by decide⟩, []⟩
       body := ⟨⟨⟨15, 6⟩, ⟨15, 8⟩, by decide⟩, []⟩ }]⟩
  statements := ⟨⟨⟨15, 8⟩, ⟨15, 8⟩, by decide⟩, []⟩

/-- Where the second and the third variable touch, the cursor is in the value of the second, and the first is
visible. -/
theorem static_section_scope_touching :
    (Node.unit touchingStatics).misplaced? = none ∧
    ∃ c origin o, Context.locate touchingStatics ⟨14, 12⟩ = .ok c ∧
      c.governing = some (.child (.root (.unit touchingStatics)) 0 (.statics touchingStatics.statics)) ∧
      (Node.unit touchingStatics).resolve ⟨14, 12⟩ = some origin ∧
      Offers.ofPosition touchingStatics ⟨14, 12⟩ = .ok o ∧
      (Script.visible ⟨touchingStatics, []⟩ c ⟨14, 12⟩).map Symbol.name = ["a"] ∧
      Script.StaticScope ⟨touchingStatics, []⟩ c ⟨14, 12⟩
        (.child (.root (.unit touchingStatics)) 0 (.statics touchingStatics.statics)) origin o 1 := by
  refine ⟨rfl, ?_⟩
  obtain ⟨origin, o, k, ho, hoffers, hscope⟩ :=
    static_section_scope (s := ⟨touchingStatics, []⟩) (p := ⟨14, 12⟩) (i := 0) rfl rfl rfl
  have hnot : ¬ 1 < k := (hscope.ended 1 _ rfl).not.mp (by decide)
  have hfirst : 0 < k := (hscope.ended 0 _ rfl).mp (by decide)
  obtain rfl : k = 1 := by omega
  exact ⟨_, origin, o, rfl, rfl, ho, hoffers, rfl, hscope⟩

end Script
end Caret
