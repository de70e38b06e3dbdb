import Caret.Completion.Scope
import Caret.Proofs.Trail
/-!
# `Caret.Proofs.Scoping` — which local symbols a position sees, by positions alone

The local symbols at a position are collected along the trail to its innermost node. This module says, for a tree
without a misplaced node, which nodes of the whole tree contribute, looking only at where they stand.

A **site** is a node that contributes: a declaration among the statements of a block or in the head of a counting loop,
a function with its parameters, a loop over items with its variable. The **scope** of a site is the node it is in scope
throughout: the block or loop around a declaration, a function or a loop over items itself. `Trail.sites` lists the
sites along a trail, and the local symbols are what they give (`locals_eq_flatMap_sites`).

## Contents
- **Sites.** `Node.declaring`, `Node.bodyRange?`, `Node.given`; `Trail.ownSites`, `Trail.sites`, `Trail.scope`.
- **Membership.** `mem_ownSites`, and its consequences for resolved positions: `child_mem_sites_iff` for declarations,
  `mem_sites_of_body` and `bodyRange?_contains_of_mem_sites` for functions and loops over items.
- **Order.** `ownSites_pairwise` within one scope, `precedes_of_ancestor` from a scope to one inside it.
- **Lexical scope.** `LexicalScope` gathers it; `locals_lexical` holds it of the local symbols of a unit.
-/

namespace Caret

/-! ## Sites -/

namespace Node

/-- The node is a declaration of a variable. -/
def isDeclaration : Node → Bool
  | .declaration _ => true
  | _ => false

/-- The children whose declarations are in scope in the rest of the node: the statements of a block, the first part
in the head of a counting loop. -/
def declaring : Node → List Node
  | .block g => g.items
  | .forLoop l => l.init.toList
  | _ => []

/-- The range of the body that a node gives symbols to. -/
def bodyRange? : Node → Option Range
  | .function f => some f.body.range
  | .foreachLoop l => some l.body.range
  | _ => none

/-- The symbols that a node gives to its scope: that of a declaration, those of all parameters of a function, the
variable of a loop over items. -/
def given : Node → List Symbol
  | .declaration d => d.name.symbol.toList
  | .function f => f.parameters.items.filterMap fun q => q.name.symbol
  | .foreachLoop l => l.name.symbol.toList
  | _ => []

end Node

namespace Trail

/-- The sites whose scope is the node at the end of the trail: the declarations in it that have ended at the position,
and the node itself if the position is in its body. -/
def ownSites (p : Position) (s : Trail) : List Trail :=
  (s.node.declaring.zipIdx.filter fun c => c.1.isDeclaration && c.1.range.isBefore p).map (fun c => .child s c.2 c.1)
    ++ if s.node.bodyRange?.any (·.contains p) then [s] else []

/-- The sites along a trail, those of outer scopes first. -/
def sites (t : Trail) (p : Position) : List Trail := t.links.reverse.flatMap (ownSites p)

/-- The trail to the node that a site is in scope throughout. -/
def scope : Trail → Trail
  | .child t _ (.declaration _) => t
  | t => t

end Trail

/-! ## Local symbols are what the sites give -/

/-- Declarations give their symbols in the order of the statements. -/
theorem declared_cons (n : Node) (ns : List Node) :
    declared (n :: ns) = (if n.isDeclaration then n.given else []) ++ declared ns := by
  cases n with
  | declaration d =>
    cases hs : d.name.symbol with
    | none => simp [declared, Node.isDeclaration, Node.given, hs]
    | some s => simp [declared, Node.isDeclaration, Node.given, hs]
  | _ => simp [declared, Node.isDeclaration]

/-- Of the statements of a block, the declarations that have ended count. -/
theorem declared_priorTo (ns : List Node) (p : Position) :
    declared (priorTo ns p) = (ns.filter fun n => n.isDeclaration && n.range.isBefore p).flatMap Node.given := by
  induction ns with
  | nil => rfl
  | cons n ns ih =>
    unfold priorTo at ih ⊢
    rw [List.filter_cons, List.filter_cons]
    cases hb : n.range.isBefore p with
    | false => simpa using ih
    | true =>
      rw [if_pos rfl, declared_cons, ih]
      cases hd : n.isDeclaration with
      | false => simp
      | true => simp

/-- A node contributes the declarations in it that have ended, and what it gives to its body. -/
theorem Node.locals_eq (n : Node) (p : Position) :
    n.locals p = declared (priorTo n.declaring p) ++ if n.bodyRange?.any (·.contains p) then n.given else [] := by
  cases n with
  | block g => simp [Node.locals, Node.declaring, Node.bodyRange?]
  | function f => rfl
  | foreachLoop l => rfl
  | forLoop l =>
    cases hi : l.init with
    | none => simp [Node.locals, Node.declaring, Node.bodyRange?, hi, declared, priorTo]
    | some n =>
      cases hb : n.range.isBefore p with
      | false => simp [Node.locals, Node.declaring, Node.bodyRange?, hi, hb, declared, priorTo]
      | true => simp [Node.locals, Node.declaring, Node.bodyRange?, hi, hb, priorTo]
  | _ => rfl

namespace Trail

/-- What a node contributes is given by its own sites. -/
theorem locals_node_eq (s : Trail) (p : Position) :
    s.node.locals p = (s.ownSites p).flatMap fun t => t.node.given := by
  have hfst : (s.node.declaring.zipIdx.filter fun c => c.1.isDeclaration && c.1.range.isBefore p).map Prod.fst =
      s.node.declaring.filter fun n => n.isDeclaration && n.range.isBefore p := by
    rw [← List.zipIdx_map_fst 0 s.node.declaring, List.filter_map, List.zipIdx_map_fst]
    rfl
  rw [Node.locals_eq, declared_priorTo, ← hfst, ownSites, List.flatMap_append, List.flatMap_map, List.flatMap_map]
  congr 1
  split <;> simp

/-- **The local symbols along a trail** are what its sites give, site after site. -/
theorem locals_eq_flatMap_sites (t : Trail) (p : Position) :
    t.locals p = (t.sites p).flatMap fun s => s.node.given := by
  unfold locals sites nodes
  rw [← List.map_reverse, List.map_map, ← List.flatMap_def, List.flatMap_assoc]
  congr 1
  funext s
  exact locals_node_eq s p

/-! ## Which nodes are sites -/

end Trail

namespace Node

theorem isDeclaration_iff {n : Node} : n.isDeclaration = true ↔ ∃ d, n = .declaration d := by
  cases n <;> simp [isDeclaration]

theorem isDeclaration_of_bodyRange? {n : Node} {r : Range} (h : n.bodyRange? = some r) : n.isDeclaration = false := by
  cases n <;> simp [bodyRange?] at h <;> rfl

/-- The children that declare come first among the children. -/
theorem children_of_declaring {n c : Node} {i : Nat} (h : n.declaring[i]? = some c) : n.children[i]? = some c := by
  cases n with
  | block g => exact h
  | forLoop l =>
    obtain ⟨hi, -⟩ := List.getElem?_eq_some_iff.mp h
    exact (List.getElem?_append_left hi).trans h
  | _ => simp [declaring] at h

/-- A node with a body has it as its fourth child. -/
theorem child_of_bodyRange? {n : Node} {r : Range} (h : n.bodyRange? = some r) :
    ∃ b, n.children[3]? = some b ∧ b.range = r := by
  cases n with
  | function f => exact ⟨.block f.body, rfl, Option.some.inj h⟩
  | foreachLoop l => exact ⟨l.body, rfl, Option.some.inj h⟩
  | _ => simp [bodyRange?] at h

end Node

namespace Trail

variable {root : Node} {p : Position} {o s t : Trail}

theorem scope_eq_self (h : t.node.isDeclaration = false) : t.scope = t := by
  cases t with
  | root n => rfl
  | child t i n => cases n <;> first | rfl | simp [node, Node.isDeclaration] at h

/-- The sites of one scope: the declarations in it that have ended, and the scope itself where its body contains the
position. -/
theorem mem_ownSites :
    t ∈ s.ownSites p ↔
      (∃ i d, t = .child s i (.declaration d) ∧ s.node.declaring[i]? = some (.declaration d) ∧ d.range.stop < p) ∨
      (t = s ∧ ∃ r, s.node.bodyRange? = some r ∧ r.contains p = true) := by
  unfold ownSites
  rw [List.mem_append, List.mem_map]
  constructor
  · rintro (⟨⟨c, i⟩, hc, rfl⟩ | ht)
    · obtain ⟨hmem, hcond⟩ := List.mem_filter.mp hc
      obtain ⟨hdecl, hbefore⟩ := Bool.and_eq_true_iff.mp hcond
      obtain ⟨d, rfl⟩ := Node.isDeclaration_iff.mp hdecl
      exact Or.inl ⟨i, d, rfl, List.mk_mem_zipIdx_iff_getElem?.mp hmem, Range.isBefore_iff.mp hbefore⟩
    · split at ht
      · obtain ⟨r, hr, hp⟩ := (Option.any_eq_true _ _).mp ‹_›
        exact Or.inr ⟨List.mem_singleton.mp ht, r, hr, hp⟩
      · contradiction
  · rintro (⟨i, d, rfl, hd, hstop⟩ | ⟨rfl, r, hr, hp⟩)
    · refine Or.inl ⟨(.declaration d, i), List.mem_filter.mpr ⟨List.mk_mem_zipIdx_iff_getElem?.mpr hd, ?_⟩, rfl⟩
      exact Bool.and_eq_true_iff.mpr ⟨rfl, Range.isBefore_iff.mpr hstop⟩
    · refine Or.inr ?_
      rw [if_pos ((Option.any_eq_true _ _).mpr ⟨r, hr, hp⟩)]
      exact List.mem_singleton.mpr rfl

theorem scope_of_mem_ownSites (h : t ∈ s.ownSites p) : t.scope = s := by
  rcases mem_ownSites.mp h with ⟨i, d, rfl, -, -⟩ | ⟨rfl, r, hr, -⟩
  · rfl
  · exact scope_eq_self (Node.isDeclaration_of_bodyRange? hr)

/-- A site is on the trail with its scope, and it is one of the sites of that scope. -/
theorem mem_sites : t ∈ o.sites p ↔ t.scope ∈ o.links ∧ t ∈ t.scope.ownSites p := by
  unfold sites
  rw [List.mem_flatMap]
  constructor
  · rintro ⟨s, hs, ht⟩
    rw [scope_of_mem_ownSites ht]
    exact ⟨List.mem_reverse.mp hs, ht⟩
  · rintro ⟨hs, ht⟩
    exact ⟨t.scope, List.mem_reverse.mpr hs, ht⟩

/-- **Declarations.** A declaration contributes exactly when it stands among the statements of a block or first in the
head of a counting loop, has ended at the position, and the block or loop has not. -/
theorem child_mem_sites_iff {i : Nat} {d : Declaration NameRef Node} (hroot : root.misplaced? = none)
    (ho : root.resolve p = some o) (hs : s.From root) (hd : s.node.children[i]? = some (.declaration d)) :
    Trail.child s i (.declaration d) ∈ o.sites p ↔
      s.node.declaring[i]? = some (.declaration d) ∧ d.range.stop < p ∧ p ≤ s.node.range.stop := by
  have hscope : (Trail.child s i (.declaration d)).scope = s := rfl
  rw [mem_sites, hscope, mem_links_iff_towards ho, mem_ownSites]
  constructor
  · rintro ⟨hto, hsite | ⟨hself, -⟩⟩
    · obtain ⟨j, e, heq, he, hstop⟩ := hsite
      obtain ⟨-, rfl, hde⟩ := Trail.child.inj heq
      obtain rfl := Node.declaration.inj hde
      exact ⟨he, hstop, (Range.contains_iff.mp hto.contains).2⟩
    · exact absurd hself (child_ne s i _)
  · rintro ⟨hdecl, hstop, hend⟩
    -- the block starts no later than the declaration, hence before the position
    have hin := (hs.ordered hroot).inside _ (List.mem_of_getElem? hd)
    have hstart : s.node.range.start < p :=
      lt_of_le_of_lt (le_trans hin.1 d.range.start_le_stop) hstop
    exact ⟨hs.towards hroot hstart hend, Or.inl ⟨i, d, rfl, hdecl, hstop⟩⟩

/-- **Bodies.** A function or a loop over items contributes wherever its body has begun and not ended. -/
theorem mem_sites_of_body {r : Range} (hroot : root.misplaced? = none) (ho : root.resolve p = some o) (ht : t.From root)
    (hr : t.node.bodyRange? = some r) (hstart : r.start < p) (hstop : p ≤ r.stop) : t ∈ o.sites p := by
  obtain ⟨b, hb, rfl⟩ := Node.child_of_bodyRange? hr
  have hbody : (Trail.child t 3 b).Towards root p := (From.child ht hb).towards hroot hstart hstop
  have hlink : t ∈ o.links := parent_mem_links ((mem_links_iff_towards ho).mpr hbody)
  rw [mem_sites, scope_eq_self (Node.isDeclaration_of_bodyRange? hr)]
  exact ⟨hlink, mem_ownSites.mpr (Or.inr ⟨rfl, _, hr, hbody.contains⟩)⟩

/-- The parameters of a function and the variable of a loop are sites only within the body. -/
theorem bodyRange?_contains_of_mem_sites {r : Range} (hr : t.node.bodyRange? = some r) (ht : t ∈ o.sites p) :
    r.contains p = true := by
  rcases mem_ownSites.mp (mem_sites.mp ht).2 with ⟨i, d, heq, -, -⟩ | ⟨heq, r', hr', hp⟩
  · have hnot := Node.isDeclaration_of_bodyRange? hr
    rw [heq] at hnot
    contradiction
  · rw [← heq, hr] at hr'
    rwa [Option.some.inj hr']

/-! ## The order of sites -/

/-- The sites of one scope are told apart by where they stand in it, and its declarations come in order. -/
theorem ownSites_pairwise (hord : s.node.Ordered) :
    (s.ownSites p).Pairwise fun a b =>
      a ≠ b ∧ (a.node.isDeclaration = true → b.node.isDeclaration = true → Node.Precedes a.node b.node) := by
  have hidx : s.node.declaring.zipIdx.Pairwise fun a b => a.2 < b.2 := by
    refine List.pairwise_iff_getElem.mpr ?_
    intro i j hi hj hij
    simpa using hij
  unfold ownSites
  refine List.pairwise_append.mpr ⟨List.pairwise_map.mpr ?_, by split <;> simp, ?_⟩
  · refine (List.Pairwise.imp_of_mem ?_ hidx).filter _
    rintro ⟨a, i⟩ ⟨b, j⟩ ha hb hij
    have hca := Node.children_of_declaring (List.mk_mem_zipIdx_iff_getElem?.mp ha)
    have hcb := Node.children_of_declaring (List.mk_mem_zipIdx_iff_getElem?.mp hb)
    -- two declarations of one scope stand at different places among its children
    refine ⟨?_, fun _ _ => hord.precedes_of_lt hca hcb hij⟩
    intro heq
    obtain ⟨-, rfl, -⟩ := Trail.child.inj heq
    exact Nat.lt_irrefl _ hij
  · -- a scope that is itself a site comes after the declarations in it, and is none
    intro a ha b hb
    obtain ⟨⟨c, i⟩, -, rfl⟩ := List.mem_map.mp ha
    split at hb
    · obtain ⟨r, hr, -⟩ := (Option.any_eq_true _ _).mp ‹_›
      obtain rfl := List.mem_singleton.mp hb
      refine ⟨child_ne b i c, fun _ hdecl => ?_⟩
      rw [Node.isDeclaration_of_bodyRange? hr] at hdecl
      contradiction
    · contradiction

/-- **Outer declarations come first in the text.** A declaration that has ended at the position stands before the child
through which its scope leads on to the position, and so before everything declared in there. -/
theorem precedes_of_ancestor {a b x y : Trail} (hroot : root.misplaced? = none) (hb : b.Towards root p)
    (hab : a ∈ b.links) (hne : a ≠ b) (hx : x ∈ a.ownSites p) (hy : y ∈ b.ownSites p)
    (hxd : x.node.isDeclaration = true) (hyd : y.node.isDeclaration = true) : Node.Precedes x.node y.node := by
  obtain ⟨i, d, rfl, hd, hstop⟩ | ⟨rfl, r, hr, -⟩ := mem_ownSites.mp hx
  · obtain ⟨j, e, rfl, he, -⟩ | ⟨rfl, r, hr, -⟩ := mem_ownSites.mp hy
    · obtain rfl | ⟨k, c, hc⟩ := child_mem_of_mem_links hab
      · exact absurd rfl hne
      · have hchild : (Trail.child a k c).Towards root p := hb.of_mem_links hc
        have hord : a.node.Ordered := (hb.of_mem_links hab).toFrom.ordered hroot
        have hck : a.node.children[k]? = some c := hchild.toFrom.child_mem
        have hdi := Node.children_of_declaring hd
        have hik : i < k := hord.lt_of_stop_lt hdi hck hstop (Range.contains_iff.mp hchild.contains).2
        have hin := (hb.toFrom.ordered hroot).inside _ (List.mem_of_getElem? (Node.children_of_declaring he))
        calc d.range.stop
          _ ≤ c.range.start := hord.precedes_of_lt hdi hck hik
          _ ≤ b.node.range.start := (hb.toFrom.range_le hroot hc).1
          _ ≤ e.range.start := hin.1
    · rw [Node.isDeclaration_of_bodyRange? hr] at hyd
      contradiction
  · rw [Node.isDeclaration_of_bodyRange? hr] at hxd
    contradiction

/-- What holds within each scope, and from each scope to those inside it, holds along the list of sites. -/
theorem sites_pairwise {R : Trail → Trail → Prop} (own : ∀ s ∈ o.links, (s.ownSites p).Pairwise R)
    (across : ∀ a b, b ∈ o.links → a ∈ b.links → a ≠ b → ∀ x ∈ a.ownSites p, ∀ y ∈ b.ownSites p, R x y) :
    (o.sites p).Pairwise R := by
  refine List.pairwise_flatMap.mpr ⟨fun s hs => own s (List.mem_reverse.mp hs), List.pairwise_reverse.mpr ?_⟩
  refine (pairwise_links o).imp_of_mem ?_
  intro b a hb _ hab
  exact across a b hb hab.1 hab.2

end Trail

/-! ## Lexical scope -/

/-- **Lexical scope at a position.** Which nodes of a tree are sites at a position, told by where they stand, and in
which order they are listed. -/
structure LexicalScope (root : Node) (p : Position) (sites : List Trail) : Prop where
  /-- Every site is a node of the tree: a declaration, or a node with a body to give its symbols to. -/
  kinds : ∀ t ∈ sites, t.From root ∧ (t.node.isDeclaration = true ∨ ∃ r, t.node.bodyRange? = some r)
  /-- A declaration contributes exactly when it is a statement of a block or first in the head of a counting loop, has
  ended before the position, and the block or loop ends no earlier than there. -/
  declarations : ∀ (s : Trail) (i : Nat) (d : Declaration NameRef Node), s.From root →
    s.node.children[i]? = some (.declaration d) →
    (Trail.child s i (.declaration d) ∈ sites ↔
      s.node.declaring[i]? = some (.declaration d) ∧ d.range.stop < p ∧ p ≤ s.node.range.stop)
  /-- A function contributes when the position is past the start of its body, and only in its body. -/
  functions : ∀ (t : Trail) (f : FunctionDef NameRef Node), t.From root → t.node = .function f →
    (f.body.range.start < p → p ≤ f.body.range.stop → t ∈ sites) ∧ (t ∈ sites → f.body.range.contains p = true)
  /-- A loop over items contributes when the position is past the start of its body, and only in its body. -/
  loops : ∀ (t : Trail) (l : ForeachLoop NameRef Node), t.From root → t.node = .foreachLoop l →
    (l.body.range.start < p → p ≤ l.body.range.stop → t ∈ sites) ∧ (t ∈ sites → l.body.range.contains p = true)
  once : sites.Nodup
  /-- The scope of an earlier site is that of a later one or lies around it. -/
  outerFirst : sites.Pairwise fun a b => a.scope ∈ b.scope.links
  /-- The declarations come as they stand in the text. -/
  textOrder : (sites.filter fun t => t.node.isDeclaration).Pairwise fun a b => a.node.range.stop ≤ b.node.range.start
  /-- The position is inside the scope of every site, and after every declaration. -/
  enclosed : ∀ t ∈ sites,
    t.scope.node.range.contains p = true ∧ (t.node.isDeclaration = true → t.node.range.stop < p)

namespace Trail

variable {root : Node} {p : Position} {o : Trail}

/-- No site is taken twice: scopes along a trail are different, and so are the sites of one scope. -/
theorem nodup_sites (hroot : root.misplaced? = none) (ho : o.Towards root p) : (o.sites p).Nodup := by
  refine sites_pairwise ?_ ?_
  · intro s hs
    exact (ownSites_pairwise ((ho.of_mem_links hs).toFrom.ordered hroot)).imp And.left
  · rintro a b - - hne x hx y hy rfl
    exact hne ((scope_of_mem_ownSites hx).symm.trans (scope_of_mem_ownSites hy))

/-- Sites further out come first. -/
theorem sites_outerFirst (o : Trail) (p : Position) : (o.sites p).Pairwise fun a b => a.scope ∈ b.scope.links := by
  refine sites_pairwise ?_ ?_
  · intro s _
    refine List.pairwise_of_forall_mem_list fun a ha b hb => ?_
    rw [scope_of_mem_ownSites ha, scope_of_mem_ownSites hb]
    exact mem_links_self s
  · intro a b _ hab _ x hx y hy
    rwa [scope_of_mem_ownSites hx, scope_of_mem_ownSites hy]

/-- Declarations come in the order of the text. -/
theorem sites_textOrder (hroot : root.misplaced? = none) (ho : o.Towards root p) :
    ((o.sites p).filter fun t => t.node.isDeclaration).Pairwise fun a b => Node.Precedes a.node b.node := by
  refine List.pairwise_filter.mpr (sites_pairwise ?_ ?_)
  · intro s hs
    exact (ownSites_pairwise ((ho.of_mem_links hs).toFrom.ordered hroot)).imp And.right
  · intro a b hb hab hne x hx y hy
    exact precedes_of_ancestor hroot (ho.of_mem_links hb) hab hne hx hy

/-- The four properties put together. -/
theorem lexicalScope_sites (hroot : root.misplaced? = none) (ho : root.resolve p = some o) :
    LexicalScope root p (o.sites p) := by
  have hto : o.Towards root p := (resolve_eq_some_iff.mp ho).1
  refine ⟨?_, ?_, ?_, ?_, nodup_sites hroot hto, sites_outerFirst o p, sites_textOrder hroot hto, ?_⟩
  · intro t ht
    obtain ⟨hscope, hown⟩ := mem_sites.mp ht
    have hfrom : t.scope.From root := (hto.of_mem_links hscope).toFrom
    rcases mem_ownSites.mp hown with ⟨i, d, heq, hd, -⟩ | ⟨heq, r, hr, -⟩
    · rw [heq]
      exact ⟨.child hfrom (Node.children_of_declaring hd), Or.inl rfl⟩
    · exact ⟨heq ▸ hfrom, Or.inr ⟨r, heq ▸ hr⟩⟩
  · intro s i d hs hd
    exact child_mem_sites_iff hroot ho hs hd
  · intro t f ht hf
    have hr : t.node.bodyRange? = some f.body.range := by rw [hf]; rfl
    exact ⟨mem_sites_of_body hroot ho ht hr, bodyRange?_contains_of_mem_sites hr⟩
  · intro t l ht hl
    have hr : t.node.bodyRange? = some l.body.range := by rw [hl]; rfl
    exact ⟨mem_sites_of_body hroot ho ht hr, bodyRange?_contains_of_mem_sites hr⟩
  · intro t ht
    obtain ⟨hscope, hown⟩ := mem_sites.mp ht
    refine ⟨(hto.of_mem_links hscope).contains, fun hdecl => ?_⟩
    rcases mem_ownSites.mp hown with ⟨i, d, heq, -, hstop⟩ | ⟨heq, r, hr, -⟩
    · rw [heq]
      exact hstop
    · rw [← heq] at hr
      rw [Node.isDeclaration_of_bodyRange? hr] at hdecl
      contradiction

end Trail

/-- **Local symbols are lexically scoped.** In a unit without a misplaced node, every position that the unit contains
resolves, and its local symbols are what the sites of its lexical scope give, site after site. -/
theorem locals_lexical {u : UnitNode} {p : Position} (hu : (Node.unit u).misplaced? = none)
    (hp : u.range.contains p = true) :
    ∃ o, (Node.unit u).resolve p = some o ∧ o.locals p = (o.sites p).flatMap (fun t => t.node.given) ∧
      LexicalScope (.unit u) p (o.sites p) := by
  cases ho : (Node.unit u).resolve p with
  | none =>
    have hnot := Trail.resolve_eq_none_iff.mp ho
    rw [show (Node.unit u).range = u.range from rfl, hp] at hnot
    contradiction
  | some o => exact ⟨o, rfl, Trail.locals_eq_flatMap_sites o p, Trail.lexicalScope_sites hu ho⟩

/-- The range of five columns on one line. -/
def Range.word (line column : Int) : Range :=
  ⟨⟨line, column⟩, ⟨line, column + 5⟩, Or.inr ⟨rfl, Int.le_add_of_nonneg_right (by decide)⟩⟩

/-- A name that stands for a local variable. -/
def NameRef.localAt (line column : Int) (name : String) : NameRef :=
  ⟨.word line column, name, some (.value .localVariable name none), none⟩

/-- A declaration of a local variable. -/
def Node.localAt (line column : Int) (name : String) : Node :=
  .declaration ⟨.word line column, none, .localAt line column name, none⟩

/-- A function with a parameter `q`. Its body declares `a`, then `b` in a block of its own, and ends with a loop that
declares `i` in its head, `c` on line 5 and `d` on line 7. -/
def nestedScopes : UnitNode where
  range := ⟨⟨0, 0⟩, ⟨9, 0⟩, by decide⟩
  statics := ⟨.word 0 0, []⟩
  functions := ⟨⟨⟨0, 0⟩, ⟨9, 0⟩, by decide⟩,
    [{ range := ⟨⟨0, 0⟩, ⟨9, 0⟩, by decide⟩
       returnType := .typeName (.word 0 0) (.predefined .int)
       name := ⟨.word 0 6, "f", none, none⟩
       parameters := ⟨⟨⟨0, 12⟩, ⟨0, 23⟩, by decide⟩,
         [⟨⟨⟨0, 12⟩, ⟨0, 23⟩, by decide⟩, .typeName (.word 0 12) (.predefined .int),
           ⟨.word 0 18, "q", some (.value (.parameter false) "q" none), none⟩, false⟩]⟩
       body := ⟨⟨⟨0, 24⟩, ⟨9, 0⟩, by decide⟩,
         [.localAt 1 2 "a", .block ⟨⟨⟨2, 0⟩, ⟨3, 0⟩, by decide⟩, [.localAt 2 2 "b"]⟩,
          .forLoop ⟨⟨⟨4, 0⟩, ⟨8, 0⟩, by decide⟩, some (.localAt 4 2 "i"), none, none,
            .block ⟨⟨⟨4, 9⟩, ⟨8, 0⟩, by decide⟩, [.localAt 5 2 "c", .localAt 7 2 "d"]⟩⟩]⟩ }]⟩
  statements := ⟨.word 0 0, []⟩

theorem locals_lexical_nested :
    (Node.unit nestedScopes).misplaced? = none ∧ nestedScopes.range.contains ⟨6, 0⟩ = true ∧
    ∃ o, (Node.unit nestedScopes).resolve ⟨6, 0⟩ = some o ∧
      (o.locals ⟨6, 0⟩).map Symbol.name = ["q", "a", "i", "c"] ∧
      LexicalScope (.unit nestedScopes) ⟨6, 0⟩ (o.sites ⟨6, 0⟩) := by
  refine ⟨rfl, rfl, ?_⟩
  obtain ⟨o, ho, -, hscope⟩ := locals_lexical (u := nestedScopes) (p := ⟨6, 0⟩) rfl rfl
  refine ⟨o, ho, ?_, hscope⟩
  obtain rfl := Option.some.inj ho
  rfl

end Caret
