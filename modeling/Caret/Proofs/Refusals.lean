import Caret.Proofs.Digits
import Caret.Proofs.Laminar
import Caret.Proofs.Loading
import Caret.Proofs.Requests
/-!
# `Caret.Proofs.Refusals` — which requests are refused, and what can be said of them

A malformed request is refused with a message, and the message tells integers: those of the cursor and the base, or
those of the ranges of two nodes. Integers of any size come in with a request, but only short ones can be written.
So a malformed request ends in one of two ways, and which one it is depends on the integers of its fault alone.

## Contents
- **Messages.** `RequestFault.integers`, `RequestFault.message?_isSome_iff`.
- **Errors.** `RequestFault.error_eq_refused_iff`, `RequestFault.error_eq_unwritable_iff`.
- **Short requests.** `Script.ShortRequest` — no fault of such a request has an integer that is not short.
- **Requests.** `Script.complete_eq_refused_iff`, `Script.complete_eq_unwritable_iff`,
  `Script.complete_refuses_exactly`, and a request that cannot be refused.
-/

namespace Caret

/-! ## Messages -/

/-- Positions and ranges can be told exactly if their integers can be written. -/
theorem Position.text?_isSome_iff {p : Position} :
    p.text?.isSome = true ↔ ∀ n ∈ [p.line, p.column], Text.Short n := by
  rw [text?, Option.isSome_map, Text.decimals?_isSome_iff]

theorem Range.text?_isSome_iff {r : Range} : r.text?.isSome = true ↔ ∀ n ∈ r.coordinates, Text.Short n := by
  rw [text?, Option.isSome_map, Text.decimals?_isSome_iff]

/-- A message that tells two things can be written exactly if both can. -/
theorem isSome_message {a b : Option String} {text : String → String → String} :
    (do return text (← a) (← b) : Option String).isSome = true ↔ a.isSome = true ∧ b.isSome = true := by
  cases a <;> cases b <;> simp

namespace PlacementFault

/-- The two nodes that a fault is about. -/
def nodes : PlacementFault → List Node
  | .outside child parent => [child, parent]
  | .overlap child sibling => [child, sibling]

/-- A node is told by its kind and its range. -/
theorem nodeText?_isSome_iff {n : Node} : (nodeText? n).isSome = true ↔ ∀ k ∈ n.range.coordinates, Text.Short k := by
  rw [nodeText?, Option.isSome_map, Range.text?_isSome_iff]

theorem message?_isSome_iff {fault : PlacementFault} :
    fault.message?.isSome = true ↔ ∀ n ∈ fault.nodes, ∀ k ∈ n.range.coordinates, Text.Short k := by
  simp only [← nodeText?_isSome_iff]
  cases fault with
  | outside child parent =>
    rw [message?, isSome_message]
    simp [nodes]
  | overlap child sibling =>
    rw [message?, isSome_message]
    simp [nodes]

end PlacementFault

namespace RequestFault

variable {fault other : RequestFault}

/-- **The integers that are told of a fault.** -/
def integers : RequestFault → List Int
  | .cursor p base => [p.line, p.column, base]
  | .placement fault => fault.nodes.flatMap fun n => n.range.coordinates

/-- **A fault can be told exactly if its integers are short.** -/
theorem message?_isSome_iff : fault.message?.isSome = true ↔ ∀ n ∈ fault.integers, Text.Short n := by
  cases fault with
  | cursor p base =>
    rw [message?, isSome_message, Position.text?_isSome_iff, Position.text?_isSome_iff]
    simp only [integers, List.forall_mem_cons, List.not_mem_nil, false_implies, implies_true, and_true, and_self,
      and_assoc]
  | placement fault =>
    rw [message?, PlacementFault.message?_isSome_iff]
    simp only [integers, List.mem_flatMap]
    constructor
    · rintro h k ⟨n, hn, hk⟩
      exact h n hn k hk
    · intro h n hn k hk
      exact h k ⟨n, hn, hk⟩

/-! ## Errors -/

/-- A fault with a message is what the request is refused for, and one without a message is not. -/
theorem error_eq_refused_iff : fault.error = .refused other ↔ other = fault ∧ ∀ n ∈ fault.integers, Text.Short n := by
  rw [error, ← message?_isSome_iff]
  by_cases h : fault.message?.isSome = true
  · simp [h, eq_comm]
  · simp [h]

theorem error_eq_unwritable_iff :
    fault.error = .unwritable other ↔ other = fault ∧ ∃ n ∈ fault.integers, ¬ Text.Short n := by
  have hlong : (∃ n ∈ fault.integers, ¬ Text.Short n) ↔ ¬ fault.message?.isSome = true := by
    rw [message?_isSome_iff]
    simp
  rw [error, hlong]
  by_cases h : fault.message?.isSome = true
  · simp [h]
  · simp [h, eq_comm]

theorem error_ne_inconsistent (e : Inconsistency) : fault.error ≠ .inconsistent e := by
  unfold error
  split <;> exact fun h => by cases h

end RequestFault

/-! ## Short requests -/

/-- The nodes of a placement fault are nodes of the tree. -/
theorem Node.from_of_mem_nodes {root n : Node} {fault : PlacementFault} (h : root.misplaced? = some fault)
    (hn : n ∈ fault.nodes) : ∃ t : Trail, t.From root ∧ t.node = n := by
  obtain ⟨t, ht, hfound⟩ := exists_foundAt h
  have hchild : ∀ c ∈ t.node.children, ∃ t' : Trail, t'.From root ∧ t'.node = c := by
    intro c hc
    obtain ⟨i, hi⟩ := List.getElem?_of_mem hc
    exact ⟨.child t i c, .child ht hi, rfl⟩
  cases fault with
  | outside child parent =>
    obtain ⟨rfl, hmem, -⟩ := hfound
    rcases List.mem_pair.mp hn with rfl | rfl
    · exact hchild n hmem
    · exact ⟨t, ht, rfl⟩
  | overlap child sibling =>
    obtain ⟨i, hsibling, hmem, -⟩ := hfound
    rcases List.mem_pair.mp hn with rfl | rfl
    · exact hchild n (List.mem_of_getElem? hmem)
    · exact hchild n (List.mem_of_getElem? hsibling)

namespace Script

variable {s : Script} {base : Int} {p : Position} {fault : RequestFault}

/-- The ranges of the nodes of a script have short integers. -/
def ShortRanges (s : Script) : Prop :=
  ∀ t : Trail, t.From (.unit s.unit) → ∀ n ∈ t.node.range.coordinates, Text.Short n

/-- **Short requests.** All integers that come in with the request are short: those of the cursor, the base and the
ranges of the nodes. -/
structure ShortRequest (s : Script) (base : Int) (p : Position) : Prop where
  line : Text.Short p.line
  column : Text.Short p.column
  base : Text.Short base
  ranges : s.ShortRanges

/-- The cursor is looked at first, and the tree only if nothing is wrong with the cursor. -/
theorem requestFault?_eq_some (h : s.requestFault? base p = some fault) :
    fault = .cursor p base ∨ ∃ e, (Node.unit s.unit).misplaced? = some e ∧ fault = .placement e := by
  rcases Option.or_eq_some_iff.mp h with hcursor | ⟨-, hplacement⟩
  · unfold Position.fault? at hcursor
    split at hcursor
    · exact Or.inl (Option.some.inj hcursor).symm
    · contradiction
  · obtain ⟨e, he, rfl⟩ := Option.map_eq_some_iff.mp hplacement
    exact Or.inr ⟨e, he, rfl⟩

/-- Whatever fault a short request has, its integers are short. -/
theorem ShortRequest.integers (h : s.ShortRequest base p) (hfault : s.requestFault? base p = some fault) :
    ∀ n ∈ fault.integers, Text.Short n := by
  rcases requestFault?_eq_some hfault with rfl | ⟨e, he, rfl⟩
  · simp [RequestFault.integers, h.line, h.column, h.base]
  · intro k hk
    obtain ⟨n, hn, hk⟩ := List.mem_flatMap.mp hk
    obtain ⟨t, ht, rfl⟩ := Node.from_of_mem_nodes he hn
    exact h.ranges t ht k hk

/-! ## Requests -/

/-- Malformed are the requests in which a fault is found. -/
theorem malformed_iff_requestFault? : s.Malformed base p ↔ ∃ fault, s.requestFault? base p = some fault := by
  rw [← not_iff_not, ← requestFault?_eq_none_iff]
  simp [Option.eq_none_iff_forall_ne_some]

/-- Completion fails with the fault that was found, and in no other way. -/
theorem complete_eq_error_iff {e : CompletionError} :
    s.complete base p = .error e ↔ ∃ fault, s.requestFault? base p = some fault ∧ fault.error = e := by
  cases hfault : s.requestFault? base p with
  | some fault => simp [complete_eq_error hfault]
  | none =>
    obtain ⟨suggestions, hok⟩ := complete_eq_ok hfault
    simp [hok]

theorem exists_complete_eq_ok_iff : (∃ suggestions, s.complete base p = .ok suggestions) ↔ ¬ s.Malformed base p := by
  rw [← requestFault?_eq_none_iff]
  refine ⟨?_, complete_eq_ok⟩
  -- an answer and a fault exclude each other
  rintro ⟨suggestions, hok⟩
  by_contra hsome
  obtain ⟨fault, hfault⟩ := Option.ne_none_iff_exists'.mp hsome
  rw [complete_eq_error hfault] at hok
  contradiction

/-- A request is refused for the fault that was found, if this fault can be told. -/
theorem complete_eq_refused_iff : s.complete base p = .error (.refused fault) ↔
    s.requestFault? base p = some fault ∧ ∀ n ∈ fault.integers, Text.Short n := by
  simp only [complete_eq_error_iff, RequestFault.error_eq_refused_iff]
  constructor
  · rintro ⟨_, hfault, rfl, hshort⟩
    exact ⟨hfault, hshort⟩
  · rintro ⟨hfault, hshort⟩
    exact ⟨fault, hfault, rfl, hshort⟩

/-- A fault that cannot be told is not refused. -/
theorem complete_eq_unwritable_iff : s.complete base p = .error (.unwritable fault) ↔
    s.requestFault? base p = some fault ∧ ∃ n ∈ fault.integers, ¬ Text.Short n := by
  simp only [complete_eq_error_iff, RequestFault.error_eq_unwritable_iff]
  constructor
  · rintro ⟨_, hfault, rfl, hlong⟩
    exact ⟨hfault, hlong⟩
  · rintro ⟨hfault, hlong⟩
    exact ⟨fault, hfault, rfl, hlong⟩

/-- **Completion fails exactly on malformed requests, and refuses those whose faults it can tell.** For every
script, also one with units, sections and functions nested in statements, every base and every cursor:

- the request is answered with a list of suggestions exactly if it is not malformed;
- a malformed request has a fault, and it is refused for this fault exactly if the integers of the fault are short;
- if one of them is not, the request is not refused, and what ends it is that the integer cannot be written;
- so among short requests exactly the malformed ones are refused.

No request is found inconsistent, and classification on its own answers in every case. -/
theorem complete_refuses_exactly (s : Script) (base : Int) (p : Position) :
    ((∃ suggestions, s.complete base p = .ok suggestions) ↔ ¬ s.Malformed base p) ∧
    (s.Malformed base p ↔ ∃ fault, s.requestFault? base p = some fault) ∧
    (∀ fault, s.complete base p = .error (.refused fault) ↔
      s.requestFault? base p = some fault ∧ ∀ n ∈ fault.integers, Text.Short n) ∧
    (∀ fault, s.complete base p = .error (.unwritable fault) ↔
      s.requestFault? base p = some fault ∧ ∃ n ∈ fault.integers, ¬ Text.Short n) ∧
    (s.ShortRequest base p → ((∃ fault, s.complete base p = .error (.refused fault)) ↔ s.Malformed base p)) ∧
    (∀ e, s.complete base p ≠ .error (.inconsistent e)) ∧
    ∃ o, Offers.ofPosition s.unit p = .ok o := by
  refine ⟨exists_complete_eq_ok_iff, malformed_iff_requestFault?, fun _ => complete_eq_refused_iff,
    fun _ => complete_eq_unwritable_iff, ?_, ?_, ?_⟩
  · intro hshort
    rw [malformed_iff_requestFault?]
    constructor
    · rintro ⟨fault, hrefused⟩
      exact ⟨fault, (complete_eq_refused_iff.mp hrefused).1⟩
    · rintro ⟨fault, hfault⟩
      exact ⟨fault, complete_eq_refused_iff.mpr ⟨hfault, hshort.integers hfault⟩⟩
  · intro e he
    obtain ⟨fault, -, herror⟩ := complete_eq_error_iff.mp he
    exact RequestFault.error_ne_inconsistent e herror
  · obtain ⟨o, ho, -⟩ := Offers.ofPosition_eq_ok s.unit p
    exact ⟨o, ho⟩

/-- **A malformed request that is not refused.** The cursor is so far before the first line that its line cannot be
written. -/
theorem cursor_too_long_to_refuse :
    ∃ s, Script.load Data.accounts = .ok s ∧ s.Malformed 0 ⟨-(10 ^ Text.maxDigits : Nat), 0⟩ ∧
      (∀ fault, s.complete 0 ⟨-(10 ^ Text.maxDigits : Nat), 0⟩ ≠ .error (.refused fault)) ∧
      ∃ fault, s.complete 0 ⟨-(10 ^ Text.maxDigits : Nat), 0⟩ = .error (.unwritable fault) := by
  obtain ⟨s, hs⟩ : ∃ s, Script.load Data.accounts = .ok s := ⟨_, rfl⟩
  refine ⟨s, hs, ?_⟩
  have hlong : ¬ Text.Short (-(10 ^ Text.maxDigits : Nat)) := mt Text.short_neg.mp Text.not_short_pow
  generalize hline : (-(10 ^ Text.maxDigits : Nat) : Int) = line at hlong
  have hbefore : line < 0 := by
    have hpos : 0 < 10 ^ Text.maxDigits := Nat.pow_pos (by decide)
    omega
  have hfault : s.requestFault? 0 ⟨line, 0⟩ = some (.cursor ⟨line, 0⟩ 0) := by
    rw [requestFault?, Position.fault?, if_pos (Or.inl hbefore), Option.some_or]
  have herror : s.complete 0 ⟨line, 0⟩ = .error (.unwritable (.cursor ⟨line, 0⟩ 0)) := by
    refine complete_eq_unwritable_iff.mpr ⟨hfault, line, ?_, hlong⟩
    exact List.mem_cons_self
  refine ⟨Or.inl hbefore, ?_, _, herror⟩
  intro fault h
  rw [herror] at h
  cases h

end Script
end Caret
