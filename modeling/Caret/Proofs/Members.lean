import Caret.Proofs.Governing
import Caret.Proofs.Likeness
import Caret.Proofs.Loading
/-!
# `Caret.Proofs.Members` — members are offered on their own, and nowhere else

The members of a type are on offer where the innermost node at the cursor is a property access whose name is not yet
that of a member. Nothing else is on offer there: no keyword, no type and no symbol. Inside the callee the innermost
node is another one, and the access has no say, however many accesses, calls and operators enclose the cursor.

Both halves come from the rule of the node that governs. A property access governs exactly where it is the innermost
node (`Trail.governing_of_access`, `Trail.rule_governing_ne`), and only its rule fills in the members of the offers
(`Offers.members_eq_none`), in the place of everything else (`Offers.ofContext_access`).

## Contents
- **Accesses that govern.** `governing_of_access`, `rule_governing_ne`, `Context.ofPosition_of_access`.
- **Offers.** `members_eq_none`, `ofContext_access`.
- **Suggestions.** `Access.completions`; `Suggestion.IsMember` and the suggestions of the other sorts.
- **Requests.** `Script.members_offered_exclusively`.
-/

namespace Caret

variable {u : UnitNode} {p : Position} {t : Trail} {a : Access Node}

/-! ## Accesses that govern -/

namespace Trail

/-- A property access governs where it is the innermost node. -/
theorem governing_of_access (h : t.node = .access a) : t.governing = t := by
  cases t with
  | root n => rfl
  | child t i n =>
    have hdecides : n.kind.rule.decides true = true := by
      rw [show n = .access a from h]
      rfl
    exact if_pos hdecides

/-- Where the innermost node is none, no property access governs. -/
theorem rule_governing_ne (ht : t.From (.unit u)) (h : ∀ a, t.node ≠ .access a) :
    t.governing.node.kind.rule ≠ .memberAccess := by
  intro hrule
  have hsame : t.governing = t := (governs_governing ht).access hrule
  rw [hsame] at hrule
  obtain ⟨a, ha⟩ := Node.eq_access_of_rule hrule
  exact h a ha

end Trail

/-- A unit with another innermost node than itself has code. -/
theorem CompilationUnit.isEmpty_eq_false_of_resolve (hr : (Node.unit u).resolve p = some t) (ht : t ≠ .root (.unit u)) :
    u.isEmpty = false := by
  have hfrom : t.From (.unit u) := (Trail.resolve_eq_some_iff.mp hr).1.toFrom
  rcases Trail.child_mem_of_mem_links hfrom.root_mem_links with heq | ⟨i, c, hc⟩
  · exact absurd heq.symm ht
  · have hchild : (Node.unit u).children[i]? = some c := (hfrom.of_mem_links hc).child_mem
    have hne : (Node.unit u).children ≠ [] := List.ne_nil_of_mem (List.mem_of_getElem? hchild)
    exact Bool.eq_false_iff.mpr fun hempty => hne (List.isEmpty_iff.mp hempty)

theorem Context.ofPosition_of_access (hr : (Node.unit u).resolve p = some t) (ha : t.node = .access a) :
    ofPosition u p = within t t p := by
  have hroot : t ≠ .root (.unit u) := by
    rintro rfl
    contradiction
  have hcode := CompilationUnit.isEmpty_eq_false_of_resolve hr hroot
  unfold ofPosition
  rw [if_neg (by simp [hcode]), hr]
  show within t.governing t p = within t t p
  rw [Trail.governing_of_access ha]

/-! ## Offers -/

namespace Offers

variable {c : Context} {o : Offers}

theorem inUnit_members (ho : inUnit c = .ok o) : o.members = none := by
  unfold inUnit at ho
  cases hprev : c.prev.map Node.kind with
  | none =>
    rw [hprev] at ho
    obtain rfl := Except.ok.inj ho
    rfl
  | some kind =>
    rw [hprev] at ho
    -- three kinds are those of sections, and there are no offers for the others
    cases kind with
    | staticVariablesList | functionsList | statementsList =>
      obtain rfl := Except.ok.inj ho
      rfl
    | _ => contradiction

theorem inStaticSection_members (c : Context) (hasFunctions : Bool) :
    (inStaticSection c hasFunctions).members = none := by
  unfold inStaticSection
  cases c.sectionItem? with
  | none => rfl
  | some item => rfl

/-- **No members without an access.** Unless the innermost node is a property access, the offers hold no members. -/
theorem members_eq_none (ho : ofContext u (.ofPosition u p) = .ok o)
    (hnone : ∀ a, (Node.unit u).find? p ≠ some (.access a)) : o.members = none := by
  rcases Context.ofPosition_cases u p with ⟨-, hc⟩ | ⟨-, hc⟩ | ⟨-, hc⟩ | ⟨t, hr, hc⟩
  · rw [hc] at ho
    obtain rfl := Except.ok.inj ho
    rfl
  · rw [hc] at ho
    obtain rfl := Except.ok.inj ho
    rfl
  · rw [hc] at ho
    obtain rfl := Except.ok.inj ho
    rfl
  · -- within the code, the rule for member access governs only at the innermost node
    have hinner : ∀ a, t.node ≠ .access a := by
      intro a ha
      apply hnone a
      unfold Node.find?
      rw [hr, Option.map_some, ha]
    have hrule := Trail.rule_governing_ne (Trail.resolve_eq_some_iff.mp hr).1.toFrom hinner
    rw [hc, ofContext_within] at ho
    cases hgov : t.governing.node.kind.rule with
    | memberAccess => exact absurd hgov hrule
    | unit =>
      rw [hgov] at ho
      exact inUnit_members ho
    | staticSection =>
      rw [hgov] at ho
      obtain rfl := Except.ok.inj ho
      exact inStaticSection_members _ _
    | functionSection | statements | empty =>
      rw [hgov] at ho
      obtain rfl := Except.ok.inj ho
      rfl
    | defer =>
      rw [hgov] at ho
      contradiction

/-- **Nothing beside the members.** At a property access the offers hold the access, unless its name is already that
of a member, and nothing else. -/
theorem ofContext_access (hr : (Node.unit u).resolve p = some t) (ha : t.node = .access a) :
    ofContext u (.ofPosition u p) =
      .ok { context := .ofPosition u p, members := if a.member.isNone then some a else none } := by
  have hrule : t.node.kind.rule = .memberAccess := by
    rw [ha]
    rfl
  have hnode : (Context.within t t p).node? = some (.access a) := congrArg some ha
  rw [Context.ofPosition_of_access hr ha, ofContext_within, hrule]
  show atMemberAccess (.within t t p) = _
  unfold atMemberAccess
  rw [hnode]

end Offers

/-! ## Suggestions -/

/-- The suggestion is a member of a type: a property or a method. -/
def Suggestion.IsMember (x : Suggestion) : Prop := x.kind = .property ∨ x.kind = .method

namespace Access

/-- The instance properties of the callee's type, in declaration order; none if it has no type. -/
def calleeProperties (a : Access Node) : List (Field ScriptType) := a.callee.type?.elim [] ScriptType.properties

/-- The instance methods of the callee's type, in declaration order; none if it has no type. -/
def calleeMethods (a : Access Node) : List (Method ScriptType) := a.callee.type?.elim [] ScriptType.methods

/-- **What completes an access**: the properties of the callee and then its methods, as far as their names in small
letters start with the name typed so far in small letters. -/
def completions (a : Access Node) : List Suggestion :=
  (a.calleeProperties.filter fun q => decide (Text.lowercase a.name <+: Text.lowercase q.name)).map
      Suggestion.ofProperty
    ++ (a.calleeMethods.filter fun m => decide (Text.lowercase a.name <+: Text.lowercase m.name)).map
      Suggestion.ofMethod

end Access

theorem startsAs_eq_decide (typed name : String) :
    startsAs typed name = decide (Text.lowercase typed <+: Text.lowercase name) := by
  rw [Bool.eq_iff_iff, startsAs_iff, decide_eq_true_iff]

namespace Offers

variable {o : Offers} {s : Script}

theorem memberSuggestions_eq_completions (h : o.members = some a) : o.memberSuggestions = a.completions := by
  have hproperties : matchingProperties a.callee.type? a.name =
      a.calleeProperties.filter fun q => decide (Text.lowercase a.name <+: Text.lowercase q.name) := by
    unfold matchingProperties Access.calleeProperties
    cases a.callee.type? with
    | none => rfl
    | some type => simp only [startsAs_eq_decide, Option.elim_some]
  have hmethods : matchingMethods a.callee.type? a.name =
      a.calleeMethods.filter fun m => decide (Text.lowercase a.name <+: Text.lowercase m.name) := by
    unfold matchingMethods Access.calleeMethods
    cases a.callee.type? with
    | none => rfl
    | some type => simp only [startsAs_eq_decide, Option.elim_some]
  unfold memberSuggestions Access.completions
  rw [h]
  exact congrArg₂ (fun qs ms => qs.map Suggestion.ofProperty ++ ms.map Suggestion.ofMethod) hproperties hmethods

/-- Keywords, types and symbols are no members. -/
theorem not_isMember_of_mem_suggestions (h : o.members = none) {x : Suggestion} (hx : x ∈ o.suggestions s p) :
    ¬ x.IsMember := by
  have hkind : x.kind = .keyword ∨ x.kind = .type ∨ x.kind = .function ∨ x.kind = .value := by
    have hnone : o.memberSuggestions = [] := by
      unfold memberSuggestions
      rw [h]
    unfold suggestions at hx
    rw [hnone] at hx
    simp only [List.nil_append, List.mem_append, List.mem_ite_nil_right, List.mem_singleton, List.mem_map,
      Suggestion.statementStarts] at hx
    rcases hx with (((⟨-, rfl⟩ | ⟨-, rfl⟩) | ⟨-, type, -, rfl⟩) | ⟨-, symbol, -, rfl⟩) | ⟨-, word, -, rfl⟩
    · exact Or.inl rfl
    · exact Or.inl rfl
    · exact Or.inr (Or.inl rfl)
    · cases symbol with
      | function => exact Or.inr (Or.inr (Or.inl rfl))
      | value => exact Or.inr (Or.inr (Or.inr rfl))
    · exact Or.inl rfl
  rintro (hproperty | hmethod)
  · rw [hproperty] at hkind
    contradiction
  · rw [hmethod] at hkind
    contradiction

/-- Where only an access is on offer, its members are all that is suggested. -/
theorem suggestions_of_access (c : Context) (s : Script) (p : Position) (a : Access Node) :
    suggestions { context := c, members := some a } s p = a.completions := by
  unfold suggestions
  rw [memberSuggestions_eq_completions rfl]
  simp

end Offers

/-! ## Requests -/

namespace Script

/-- **Members are offered on their own, and nowhere else.** Every request that is not malformed has an answer. If
the innermost node at the cursor is a property access without a member, the answer is what completes it, and nothing
else. If it is one with a member, the answer is empty. In all other cases, also inside the callee of an access, at
any depth, no property and no method is suggested. -/
theorem members_offered_exclusively {s : Script} {base : Int} {p : Position} (h : ¬ s.Malformed base p) :
    ∃ answer, s.complete base p = .ok answer ∧
      (∀ a, (Node.unit s.unit).find? p = some (.access a) → a.member = none → answer = a.completions) ∧
      (∀ a q, (Node.unit s.unit).find? p = some (.access a) → a.member = some q → answer = []) ∧
      ((∀ a, (Node.unit s.unit).find? p ≠ some (.access a)) → ∀ x ∈ answer, ¬ x.IsMember) := by
  have hrequest : s.requestFault? base p = none := requestFault?_eq_none_iff.mpr h
  by_cases haccess : ∃ a, (Node.unit s.unit).find? p = some (.access a)
  · -- there is one innermost node, so the access of each clause is the same
    obtain ⟨a, ha⟩ := haccess
    obtain ⟨t, hr, hnode⟩ := Option.map_eq_some_iff.mp ha
    have hsame : ∀ b, (Node.unit s.unit).find? p = some (.access b) → b = a := by
      intro b hb
      exact (Node.access.inj (Option.some.inj (ha.symm.trans hb))).symm
    refine ⟨_, complete_of_offers hrequest (Offers.ofContext_access hr hnode), ?_, ?_, ?_⟩
    · intro b hb hmember
      obtain rfl := hsame b hb
      rw [hmember]
      exact Offers.suggestions_of_access _ s p b
    · intro b q hb hmember
      obtain rfl := hsame b hb
      rw [hmember]
      rfl
    · intro hnone
      exact absurd ha (hnone a)
  · have hnone : ∀ a, (Node.unit s.unit).find? p ≠ some (.access a) := fun a ha => haccess ⟨a, ha⟩
    obtain ⟨o, ho, -⟩ := Offers.ofPosition_eq_ok s.unit p
    rw [Offers.ofPosition_eq] at ho
    refine ⟨_, complete_of_offers hrequest ho, ?_, ?_, ?_⟩
    · intro a ha
      exact absurd ha (hnone a)
    · intro a q ha
      exact absurd ha (hnone a)
    · intro _ x hx
      exact Offers.not_isMember_of_mem_suggestions (Offers.members_eq_none ho hnone) hx

end Script

namespace Data

/-- A script with the one statement `bank.account.Ba`, for a host with a bank that has an account. The second access is
not yet the name of a member. -/
def bankAccount : Data :=
  .table
    [("types", .list
      [.table
        [("name", .text "Account"), ("properties", .list [typed "balance" "int", typed "owner" "string"]),
         ("methods", .list
           [.table [("name", .text "debit")], .table [("name", .text "BasicFee"), ("return", .text "int")]])],
       .table [("name", .text "Bank"), ("properties", .list [typed "account" "Account"])]]),
     ("constants", .list [typed "bank" "Bank"]),
     ("unit", statementsOnly [0, 0, 2, 0] (record .statementsList [1, 0, 1, 16] [("statements", .list
      [record (.plain .expressionStatement) [1, 0, 1, 16] [("children", .list
        [record .propertyAccess [1, 0, 1, 15]
          [("name", .text "Ba"),
           ("callee", record .propertyAccess [1, 0, 1, 12]
            [("name", .text "account"), ("member", .text "account"),
             ("callee", record .nameExpression [1, 0, 1, 4]
              [("name", .text "bank"),
               ("symbol", .table
                 [("kind", .text "constant"), ("name", .text "bank"), ("type", .text "Bank")])])])]])]])]))]

end Data

/-- After the last letter two members of an account are suggested, after `account` nothing, and in `bank` no member. -/
theorem Script.members_offered_exclusively_bankAccount :
    ∃ s, Script.load Data.bankAccount = .ok s ∧
      (∃ answer, s.complete 0 ⟨1, 15⟩ = .ok answer ∧
        answer.map (fun x => (x.label, x.kind)) = [("balance", .property), ("BasicFee", .method)]) ∧
      s.complete 0 ⟨1, 12⟩ = .ok [] ∧
      ∃ answer, s.complete 0 ⟨1, 2⟩ = .ok answer ∧
        answer.map Suggestion.label = ["bank", "for", "foreach", "if", "return", "while"] ∧
        ∀ x ∈ answer, ¬ x.IsMember := by
  obtain ⟨s, hs⟩ : ∃ s, Script.load Data.bankAccount = .ok s := ⟨_, rfl⟩
  have hplaced : (Node.unit s.unit).misplaced? = none := by
    obtain rfl := Except.ok.inj hs
    rfl
  have hwell : ∀ column : Int, 0 ≤ column → ¬ s.Malformed 0 ⟨1, column⟩ := by
    intro column hcolumn
    unfold Malformed
    rw [hplaced]
    simp only [reduceCtorEq, exists_false, or_false]
    omega
  refine ⟨s, hs, ?_, ?_, ?_⟩
  · obtain ⟨answer, hok, hmembers, -, -⟩ := members_offered_exclusively (hwell 15 (by decide))
    refine ⟨answer, hok, ?_⟩
    obtain rfl := Except.ok.inj hs
    rw [hmembers _ rfl rfl]
    decide +kernel
  · obtain ⟨answer, hok, -, hresolved, -⟩ := members_offered_exclusively (hwell 12 (by decide))
    obtain rfl := Except.ok.inj hs
    rw [hok, hresolved _ _ rfl rfl]
  · obtain ⟨answer, hok, -, -, hother⟩ := members_offered_exclusively (hwell 2 (by decide))
    obtain rfl := Except.ok.inj hs
    refine ⟨answer, hok, ?_, ?_⟩
    · obtain rfl := Except.ok.inj hok
      rfl
    · apply hother
      intro a ha
      exact Node.noConfusion (Option.some.inj ha)

end Caret
