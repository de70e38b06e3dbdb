import Caret.Completion.Members
import Mathlib.Data.List.Basic
/-!
# `Caret.Proofs.Narrowing` — how the members on offer change as a name is typed on

A member is on offer if its name in small letters starts with what was typed in small letters. If every character had a
small form of its own, typing on would only make the text longer that names have to start with, and members could only
leave the list. The small form of the capital sigma depends on what stands around it: the one at the end of a word is
not the one inside a word. A text that ends with such a sigma is therefore matched as if the word were complete, and the
sigma changes its form when the word is taken up again.

This is the only exception. `Text.Reopens` says when it happens, and everything about members follows from one fact
about texts (`Text.lowerAfter_prefix_iff`): a text that starts with the small letters of the longer text starts with
those of the shorter one exactly if no word is taken up again. The proofs use nothing of the case tables but the two
small sigmas.

## Contents
- **The end of a word.** `meetsCased_append`, `endsWord_lost_iff` — what a continuation does to a sigma.
- **Words taken up again.** `Text.Reopens`, decided letter by letter (`reopensAfter_cons`).
- **Small letters of a longer text.** `lowerAfter_prefix_iff`.
- **Members.** `ScriptType.members_narrow_exactly`; a member that appears late (`ScriptType.member_appears_late`).
-/

namespace Caret
namespace Text

variable {before rest typed more text : List Char} {c : Char}

/-! ## The end of a word -/

/-- What follows a run of characters is only met if all of them are passed over. -/
theorem meetsCased_append (a b : List Char) :
    meetsCased (a ++ b) = if a.all caseIgnorable.has then meetsCased b else meetsCased a := by
  induction a with
  | nil => rfl
  | cons c a ih =>
    unfold meetsCased at ih ⊢
    by_cases hc : caseIgnorable.has c = true
    · rw [List.cons_append, List.dropWhile_cons_of_pos hc, List.dropWhile_cons_of_pos hc, List.all_cons, hc,
        Bool.true_and]
      exact ih
    · rw [List.cons_append, List.dropWhile_cons_of_neg hc, List.dropWhile_cons_of_neg hc, List.all_cons,
        Bool.eq_false_iff.mpr hc, Bool.false_and]
      rfl

theorem meetsCased_eq_false {a : List Char} (h : a.all caseIgnorable.has = true) : meetsCased a = false := by
  have happend := meetsCased_append a []
  rw [if_pos h, List.append_nil] at happend
  exact happend

/-- A sigma that ends a word in a text ends one already in what comes first of it. -/
theorem endsWord_of_append (h : endsWord before (rest ++ more) = true) : endsWord before rest = true := by
  unfold endsWord at h ⊢
  rw [meetsCased_append] at h
  by_cases hall : rest.all caseIgnorable.has = true
  · rw [if_pos hall] at h
    rw [meetsCased_eq_false hall, (Bool.and_eq_true_iff.mp h).1]
    rfl
  · rwa [if_neg hall] at h

/-- **A sigma is no longer the end of a word** when the text goes on, exactly if a letter stands before it, and after it
the first character that counts is a letter in the continuation. -/
theorem endsWord_lost_iff :
    endsWord before rest = true ∧ endsWord before (rest ++ more) = false ↔
      (∀ c ∈ rest, caseIgnorable.has c = true) ∧ meetsCased before = true ∧ meetsCased more = true := by
  unfold endsWord
  rw [meetsCased_append, ← List.all_eq_true]
  by_cases hall : rest.all caseIgnorable.has = true
  · rw [if_pos hall, meetsCased_eq_false hall]
    cases meetsCased before <;> simp [hall]
  · rw [if_neg hall]
    simp [hall]

/-! ## Words taken up again -/

/-- What is typed after `before` (nearest first) ends with a word whose last letter is a capital sigma, apart from
characters that are passed over, and `more` takes the word up again. -/
def ReopensAfter (before typed more : List Char) : Prop :=
  ∃ word marks, typed = word ++ capitalSigma :: marks ∧ (∀ c ∈ marks, caseIgnorable.has c = true) ∧
    meetsCased (word.reverse ++ before) = true ∧ meetsCased more = true

theorem not_reopensAfter_nil (before more : List Char) : ¬ ReopensAfter before [] more := by
  rintro ⟨word, marks, hsplit, -⟩
  exact absurd hsplit (by simp)

theorem reopensAfter_cons :
    ReopensAfter before (c :: rest) more ↔
      (c = capitalSigma ∧ endsWord before rest = true ∧ endsWord before (rest ++ more) = false) ∨
        ReopensAfter (c :: before) rest more := by
  rw [endsWord_lost_iff]
  constructor
  · rintro ⟨word, marks, hsplit, hmarks, hbefore, hmore⟩
    cases word with
    | nil =>
      obtain ⟨rfl, rfl⟩ := List.cons.inj hsplit
      exact Or.inl ⟨rfl, hmarks, hbefore, hmore⟩
    | cons d word =>
      obtain ⟨rfl, rfl⟩ := List.cons.inj hsplit
      refine Or.inr ⟨word, marks, rfl, hmarks, ?_, hmore⟩
      rwa [List.reverse_cons, List.append_assoc] at hbefore
  · rintro (⟨rfl, hmarks, hbefore, hmore⟩ | ⟨word, marks, rfl, hmarks, hbefore, hmore⟩)
    · exact ⟨[], rest, rfl, hmarks, hbefore, hmore⟩
    · refine ⟨c :: word, marks, rfl, hmarks, ?_, hmore⟩
      rwa [List.reverse_cons, List.append_assoc]

instance decidableReopensAfter (before : List Char) :
    (typed more : List Char) → Decidable (ReopensAfter before typed more)
  | [], more => isFalse (not_reopensAfter_nil before more)
  | c :: rest, more =>
    have := decidableReopensAfter (c :: before) rest more
    decidable_of_iff' _ reopensAfter_cons

/-- **A word is taken up again.** What is typed ends with a capital sigma as the last letter of a word, and goes on
with a letter. On either side of the sigma, characters that are passed over may stand in between. -/
def Reopens (typed more : String) : Prop := ReopensAfter [] typed.toList more.toList

instance (typed more : String) : Decidable (Reopens typed more) :=
  inferInstanceAs (Decidable (ReopensAfter [] typed.toList more.toList))

/-! ## Small letters of a longer text -/

/-- The small form of a character between `before` (nearest first) and `rest`. -/
def lowerAt (before : List Char) (c : Char) (rest : List Char) : List Char :=
  if c = capitalSigma then [if endsWord before rest then finalSigma else smallSigma] else smallForm c

theorem lowerAfter_cons (before : List Char) (c : Char) (rest : List Char) :
    lowerAfter before (c :: rest) = lowerAt before c rest ++ lowerAfter (c :: before) rest := rfl

/-- A character keeps its small form when the text goes on, unless it is a sigma that is no longer the end of a word. -/
theorem lowerAt_append
    (h : ¬ (c = capitalSigma ∧ endsWord before rest = true ∧ endsWord before (rest ++ more) = false)) :
    lowerAt before c (rest ++ more) = lowerAt before c rest := by
  unfold lowerAt
  by_cases hc : c = capitalSigma
  · have hsame : endsWord before (rest ++ more) = endsWord before rest := by
      cases hlong : endsWord before (rest ++ more) with
      | true => exact (endsWord_of_append hlong).symm
      | false =>
        refine (Bool.eq_false_iff.mpr ?_).symm
        intro hshort
        exact h ⟨hc, hshort, hlong⟩
    rw [hsame]
  · rw [if_neg hc, if_neg hc]

/-- **What starts with the longer text starts with the shorter one**, in small letters, exactly if typing on took no
word up again. -/
theorem lowerAfter_prefix_iff (h : lowerAfter before (typed ++ more) <+: text) :
    lowerAfter before typed <+: text ↔ ¬ ReopensAfter before typed more := by
  induction typed generalizing before text with
  | nil => exact ⟨fun _ => not_reopensAfter_nil before more, fun _ => List.nil_prefix⟩
  | cons c rest ih =>
    rw [List.cons_append, lowerAfter_cons] at h
    rw [lowerAfter_cons, reopensAfter_cons, not_or]
    obtain ⟨tail, rfl⟩ := h
    by_cases hlost : c = capitalSigma ∧ endsWord before rest = true ∧ endsWord before (rest ++ more) = false
    · -- the text has the sigma of the inside of a word here, and the shorter text asks for the other one
      obtain ⟨hc, hshort, hlong⟩ := hlost
      refine ⟨?_, fun hnot => absurd ⟨hc, hshort, hlong⟩ hnot.1⟩
      intro hstart
      unfold lowerAt at hstart
      rw [if_pos hc, if_pos hc, hshort, hlong] at hstart
      have hhead : finalSigma = smallSigma := (List.cons_prefix_cons.mp hstart).1
      exact absurd hhead (by decide)
    · have hrest : lowerAfter (c :: before) rest <+: lowerAfter (c :: before) (rest ++ more) ++ tail ↔
          ¬ ReopensAfter (c :: before) rest more := ih (List.prefix_append _ _)
      rw [lowerAt_append hlost, List.append_assoc, List.prefix_append_right_inj, hrest]
      exact ⟨fun hnot => ⟨hlost, hnot⟩, fun hnot => hnot.2⟩

end Text

/-! ## Members -/

/-- Of a name that matches the longer text it only depends on the two parts whether it matches the shorter one. -/
theorem startsAs_iff_not_reopens {typed more name : String} (h : startsAs (typed ++ more) name = true) :
    startsAs typed name = true ↔ ¬ Text.Reopens typed more := by
  rw [startsAs_iff] at h ⊢
  unfold Text.lowercase at h ⊢
  rw [String.toList_append] at h
  exact Text.lowerAfter_prefix_iff h

section Members

variable {α : Type} (name : α → String) (members : List α) (typed more : String)

/-- A member whose name begins as typed, character for character, is among those that match unless the rest of the name
takes up a word again. -/
theorem mem_filter_startsAs_iff {m : α} (hm : m ∈ members) (hname : name m = typed ++ more) :
    m ∈ members.filter (fun m => startsAs typed (name m)) ↔ ¬ Text.Reopens typed more := by
  have hwhole : startsAs (typed ++ more) (name m) = true := by
    rw [hname]
    exact startsAs_iff.mpr (List.prefix_refl _)
  rw [List.mem_filter, startsAs_iff_not_reopens hwhole]
  exact ⟨fun h => h.2, fun h => ⟨hm, h⟩⟩

/-- Typing on narrows the list, unless it takes up a word again and a member goes with the longer text. -/
theorem filter_startsAs_sublist_iff :
    (members.filter fun m => startsAs (typed ++ more) (name m)).Sublist
        (members.filter fun m => startsAs typed (name m)) ↔
      (Text.Reopens typed more → members.filter (fun m => startsAs (typed ++ more) (name m)) = []) := by
  constructor
  · intro hsub hreopens
    apply List.filter_eq_nil_iff.mpr
    intro m hm hlong
    have hshort : m ∈ members.filter fun m => startsAs typed (name m) :=
      hsub.subset (List.mem_filter.mpr ⟨hm, hlong⟩)
    exact (startsAs_iff_not_reopens hlong).mp (List.mem_filter.mp hshort).2 hreopens
  · intro hnone
    by_cases hreopens : Text.Reopens typed more
    · rw [hnone hreopens]
      exact List.nil_sublist _
    · apply List.monotone_filter_right
      intro m hlong
      exact (startsAs_iff_not_reopens hlong).mpr hreopens

end Members

namespace ScriptType

/-- **Typing on narrows the members, but for a word taken up again.** For every type and all texts: a property or method
whose name consists of what was typed and some more is on offer exactly if the rest of its name does not take up a word
again. Typing `more` gives a sublist of the properties and of the methods, unless it takes up a word again and there are
any that match the longer text. -/
theorem members_narrow_exactly (t : ScriptType) (typed more : String) :
    (∀ q ∈ t.properties, q.name = typed ++ more →
      (q ∈ matchingProperties (some t) typed ↔ ¬ Text.Reopens typed more)) ∧
    (∀ m ∈ t.methods, m.name = typed ++ more →
      (m ∈ matchingMethods (some t) typed ↔ ¬ Text.Reopens typed more)) ∧
    ((matchingProperties (some t) (typed ++ more)).Sublist (matchingProperties (some t) typed) ↔
      (Text.Reopens typed more → matchingProperties (some t) (typed ++ more) = [])) ∧
    ((matchingMethods (some t) (typed ++ more)).Sublist (matchingMethods (some t) typed) ↔
      (Text.Reopens typed more → matchingMethods (some t) (typed ++ more) = [])) := by
  refine ⟨?_, ?_, ?_, ?_⟩
  · intro q hq hname
    exact mem_filter_startsAs_iff Field.name t.properties typed more hq hname
  · intro m hm hname
    exact mem_filter_startsAs_iff Method.name t.methods typed more hm hname
  · exact filter_startsAs_sublist_iff Field.name t.properties typed more
  · exact filter_startsAs_sublist_iff Method.name t.methods typed more

/-- The type of a host with Greek names: a property with a sigma inside a word, and a method with one at the end,
too. -/
def lexicon : ScriptType :=
  .host ⟨"Lexicon", "host.Lexicon", [⟨"ΟΣΑ", .predefined .int⟩], [⟨"ΟΣΟΣ", .predefined .int, []⟩]⟩

/-- After the first letter both members of `lexicon` are on offer, and the rest of the name only narrows them. After the
second letter the property is not on offer. -/
theorem members_narrow_exactly_lexicon :
    (⟨"ΟΣΑ", .predefined .int⟩ : Field ScriptType) ∈ matchingProperties (some lexicon) "Ο" ∧
    (⟨"ΟΣΟΣ", .predefined .int, []⟩ : Method ScriptType) ∈ matchingMethods (some lexicon) "Ο" ∧
    (matchingProperties (some lexicon) ("Ο" ++ "ΣΑ")).Sublist (matchingProperties (some lexicon) "Ο") ∧
    (matchingMethods (some lexicon) ("Ο" ++ "ΣΟΣ")).Sublist (matchingMethods (some lexicon) "Ο") ∧
    (⟨"ΟΣΑ", .predefined .int⟩ : Field ScriptType) ∉ matchingProperties (some lexicon) "ΟΣ" := by
  have hproperty : ¬ Text.Reopens "Ο" "ΣΑ" := by decide +kernel
  have hmethod : ¬ Text.Reopens "Ο" "ΣΟΣ" := by decide +kernel
  have hreopens : Text.Reopens "ΟΣ" "Α" := by decide +kernel
  refine ⟨?_, ?_, ?_, ?_, ?_⟩
  · exact ((members_narrow_exactly lexicon "Ο" "ΣΑ").1 _ (List.mem_singleton_self _) (by decide)).mpr hproperty
  · exact ((members_narrow_exactly lexicon "Ο" "ΣΟΣ").2.1 _ (List.mem_singleton_self _) (by decide)).mpr hmethod
  · exact (members_narrow_exactly lexicon "Ο" "ΣΑ").2.2.1.mpr fun h => absurd h hproperty
  · exact (members_narrow_exactly lexicon "Ο" "ΣΟΣ").2.2.2.mpr fun h => absurd h hmethod
  · intro hq
    exact ((members_narrow_exactly lexicon "ΟΣ" "Α").1 _ (List.mem_singleton_self _) (by decide)).mp hq hreopens

/-- **A member that appears late.** The name of a property of `lexicon` begins with the two letters typed, and the
property is not on offer. When the third letter is typed, it is. -/
theorem member_appears_late :
    lexicon.properties.map Field.name = ["ΟΣ" ++ "Α"] ∧
    (matchingProperties (some lexicon) "ΟΣ").map Field.name = [] ∧
    (matchingProperties (some lexicon) ("ΟΣ" ++ "Α")).map Field.name = ["ΟΣΑ"] ∧
    ¬ (matchingProperties (some lexicon) ("ΟΣ" ++ "Α")).Sublist (matchingProperties (some lexicon) "ΟΣ") := by
  have hshort : (matchingProperties (some lexicon) "ΟΣ").map Field.name = [] := by decide +kernel
  have hlong : (matchingProperties (some lexicon) ("ΟΣ" ++ "Α")).map Field.name = ["ΟΣΑ"] := by decide +kernel
  refine ⟨by decide, hshort, hlong, ?_⟩
  intro hsub
  have hnames := hsub.map Field.name
  rw [hshort, hlong] at hnames
  exact absurd (List.sublist_nil.mp hnames) (List.cons_ne_nil _ _)

end ScriptType
end Caret
