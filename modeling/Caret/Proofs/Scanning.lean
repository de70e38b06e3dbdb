import Caret.Toml.Reader
import Mathlib.Data.List.Infix
/-!
# `Caret.Proofs.Scanning` — what the readers of TOML leave, and why they stop

A reader takes some text away and leaves the rest, so each goes on where the one before it stopped. Only one of them can
stop for another reason than malformed text: the reader of decimal integers, at one with more digits than can be read.
`Scans` says both of a reader. It passes from the parts of a text to the whole, and at the end to the text of a file: a
document is refused for an integer only if the integer stands in it (`oversized_of_parse`).

## Contents
- **Readers.** `Holds` — a text has an integer with a number of digits; `Scans`, `Scans.bind`, `Scans.within`.
- **Single values.** `scans_string`, `scans_moment?`, `scans_number?`.
- **Values and statements.** `scans_value` by induction on the count of steps, `scans_lineByLine`.
- **Documents.** `oversized_of_parse`; `parse_ones` — a document with any number of digits.
-/

namespace Caret.Toml

/-! ## Readers -/

/-- **An integer in a text.** Somewhere in the text stand digits with underscores between them, and the digits are `n`
in number. -/
def Holds (n : Nat) (cs : List Char) : Prop :=
  ∃ run, run <:+: cs ∧ (∀ c ∈ run, c.isDigit = true ∨ c = '_') ∧ run.countP Char.isDigit = n

/-- **What a reader does with a text.** What it leaves is the end of the text, and if it stops at an integer with
too many digits, that integer stands in the text. -/
structure Scans {α : Type} (rest : α → List Char) (cs : List Char) (r : Except Fault α) : Prop where
  leaves : ∀ a, r = .ok a → rest a <:+ cs
  oversized : ∀ n, r = .error (.oversized n) → Text.maxDigits < n ∧ Holds n cs

namespace Scans

variable {α β : Type} {rest : α → List Char} {rest' : β → List Char} {cs cs' : List Char}

theorem ok {a : α} (h : rest a <:+ cs) : Scans rest cs (.ok a) := by
  refine ⟨?_, ?_⟩
  · rintro _ ⟨⟩
    exact h
  · intro n hn
    cases hn

theorem malformed : Scans rest cs (.error .malformed) := by
  refine ⟨?_, ?_⟩
  · intro a ha
    cases ha
  · intro n hn
    cases hn

/-- What is read at the end of a text is read in the text. -/
theorem within {r : Except Fault α} (h : Scans rest cs' r) (hcs : cs' <:+ cs) : Scans rest cs r := by
  refine ⟨fun a ha => (h.leaves a ha).trans hcs, fun n hn => ?_⟩
  obtain ⟨hlarge, run, hrun, hchars, hcount⟩ := h.oversized n hn
  exact ⟨hlarge, run, hrun.trans hcs.isInfix, hchars, hcount⟩

/-- Readers one after the other: the second one starts where the first one stopped. -/
theorem bind {r : Except Fault α} {f : α → Except Fault β} (h : Scans rest cs r)
    (hf : ∀ a, r = .ok a → Scans rest' (rest a) (f a)) : Scans rest' cs (r >>= f) := by
  cases r with
  | ok a => exact (hf a rfl).within (h.leaves a rfl)
  | error e =>
    refine ⟨?_, ?_⟩
    · intro b hb
      cases hb
    · rintro n ⟨⟩
      exact h.oversized n rfl

/-- What is made of a result does not matter as long as the rest stays behind the rest. -/
theorem map {r : Except Fault α} {f : α → β} (h : Scans rest cs r) (hf : ∀ a, rest' (f a) <:+ rest a) :
    Scans rest' cs (r.map f) := by
  cases r with
  | ok a => exact .ok ((hf a).trans (h.leaves a rfl))
  | error e =>
    refine ⟨?_, ?_⟩
    · intro b hb
      cases hb
    · rintro n ⟨⟩
      exact h.oversized n rfl

end Scans

theorem skipSpace_suffix (cs : List Char) : skipSpace cs <:+ cs := List.dropWhile_suffix _

/-! ## Single values -/

section Strings

variable {cs : List Char}

theorem scans_codePoint (width : Nat) : Scans Prod.snd cs (codePoint width cs) := by
  unfold codePoint
  split
  · exact .malformed
  · simp only
    split
    · exact .ok (List.drop_suffix _ _)
    · exact .malformed

theorem scans_escape (multiline : Bool) : Scans Prod.snd cs (escape multiline cs) := by
  cases cs with
  | nil => exact .malformed
  | cons c cs =>
    rw [escape]
    split
    · split
      · exact .ok (List.nil_suffix)
      · next tail heq =>
        have htail : '\n' :: tail <:+ c :: cs := heq ▸ skipSpace_suffix (c :: cs)
        exact .ok ((List.dropWhile_suffix _).trans ((List.suffix_cons _ _).trans htail))
      · exact .malformed
    · split
      · exact (scans_codePoint 4).within (List.suffix_cons _ _)
      · split
        · exact (scans_codePoint 8).within (List.suffix_cons _ _)
        · split
          · exact .ok (List.suffix_cons _ _)
          · exact .malformed

theorem scans_basicRest (multiline : Bool) (fuel : Nat) (acc : List Char) :
    Scans Prod.snd cs (basicRest multiline fuel acc cs) := by
  -- by induction on the fuel, for all characters read so far
  induction fuel generalizing acc cs with
  | zero => exact .malformed
  | succ fuel ih =>
    cases cs with
    | nil => exact .malformed
    | cons c cs =>
      have htail : cs <:+ c :: cs := List.suffix_cons _ _
      unfold basicRest
      split
      · split
        · split
          · exact .ok (((List.suffix_cons _ _).trans (List.suffix_cons _ _)).trans htail)
          · exact (ih _).within htail
        · exact .ok htail
      · split
        · have hescape : Scans Prod.snd (c :: cs) (escape multiline cs) := (scans_escape multiline).within htail
          split
          · next e he =>
            refine ⟨?_, ?_⟩
            · intro a ha
              cases ha
            · rintro n ⟨⟩
              exact hescape.oversized n he
          · next out tail ho => exact (ih _).within (hescape.leaves _ ho)
        · split
          · exact .malformed
          · exact (ih _).within htail

theorem scans_literalRest (acc : List Char) : Scans Prod.snd cs (literalRest acc cs) := by
  induction cs generalizing acc with
  | nil => exact .malformed
  | cons c cs ih =>
    have htail : cs <:+ c :: cs := List.suffix_cons _ _
    unfold literalRest
    split
    · exact .ok htail
    · split
      · exact .malformed
      · exact (ih _).within htail

theorem scans_literalLines (acc : List Char) : Scans Prod.snd cs (literalLines acc cs) := by
  induction cs generalizing acc with
  | nil => exact .malformed
  | cons c cs ih =>
    have htail : cs <:+ c :: cs := List.suffix_cons _ _
    unfold literalLines
    split
    · split
      · exact .ok (((List.suffix_cons _ _).trans (List.suffix_cons _ _)).trans htail)
      · exact (ih _).within htail
    · split
      · exact .malformed
      · exact (ih _).within htail

theorem dropLineEnd_suffix (cs : List Char) : dropLineEnd cs <:+ cs := by
  unfold dropLineEnd
  split
  · exact List.suffix_cons _ _
  · exact List.suffix_refl _

theorem scans_oneLine (quote : Char) : Scans Prod.snd cs (oneLine quote cs) := by
  unfold oneLine
  split
  · exact scans_literalRest []
  · exact scans_basicRest false _ []

theorem scans_lines (quote : Char) : Scans Prod.snd cs (lines quote cs) := by
  unfold lines
  refine Scans.within ?_ (dropLineEnd_suffix cs)
  refine Scans.map (?_ : Scans Prod.snd _ _) fun a => List.drop_suffix _ _
  split
  · exact scans_literalLines []
  · exact scans_basicRest true _ []

/-- A string of any of the four sorts. No number is read in it, so it is never too long. -/
theorem scans_string (quote : Char) : Scans Prod.snd cs (string quote cs) := by
  unfold string
  split
  · split
    · exact (scans_lines quote).within ((List.suffix_cons _ _).trans (List.suffix_cons _ _))
    · exact scans_oneLine quote
  · exact scans_oneLine quote

end Strings

section Moments

variable {cs rest : List Char}

theorem fixedDigits?_suffix {width low high n : Nat} (h : fixedDigits? width low high cs = some (n, rest)) :
    rest <:+ cs := by
  unfold fixedDigits? at h
  split at h
  · contradiction
  · simp only at h
    split at h
    · obtain ⟨-, rfl⟩ := Prod.mk.inj (Option.some.inj h)
      exact List.drop_suffix _ _
    · contradiction

theorem after?_suffix {c : Char} (h : after? c cs = some rest) : rest <:+ cs := by
  cases cs with
  | nil => contradiction
  | cons d cs =>
    rw [after?] at h
    split at h
    · obtain rfl := Option.some.inj h
      exact List.suffix_cons _ _
    · contradiction

/-- A mark and a number after it. -/
theorem markedDigits?_suffix {c : Char} {width low high n : Nat}
    (h : (after? c cs >>= fixedDigits? width low high) = some (n, rest)) : rest <:+ cs := by
  obtain ⟨tail, htail, hrest⟩ := Option.bind_eq_some_iff.mp h
  exact (fixedDigits?_suffix hrest).trans (after?_suffix htail)

/-- Dates and times are of fixed widths, so that their digits are never counted against the limit. -/
theorem date?_suffix {date : Nat × Nat × Nat} (h : date? cs = some (date, rest)) : rest <:+ cs := by
  obtain ⟨⟨_, cs₁⟩, h₁, h⟩ := Option.bind_eq_some_iff.mp h
  obtain ⟨⟨_, cs₂⟩, h₂, h⟩ := Option.bind_eq_some_iff.mp h
  obtain ⟨⟨_, cs₃⟩, h₃, h⟩ := Option.bind_eq_some_iff.mp h
  obtain ⟨-, rfl⟩ := Prod.mk.inj (Option.some.inj h)
  exact (markedDigits?_suffix h₃).trans ((markedDigits?_suffix h₂).trans (fixedDigits?_suffix h₁))

theorem afterFraction_suffix (cs : List Char) : afterFraction cs <:+ cs := by
  unfold afterFraction
  split
  · split
    · exact (List.dropWhile_suffix _).trans ((List.suffix_cons _ _).trans (List.suffix_cons _ _))
    · exact List.suffix_refl _
  · exact List.suffix_refl _

theorem afterTime?_suffix (h : afterTime? cs = some rest) : rest <:+ cs := by
  obtain ⟨⟨_, cs₁⟩, h₁, h⟩ := Option.bind_eq_some_iff.mp h
  obtain ⟨⟨_, cs₂⟩, h₂, h⟩ := Option.bind_eq_some_iff.mp h
  obtain ⟨⟨_, cs₃⟩, h₃, h⟩ := Option.bind_eq_some_iff.mp h
  obtain rfl := Option.some.inj h
  exact (afterFraction_suffix cs₃).trans ((markedDigits?_suffix h₃).trans
    ((markedDigits?_suffix h₂).trans (fixedDigits?_suffix h₁)))

theorem afterHours?_suffix (h : afterHours? cs = some rest) : rest <:+ cs := by
  obtain ⟨⟨_, cs₁⟩, h₁, h⟩ := Option.bind_eq_some_iff.mp h
  obtain ⟨⟨_, cs₂⟩, h₂, h⟩ := Option.bind_eq_some_iff.mp h
  obtain rfl := Option.some.inj h
  exact (markedDigits?_suffix h₂).trans (fixedDigits?_suffix h₁)

theorem afterOffset_suffix (cs : List Char) : afterOffset cs <:+ cs := by
  cases cs with
  | nil => exact List.suffix_refl _
  | cons c cs =>
    rw [afterOffset]
    split
    · exact List.suffix_cons _ _
    · split
      · cases h : afterHours? cs with
        | none => exact List.suffix_refl _
        | some tail => exact (afterHours?_suffix h).trans (List.suffix_cons _ _)
      · exact List.suffix_refl _

theorem afterDate_suffix (cs : List Char) : afterDate cs <:+ cs := by
  cases cs with
  | nil => exact List.suffix_refl _
  | cons c cs =>
    rw [afterDate]
    split
    · split
      · next tail h => exact (afterOffset_suffix tail).trans ((afterTime?_suffix h).trans (List.suffix_cons _ _))
      · exact List.suffix_refl _
    · exact List.suffix_refl _

/-- A date, a time or both; in any case what is left is an end of the text. -/
theorem scans_moment? {r : Except Fault (Scanned Data)} (h : moment? cs = some r) : Scans Prod.snd cs r := by
  unfold moment? at h
  split at h
  · next tail hdate =>
    split at h
    · obtain rfl := Option.some.inj h
      exact .ok ((afterDate_suffix tail).trans (date?_suffix hdate))
    · obtain rfl := Option.some.inj h
      exact .malformed
  · split at h
    · next tail htime =>
      obtain rfl := Option.some.inj h
      exact .ok (afterTime?_suffix htime)
    · contradiction

end Moments

section Numbers

variable {cs rest ds : List Char}

/-- The digits that are split off are those of the text in front of what is left. -/
theorem spanDigits_eq {isDigit : Char → Bool} (h : spanDigits isDigit cs = (ds, rest)) :
    ∃ run, cs = run ++ rest ∧ (∀ c ∈ run, isDigit c = true ∨ c = '_') ∧ run.countP isDigit = ds.length := by
  induction cs generalizing ds with
  | nil =>
    obtain ⟨rfl, rfl⟩ := Prod.mk.inj h
    exact ⟨[], rfl, by simp, rfl⟩
  | cons c cs ih =>
    unfold spanDigits at h
    split at h
    · next hdigit =>
      obtain ⟨rfl, hrest⟩ := Prod.mk.inj h
      obtain ⟨run, rfl, hchars, hcount⟩ := ih (Prod.ext rfl hrest)
      refine ⟨c :: run, rfl, List.forall_mem_cons.mpr ⟨Or.inl hdigit, hchars⟩, ?_⟩
      rw [List.countP_cons_of_pos hdigit, hcount, List.length_cons]
    · next hother =>
      split at h
      · next hunderscore =>
        obtain ⟨run, rfl, hchars, hcount⟩ := ih h
        refine ⟨c :: run, rfl, List.forall_mem_cons.mpr ⟨Or.inr hunderscore.1, hchars⟩, ?_⟩
        rw [List.countP_cons_of_neg hother, hcount]
      · obtain ⟨rfl, rfl⟩ := Prod.mk.inj h
        exact ⟨[], rfl, by simp, rfl⟩

/-- Digits that were read are the longest run of digits in front, underscores left aside. -/
theorem digits?_eq {isDigit : Char → Bool} (h : digits? isDigit cs = some (ds, rest)) :
    spanDigits isDigit cs = (ds, rest) := by
  unfold digits? at h
  split at h
  · exact Option.some.inj h
  · contradiction

theorem digits?_suffix {isDigit : Char → Bool} (h : digits? isDigit cs = some (ds, rest)) : rest <:+ cs := by
  obtain ⟨run, rfl, -⟩ := spanDigits_eq (digits?_eq h)
  exact List.suffix_append _ _

/-- Integers to another base than ten have no limit on their digits. -/
theorem otherBase?_suffix {v : Data} (h : otherBase? cs = some (v, rest)) : rest <:+ cs := by
  unfold otherBase? at h
  split at h
  · obtain ⟨_, -, h⟩ := Option.bind_eq_some_iff.mp h
    obtain ⟨⟨_, tail⟩, hdigits, h⟩ := Option.bind_eq_some_iff.mp h
    obtain ⟨-, rfl⟩ := Prod.mk.inj (Option.some.inj h)
    exact (digits?_suffix hdigits).trans ((List.suffix_cons _ _).trans (List.suffix_cons _ _))
  · contradiction

theorem splitSign_suffix (cs : List Char) : (Text.splitSign cs).2 <:+ cs := by
  cases cs with
  | nil => exact List.suffix_refl _
  | cons c cs =>
    rw [Text.splitSign]
    split
    · exact List.suffix_cons _ _
    · split
      · exact List.suffix_cons _ _
      · exact List.suffix_refl _

/-- A whole part stands in front of what is left, and an overlong one is an integer of the text. -/
theorem wholePart?_eq (h : wholePart? cs = some (ds, rest)) :
    rest <:+ cs ∧ (Text.maxDigits < ds.length → Holds ds.length cs) := by
  unfold wholePart? at h
  split at h
  · obtain ⟨rfl, rfl⟩ := Prod.mk.inj (Option.some.inj h)
    refine ⟨List.suffix_cons _ _, fun hlarge => ?_⟩
    rw [List.length_singleton] at hlarge
    exact absurd hlarge (by decide)
  · refine ⟨digits?_suffix h, fun _ => ?_⟩
    obtain ⟨run, rfl, hchars, hcount⟩ := spanDigits_eq (digits?_eq h)
    exact ⟨run, (List.prefix_append run rest).isInfix, hchars, hcount⟩

theorem fraction_suffix (cs : List Char) : (fraction cs).2 <:+ cs := by
  unfold fraction
  split
  · split
    · next hdigits => exact (digits?_suffix hdigits).trans (List.suffix_cons _ _)
    · exact List.suffix_refl _
  · exact List.suffix_refl _

theorem exponent_suffix (cs : List Char) : (exponent cs).2 <:+ cs := by
  unfold exponent
  split
  · exact List.suffix_refl _
  · next c tail =>
    split
    · simp only
      split
      · next hdigits =>
        exact (digits?_suffix hdigits).trans ((splitSign_suffix tail).trans (List.suffix_cons _ _))
      · exact List.suffix_refl _
    · exact List.suffix_refl _

/-- **Where the limit is met.** A decimal integer is the one value that may have too many digits, and then these
digits stand in the text. -/
theorem scans_decimal? {r : Except Fault (Scanned Data)} (h : decimal? cs = some r) : Scans Prod.snd cs r := by
  unfold decimal? at h
  simp only at h
  refine Scans.within ?_ (splitSign_suffix cs)
  generalize (Text.splitSign cs).2 = body at h ⊢
  split at h
  · contradiction
  · next ds tail hwhole =>
    obtain ⟨htail, hholds⟩ := wholePart?_eq hwhole
    have hleft : (exponent (fraction tail).2).2 <:+ body :=
      (exponent_suffix _).trans ((fraction_suffix tail).trans htail)
    split at h
    · split at h
      · obtain rfl := Option.some.inj h
        exact .ok hleft
      · next hlarge =>
        obtain rfl := Option.some.inj h
        refine ⟨?_, ?_⟩
        · intro a ha
          cases ha
        · rintro n ⟨⟩
          exact ⟨Nat.lt_of_not_le hlarge, hholds (Nat.lt_of_not_le hlarge)⟩
    · obtain rfl := Option.some.inj h
      exact .ok hleft

/-- A number: to another base, or in decimal. -/
theorem scans_number? {r : Except Fault (Scanned Data)} (h : number? cs = some r) : Scans Prod.snd cs r := by
  unfold number? at h
  split at h
  · next hother =>
    obtain rfl := Option.some.inj h
    exact .ok (otherBase?_suffix hother)
  · exact scans_decimal? h

theorem afterWord?_suffix {word : String} (h : Text.afterWord? word cs = some rest) : rest <:+ cs := by
  unfold Text.afterWord? at h
  split at h
  · obtain rfl := Option.some.inj h
    exact List.drop_suffix _ _
  · contradiction

theorem special?_suffix {v : Data} (h : special? cs = some (v, rest)) : rest <:+ cs := by
  unfold special? at h
  simp only at h
  refine List.IsSuffix.trans ?_ (splitSign_suffix cs)
  split at h
  · next hinf =>
    obtain ⟨-, rfl⟩ := Prod.mk.inj (Option.some.inj h)
    exact afterWord?_suffix hinf
  · obtain ⟨tail, hnan, heq⟩ := Option.map_eq_some_iff.mp h
    obtain ⟨-, rfl⟩ := Prod.mk.inj heq
    exact afterWord?_suffix hnan

end Numbers

/-! ## Values and statements -/

section Values

variable {cs : List Char}

/-- A part of a key, bare or quoted. -/
theorem scans_keyPart : Scans Prod.snd cs (keyPart cs) := by
  cases cs with
  | nil => exact .malformed
  | cons c cs =>
    rw [keyPart]
    split
    · exact .ok (List.dropWhile_suffix _)
    · split
      · exact (scans_oneLine c).within (List.suffix_cons _ _)
      · exact .malformed

/-- A key with points in it, part by part. -/
theorem scans_key (fuel : Nat) : Scans Prod.snd cs (key fuel cs) := by
  induction fuel generalizing cs with
  | zero => exact .malformed
  | succ fuel ih =>
    refine Scans.bind scans_keyPart fun ⟨part, after⟩ _ => ?_
    have hspace : skipSpace after <:+ after := skipSpace_suffix after
    simp only
    split
    · next tail heq =>
      rw [heq] at hspace
      refine Scans.within ?_ ((skipSpace_suffix tail).trans ((List.suffix_cons _ _).trans hspace))
      exact Scans.bind ih fun _ _ => .ok (List.suffix_refl _)
    · exact .ok hspace

theorem scans_skipComment : Scans id cs (skipComment cs) := by
  unfold skipComment
  split
  · split
    · exact .malformed
    · exact .ok ((List.dropWhile_suffix _).trans (List.suffix_cons _ _))
  · exact .ok (List.suffix_refl _)

/-- Blanks, line ends and comments between the items of an array. -/
theorem scans_skipBetween (fuel : Nat) : Scans id cs (skipBetween fuel cs) := by
  induction fuel generalizing cs with
  | zero => exact .ok (List.suffix_refl _)
  | succ fuel ih =>
    have hspace : cs.dropWhile isSpaceOrEnd <:+ cs := List.dropWhile_suffix _
    unfold skipBetween
    split
    · next heq =>
      rw [heq] at hspace
      exact (Scans.bind scans_skipComment fun _ _ => ih).within hspace
    · exact .ok hspace

/-- The three readers that call each other take one step less of their count each time. -/
theorem scans_value (fuel : Nat) :
    (∀ cs, Scans Prod.snd cs (value fuel cs)) ∧ (∀ cs, Scans Prod.snd cs (items fuel cs)) ∧
      ∀ t cs, Scans Prod.snd cs (inlineFields fuel t cs) := by
  induction fuel with
  | zero => exact ⟨fun _ => .malformed, fun _ => .malformed, fun _ _ => .malformed⟩
  | succ fuel ih =>
    obtain ⟨hvalue, hitems, hfields⟩ := ih
    refine ⟨?_, ?_, ?_⟩
    · -- a value, by what it begins with: a string, an array, a table, a word, a moment or a number
      intro cs
      cases cs with
      | nil => exact .malformed
      | cons c cs =>
        have htail : cs <:+ c :: cs := List.suffix_cons _ _
        unfold value
        split
        · exact ((scans_string c).within htail).map fun _ => List.suffix_refl _
        · split
          · refine (Scans.bind (scans_skipBetween _) fun mid _ => ?_).within htail
            split
            · exact .ok (List.suffix_cons _ _)
            · exact Scans.bind (hitems _) fun _ _ => .ok (List.suffix_refl _)
          · split
            · have hspace := (skipSpace_suffix cs).trans htail
              split
              · next heq =>
                rw [heq] at hspace
                exact .ok ((List.suffix_cons _ _).trans hspace)
              · exact (hfields _ _).within hspace
            · split
              · next hword => exact .ok (afterWord?_suffix hword)
              · next hword _ => exact .ok (afterWord?_suffix hword)
              · split
                · next hmoment => exact scans_moment? hmoment
                · split
                  · next hnumber => exact scans_number? hnumber
                  · split
                    · next hspecial => exact .ok (special?_suffix hspecial)
                    · exact .malformed
    · -- items: a value, and behind a comma the others
      intro cs
      refine Scans.bind (hvalue cs) fun v _ => ?_
      refine Scans.bind (scans_skipBetween _) fun mid _ => ?_
      split
      · exact .ok (List.suffix_cons _ _)
      · refine Scans.within ?_ (List.suffix_cons _ _)
        refine Scans.bind (scans_skipBetween _) fun next _ => ?_
        split
        · exact .ok (List.suffix_cons _ _)
        · exact Scans.bind (hitems _) fun _ _ => .ok (List.suffix_refl _)
      · exact .malformed
    · -- fields: a key, its value, and behind a comma the others
      intro t cs
      refine Scans.bind (scans_key _) fun ⟨keys, after⟩ _ => ?_
      simp only
      split
      · refine Scans.within ?_ ((skipSpace_suffix _).trans (List.suffix_cons _ _))
        refine Scans.bind (hvalue _) fun ⟨v, after⟩ _ => ?_
        simp only
        split
        · exact .malformed
        · have hspace : skipSpace after <:+ after := skipSpace_suffix after
          split
          · next heq =>
            rw [heq] at hspace
            exact .ok ((List.suffix_cons _ _).trans hspace)
          · next heq =>
            rw [heq] at hspace
            exact (hfields _ _).within ((skipSpace_suffix _).trans ((List.suffix_cons _ _).trans hspace))
          · exact .malformed
      · exact .malformed

/-- A change that is refused makes the text malformed. -/
theorem scans_orMalformed {α : Type} {rest : α → List Char} {o : Option α} (h : ∀ a, o = some a → rest a <:+ cs) :
    Scans rest cs (orMalformed o) := by
  cases o with
  | none => exact .malformed
  | some a => exact .ok (h a rfl)

/-- A header is a key up to its closing brackets. Whether it can be carried out has nothing to do with numbers. -/
theorem scans_header (closing : String) (carryOut : KeyPath → Option Document) :
    Scans Prod.snd cs (header closing carryOut cs) := by
  refine Scans.within ?_ (skipSpace_suffix cs)
  refine Scans.bind (scans_key _) fun keys _ => ?_
  have hdone : Scans (fun _ => keys.2) keys.2 (orMalformed (carryOut keys.1)) :=
    scans_orMalformed fun _ _ => List.suffix_refl _
  have hclosed : Scans id keys.2 (orMalformed (Text.afterWord? closing keys.2)) :=
    scans_orMalformed fun _ h => afterWord?_suffix h
  exact hdone.bind fun _ _ => hclosed.bind fun _ _ => .ok (List.suffix_refl _)

/-- A key and its value. -/
theorem scans_keyValue (d : Document) : Scans Prod.snd cs (keyValue d cs) := by
  refine Scans.bind (scans_key _) fun ⟨keys, after⟩ _ => ?_
  simp only
  split
  · refine Scans.within ?_ ((skipSpace_suffix _).trans (List.suffix_cons _ _))
    refine Scans.bind ((scans_value _).1 _) fun v _ => ?_
    have hset : Scans (fun _ => v.2) v.2 (orMalformed (d.setValue keys v.1)) :=
      scans_orMalformed fun _ _ => List.suffix_refl _
    exact hset.bind fun _ _ => .ok (List.suffix_refl _)
  · exact .malformed

/-- One statement, by what the line begins with. -/
theorem scans_statement (d : Document) : Scans Prod.snd cs (statement d cs) := by
  unfold statement
  split
  · exact (scans_header _ _).within ((List.suffix_cons _ _).trans (List.suffix_cons _ _))
  · exact (scans_header _ _).within (List.suffix_cons _ _)
  · exact .ok (List.suffix_refl _)
  · exact .ok (List.suffix_refl _)
  · exact .ok (List.suffix_refl _)
  · exact scans_keyValue d

theorem scans_lineByLine (fuel : Nat) (d : Document) : Scans (fun _ => []) cs (lineByLine fuel d cs) := by
  -- by induction on the lines: a whole text fails as one of its statements does
  induction fuel generalizing d cs with
  | zero => exact .malformed
  | succ fuel ih =>
    refine Scans.within ?_ (skipSpace_suffix cs)
    refine Scans.bind (scans_statement d) fun done _ => ?_
    refine Scans.within ?_ (skipSpace_suffix done.2)
    refine Scans.bind scans_skipComment fun tail _ => ?_
    split
    · exact .ok List.nil_suffix
    · exact (ih _).within (List.suffix_cons _ _)
    · exact .malformed

end Values

/-! ## Documents -/

section Documents

variable {run cs : List Char}

/-- Line ends are made one character first. A run without a line end that stands in front afterwards stood there
before. -/
theorem prefix_of_singleLineEnds (hrun : '\n' ∉ run) (h : run <+: singleLineEnds cs) : run <+: cs := by
  induction run generalizing cs with
  | nil => exact List.nil_prefix
  | cons c run ih =>
    rw [List.mem_cons, not_or] at hrun
    unfold singleLineEnds at h
    split at h
    · exact absurd (List.cons_prefix_cons.mp h).1.symm hrun.1
    · obtain ⟨rfl, hrest⟩ := List.cons_prefix_cons.mp h
      exact List.cons_prefix_cons.mpr ⟨rfl, ih hrun.2 hrest⟩
    · exact h

/-- What stands in a text whose line ends were made single, and has no line end itself, stands in the text. -/
theorem infix_of_singleLineEnds (hrun : '\n' ∉ run) (h : run <:+: singleLineEnds cs) : run <:+: cs := by
  fun_induction singleLineEnds cs with
  | case1 rest ih =>
    rcases List.infix_cons_iff.mp h with hprefix | hinfix
    · cases run with
      | nil => exact List.nil_infix
      | cons c run => exact absurd (List.mem_cons.mpr (Or.inl (List.cons_prefix_cons.mp hprefix).1.symm)) hrun
    · exact (ih hinfix).trans ((List.suffix_cons _ _).trans (List.suffix_cons _ _)).isInfix
  | case2 c rest hne ih =>
    rcases List.infix_cons_iff.mp h with hprefix | hinfix
    · cases run with
      | nil => exact List.nil_infix
      | cons d run =>
        obtain ⟨rfl, hrest⟩ := List.cons_prefix_cons.mp hprefix
        have hnot : '\n' ∉ run := fun hmem => hrun (List.mem_cons_of_mem _ hmem)
        exact (List.cons_prefix_cons.mpr ⟨rfl, prefix_of_singleLineEnds hnot hrest⟩).isInfix
    · exact (ih hinfix).trans (List.suffix_cons _ _).isInfix
  | case3 => exact h

/-- **A document is refused for an integer only if the integer stands in it**, with more digits than can be read. -/
theorem oversized_of_parse {text : String} {n : Nat} (h : parse text = .error (.oversized n)) :
    Text.maxDigits < n ∧ Holds n text.toList := by
  have hlines : lineByLine ((singleLineEnds text.toList).length + 1) {} (singleLineEnds text.toList) =
      .error (.oversized n) := by
    unfold parse at h
    simp only at h
    cases hd : lineByLine ((singleLineEnds text.toList).length + 1) {} (singleLineEnds text.toList) with
    | ok d =>
      rw [hd] at h
      cases h
    | error e =>
      rw [hd] at h
      cases h
      rfl
  obtain ⟨hlarge, run, hrun, hchars, hcount⟩ := (scans_lineByLine _ _).oversized n hlines
  refine ⟨hlarge, run, infix_of_singleLineEnds ?_ hrun, hchars, hcount⟩
  intro hmem
  rcases hchars _ hmem with hdigit | hunderscore
  · exact absurd hdigit (by decide)
  · exact absurd hunderscore (by decide)

end Documents

/-! ### Integers of any length -/

theorem spanDigits_ones (n : Nat) : spanDigits Char.isDigit (List.replicate n '1') = (List.replicate n '1', []) := by
  induction n with
  | zero => rfl
  | succ n ih =>
    have hdigit : ('1').isDigit = true := by decide
    rw [List.replicate_succ, spanDigits, if_pos hdigit, ih]

theorem singleLineEnds_ones (n : Nat) : singleLineEnds (List.replicate n '1') = List.replicate n '1' := by
  induction n with
  | zero => rfl
  | succ n ih =>
    rw [List.replicate_succ]
    show '1' :: singleLineEnds _ = _
    rw [ih]

/-- A text of nothing but ones, more than can be read. -/
theorem decimal?_ones {n : Nat} (h : Text.maxDigits < n) :
    decimal? (List.replicate n '1') = some (.error (.oversized n)) := by
  obtain ⟨k, rfl⟩ : ∃ k, n = k + 1 := ⟨n - 1, by omega⟩
  have hsign : Text.splitSign (List.replicate (k + 1) '1') = (false, List.replicate (k + 1) '1') := rfl
  have hwhole : wholePart? (List.replicate (k + 1) '1') = some (List.replicate (k + 1) '1', []) := by
    show some (spanDigits Char.isDigit (List.replicate (k + 1) '1')) = _
    rw [spanDigits_ones]
  have hlarge : ¬ (List.replicate (k + 1) '1').length ≤ Text.maxDigits := by
    rw [List.length_replicate]
    omega
  unfold decimal?
  simp only [hsign, hwhole]
  show (if _ then if _ then _ else _ else _) = _
  rw [if_pos ⟨rfl, rfl⟩, if_neg hlarge, List.length_replicate]

/-- The same where a value is asked for. -/
theorem value_ones {n : Nat} (h : Text.maxDigits < n) (fuel : Nat) :
    value (fuel + 1) (List.replicate n '1') = .error (.oversized n) := by
  have hdecimal := decimal?_ones h
  obtain ⟨k, rfl⟩ : ∃ k, n = k + 5 := ⟨n - 5, by
    have : Text.maxDigits = 4300 := rfl
    omega⟩
  have hmoment : moment? (List.replicate (k + 5) '1') = none := rfl
  have hnumber : number? (List.replicate (k + 5) '1') = some (.error (.oversized (k + 5))) := hdecimal
  rw [List.replicate_succ] at hmoment hnumber ⊢
  rw [value]
  simp only [hmoment, hnumber]
  rfl

/-- A document that is refused for its one integer, with any number of digits beyond the limit. -/
theorem parse_ones {n : Nat} (h : Text.maxDigits < n) :
    parse (String.ofList ('a' :: '=' :: List.replicate n '1')) = .error (.oversized n) := by
  have hends : singleLineEnds ('a' :: '=' :: List.replicate n '1') = 'a' :: '=' :: List.replicate n '1' := by
    show 'a' :: '=' :: singleLineEnds _ = _
    rw [singleLineEnds_ones]
  have hspace : skipSpace (List.replicate n '1') = List.replicate n '1' := by
    cases n with
    | zero => rfl
    | succ n => rfl
  have hkey : keyValue {} ('a' :: '=' :: List.replicate n '1') = .error (.oversized n) := by
    have hkeys : key ('a' :: '=' :: List.replicate n '1').length ('a' :: '=' :: List.replicate n '1') =
        .ok (["a"], '=' :: List.replicate n '1') := rfl
    rw [keyValue, hkeys]
    show (value _ (skipSpace (List.replicate n '1')) >>= _) = _
    rw [hspace, value_ones h]
    rfl
  unfold parse
  simp only [String.toList_ofList, hends]
  rw [lineByLine]
  show Except.map Document.fields (keyValue {} ('a' :: '=' :: List.replicate n '1') >>= _) = _
  rw [hkey]
  rfl

end Caret.Toml
