import Caret.Text.Markup
/-!
# `Caret.Proofs.Markup` — texts in markup, and back

A text is written into markup character by character, and what is written for a character depends on nothing around it.
Read back, a reference is told from other characters by its ampersand: an ampersand of the text itself is written as a
reference too, so no other one occurs. The two readers below know nothing of how markup is written: `withoutTags` drops
what stands between angle brackets, `withoutReferences` replaces references by the characters that they name.

## Contents
- **Reading.** `withoutTags`, `reference?`, `withoutReferences`.
- **Written texts.** `Inert` and `inert_of_mem_escape` — what can occur in one; `exists_reference_of_ampersand`;
  `withoutReferences_escaped` — what it is read back as; all together in `escape_lossless`.
- **Tags.** `withoutTags_append`, `withoutTags_element`.
-/

namespace Caret.Text

/-! ## Reading markup -/

/-- A text without its tags; `inside` says whether it starts within one. -/
def withoutTags (inside : Bool) : List Char → List Char
  | [] => []
  | c :: rest =>
    if inside then withoutTags (c != '>') rest
    else if c = '<' then withoutTags true rest
    else c :: withoutTags false rest

/-- The character that a reference at the front of a text names, and what follows the reference. -/
def reference? : List Char → Option (Char × List Char)
  | '&' :: '#' :: rest =>
    match rest.takeWhile Char.isDigit, rest.dropWhile Char.isDigit with
    | d :: ds, ';' :: rest => some (Char.ofNat (Nat.ofDigitChars 10 (d :: ds) 0), rest)
    | _, _ => none
  | _ => none

theorem length_lt_of_reference? {cs rest : List Char} {c : Char} (h : reference? cs = some (c, rest)) :
    rest.length < cs.length := by
  unfold reference? at h
  split at h
  · next after =>
    have hdrop : (after.dropWhile Char.isDigit).length ≤ after.length := (List.dropWhile_sublist _).length_le
    split at h
    · next heq =>
      rw [heq, List.length_cons] at hdrop
      obtain ⟨-, rfl⟩ := Prod.mk.inj (Option.some.inj h)
      simp only [List.length_cons]
      omega
    · contradiction
  · contradiction

/-- A text with its references replaced by the characters that they name. -/
def withoutReferences (cs : List Char) : List Char :=
  match _h : reference? cs with
  | some (c, rest) => c :: withoutReferences rest
  | none =>
    match cs with
    | [] => []
    | c :: rest => c :: withoutReferences rest
termination_by cs.length
decreasing_by
  · exact length_lt_of_reference? _h
  · simp

theorem withoutReferences_nil : withoutReferences [] = [] := by
  rw [withoutReferences]
  rfl

theorem withoutReferences_of_some {cs rest : List Char} {c : Char} (h : reference? cs = some (c, rest)) :
    withoutReferences cs = c :: withoutReferences rest := by
  rw [withoutReferences]
  split
  · next heq =>
    obtain ⟨rfl, rfl⟩ := Prod.mk.inj (Option.some.inj (h.symm.trans heq))
    rfl
  · next heq =>
    rw [h] at heq
    contradiction

theorem withoutReferences_of_none {c : Char} {rest : List Char} (h : reference? (c :: rest) = none) :
    withoutReferences (c :: rest) = c :: withoutReferences rest := by
  rw [withoutReferences]
  split
  · next heq =>
    rw [h] at heq
    contradiction
  · rfl

/-! ## Written texts -/

/-- A character that neither opens nor closes a tag or an attribute, within ASCII. -/
structure Inert (c : Char) : Prop where
  ascii : c.toNat ≤ 127
  ne_open : c ≠ '<'
  ne_close : c ≠ '>'
  ne_quote : c ≠ '\x22'
  ne_apostrophe : c ≠ '\x27'

theorem inert_of_isDigit {c : Char} (h : c.isDigit = true) : Inert c := by
  have hbounds := Char.isDigit_iff_toNat.mp h
  refine ⟨Nat.le_trans hbounds.2 (by decide), ?_, ?_, ?_, ?_⟩ <;> rintro rfl <;> contradiction

theorem inert_of_mem_reference {c d : Char} (h : d ∈ reference c) : Inert d := by
  unfold reference at h
  simp only [List.mem_cons, List.mem_append, List.not_mem_nil, or_false] at h
  rcases h with rfl | rfl | hdigit | rfl
  · exact ⟨by decide, by decide, by decide, by decide, by decide⟩
  · exact ⟨by decide, by decide, by decide, by decide, by decide⟩
  · exact inert_of_isDigit (Nat.isDigit_of_mem_toDigits (by decide) (by decide) hdigit)
  · exact ⟨by decide, by decide, by decide, by decide, by decide⟩

theorem inert_of_needsReference_eq_false {c : Char} (h : needsReference c = false) : Inert c := by
  simp only [needsReference, Bool.or_eq_false_iff, decide_eq_false_iff_not, beq_eq_false_iff_ne] at h
  obtain ⟨⟨⟨⟨⟨hascii, hquote⟩, hapostrophe⟩, hopen⟩, hclose⟩, -⟩ := h
  exact ⟨Nat.le_of_not_lt hascii, hopen, hclose, hquote, hapostrophe⟩

/-- **A written text cannot break the markup around it.** -/
theorem inert_of_mem_escape {s : String} {c : Char} (h : c ∈ (escape s).toList) : Inert c := by
  rw [escape, String.toList_ofList] at h
  obtain ⟨d, -, hd⟩ := List.mem_flatMap.mp h
  unfold escapeChar at hd
  cases hneeds : needsReference d with
  | true =>
    rw [hneeds] at hd
    exact inert_of_mem_reference hd
  | false =>
    rw [hneeds] at hd
    rw [List.mem_singleton.mp hd]
    exact inert_of_needsReference_eq_false hneeds

/-- The digits of a reference end at its semicolon, so the reference is read back whatever follows it. -/
theorem reference?_reference (c : Char) (rest : List Char) : reference? (reference c ++ rest) = some (c, rest) := by
  have hdigits : ∀ d ∈ Nat.toDigits 10 c.toNat, d.isDigit = true :=
    fun d hd => Nat.isDigit_of_mem_toDigits (by decide) (by decide) hd
  have htake : (Nat.toDigits 10 c.toNat ++ ';' :: rest).takeWhile Char.isDigit = Nat.toDigits 10 c.toNat := by
    rw [List.takeWhile_append_of_pos hdigits, List.takeWhile_cons_of_neg (by decide), List.append_nil]
  have hdrop : (Nat.toDigits 10 c.toNat ++ ';' :: rest).dropWhile Char.isDigit = ';' :: rest := by
    rw [List.dropWhile_append_of_pos hdigits, List.dropWhile_cons_of_neg (by decide)]
  have hvalue : Char.ofNat (Nat.ofDigitChars 10 (Nat.toDigits 10 c.toNat) 0) = c := by
    rw [Nat.ofDigitChars_toDigits (by decide) (by decide), Char.ofNat_toNat]
  have hshape : reference c ++ rest = '&' :: '#' :: (Nat.toDigits 10 c.toNat ++ ';' :: rest) := by
    simp [reference]
  rw [hshape, reference?, htake, hdrop]
  cases hcs : Nat.toDigits 10 c.toNat with
  | nil => exact absurd hcs Nat.toDigits_ne_nil
  | cons d ds =>
    rw [hcs] at hvalue
    simp only [hvalue]

theorem reference?_eq_none {c : Char} (h : c ≠ '&') (rest : List Char) : reference? (c :: rest) = none := by
  unfold reference?
  split
  · next heq =>
    obtain ⟨rfl, -⟩ := List.cons.inj heq
    contradiction
  · rfl

/-- One character is read back. -/
theorem withoutReferences_escapeChar (c : Char) (rest : List Char) :
    withoutReferences (escapeChar c ++ rest) = c :: withoutReferences rest := by
  unfold escapeChar
  cases hneeds : needsReference c with
  | true => exact withoutReferences_of_some (reference?_reference c rest)
  | false =>
    have hamp : c ≠ '&' := by
      rintro rfl
      contradiction
    exact withoutReferences_of_none (reference?_eq_none hamp rest)

/-- **A written text is read back,** whatever stands behind it. -/
theorem withoutReferences_escaped (cs rest : List Char) :
    withoutReferences (cs.flatMap escapeChar ++ rest) = cs ++ withoutReferences rest := by
  induction cs with
  | nil => rfl
  | cons c cs ih =>
    rw [List.flatMap_cons, List.append_assoc, withoutReferences_escapeChar, ih]
    rfl

/-- The only ampersand in what is written for a character is the first sign of a reference. -/
theorem eq_reference_of_ampersand {c : Char} {before after : List Char} (h : escapeChar c = before ++ '&' :: after) :
    before = [] ∧ escapeChar c = reference c := by
  unfold escapeChar at h ⊢
  cases hneeds : needsReference c with
  | false =>
    rw [hneeds, if_neg (by decide)] at h
    have hmem : '&' ∈ [c] := by
      rw [h]
      simp
    rw [← List.mem_singleton.mp hmem] at hneeds
    contradiction
  | true =>
    rw [hneeds, if_pos rfl] at h
    refine ⟨?_, if_pos rfl⟩
    cases before with
    | nil => rfl
    | cons b bs =>
      -- further in there are only a hash, digits and a semicolon
      have htail : '#' :: (Nat.toDigits 10 c.toNat ++ [';']) = bs ++ '&' :: after := (List.cons.inj h).2
      have hmem : '&' ∈ '#' :: (Nat.toDigits 10 c.toNat ++ [';']) := by
        rw [htail]
        simp
      simp only [List.mem_cons, List.mem_append, List.not_mem_nil, or_false] at hmem
      rcases hmem with hhash | hdigit | hsemicolon
      · exact absurd hhash (by decide)
      · exact absurd (Nat.isDigit_of_mem_toDigits (by decide) (by decide) hdigit) (by decide)
      · exact absurd hsemicolon (by decide)

/-- **Every ampersand of a written text begins a reference** to a character of the text. -/
theorem exists_reference_of_ampersand {cs before after : List Char}
    (h : cs.flatMap escapeChar = before ++ '&' :: after) : ∃ c ∈ cs, ∃ rest, '&' :: after = reference c ++ rest := by
  induction cs generalizing before with
  | nil => simp at h
  | cons c cs ih =>
    rw [List.flatMap_cons, List.append_eq_append_iff] at h
    rcases h with ⟨skipped, -, hrest⟩ | ⟨own, hown, hrest⟩
    · obtain ⟨d, hd, hreference⟩ := ih hrest
      exact ⟨d, List.mem_cons_of_mem c hd, hreference⟩
    · cases own with
      | nil =>
        obtain ⟨d, hd, hreference⟩ := ih (show cs.flatMap escapeChar = [] ++ '&' :: after from hrest.symm)
        exact ⟨d, List.mem_cons_of_mem c hd, hreference⟩
      | cons a own =>
        obtain ⟨rfl, hafter⟩ := List.cons.inj hrest
        obtain ⟨rfl, hreference⟩ := eq_reference_of_ampersand hown
        refine ⟨c, List.mem_cons_self, cs.flatMap escapeChar, ?_⟩
        rw [← hreference, hown, hafter]
        rfl

/-- The whole of a written text is read back. -/
theorem withoutReferences_escape (s : String) : withoutReferences (escape s).toList = s.toList := by
  have h := withoutReferences_escaped s.toList []
  rw [List.append_nil, withoutReferences_nil, List.append_nil] at h
  rw [escape, String.toList_ofList, h]

theorem escape_append (a b : String) : escape (a ++ b) = escape a ++ escape b := by
  rw [escape, String.toList_append, List.flatMap_append, String.ofList_append]
  rfl

theorem escape_injective : Function.Injective escape := by
  intro a b h
  apply String.toList_injective
  rw [← withoutReferences_escape a, h, withoutReferences_escape]

/-- **Writing a text is safe and loses nothing.** What is written has no character outside ASCII and none that opens
or closes a tag or an attribute. Every ampersand in it begins a reference to a character of the text, by its code in
decimal, and with the references replaced by their characters it is the text again. So no two texts are written
alike. Texts one behind the other are written one behind the other. -/
theorem escape_lossless :
    (∀ s : String,
      (∀ c ∈ (escape s).toList, Inert c) ∧
      (∀ before after, (escape s).toList = before ++ '&' :: after →
        ∃ c ∈ s.toList, ∃ rest, after = '#' :: (Nat.toDigits 10 c.toNat ++ ';' :: rest)) ∧
      String.ofList (withoutReferences (escape s).toList) = s) ∧
    Function.Injective escape ∧
    ∀ a b : String, escape (a ++ b) = escape a ++ escape b := by
  refine ⟨fun s => ⟨fun c => inert_of_mem_escape, ?_, ?_⟩, escape_injective, escape_append⟩
  · intro before after h
    rw [escape, String.toList_ofList] at h
    obtain ⟨c, hc, rest, hreference⟩ := exists_reference_of_ampersand h
    refine ⟨c, hc, rest, ?_⟩
    simpa [reference] using hreference
  · rw [withoutReferences_escape, String.ofList_toList]

/-- A text that looks like a reference is not taken for one. -/
theorem escape_lossless_of_reference :
    (escape "&#60;é").toList = [] ++ '&' :: "#38;#60;&#233;".toList ∧
    (∃ c ∈ "&#60;é".toList, ∃ rest, "#38;#60;&#233;".toList = '#' :: (Nat.toDigits 10 c.toNat ++ ';' :: rest)) ∧
    (∀ c ∈ "&#38;#60;&#233;".toList, Inert c) ∧
    String.ofList (withoutReferences "&#38;#60;&#233;".toList) = "&#60;é" := by
  have hwritten : escape "&#60;é" = "&#38;#60;&#233;" := by decide
  obtain ⟨hinert, hampersand, hback⟩ := escape_lossless.1 "&#60;é"
  rw [hwritten] at hinert hampersand hback ⊢
  have hfirst : "&#38;#60;&#233;".toList = [] ++ '&' :: "#38;#60;&#233;".toList := by decide
  exact ⟨hfirst, hampersand _ _ hfirst, hinert, hback⟩

/-! ## Tags -/

/-- A stretch without an opening bracket stays as it is. -/
theorem withoutTags_append {cs : List Char} (h : ∀ c ∈ cs, c ≠ '<') (rest : List Char) :
    withoutTags false (cs ++ rest) = cs ++ withoutTags false rest := by
  induction cs with
  | nil => rfl
  | cons c cs ih =>
    obtain ⟨hc, hcs⟩ := List.forall_mem_cons.mp h
    rw [List.cons_append, withoutTags, if_neg (by decide), if_neg hc, ih hcs]
    rfl

theorem withoutTags_inside {cs : List Char} (h : ∀ c ∈ cs, c ≠ '>') (rest : List Char) :
    withoutTags true (cs ++ '>' :: rest) = withoutTags false rest := by
  induction cs with
  | nil => rfl
  | cons c cs ih =>
    obtain ⟨hc, hcs⟩ := List.forall_mem_cons.mp h
    rw [List.cons_append, withoutTags, if_pos rfl, bne_iff_ne.mpr hc, ih hcs]

/-- A tag disappears up to its closing bracket. -/
theorem withoutTags_tag {cs : List Char} (h : ∀ c ∈ cs, c ≠ '>') (rest : List Char) :
    withoutTags false ('<' :: cs ++ '>' :: rest) = withoutTags false rest := by
  rw [List.cons_append, withoutTags, if_neg (by decide), if_pos rfl]
  exact withoutTags_inside h rest

/-- Of a text between two tags the text is left, also where a word stands inside the opening tag. -/
theorem withoutTags_element {opening word ending body closing : String} {a b c : List Char}
    (hopening : opening.toList = '<' :: a) (hending : ending.toList = b ++ ['>'])
    (hclosing : closing.toList = '<' :: c ++ ['>']) (ha : ∀ x ∈ a, x ≠ '>') (hb : ∀ x ∈ b, x ≠ '>')
    (hc : ∀ x ∈ c, x ≠ '>') (hword : ∀ x ∈ word.toList, x ≠ '>') (hbody : ∀ x ∈ body.toList, x ≠ '<')
    (rest : List Char) :
    withoutTags false ((opening ++ word ++ ending ++ body ++ closing).toList ++ rest) =
      body.toList ++ withoutTags false rest := by
  have hshape : (opening ++ word ++ ending ++ body ++ closing).toList ++ rest =
      '<' :: (a ++ (word.toList ++ b)) ++ '>' :: (body.toList ++ ('<' :: c ++ '>' :: rest)) := by
    simp only [String.toList_append, hopening, hending, hclosing, List.append_assoc, List.cons_append, List.nil_append]
  have htag : ∀ x ∈ a ++ (word.toList ++ b), x ≠ '>' := by
    intro x hx
    rcases List.mem_append.mp hx with hx | hx
    · exact ha x hx
    · rcases List.mem_append.mp hx with hx | hx
      · exact hword x hx
      · exact hb x hx
  rw [hshape, withoutTags_tag htag, withoutTags_append hbody, withoutTags_tag hc]

end Caret.Text
