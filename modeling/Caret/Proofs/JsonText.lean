import Caret.Json.Reader
import Caret.Json.Writer
import Caret.Proofs.Digits
/-!
# `Caret.Proofs.JsonText` — documents in text, and back

A written document is read back as what it says, whatever follows it. The reader is told where a part ends by the first
character of the rest: a string by its closing quote, a list or an object by its bracket, a number by the first
character that cannot belong to one. So the statements below are about a written part with any rest after it, and
for numbers the rest must not go on with one.

## Contents
- **What a document says.** `Json.data`, and `Json.Legible` — its integers fit, its keys differ, it is not too deep.
- **Strings.** `stringRest?_writtenChars`, one character after the other by `writtenChar_cases`.
- **Numbers.** `EndsNumber`, `numeral?_toString`.
- **Values.** `items?_written`, `fields?_written`, and `value?_writtenAt` by induction on the document.
- **Files.** `parse?_writtenAt` and `document?_written`.
-/

namespace Caret.Json

/-! ## What a document says -/

mutual

/-- What a written document says. -/
def data : Json → Data
  | .null => .null
  | .int n => .int n
  | .text s => .text s
  | .list items => .list (dataItems items)
  | .object fields => .table (dataFields fields)

/-- What the items of a list say. -/
def dataItems : List Json → List Data
  | [] => []
  | j :: js => data j :: dataItems js

/-- What the fields of an object say. -/
def dataFields : List (String × Json) → List (String × Data)
  | [] => []
  | f :: fs => dataField f :: dataFields fs

/-- What a field of an object says. -/
def dataField : String × Json → String × Data
  | (key, j) => (key, data j)

end

/-- Lists inside a document are gone through by functions of their own. -/
theorem dataItems_eq (items : List Json) : dataItems items = items.map data := by
  induction items with
  | nil => rfl
  | cons j js ih => rw [dataItems, ih, List.map_cons]

theorem dataFields_eq (fields : List (String × Json)) : dataFields fields = fields.map fun f => (f.1, f.2.data) := by
  induction fields with
  | nil => rfl
  | cons f fs ih => rw [dataFields, ih, List.map_cons, dataField]

/-- The document is nested at most `depth` deep, its integers fit into a file, and no object repeats a key. -/
inductive Legible : Nat → Json → Prop
  | null {depth : Nat} : Legible depth .null
  | int {depth : Nat} {n : Int} (least : minInteger ≤ n) (greatest : n ≤ maxInteger) : Legible depth (.int n)
  | text {depth : Nat} {s : String} : Legible depth (.text s)
  | list {depth : Nat} {items : List Json} (values : ∀ j ∈ items, Legible depth j) : Legible (depth + 1) (.list items)
  | object {depth : Nat} {fields : List (String × Json)} (keys : (fields.map Prod.fst).Nodup)
      (values : ∀ f ∈ fields, Legible depth f.2) : Legible (depth + 1) (.object fields)

/-! ## White space -/

/-- Blanks are passed over, and nothing else. -/
theorem skipSpace_append {blank : List Char} (h : ∀ c ∈ blank, isSpace c = true) (cs : List Char) :
    skipSpace (blank ++ cs) = skipSpace cs :=
  List.dropWhile_append_of_pos h

theorem skipSpace_cons {c : Char} (h : isSpace c = false) (cs : List Char) : skipSpace (c :: cs) = c :: cs := by
  simp [skipSpace, h]

/-- Nothing but a line end and spaces starts a new line. -/
theorem isSpace_of_mem_newLine {level : Nat} {c : Char} (h : c ∈ (newLine level).toList) : isSpace c = true := by
  rw [newLine, String.toList_ofList, List.mem_cons, List.mem_replicate] at h
  obtain rfl | ⟨-, rfl⟩ := h <;> rfl

theorem skipSpace_newLine (level : Nat) (cs : List Char) : skipSpace ((newLine level).toList ++ cs) = skipSpace cs :=
  skipSpace_append (fun _ hc => isSpace_of_mem_newLine hc) cs

/-- A value may have white space in front. -/
theorem value?_append {blank : List Char} (h : ∀ c ∈ blank, isSpace c = true) (number? : Numeral → Option Data)
    (fuel depth : Nat) (cs : List Char) : value? number? fuel depth (blank ++ cs) = value? number? fuel depth cs := by
  cases fuel with
  | zero => simp only [value?]
  | succ fuel => rw [value?, value?, skipSpace_append h]

/-- Blanks before an item or a field do not matter. -/
theorem items?_append {blank : List Char} (h : ∀ c ∈ blank, isSpace c = true) (number? : Numeral → Option Data)
    (fuel depth : Nat) (acc : List Data) (cs : List Char) :
    items? number? fuel depth acc (blank ++ cs) = items? number? fuel depth acc cs := by
  cases fuel with
  | zero => simp only [items?]
  | succ fuel => rw [items?, items?, value?_append h]

theorem fields?_append {blank : List Char} (h : ∀ c ∈ blank, isSpace c = true) (number? : Numeral → Option Data)
    (fuel depth : Nat) (acc : List (String × Data)) (cs : List Char) :
    fields? number? fuel depth acc (blank ++ cs) = fields? number? fuel depth acc cs := by
  cases fuel with
  | zero => simp only [fields?]
  | succ fuel =>
    rw [fields?.eq_def, fields?.eq_def]
    simp only [skipSpace_append h]

/-! ## Strings -/

/-- Four hexadecimal digits stand for a control character. -/
theorem hexNumber?_hexDigits {n : Nat} (h : n < 0x20) :
    ∃ h1 h2 h3 h4, Text.hexDigits 4 n = [h1, h2, h3, h4] ∧ hexNumber? [h1, h2, h3, h4] = some n := by
  have hall : ∀ n : Fin 0x20, (Text.hexDigits 4 n).length = 4 ∧ hexNumber? (Text.hexDigits 4 n) = some n.val := by
    decide
  obtain ⟨hlength, hnumber⟩ := hall ⟨n, h⟩
  match hdigits : Text.hexDigits 4 n, hlength with
  | [h1, h2, h3, h4], _ => exact ⟨h1, h2, h3, h4, rfl, hdigits ▸ hnumber⟩

/-- A backslash and a letter are read as the character that they stand for. -/
theorem stringRest?_escape {e c : Char} (h : escaped? e = some c) (hu : e ≠ 'u') (acc rest : List Char) :
    stringRest? acc ('\x5c' :: e :: rest) = stringRest? (c :: acc) rest := by
  rw [stringRest?.eq_def]
  simp [hu, h]

/-- A character is written in one of three ways: as a letter after a backslash, in hexadecimal, or as it is. -/
theorem writtenChar_cases (c : Char) :
    (∃ e, writtenChar c = ['\x5c', e] ∧ escaped? e = some c ∧ e ≠ 'u') ∨
    (c.toNat < 0x20 ∧ writtenChar c = '\x5c' :: 'u' :: Text.hexDigits 4 c.toNat) ∨
    (writtenChar c = [c] ∧ c ≠ '\x22' ∧ c ≠ '\x5c' ∧ ¬ c.toNat < 0x20) := by
  unfold writtenChar
  by_cases hquote : c = '\x22' ∨ c = '\x5c'
  · rw [if_pos hquote]
    obtain rfl | rfl := hquote
    · exact .inl ⟨_, rfl, rfl, by decide⟩
    · exact .inl ⟨_, rfl, rfl, by decide⟩
  rw [if_neg hquote]
  -- the five control characters that have a letter
  iterate 5
    split
    · next h =>
      subst h
      exact .inl ⟨_, rfl, rfl, by decide⟩
  rw [not_or] at hquote
  split
  · next h => exact .inr (.inl ⟨h, rfl⟩)
  · next h => exact .inr (.inr ⟨rfl, hquote.1, hquote.2, h⟩)

/-- What is written for a character is read as the character. -/
theorem stringRest?_writtenChar (acc : List Char) (c : Char) (rest : List Char) :
    stringRest? acc (writtenChar c ++ rest) = stringRest? (c :: acc) rest := by
  rcases writtenChar_cases c with ⟨e, hwritten, he, hu⟩ | ⟨hcontrol, hwritten⟩ | ⟨hwritten, hquote, hslash, hcontrol⟩
  · rw [hwritten]
    exact stringRest?_escape he hu acc rest
  · obtain ⟨h1, h2, h3, h4, hdigits, hnumber⟩ := hexNumber?_hexDigits hcontrol
    -- a control character is no half of a surrogate pair
    have hfirst : ¬(0xd800 ≤ c.toNat ∧ c.toNat < 0xdc00) := by omega
    have hsecond : ¬(0xdc00 ≤ c.toNat ∧ c.toNat < 0xe000) := by omega
    rw [hwritten, hdigits, stringRest?.eq_def]
    simp [hnumber, hfirst, hsecond]
  · rw [hwritten, List.cons_append, List.nil_append, stringRest?.eq_def]
    simp [hquote, hslash, hcontrol]

theorem stringRest?_writtenChars (s acc rest : List Char) :
    stringRest? acc (s.flatMap writtenChar ++ '\x22' :: rest) = some (String.ofList (acc.reverse ++ s), rest) := by
  -- by induction on the characters, for all that were read before them
  induction s generalizing acc with
  | nil => rw [List.flatMap_nil, List.nil_append, List.append_nil, stringRest?.eq_def]; rfl
  | cons c s ih =>
    rw [List.flatMap_cons, List.append_assoc, stringRest?_writtenChar, ih, List.reverse_cons, List.append_assoc,
      List.singleton_append]

/-- The characters of a written string after its opening quote. -/
theorem toList_writtenText (s : String) :
    (writtenText s).toList = '\x22' :: (s.toList.flatMap writtenChar ++ ['\x22']) := by
  rw [writtenText, String.toList_ofList, List.cons_append]

theorem stringRest?_writtenText (s : String) (rest : List Char) :
    stringRest? [] (s.toList.flatMap writtenChar ++ ['\x22'] ++ rest) = some (s, rest) := by
  rw [List.append_assoc, List.singleton_append, stringRest?_writtenChars, List.reverse_nil, List.nil_append,
    String.ofList_toList]

/-! ## Numbers -/

/-- A text does not go on with a number. -/
def EndsNumber (rest : List Char) : Prop :=
  ∀ c ∈ rest.head?, c.isDigit = false ∧ c ≠ '.' ∧ c ≠ 'e' ∧ c ≠ 'E'

/-- A run of digits is read to its end, if what follows does not go on with it. -/
theorem spanDigits_append {ds rest : List Char} (h : ∀ c ∈ ds, c.isDigit = true) (hrest : EndsNumber rest) :
    spanDigits (ds ++ rest) = (ds.map fun c => c.toNat - 0x30, rest) := by
  have hnone : rest.takeWhile Char.isDigit = [] ∧ rest.dropWhile Char.isDigit = rest := by
    cases rest with
    | nil => exact ⟨rfl, rfl⟩
    | cons c rest =>
      have hc : c.isDigit = false := (hrest c rfl).1
      simp [hc]
  rw [spanDigits, List.takeWhile_append_of_pos h, List.dropWhile_append_of_pos h, hnone.1, hnone.2, List.append_nil]

/-- Where a number ends, neither a fraction nor an exponent follows. -/
theorem EndsNumber.fraction? {rest : List Char} (h : EndsNumber rest) : fraction? rest = some ([], rest) := by
  unfold Json.fraction?
  split
  · exact absurd rfl (h '.' rfl).2.1
  · rfl

theorem EndsNumber.exponent? {rest : List Char} (h : EndsNumber rest) : exponent? rest = some (none, rest) := by
  unfold Json.exponent?
  split
  · rfl
  · next c rest =>
    obtain ⟨-, -, he, hE⟩ := h c rfl
    rw [if_neg (not_or.2 ⟨he, hE⟩)]

/-- The decimal digits of a number other than zero do not start with a zero. -/
theorem head?_toDigits {m : Nat} (h : m ≠ 0) : (Nat.toDigits 10 m).head? ≠ some '0' := by
  induction m using Nat.strongRecOn with
  | ind m ih =>
    by_cases hm : m < 10
    · rw [Nat.toDigits_of_lt_base hm]
      have hall : ∀ m : Fin 10, m.val ≠ 0 → [Nat.digitChar m.val].head? ≠ some '0' := by decide
      exact hall ⟨m, hm⟩ h
    · have hfront := ih (m / 10) (by omega) (by omega)
      obtain ⟨c, cs, hcs⟩ := List.exists_cons_of_ne_nil (Nat.toDigits_ne_nil (n := m / 10) (b := 10))
      rw [Nat.toDigits_of_base_le (by decide) (by omega), hcs]
      rw [hcs] at hfront
      exact hfront

/-- The digits of a number in decimal form a whole part: a zero stands alone. -/
theorem not_leading_zero (m : Nat) :
    ¬(((Nat.toDigits 10 m).map fun c => c.toNat - 0x30).head? = some 0
      ∧ 1 < ((Nat.toDigits 10 m).map fun c => c.toNat - 0x30).length) := by
  rintro ⟨hhead, hlength⟩
  rw [List.head?_map, Option.map_eq_some_iff] at hhead
  obtain ⟨c, hc, hzero⟩ := hhead
  have hdigit : c.isDigit = true := Nat.isDigit_of_mem_toDigits (by decide) (by decide) (List.mem_of_mem_head? hc)
  have hlow : 0x30 ≤ c.toNat := (Char.isDigit_iff_toNat.1 hdigit).1
  have hc0 : c = '0' := Char.toNat_inj.1 (by show c.toNat = 0x30; omega)
  by_cases hm : m = 0
  · subst hm
    simp at hlength
  · exact head?_toDigits hm (hc0 ▸ hc)

/-- The decimal digits of a number are split off a text, and they are a whole part. -/
theorem spanDigits_toDigits (m : Nat) {rest : List Char} (hrest : EndsNumber rest) :
    ∃ d ds, spanDigits (Nat.toDigits 10 m ++ rest) = (d :: ds, rest) ∧ Text.ofDigits (d :: ds) = m
      ∧ ¬((d :: ds).head? = some 0 ∧ 1 < (d :: ds).length) := by
  have hdigits : ∀ c ∈ Nat.toDigits 10 m, c.isDigit = true :=
    fun c hc => Nat.isDigit_of_mem_toDigits (by decide) (by decide) hc
  have hspan := spanDigits_append hdigits hrest
  have hvalue := Text.ofDigits_map (Nat.toDigits 10 m)
  rw [Nat.ofDigitChars_toDigits (by decide) (by decide)] at hvalue
  have hzero := not_leading_zero m
  match hds : (Nat.toDigits 10 m).map fun c => c.toNat - 0x30 with
  | [] => exact absurd (List.map_eq_nil_iff.1 hds) Nat.toDigits_ne_nil
  | d :: ds =>
    rw [hds] at hspan hvalue hzero
    exact ⟨d, ds, hspan, hvalue, hzero⟩

/-- The first digit of a number is no minus. -/
theorem toDigits_append_ne (m : Nat) (rest cs : List Char) : Nat.toDigits 10 m ++ rest ≠ '-' :: cs := by
  intro heq
  obtain ⟨c, ds, hds⟩ := List.exists_cons_of_ne_nil (Nat.toDigits_ne_nil (n := m) (b := 10))
  have hdigit : c.isDigit = true :=
    Nat.isDigit_of_mem_toDigits (by decide) (by decide) (hds ▸ List.mem_cons_self)
  rw [hds] at heq
  injection heq with hc
  rw [hc] at hdigit
  exact absurd hdigit (by decide)

/-- Decimal digits are read as the number, after a minus as its opposite. -/
theorem numeral?_sign (negative : Bool) (m : Nat) {rest : List Char} (hrest : EndsNumber rest) :
    numeral? ((if negative then ['-'] else []) ++ (Nat.toDigits 10 m ++ rest))
      = some (⟨negative, m, 0, true⟩, rest) := by
  obtain ⟨d, ds, hspan, hvalue, hzero⟩ := spanDigits_toDigits m hrest
  unfold numeral?
  split
  next sign cs hread =>
  have hparts : (sign, cs) = (negative, Nat.toDigits 10 m ++ rest) := by
    cases negative with
    | true => exact hread.symm
    | false =>
      split at hread
      · next heq => exact absurd heq (toDigits_append_ne m rest _)
      · exact hread.symm
  obtain ⟨rfl, rfl⟩ := Prod.mk.inj hparts
  simp only [hspan, if_neg hzero, hrest.fraction?, hrest.exponent?, List.append_nil, hvalue]
  rfl

/-- A written integer is read as the integer. -/
theorem numeral?_toString (n : Int) {rest : List Char} (hrest : EndsNumber rest) :
    numeral? ((toString n).toList ++ rest) = some (⟨decide (n < 0), n.natAbs, 0, true⟩, rest) := by
  rw [Text.toList_toString, List.append_assoc]
  exact numeral?_sign _ _ hrest

theorem isSpace_of_isDigit {c : Char} (h : c.isDigit = true) : isSpace c = false := by
  unfold isSpace
  simp only [Bool.or_eq_false_iff, beq_eq_false_iff_ne, and_assoc]
  refine ⟨?_, ?_, ?_, ?_⟩ <;> rintro rfl <;> exact absurd h (by decide)

/-- A written integer starts with a minus or a digit. -/
theorem exists_cons_toString (n : Int) : ∃ c cs, (toString n).toList = c :: cs ∧ (c = '-' ∨ c.isDigit = true) := by
  rw [Text.toList_toString]
  split
  · exact ⟨_, _, rfl, .inl rfl⟩
  · obtain ⟨c, cs, hcs⟩ := List.exists_cons_of_ne_nil (Nat.toDigits_ne_nil (n := n.natAbs) (b := 10))
    have hmem : c ∈ Nat.toDigits 10 n.natAbs := hcs ▸ List.mem_cons_self
    exact ⟨c, cs, hcs, .inr (Nat.isDigit_of_mem_toDigits (by decide) (by decide) hmem)⟩

/-! ## Parts between brackets -/

/-- What stands after the first part between two brackets: the other parts, each after a comma and on a line of its own,
then what closes. -/
def otherParts (level : Nat) (close : List Char) : List String → List Char
  | [] => close
  | p :: ps => ',' :: ((newLine level).toList ++ (p.toList ++ otherParts level close ps))

/-- The parts of a list as characters: the first one, and each other one behind a comma and a new line. -/
theorem toList_intercalate_append (level : Nat) (p : String) (ps : List String) (close : List Char) :
    (String.intercalate ("," ++ newLine level) (p :: ps)).toList ++ close = p.toList ++ otherParts level close ps := by
  induction ps generalizing p with
  | nil => simp [otherParts]
  | cons q ps ih =>
    have hstep : (String.intercalate ("," ++ newLine level) (p :: q :: ps)).toList
        = p.toList ++ (',' :: (newLine level).toList
          ++ (String.intercalate ("," ++ newLine level) (q :: ps)).toList) := by
      simp [String.toList_intercalate]
    rw [hstep, otherParts, ← ih q]
    simp

theorem toList_bracketed_nil (left right : String) (level : Nat) :
    (bracketed left right level []).toList = left.toList ++ right.toList := by
  rw [bracketed, if_pos List.isEmpty_nil, String.toList_append]

/-- A bracket, a first part, the others, and the other bracket. -/
theorem toList_bracketed_cons (left right : String) (level : Nat) (p : String) (ps : List String) (rest : List Char) :
    (bracketed left right level (p :: ps)).toList ++ rest
      = left.toList ++ ((newLine (level + 1)).toList
        ++ (p.toList ++ otherParts (level + 1) ((newLine level).toList ++ (right.toList ++ rest)) ps)) := by
  rw [bracketed, if_neg (by simp)]
  simp only [String.toList_append, List.append_assoc]
  rw [toList_intercalate_append]

/-- Behind a part there is a comma or a new line, and neither goes on with a number. -/
theorem endsNumber_otherParts (level outer : Nat) (rest : List Char) (ps : List String) :
    EndsNumber (otherParts level ((newLine outer).toList ++ rest) ps) := by
  cases ps with
  | nil =>
    rw [otherParts, newLine, String.toList_ofList]
    rintro c ⟨⟩
    decide
  | cons p ps =>
    rintro c ⟨⟩
    decide

/-- Items and fields are written one by one, each on its own line. -/
theorem writtenItems_eq (level : Nat) (items : List Json) : writtenItems level items = items.map (writtenAt level) := by
  induction items with
  | nil => rfl
  | cons j js ih => rw [writtenItems, ih, List.map_cons]

theorem writtenFields_eq (level : Nat) (fields : List (String × Json)) :
    writtenFields level fields = fields.map (writtenField level) := by
  induction fields with
  | nil => rfl
  | cons f fs ih => rw [writtenFields, ih, List.map_cons]

/-- A written document starts with neither white space nor a closing bracket. -/
theorem exists_cons_writtenAt (level : Nat) (j : Json) :
    ∃ c cs, (j.writtenAt level).toList = c :: cs ∧ isSpace c = false ∧ c ≠ ']' := by
  cases j with
  | null => exact ⟨'n', ['u', 'l', 'l'], by rw [writtenAt]; rfl, rfl, by decide⟩
  | int n =>
    obtain ⟨c, cs, hcs, hc⟩ := exists_cons_toString n
    refine ⟨c, cs, hcs, ?_, ?_⟩
    · obtain rfl | hdigit := hc
      · rfl
      · exact isSpace_of_isDigit hdigit
    · rintro rfl
      exact absurd hc (by decide)
  | text s => exact ⟨'\x22', _, toList_writtenText s, rfl, by decide⟩
  | list items =>
    cases items with
    | nil => exact ⟨'[', [']'], toList_bracketed_nil "[" "]" level, rfl, by decide⟩
    | cons j js =>
      have hchars := toList_bracketed_cons "[" "]" level (j.writtenAt (level + 1)) (writtenItems (level + 1) js) []
      rw [List.append_nil] at hchars
      exact ⟨'[', _, hchars, rfl, by decide⟩
  | object fields =>
    cases fields with
    | nil => exact ⟨'\x7b', ['\x7d'], toList_bracketed_nil "\x7b" "\x7d" level, rfl, by decide⟩
    | cons f fs =>
      have hchars :=
        toList_bracketed_cons "\x7b" "\x7d" level (writtenField (level + 1) f) (writtenFields (level + 1) fs) []
      rw [List.append_nil] at hchars
      exact ⟨'\x7b', _, hchars, rfl, by decide⟩

/-- A list or a table ends with its bracket. -/
theorem getLast?_bracketed (left : String) (c : Char) (level : Nat) (parts : List String) :
    (bracketed left (String.singleton c) level parts).toList.getLast? = some c := by
  unfold bracketed
  split <;> simp

/-- The last character of a written document is no white space. -/
theorem getLast?_writtenAt (level : Nat) (j : Json) :
    ∃ c, (j.writtenAt level).toList.getLast? = some c ∧ isSpace c = false := by
  cases j with
  | null => exact ⟨'l', by rw [writtenAt]; rfl, rfl⟩
  | int n =>
    obtain ⟨c, hc⟩ : ∃ c, (Nat.toDigits 10 n.natAbs).getLast? = some c :=
      ⟨_, List.getLast?_eq_some_getLast Nat.toDigits_ne_nil⟩
    refine ⟨c, ?_, isSpace_of_isDigit ?_⟩
    · rw [writtenAt, Text.toList_toString, List.getLast?_append, hc, Option.some_or]
    · exact Nat.isDigit_of_mem_toDigits (by decide) (by decide) (List.mem_of_getLast? hc)
  | text s => exact ⟨'\x22', by rw [writtenAt, toList_writtenText, ← List.cons_append, List.getLast?_concat], rfl⟩
  | list items => exact ⟨']', getLast?_bracketed "[" ']' level _, rfl⟩
  | object fields => exact ⟨'\x7d', getLast?_bracketed "\x7b" '\x7d' level _, rfl⟩

/-! ## Values -/

/-- **The document is read back** wherever it is written, if nothing after it goes on with a number. An item and the
list around it may start at the same character, so that a character takes at most two steps. -/
def Reads (depth : Nat) (j : Json) : Prop :=
  ∀ (fuel level : Nat) (rest : List Char), EndsNumber rest → 2 * ((j.writtenAt level).toList ++ rest).length < fuel →
    value? documentNumber? fuel depth ((j.writtenAt level).toList ++ rest) = some (j.data, rest)

/-- If each item is read back, then so are the items together, up to the bracket. -/
theorem items?_written {depth : Nat} (level outer : Nat) (rest : List Char) {js : List Json} {j : Json}
    (h : ∀ i ∈ j :: js, Reads depth i) (acc : List Data) (fuel : Nat)
    (hfuel : 2 * ((j.writtenAt level).toList
      ++ otherParts level ((newLine outer).toList ++ ']' :: rest) (js.map (writtenAt level))).length < fuel) :
    items? documentNumber? (fuel + 1) depth acc ((j.writtenAt level).toList
      ++ otherParts level ((newLine outer).toList ++ ']' :: rest) (js.map (writtenAt level)))
      = some (acc.reverse ++ (j :: js).map data, rest) := by
  induction js generalizing j acc fuel with
  | nil =>
    have hvalue := h j List.mem_cons_self fuel level _ (endsNumber_otherParts level outer (']' :: rest) []) hfuel
    rw [items?, List.map_nil, hvalue, otherParts]
    simp only [skipSpace_newLine, skipSpace_cons (c := ']') rfl]
    simp
  | cons i js ih =>
    -- the comma after the first item leads to the others, with what was read so far
    have hvalue := h j List.mem_cons_self fuel level _ (endsNumber_otherParts level outer (']' :: rest) _) hfuel
    rw [items?, hvalue, List.map_cons, otherParts]
    simp only [skipSpace_cons (c := ',') rfl]
    obtain ⟨fuel, rfl⟩ : ∃ n, fuel = n + 1 := ⟨fuel - 1, by omega⟩
    rw [items?_append (fun c hc => isSpace_of_mem_newLine hc)]
    rw [ih (fun k hk => h k (List.mem_cons_of_mem _ hk)) (j.data :: acc) fuel (by
      simp only [List.map_cons, otherParts, List.length_append, List.length_cons] at hfuel ⊢
      omega)]
    simp

/-- A key that is new is added at the end. -/
theorem set_of_notMem {fields : List (String × Data)} {key : String} (h : key ∉ fields.map Prod.fst) (value : Data) :
    Data.set fields key value = fields ++ [(key, value)] := by
  induction fields with
  | nil => rfl
  | cons f fs ih =>
    rw [List.map_cons, List.mem_cons, not_or] at h
    rw [Data.set, if_neg (Ne.symm h.1), ih h.2, List.cons_append]

/-- A field: the key in quotes, a colon, a space and the value. -/
theorem toList_writtenField (level : Nat) (f : String × Json) :
    (writtenField level f).toList
      = '\x22' :: (f.1.toList.flatMap writtenChar ++ ['\x22'] ++ (':' :: ' ' :: (f.2.writtenAt level).toList)) := by
  obtain ⟨key, j⟩ := f
  rw [writtenField, String.toList_append, String.toList_append, toList_writtenText]
  simp

/-- One field is read, and it is the last one or not by what stands after it. -/
theorem fields?_writtenField {depth level : Nat} {f : String × Json} (h : Reads depth f.2) {tail : List Char}
    (hends : EndsNumber tail) (acc : List (String × Data)) {fuel : Nat}
    (hfuel : 2 * ((writtenField level f).toList ++ tail).length < fuel) :
    (∀ rest, skipSpace tail = ',' :: rest →
      fields? documentNumber? (fuel + 1) depth acc ((writtenField level f).toList ++ tail)
        = fields? documentNumber? fuel depth (Data.set acc f.1 f.2.data) rest) ∧
    (∀ rest, skipSpace tail = '\x7d' :: rest →
      fields? documentNumber? (fuel + 1) depth acc ((writtenField level f).toList ++ tail)
        = some (Data.set acc f.1 f.2.data, rest)) := by
  rw [toList_writtenField] at hfuel ⊢
  have hvalue : value? documentNumber? fuel depth (' ' :: ((f.2.writtenAt level).toList ++ tail))
      = some (f.2.data, tail) := by
    rw [← List.singleton_append, value?_append (by simp [isSpace])]
    refine h fuel level tail hends ?_
    simp only [List.length_append, List.length_cons] at hfuel ⊢
    omega
  have hkey := stringRest?_writtenText f.1 (':' :: ' ' :: ((f.2.writtenAt level).toList ++ tail))
  rw [fields?.eq_def]
  simp only [List.cons_append, List.append_assoc, List.nil_append, skipSpace_cons (c := '\x22') rfl] at hkey ⊢
  simp only [hkey, skipSpace_cons (c := ':') rfl, hvalue]
  constructor
  · intro rest htail
    simp only [htail]
  · intro rest htail
    simp only [htail]

theorem notMem_of_nodup_append_cons {α : Type} {before after : List α} {x : α} (h : (before ++ x :: after).Nodup) :
    x ∉ before := fun hmem => (List.nodup_append.1 h).2.2 x hmem x List.mem_cons_self rfl

/-- If each value is read back and no key is repeated, then the fields are read back, up to the brace. -/
theorem fields?_written {depth : Nat} (level outer : Nat) (rest : List Char) {fs : List (String × Json)}
    {f : String × Json} (h : ∀ g ∈ f :: fs, Reads depth g.2) (acc : List (String × Data))
    (hkeys : (acc.map Prod.fst ++ (f :: fs).map Prod.fst).Nodup) (fuel : Nat)
    (hfuel : 2 * ((writtenField level f).toList
      ++ otherParts level ((newLine outer).toList ++ '\x7d' :: rest) (fs.map (writtenField level))).length < fuel) :
    fields? documentNumber? (fuel + 1) depth acc ((writtenField level f).toList
      ++ otherParts level ((newLine outer).toList ++ '\x7d' :: rest) (fs.map (writtenField level)))
      = some (acc ++ (f :: fs).map (fun g => (g.1, g.2.data)), rest) := by
  induction fs generalizing f acc fuel with
  | nil =>
    have hlast : skipSpace (otherParts level ((newLine outer).toList ++ '\x7d' :: rest) []) = '\x7d' :: rest := by
      rw [otherParts, skipSpace_newLine, skipSpace_cons rfl]
    have hread := (fields?_writtenField (h f List.mem_cons_self) (endsNumber_otherParts level outer _ _) acc hfuel).2
    rw [hread _ hlast, set_of_notMem (notMem_of_nodup_append_cons hkeys)]
    rfl
  | cons g fs ih =>
    have hread := (fields?_writtenField (h f List.mem_cons_self) (endsNumber_otherParts level outer _ _) acc hfuel).1
    rw [hread _ (skipSpace_cons rfl _), set_of_notMem (notMem_of_nodup_append_cons hkeys)]
    obtain ⟨fuel, rfl⟩ : ∃ n, fuel = n + 1 := ⟨fuel - 1, by omega⟩
    have hkeys' : ((acc ++ [(f.1, f.2.data)]).map Prod.fst ++ (g :: fs).map Prod.fst).Nodup := by
      simpa using hkeys
    rw [fields?_append (fun c hc => isSpace_of_mem_newLine hc),
      ih (fun k hk => h k (List.mem_cons_of_mem _ hk)) _ hkeys' fuel (by
        simp only [List.map_cons, otherParts, List.length_append, List.length_cons] at hfuel ⊢
        omega)]
    simp

theorem reads_null (depth : Nat) : Reads depth .null := by
  rintro (_ | fuel) level rest hrest hfuel
  · omega
  · rw [writtenAt, data]
    show value? documentNumber? (fuel + 1) depth ('n' :: 'u' :: 'l' :: 'l' :: rest) = _
    rw [value?, skipSpace_cons rfl]
    simp only [Text.afterWord?]
    rfl

/-- An integer that fits into a file is read back. -/
theorem reads_int {n : Int} (least : minInteger ≤ n) (greatest : n ≤ maxInteger) (depth : Nat) :
    Reads depth (.int n) := by
  rintro (_ | fuel) level rest hrest hfuel
  · omega
  rw [writtenAt, data]
  have hnumeral := numeral?_toString n hrest
  obtain ⟨c, cs, hcs, hc⟩ := exists_cons_toString n
  rw [hcs, List.cons_append] at hnumeral ⊢
  -- the first character is none of those that start another value
  have hother : isSpace c = false ∧ c ≠ '\x22' ∧ c ≠ '[' ∧ c ≠ '\x7b' ∧ c ≠ 't' ∧ c ≠ 'f' ∧ c ≠ 'n' := by
    obtain rfl | hdigit := hc
    · decide
    · refine ⟨isSpace_of_isDigit hdigit, ?_, ?_, ?_, ?_, ?_, ?_⟩ <;> rintro rfl <;> exact absurd hdigit (by decide)
  obtain ⟨hspace, hquote, hbracket, hbrace, ht, hf, hn⟩ := hother
  have hvalue : documentNumber? ⟨decide (n < 0), n.natAbs, 0, true⟩ = some (.int n) := by
    simp only [documentNumber?, Text.signed_natAbs]
    rw [if_pos ⟨trivial, least, greatest⟩]
  rw [value?, skipSpace_cons hspace]
  simp only [if_neg hquote, if_neg hbracket, if_neg hbrace, if_neg ht, if_neg hf, if_neg hn, hnumeral, Option.bind_some,
    hvalue, Option.map_some]

/-- Texts are read back at any depth. -/
theorem reads_text (depth : Nat) (s : String) : Reads depth (.text s) := by
  rintro (_ | fuel) level rest hrest hfuel
  · omega
  · rw [writtenAt, data, toList_writtenText, List.cons_append, value?, skipSpace_cons rfl]
    simp only [if_pos, stringRest?_writtenText, Option.map_some]

/-- After an opening bracket the items are read, unless the bracket is closed at once. -/
theorem value?_openList (level : Nat) {c : Char} (hspace : isSpace c = false) (hc : c ≠ ']') (rest : List Char)
    (fuel depth : Nat) :
    value? documentNumber? (fuel + 1) (depth + 1) ('[' :: ((newLine level).toList ++ c :: rest))
      = (items? documentNumber? fuel depth [] (c :: rest)).map fun (xs, rest) => (.list xs, rest) := by
  have hskip : skipSpace ((newLine level).toList ++ c :: rest) = c :: rest := by
    rw [skipSpace_newLine, skipSpace_cons hspace]
  rw [value?, skipSpace_cons rfl]
  simp only [hskip]
  simp [hc]

/-- After an opening brace the fields are read, unless the brace is closed at once. -/
theorem value?_openObject (level : Nat) {c : Char} (hspace : isSpace c = false) (hc : c ≠ '\x7d') (rest : List Char)
    (fuel depth : Nat) :
    value? documentNumber? (fuel + 1) (depth + 1) ('\x7b' :: ((newLine level).toList ++ c :: rest))
      = (fields? documentNumber? fuel depth [] (c :: rest)).map fun (fs, rest) => (.table fs, rest) := by
  have hskip : skipSpace ((newLine level).toList ++ c :: rest) = c :: rest := by
    rw [skipSpace_newLine, skipSpace_cons hspace]
  rw [value?, skipSpace_cons rfl]
  simp only [hskip]
  simp [hc]

/-- A list is read back if its items are. -/
theorem reads_list {depth : Nat} {items : List Json} (h : ∀ j ∈ items, Reads depth j) :
    Reads (depth + 1) (.list items) := by
  rintro (_ | fuel) level rest hrest hfuel
  · omega
  rw [writtenAt, writtenItems_eq] at hfuel ⊢
  rw [data, dataItems_eq]
  cases items with
  | nil =>
    rw [List.map_nil, toList_bracketed_nil]
    show value? documentNumber? (fuel + 1) (depth + 1) ('[' :: ']' :: rest) = _
    rw [value?, skipSpace_cons rfl]
    simp [skipSpace_cons (c := ']') rfl]
  | cons j js =>
    rw [List.map_cons, toList_bracketed_cons] at hfuel ⊢
    obtain ⟨c, cs, hcs, hspace, hc⟩ := exists_cons_writtenAt (level + 1) j
    obtain ⟨fuel, rfl⟩ : ∃ n, fuel = n + 1 := ⟨fuel - 1, by simp at hfuel; omega⟩
    have hitems := items?_written (level + 1) level rest h [] fuel (by
      simp at hfuel ⊢
      omega)
    rw [hcs, List.cons_append] at hitems
    rw [hcs]
    refine (value?_openList (level + 1) hspace hc _ (fuel + 1) depth).trans ?_
    exact congrArg (Option.map _) hitems

/-- An object is read back if its values are and no key is repeated. -/
theorem reads_object {depth : Nat} {fields : List (String × Json)} (keys : (fields.map Prod.fst).Nodup)
    (h : ∀ f ∈ fields, Reads depth f.2) : Reads (depth + 1) (.object fields) := by
  rintro (_ | fuel) level rest hrest hfuel
  · omega
  rw [writtenAt, writtenFields_eq] at hfuel ⊢
  rw [data, dataFields_eq]
  cases fields with
  | nil =>
    rw [List.map_nil, toList_bracketed_nil]
    show value? documentNumber? (fuel + 1) (depth + 1) ('\x7b' :: '\x7d' :: rest) = _
    rw [value?, skipSpace_cons rfl]
    simp [skipSpace_cons (c := '\x7d') rfl]
  | cons f fs =>
    rw [List.map_cons, toList_bracketed_cons] at hfuel ⊢
    obtain ⟨fuel, rfl⟩ : ∃ n, fuel = n + 1 := ⟨fuel - 1, by simp at hfuel; omega⟩
    have hfields := fields?_written (level + 1) level rest h [] keys fuel (by
      simp at hfuel ⊢
      omega)
    rw [toList_writtenField, List.cons_append] at hfields
    rw [toList_writtenField]
    refine (value?_openObject (level + 1) rfl (by decide) _ (fuel + 1) depth).trans ?_
    exact congrArg (Option.map _) hfields

/-- A legible document is read back wherever it is written. -/
theorem Legible.reads {depth : Nat} {j : Json} (h : Legible depth j) : Reads depth j := by
  induction h with
  | null => exact reads_null _
  | int least greatest => exact reads_int least greatest _
  | text => exact reads_text _ _
  | list _ ih => exact reads_list ih
  | object keys _ ih => exact reads_object keys ih

/-! ## Files -/

/-- A text that holds a written document, and at most white space after it, is read as what the document says. -/
theorem parse?_writtenAt {j : Json} (h : Legible maxDepth j) (level : Nat) (blank : String)
    (hblank : ∀ c ∈ blank.toList, isSpace c = true) :
    parse? documentNumber? (j.writtenAt level ++ blank) = some j.data := by
  have hends : EndsNumber blank.toList := by
    intro c hc
    have hspace := hblank c (List.mem_of_mem_head? hc)
    refine ⟨?_, ?_, ?_, ?_⟩
    · exact Bool.eq_false_iff.2 fun hdigit => absurd hspace (by rw [isSpace_of_isDigit hdigit]; decide)
    all_goals
      rintro rfl
      exact absurd hspace (by decide)
  have hread := h.reads (2 * (j.writtenAt level ++ blank).toList.length + 2) level blank.toList hends (by
    rw [String.toList_append]
    omega)
  have hrest : skipSpace blank.toList = [] := by
    rw [← List.append_nil blank.toList, skipSpace_append hblank]
    rfl
  rw [parse?]
  simp only [String.toList_append] at hread ⊢
  rw [hread]
  simp [hrest]

theorem fromUTF8?_toUTF8 (s : String) : String.fromUTF8? s.toUTF8 = some s := dif_pos s.isValidUTF8

/-- A file with a written document holds what the document says. -/
theorem document?_written {j : Json} (h : Legible maxDepth j) : document? j.written.toUTF8 = some j.data := by
  rw [document?, fromUTF8?_toUTF8]
  exact parse?_writtenAt h 0 "\n" (by simp [isSpace])

end Caret.Json
