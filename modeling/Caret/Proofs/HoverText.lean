import Caret.Hover
import Caret.Proofs.Markup
import Caret.Proofs.Schema
/-!
# `Caret.Proofs.HoverText` — hover lines as markup, and the plain text in them

A hover line is built from pieces, each of them a coloured text or a space. What the line is as markup (`Fragments`) is
said here without pieces, and so is what it reads as: `Node.plainLines?` writes each signature as one text, that of a
method through `Method.signatureText`, the text that completion shows for it.

Three facts meet in the result. A written text is inert, so the only brackets of a line are those of its tags. A colour
that a theme accepts is six digits, so it does not close a tag early. And in the lines of every sort of node a space
stands between two coloured texts and never beside another space (`Spaced`), so that the fragments of a line can be told
apart.

## Contents
- **Themes.** `IsColour`, `isColour_of_read`.
- **Fragments.** `Fragment`, `Fragments`, `Line.Spaced`, `Line.fragments_markup`.
- **Plain text.** `Line.plain`, `Text.readMarkup`, `Line.readMarkup_markup`.
- **Signatures.** `ScriptType.qualified`, `Method.ownedBy`, `Node.plainLines?`, `Node.plain_hoverLines?`.
- **Hover texts.** `Node.hover_reads_back`.
-/

namespace Caret

/-! ## Themes -/

namespace Theme

variable {document : Data} {theme : Theme}

/-- The five colours of a theme. -/
def colours (t : Theme) : List String := [t.predefinedType, t.type, t.method, t.parameter, t.description]

/-- Each role has one of the five colours. -/
theorem colourOf_mem_colours (t : Theme) (r : Role) : t.colourOf r ∈ t.colours := by
  cases r <;> simp [colourOf, colours]

/-- A colour as themes keep it: six hexadecimal digits, the letters in upper case. -/
def IsColour (s : String) : Prop :=
  s.toList.length = 6 ∧ ∀ c ∈ s.toList, ('0' ≤ c ∧ c ≤ '9') ∨ ('A' ≤ c ∧ c ≤ 'F')

theorem toNat_lt_of_isHexDigit {c : Char} (h : isHexDigit c = true) : c.toNat < 128 := by
  simp only [isHexDigit, Char.isDigit, Bool.or_eq_true, Bool.and_eq_true, decide_eq_true_eq, Char.le_def,
    UInt32.le_iff_toNat_le] at h
  have hvalue : c.toNat = c.val.toNat := rfl
  rcases h with (⟨-, h⟩ | ⟨-, h⟩) | ⟨-, h⟩
  · exact hvalue ▸ Nat.lt_of_le_of_lt h (by decide)
  · exact hvalue ▸ Nat.lt_of_le_of_lt h (by decide)
  · exact hvalue ▸ Nat.lt_of_le_of_lt h (by decide)

/-- In upper case a hexadecimal digit is a decimal digit or one of six letters. -/
theorem toUpper_of_isHexDigit {c : Char} (h : isHexDigit c = true) :
    ('0' ≤ c.toUpper ∧ c.toUpper ≤ '9') ∨ ('A' ≤ c.toUpper ∧ c.toUpper ≤ 'F') := by
  have hall : ∀ n : Fin 128, isHexDigit (Char.ofNat n) = true →
      ('0' ≤ (Char.ofNat n).toUpper ∧ (Char.ofNat n).toUpper ≤ '9') ∨
        ('A' ≤ (Char.ofNat n).toUpper ∧ (Char.ofNat n).toUpper ≤ 'F') := by decide
  have hc := hall ⟨c.toNat, toNat_lt_of_isHexDigit h⟩
  simp only [Char.ofNat_toNat] at hc
  exact hc h

/-- A colour that was read is kept as six digits, without a hash and in capitals. -/
theorem isColour_of_colour {s : String} (h : colour document = .done s) : IsColour s := by
  cases document with
  | text written =>
    simp only [colour] at h
    split at h
    · next hdigits =>
      obtain ⟨hlength, hhex⟩ := hdigits
      obtain rfl := Reading.done.inj h
      rw [IsColour, String.toList_ofList, List.length_map]
      refine ⟨hlength, ?_⟩
      intro c hc
      obtain ⟨d, hd, rfl⟩ := List.mem_map.mp hc
      exact toUpper_of_isHexDigit (List.all_eq_true.mp hhex d hd)
    · contradiction
  | _ => contradiction

/-- A colour that is left out is the default, which is one; a colour that is written was read. -/
theorem isColour_of_optional {key default s : String} {fs : List (String × Data)} (hdefault : IsColour default)
    (h : Reading.optional key default colour fs = .done s) : IsColour s := by
  rcases Reading.optional_eq_done_iff.mp h with ⟨-, rfl⟩ | ⟨v, -, hv⟩
  · exact hdefault
  · exact isColour_of_colour hv

/-- **A theme that is accepted has five colours.** -/
theorem isColour_of_read (h : read document = .done theme) : ∀ c ∈ theme.colours, IsColour c := by
  cases document with
  | table fs =>
    obtain ⟨_, _, hfive, -, rfl⟩ := Reading.seq_eq_done_iff.mp h
    obtain ⟨_, e, hfour, he, rfl⟩ := Reading.seq_eq_done_iff.mp hfive
    obtain ⟨_, d, hthree, hd, rfl⟩ := Reading.seq_eq_done_iff.mp hfour
    obtain ⟨_, c, htwo, hc, rfl⟩ := Reading.seq_eq_done_iff.mp hthree
    obtain ⟨_, b, hone, hb, rfl⟩ := Reading.seq_eq_done_iff.mp htwo
    obtain ⟨a, ha, rfl⟩ := Reading.map_eq_done_iff.mp hone
    intro s hs
    simp only [colours, List.mem_cons, List.not_mem_nil, or_false] at hs
    rcases hs with rfl | rfl | rfl | rfl | rfl
    · exact isColour_of_optional (by simp [IsColour]) ha
    · exact isColour_of_optional (by simp [IsColour]) hb
    · exact isColour_of_optional (by simp [IsColour]) hc
    · exact isColour_of_optional (by simp [IsColour]) hd
    · exact isColour_of_optional (by simp [IsColour]) he
  | _ => contradiction

/-- A colour closes no tag. -/
theorem IsColour.ne_close {s : String} (h : IsColour s) : ∀ c ∈ s.toList, c ≠ '>' := by
  intro c hc heq
  rw [heq] at hc
  rcases h.2 _ hc with hdigit | hletter
  · exact absurd hdigit (by decide)
  · exact absurd hletter (by decide)

end Theme

/-! ## Fragments -/

/-- A coloured stretch of markup. -/
structure Fragment where
  colour : String
  body : String

namespace Fragment

/-- A fragment as it is written. -/
def markup (f : Fragment) : String := "<span style=\"color:#" ++ f.colour ++ ";\">" ++ f.body ++ "</span>"

/-- The colour is one of the theme, and nothing in the body has a meaning for the markup around it. -/
structure Safe (theme : Theme) (f : Fragment) : Prop where
  mem : f.colour ∈ theme.colours
  colour : Theme.IsColour f.colour
  body : ∀ c ∈ f.body.toList, Text.Inert c

end Fragment

/-- **A line of fragments.** Each one is safe, and between two of them there is nothing or a single space. -/
inductive Fragments (theme : Theme) : String → Prop where
  | single {f : Fragment} (hf : f.Safe theme) : Fragments theme f.markup
  | next {f : Fragment} {separator rest : String} (hf : f.Safe theme) (hsep : separator = "" ∨ separator = " ")
      (hrest : Fragments theme rest) : Fragments theme (f.markup ++ separator ++ rest)

namespace Line

variable {theme : Theme} {l m : Line}

/-- **Spaces in a line.** The line starts and ends with a coloured text, and no two spaces stand side by side. -/
inductive Spaced : Line → Prop where
  | single (r : Role) (text : String) : Spaced [.span r text]
  | touch (r : Role) (text : String) {l : Line} (hl : Spaced l) : Spaced (.span r text :: l)
  | space (r : Role) (text : String) {l : Line} (hl : Spaced l) : Spaced (.span r text :: .space :: l)

/-- Spaced lines side by side. -/
theorem Spaced.append (hl : l.Spaced) (hm : m.Spaced) : Spaced (l ++ m) := by
  induction hl with
  | single r text => exact .touch r text hm
  | touch r text _ ih => exact .touch r text ih
  | space r text _ ih => exact .space r text ih

/-- Spaced lines with a space between them. -/
theorem Spaced.append_space (hl : l.Spaced) (hm : m.Spaced) : Spaced (l ++ .space :: m) := by
  induction hl with
  | single r text => exact .space r text hm
  | touch r text _ ih => exact .touch r text ih
  | space r text _ ih => exact .space r text ih

theorem markup_cons (theme : Theme) (x : Piece) (l : Line) :
    markup theme (x :: l) = x.markup theme ++ markup theme l := by
  apply String.toList_inj.mp
  simp [markup, String.toList_join]

/-- A coloured text is a fragment in the colour of its role. -/
theorem markup_span (theme : Theme) (r : Role) (text : String) :
    Piece.markup theme (.span r text) = Fragment.markup ⟨theme.colourOf r, Text.escape text⟩ := rfl

/-- With a text that is escaped and a colour of the theme nothing in a fragment can end the attribute or the tag. -/
theorem safe_span (h : ∀ c ∈ theme.colours, Theme.IsColour c) (r : Role) (text : String) :
    Fragment.Safe theme ⟨theme.colourOf r, Text.escape text⟩ :=
  ⟨theme.colourOf_mem_colours r, h _ (theme.colourOf_mem_colours r), fun _ hc => Text.inert_of_mem_escape hc⟩

/-- A line whose spaces are in order is a line of fragments. -/
theorem fragments_markup (h : ∀ c ∈ theme.colours, Theme.IsColour c) (hl : l.Spaced) :
    Fragments theme (l.markup theme) := by
  induction hl with
  | single r text =>
    have hone : markup theme [.span r text] = Fragment.markup ⟨theme.colourOf r, Text.escape text⟩ := by
      rw [markup_cons, markup_span]
      exact String.append_empty
    rw [hone]
    exact .single (safe_span h r text)
  | @touch r text l _ ih =>
    have hempty : markup theme (.span r text :: l) =
        Fragment.markup ⟨theme.colourOf r, Text.escape text⟩ ++ "" ++ markup theme l := by
      rw [markup_cons, markup_span, String.append_empty]
    rw [hempty]
    exact .next (safe_span h r text) (Or.inl rfl) ih
  | @space r text l _ ih =>
    have hspace : markup theme (.span r text :: .space :: l) =
        Fragment.markup ⟨theme.colourOf r, Text.escape text⟩ ++ " " ++ markup theme l := by
      rw [markup_cons, markup_cons, markup_span, String.append_assoc]
      rfl
    rw [hspace]
    exact .next (safe_span h r text) (Or.inr rfl) ih

end Line

/-! ## Plain text -/

/-- The plain text of markup: its tags are removed, and then its references are replaced. -/
def Text.readMarkup (s : String) : String := String.ofList (withoutReferences (withoutTags false s.toList))

/-- The text of a piece. -/
def Piece.text : Piece → String
  | .span _ text => text
  | .space => " "

@[simp] theorem Piece.text_span (r : Role) (text : String) : (Piece.span r text).text = text := rfl
@[simp] theorem Piece.text_space : Piece.space.text = " " := rfl
@[simp] theorem Piece.text_predefined (text : String) : (Piece.predefined text).text = text := rfl
@[simp] theorem Piece.text_description (text : String) : (Piece.description text).text = text := rfl
@[simp] theorem Piece.text_parameter (text : String) : (Piece.parameter text).text = text := rfl

namespace Line

/-- The text of a line. -/
def plain (l : Line) : String := String.join (l.map Piece.text)

@[simp] theorem plain_nil : plain [] = "" := rfl

/-- The plain text is put together piece by piece. -/
@[simp] theorem plain_cons (x : Piece) (l : Line) : plain (x :: l) = x.text ++ plain l := by
  apply String.toList_inj.mp
  simp [plain, String.toList_join]

@[simp] theorem plain_append (l m : Line) : plain (l ++ m) = plain l ++ plain m := by
  apply String.toList_inj.mp
  simp [plain, String.toList_join]

/-- The tags of a coloured text disappear, and its text is left as it was written. -/
theorem withoutTags_span {theme : Theme} (h : ∀ c ∈ theme.colours, Theme.IsColour c) (r : Role) (text : String)
    (rest : List Char) :
    Text.withoutTags false ((Piece.markup theme (.span r text)).toList ++ rest) =
      (Text.escape text).toList ++ Text.withoutTags false rest := by
  have hcolour := (h _ (theme.colourOf_mem_colours r)).ne_close
  have hbody : ∀ c ∈ (Text.escape text).toList, c ≠ '<' := fun c hc => (Text.inert_of_mem_escape hc).ne_open
  exact Text.withoutTags_element (a := "span style=\"color:#".toList) (b := ";\"".toList) (c := "/span".toList)
    rfl rfl rfl (by simp) (by simp) (by simp) hcolour hbody rest

/-- Piece by piece, the tags of a line disappear and its texts are read back. -/
theorem withoutReferences_withoutTags_markup {theme : Theme} (h : ∀ c ∈ theme.colours, Theme.IsColour c) (l : Line) :
    Text.withoutReferences (Text.withoutTags false (markup theme l).toList) = (plain l).toList := by
  induction l with
  | nil => exact Text.withoutReferences_nil
  | cons x l ih =>
    rw [markup_cons, plain_cons, String.toList_append, String.toList_append]
    cases x with
    | span r text =>
      rw [withoutTags_span h, Text.escape, String.toList_ofList, Text.withoutReferences_escaped, ih]
      rfl
    | space =>
      -- a space outside the tags is a text of its own, which is written as it is
      have hspace : (Piece.markup theme .space).toList = [' '] := by
        show " ".toList = [' ']
        rfl
      have hwritten : [' '] = Text.escapeChar ' ' := by decide
      rw [hspace, Text.withoutTags_append (by simp), hwritten, Text.withoutReferences_escapeChar, ih]
      rfl

/-- **A line reads as its text,** in the colours of every theme that is accepted. -/
theorem readMarkup_markup {theme : Theme} (h : ∀ c ∈ theme.colours, Theme.IsColour c) (l : Line) :
    Text.readMarkup (l.markup theme) = l.plain := by
  rw [Text.readMarkup, withoutReferences_withoutTags_markup h, String.ofList_toList]

end Line

/-! ## Signatures -/

namespace ScriptType

/-- The type with its name written in full: a class has its qualified name, if there is one. -/
def qualified : ScriptType → ScriptType
  | .host c => .host { c with name := if c.qualifiedName.isEmpty then c.name else c.qualifiedName }
  | t => t

/-- The name of a type written in full. A question mark stands for a type that is not known. -/
def fullName : Option ScriptType → String
  | some t => t.qualified.name
  | none => "?"

end ScriptType

/-- The method with its owner and a point in front of its name, and the names of all types written in full. -/
def Method.ownedBy (m : Method ScriptType) (owner : ScriptType) : Method ScriptType :=
  ⟨owner.qualified.name ++ "." ++ m.name, m.returnType.qualified,
    m.parameters.map fun p => ⟨p.name, p.type.qualified⟩⟩

/-- The words for where a value lives, as one text. -/
def ValueKind.label : ValueKind → String
  | .constant => "(external static constant)"
  | .staticVariable => "(static variable)"
  | .localVariable => "(local variable)"
  | .parameter false => "(parameter)"
  | .parameter true => "(parameter) ref"

/-- A symbol as one text: `(label) type name` for a value, `return name(type parameter, ...)` for a function. -/
def Symbol.plainText : Symbol → String
  | .value kind name type => kind.label ++ " " ++ ScriptType.fullName type ++ " " ++ name
  | .function name s =>
    ScriptType.fullName s.returnType ++ " " ++ name ++ "("
      ++ String.intercalate ", " (s.parameters.map fun p => ScriptType.fullName p.type ++ " " ++ p.name) ++ ")"

/-- A binary operation as one text: `result operator(left left, right right)`. -/
def Operation.plainText (op : Operation) : String :=
  op.result.qualified.name ++ " " ++ op.operator ++ "(" ++ op.left.qualified.name ++ " left, "
    ++ op.right.qualified.name ++ " right)"

/-- What is shown for a node, as plain lines. -/
def Node.plainLines? : Node → Option (List String)
  | .literal _ k => some [k.type.name, k.type.description]
  | .typeName _ (.predefined p) => some [p.name, p.description]
  | .name n => n.symbol.map fun s => [s.plainText]
  | .method _ owner m => some [(m.ownedBy owner).signatureText]
  | .binary _ _ _ op => some [op.plainText]
  | _ => none

@[simp] theorem Piece.text_ofType (t : Option ScriptType) : (Piece.ofType t).text = ScriptType.fullName t := by
  cases t with
  | none => rfl
  | some t =>
    cases t with
    | predefined p => simp [ofType, ScriptType.fullName, ScriptType.qualified]
    | host c => simp [ofType, ScriptType.fullName, ScriptType.qualified]
    | function s => rfl

/-- The piece for a type is coloured. -/
theorem Piece.ofType_eq_span (t : Option ScriptType) : ∃ r text, Piece.ofType t = .span r text := by
  cases t with
  | none => exact ⟨_, _, rfl⟩
  | some t => cases t <;> exact ⟨_, _, rfl⟩

namespace Line

/-- The text of lines with a separator between them. -/
theorem plain_intersperse (separator : Line) (ls : List Line) :
    plain (ls.intersperse separator).flatten = String.intercalate (plain separator) (ls.map plain) := by
  apply String.toList_inj.mp
  rw [String.toList_intercalate]
  induction ls with
  | nil => rfl
  | cons l ls ih =>
    cases ls with
    | nil => simp
    | cons m ls =>
      rw [List.intersperse_cons_cons, List.flatten_cons, List.flatten_cons, plain_append, plain_append,
        String.toList_append, String.toList_append, ih]
      simp only [List.map_cons, List.intercalate_cons_cons, List.append_assoc]

/-- Parameters in parentheses, each with its type in front, with commas between them. -/
theorem plain_parameters (ps : List (Field (Option ScriptType))) :
    plain (parameters ps) =
      "(" ++ String.intercalate ", " (ps.map fun p => ScriptType.fullName p.type ++ " " ++ p.name) ++ ")" := by
  have heach : (ps.map fun p => [Piece.ofType p.type, .space, Piece.parameter p.name]).map plain =
      ps.map fun p => ScriptType.fullName p.type ++ " " ++ p.name := by
    rw [List.map_map]
    refine List.map_congr_left ?_
    intro p _
    simp [String.append_assoc]
  have hseparator : plain [Piece.description ", "] = ", " := by simp
  simp only [parameters, List.cons_append, plain_cons, plain_append, plain_intersperse, heach, hseparator]
  simp [String.append_assoc]

/-- Lines whose spaces are in order stay so with a separator between them and a line behind them. -/
theorem spaced_intersperse {separator m : Line} (hseparator : separator.Spaced) (hm : m.Spaced) {ls : List Line}
    (hls : ∀ l ∈ ls, Spaced l) : Spaced ((ls.intersperse separator).flatten ++ m) := by
  induction ls with
  | nil => exact hm
  | cons l ls ih =>
    obtain ⟨hl, hrest⟩ := List.forall_mem_cons.mp hls
    cases ls with
    | nil => simpa using hl.append hm
    | cons k ls =>
      rw [List.intersperse_cons_cons, List.flatten_cons, List.flatten_cons, List.append_assoc, List.append_assoc]
      exact hl.append (hseparator.append (ih hrest))

theorem spaced_ofType (t : Option ScriptType) : Spaced [Piece.ofType t] := by
  obtain ⟨r, text, h⟩ := Piece.ofType_eq_span t
  rw [h]
  exact .single r text

/-- A type, a space and a line behind it. -/
theorem spaced_type_space (t : Option ScriptType) {l : Line} (hl : l.Spaced) :
    Spaced (Piece.ofType t :: .space :: l) := by
  obtain ⟨r, text, h⟩ := Piece.ofType_eq_span t
  rw [h]
  exact .space r text hl

/-- A comma is followed by a space, and no space by another one. -/
theorem spaced_parameters (ps : List (Field (Option ScriptType))) : Spaced (parameters ps) := by
  refine .touch _ _ (spaced_intersperse (.single _ _) (.single _ _) ?_)
  intro l hl
  obtain ⟨p, -, rfl⟩ := List.mem_map.mp hl
  exact spaced_type_space _ (.single _ _)

/-- A method reads as the signature that completion shows for it, with the owner in front of its name. -/
theorem plain_ofMethod (owner : ScriptType) (m : Method ScriptType) :
    plain (ofMethod owner m) = (m.ownedBy owner).signatureText := by
  have hparameters : (m.parameters.map fun p => (⟨p.name, some p.type⟩ : Field (Option ScriptType))).map
      (fun p => ScriptType.fullName p.type ++ " " ++ p.name) =
      (m.ownedBy owner).parameters.map fun p => p.type.name ++ " " ++ p.name := by
    simp only [Method.ownedBy, List.map_map]
    rfl
  simp only [ofMethod, plain_append, plain_parameters, hparameters, Method.signatureText]
  simp [Method.ownedBy, ScriptType.fullName, String.append_assoc]

theorem spaced_ofMethod (owner : ScriptType) (m : Method ScriptType) : Spaced (ofMethod owner m) := by
  refine spaced_type_space _ ((spaced_ofType (some owner)).append ?_)
  exact .touch _ _ (.touch _ _ (spaced_parameters _))

/-- Each sort of line says its plain text, and spaces stand only between pieces. -/
theorem plain_ofOperation (op : Operation) : plain (ofOperation op) = op.plainText := by
  have hleft : ∀ rest : String, " " ++ ("left" ++ ("," ++ (" " ++ rest))) = " left, " ++ rest := by
    intro rest
    simp [← String.append_assoc]
  simp [ofOperation, Operation.plainText, ScriptType.fullName, String.append_assoc, hleft]

theorem spaced_ofOperation (op : Operation) : Spaced (ofOperation op) := by
  refine spaced_type_space _ (.touch _ _ (.touch _ _ (spaced_type_space _ ?_)))
  exact .touch _ _ (.space _ _ (spaced_type_space _ (.touch _ _ (.single _ _))))

theorem plain_labelOf (k : ValueKind) : plain (labelOf k) = k.label := by
  cases k with
  | parameter byRef => cases byRef <;> simp [labelOf, ValueKind.label]
  | _ => simp [labelOf, ValueKind.label]

theorem spaced_labelOf (k : ValueKind) : Spaced (labelOf k) := by
  cases k with
  | parameter byRef =>
    cases byRef with
    | false => exact .single _ _
    | true => exact .space _ _ (.single _ _)
  | _ => exact .single _ _

/-- A symbol is introduced by its label, unless it is a function. -/
theorem plain_ofSymbol (s : Symbol) : plain (ofSymbol s) = s.plainText := by
  cases s with
  | value k name type => simp [ofSymbol, ofValue, plain_labelOf, Symbol.plainText, String.append_assoc]
  | function name s => simp [ofSymbol, plain_parameters, Symbol.plainText, String.append_assoc]

theorem spaced_ofSymbol (s : Symbol) : Spaced (ofSymbol s) := by
  cases s with
  | value k name type =>
    have hrest : Spaced (.span .description name :: []) := .single _ _
    exact (spaced_labelOf k).append_space (spaced_type_space type hrest)
  | function name s => exact spaced_type_space _ (.touch _ _ (spaced_parameters _))

theorem plain_ofPredefined (p : Predefined) : (ofPredefined p).map plain = [p.name, p.description] := by
  simp [ofPredefined]

theorem spaced_ofPredefined (p : Predefined) : ∀ l ∈ ofPredefined p, Spaced l := by
  intro l hl
  simp only [ofPredefined, List.mem_cons, List.not_mem_nil, or_false] at hl
  rcases hl with rfl | rfl
  · exact .single _ _
  · exact .single _ _

end Line

/-! ## Hover texts -/

namespace Node

/-- The text of the lines of a node is the plain one. -/
theorem map_plain_hoverLines? (n : Node) : n.hoverLines?.map (·.map Line.plain) = n.plainLines? := by
  cases n with
  | literal r k => exact congrArg some (Line.plain_ofPredefined k.type)
  | typeName r t =>
    cases t with
    | predefined p => exact congrArg some (Line.plain_ofPredefined p)
    | _ => rfl
  | name ref =>
    simp only [hoverLines?, plainLines?, Option.map_map]
    refine Option.map_congr ?_
    intro s _
    exact congrArg (· :: []) (Line.plain_ofSymbol s)
  | method r owner m => exact congrArg (fun line => some [line]) (Line.plain_ofMethod owner m)
  | binary r left right op => exact congrArg (fun line => some [line]) (Line.plain_ofOperation op)
  | _ => rfl

/-- One case for each sort of node that has a hover text. -/
theorem spaced_hoverLines? {n : Node} {lines : List Line} (h : n.hoverLines? = some lines) :
    ∀ l ∈ lines, l.Spaced := by
  cases n with
  | literal r k =>
    obtain rfl := Option.some.inj h
    exact Line.spaced_ofPredefined k.type
  | typeName r t =>
    cases t with
    | predefined p =>
      obtain rfl := Option.some.inj h
      exact Line.spaced_ofPredefined p
    | _ => contradiction
  | name ref =>
    obtain ⟨s, -, rfl⟩ := Option.map_eq_some_iff.mp h
    exact List.forall_mem_singleton.mpr (Line.spaced_ofSymbol s)
  | method r owner m =>
    obtain rfl := Option.some.inj h
    exact List.forall_mem_singleton.mpr (Line.spaced_ofMethod owner m)
  | binary r left right op =>
    obtain rfl := Option.some.inj h
    exact List.forall_mem_singleton.mpr (Line.spaced_ofOperation op)
  | _ => contradiction

/-- **Hover lines cannot be broken by their content.** For every node and every theme that is accepted, whatever the
names, qualified names and operators in it are: each line is a line of fragments, and read back without tags and
references the lines are the plain ones. -/
theorem hover_reads_back {document : Data} {theme : Theme} (htheme : Theme.read document = .done theme) (n : Node) :
    (∀ hover, n.hover? = some hover → ∀ line ∈ hover.content theme, Fragments theme line) ∧
    n.hover?.map (fun hover => (hover.content theme).map Text.readMarkup) = n.plainLines? := by
  have hcolours := Theme.isColour_of_read htheme
  constructor
  · intro hover h line hline
    obtain ⟨lines, hlines, rfl⟩ := Option.map_eq_some_iff.mp h
    obtain ⟨l, hl, rfl⟩ := List.mem_map.mp hline
    exact Line.fragments_markup hcolours (spaced_hoverLines? hlines l hl)
  · have hread : ∀ lines : List Line, (lines.map (Line.markup theme)).map Text.readMarkup = lines.map Line.plain := by
      intro lines
      rw [List.map_map]
      exact List.map_congr_left fun l _ => Line.readMarkup_markup hcolours l
    rw [← map_plain_hoverLines?, hover?, Option.map_map]
    exact Option.map_congr fun lines _ => hread lines

/-- A method whose name, owner and parameter are full of markup. -/
def hostileMethod : Node :=
  .method ⟨⟨8, 2⟩, ⟨8, 9⟩, by decide⟩ (.host ⟨"Box", "host.Box<\"T\">", [], []⟩)
    ⟨"</span>&#60;", .predefined .int, [⟨"é'", .host ⟨"Box", "", [], []⟩⟩]⟩

/-- The method is read back in the colours of a theme with one colour changed. -/
theorem hover_reads_back_hostile :
    ∃ theme, Theme.read (.table [("method", .text "#12abCD")]) = .done theme ∧ theme.method = "12ABCD" ∧
      ∃ hover, hostileMethod.hover? = some hover ∧ (∀ line ∈ hover.content theme, Fragments theme line) ∧
        (hover.content theme).map Text.readMarkup = ["int host.Box<\"T\">.</span>&#60;(Box é')"] := by
  have htheme : Theme.read (.table [("method", .text "#12abCD")]) = .done { method := "12ABCD" } := rfl
  obtain ⟨hfragments, hplain⟩ := hover_reads_back htheme hostileMethod
  refine ⟨_, htheme, rfl, _, rfl, hfragments _ rfl, ?_⟩
  have hlines : hostileMethod.plainLines? = some ["int host.Box<\"T\">.</span>&#60;(Box é')"] := by decide
  rw [hlines] at hplain
  exact Option.some.inj hplain

end Node
end Caret
