import Caret.Proofs.Faults
import Caret.Proofs.HoverText
import Caret.Settings.Config
/-!
# `Caret.Proofs.Canonical` — the canonical form of settings

A setting can be spelled in several ways: a base as a number or a truth value, a level in any case of its letters, a
colour with or without a hash. What is kept is one of these spellings, and written out again it is read as itself.

What a document says about a setting is put here without the readers: nothing, and then there is a default, or a
value that stands for the setting (`Setting`). The readers accept a document exactly if it describes settings in
this sense and has no key beside the known ones (`Theme.read_eq_done_iff`, `Config.read_eq_done_iff`).

## Contents
- **Colours.** `Theme.Spells`, `Theme.colour_eq_done_iff`, `Theme.stored_eq_iff`.
- **Described settings.** `Setting`, `Theme.Describes`, `Config.Describes`.
- **Unknown keys.** `Theme.mem_faults_onlyKeys`, `Theme.mem_faults_of_unknownKey`.
- **Written out again.** `Config.dump`, `Config.read_dump`, and all of it together: `Config.read_canonical`.
-/

namespace Caret

/-! ## Colours -/

namespace Theme

/-- The hexadecimal digits, the letters in both cases. -/
def hexDigits : List Char := "0123456789abcdefABCDEF".toList

/-- **Spellings of a colour.** A text is six hexadecimal digits, or these with a hash in front. -/
structure Spells (s : String) (digits : List Char) : Prop where
  hash : s.toList = digits ∨ s.toList = '#' :: digits
  length : digits.length = 6
  hex : ∀ d ∈ digits, d ∈ hexDigits

/-- The colour that is kept for some digits. -/
def stored (digits : List Char) : String := String.ofList (digits.map Char.toUpper)

theorem isHexDigit_iff {c : Char} : isHexDigit c = true ↔ c ∈ hexDigits := by
  constructor
  · intro h
    -- a digit is below 128, so there are only these characters to look at
    have hall : ∀ n : Fin 128, isHexDigit (Char.ofNat n) = true → Char.ofNat n ∈ hexDigits := by decide
    have hc := hall ⟨c.toNat, toNat_lt_of_isHexDigit h⟩
    simp only [Char.ofNat_toNat] at hc
    exact hc h
  · have hall : hexDigits.all isHexDigit = true := by decide
    exact List.all_eq_true.mp hall c

theorem all_isHexDigit_iff {cs : List Char} : cs.all isHexDigit = true ↔ ∀ c ∈ cs, c ∈ hexDigits := by
  rw [List.all_eq_true]
  exact forall_congr' fun c => imp_congr_right fun _ => isHexDigit_iff

/-- Only one hash is dropped: a digit is none. -/
theorem dropHash_of_spells {s : String} {digits : List Char} (h : Spells s digits) : dropHash s.toList = digits := by
  rcases h.hash with hs | hs
  · rw [hs]
    unfold dropHash
    split
    · next rest =>
      exact absurd (h.hex '#' List.mem_cons_self) (by decide)
    · rfl
  · rw [hs]
    rfl

/-- At most one hash is dropped. -/
theorem dropHash_cases (cs : List Char) : cs = dropHash cs ∨ cs = '#' :: dropHash cs := by
  unfold dropHash
  split
  · exact Or.inr rfl
  · exact Or.inl rfl

/-- **Which values are colours**, and what is kept of them. -/
theorem colour_eq_done_iff {v : Data} {c : String} :
    colour v = .done c ↔ ∃ s digits, v = .text s ∧ Spells s digits ∧ c = stored digits := by
  constructor
  · intro h
    cases v with
    | text s =>
      simp only [colour] at h
      split at h
      · next hdigits =>
        obtain ⟨hlength, hhex⟩ := hdigits
        have hspells : Spells s (dropHash s.toList) := ⟨dropHash_cases _, hlength, all_isHexDigit_iff.mp hhex⟩
        exact ⟨s, _, rfl, hspells, (Reading.done.inj h).symm⟩
      · contradiction
    | _ => contradiction
  · rintro ⟨s, digits, rfl, hspells, rfl⟩
    simp only [colour, dropHash_of_spells hspells]
    exact if_pos ⟨hspells.length, all_isHexDigit_iff.mpr hspells.hex⟩

theorem colour_of_spells {s : String} {digits : List Char} (h : Spells s digits) :
    colour (.text s) = .done (stored digits) :=
  colour_eq_done_iff.mpr ⟨s, digits, rfl, h, rfl⟩

theorem toLower_toUpper {c : Char} (h : c ∈ hexDigits) : c.toUpper.toLower = c.toLower := by
  have hall : hexDigits.all (fun c => c.toUpper.toLower == c.toLower) = true := by decide
  exact beq_iff_eq.mp (List.all_eq_true.mp hall c h)

theorem toUpper_toLower {c : Char} (h : c ∈ hexDigits) : c.toLower.toUpper = c.toUpper := by
  have hall : hexDigits.all (fun c => c.toLower.toUpper == c.toUpper) = true := by decide
  exact beq_iff_eq.mp (List.all_eq_true.mp hall c h)

/-- Two colours are kept alike exactly if their digits agree up to the case of the letters. -/
theorem stored_eq_iff {as bs : List Char} (ha : ∀ a ∈ as, a ∈ hexDigits) (hb : ∀ b ∈ bs, b ∈ hexDigits) :
    stored as = stored bs ↔ as.map Char.toLower = bs.map Char.toLower := by
  have hlower : ∀ {cs : List Char}, (∀ c ∈ cs, c ∈ hexDigits) → (cs.map Char.toUpper).map Char.toLower =
      cs.map Char.toLower := by
    intro cs h
    rw [List.map_map]
    exact List.map_congr_left fun c hc => toLower_toUpper (h c hc)
  have hupper : ∀ {cs : List Char}, (∀ c ∈ cs, c ∈ hexDigits) → (cs.map Char.toLower).map Char.toUpper =
      cs.map Char.toUpper := by
    intro cs h
    rw [List.map_map]
    exact List.map_congr_left fun c hc => toUpper_toLower (h c hc)
  constructor
  · intro h
    rw [← hlower ha, ← hlower hb, String.ofList_injective h]
  · intro h
    rw [stored, stored, ← hupper ha, ← hupper hb, h]

theorem mem_hexDigits_of_upper {c : Char} (h : ('0' ≤ c ∧ c ≤ '9') ∨ ('A' ≤ c ∧ c ≤ 'F')) : c ∈ hexDigits := by
  apply isHexDigit_iff.mp
  rcases h with ⟨hlow, hhigh⟩ | ⟨hlow, hhigh⟩
  · have hdigit : c.isDigit = true := Char.isDigit_iff_toNat.mpr ⟨Char.le_def.mp hlow, Char.le_def.mp hhigh⟩
    simp [isHexDigit, hdigit]
  · simp [isHexDigit, hlow, hhigh]

/-- A colour as themes keep it is kept as it is. -/
theorem colour_of_isColour {s : String} (h : IsColour s) : colour (.text s) = .done s := by
  obtain ⟨hlength, hdigits⟩ := h
  have hhex : ∀ c ∈ s.toList, c ∈ hexDigits := fun c hc => mem_hexDigits_of_upper (hdigits c hc)
  have hupper : ∀ c ∈ s.toList, c.toUpper = c := by
    intro c hc
    -- not every digit is its own capital: the small letters are left out by what themes keep
    have hall : hexDigits.all
        (fun c => !(decide (('0' ≤ c ∧ c ≤ '9') ∨ ('A' ≤ c ∧ c ≤ 'F'))) || c.toUpper == c) = true := by
      decide
    have hc' := List.all_eq_true.mp hall c (hhex c hc)
    rw [decide_eq_true (hdigits c hc)] at hc'
    exact beq_iff_eq.mp hc'
  have hstored : stored s.toList = s := by
    rw [stored, List.map_congr_left hupper, List.map_id', String.ofList_toList]
  rw [colour_of_spells ⟨Or.inl rfl, hlength, hhex⟩, hstored]

end Theme

/-! ## Described settings -/

/-- **A setting.** It has its default where the key is absent, and otherwise what the value under the key stands for. -/
def Setting {α : Type} (fs : List (String × Data)) (key : String) (default : α) (means : Data → α → Prop) (a : α) :
    Prop :=
  (Data.get? fs key = none ∧ a = default) ∨ ∃ v, Data.get? fs key = some v ∧ means v a

/-- A reader of values that goes by their meaning reads a field as the setting. -/
theorem optional_eq_done_iff_setting {α : Type} {fs : List (String × Data)} {key : String} {default a : α}
    {read : Data → Reading α} {means : Data → α → Prop} (h : ∀ {v a}, read v = .done a ↔ means v a) :
    Reading.optional key default read fs = .done a ↔ Setting fs key default means a := by
  rw [Reading.optional_eq_done_iff, Setting]
  exact or_congr (and_congr_right fun _ => eq_comm) (exists_congr fun v => and_congr_right fun _ => h)

/-- The integer that a number or a truth value stands for. -/
def Data.numeral? : Data → Option Int
  | .bool b => some (if b then 1 else 0)
  | .int n => some n
  | .real x => x.toInt?
  | _ => none

namespace Theme

variable {fs : List (String × Data)}

/-- The value is a spelling of the colour. -/
def MeansColour (v : Data) (c : String) : Prop := ∃ s digits, v = .text s ∧ Spells s digits ∧ c = stored digits

/-- **What the fields of a theme say.** -/
structure Describes (fs : List (String × Data)) (t : Theme) : Prop where
  known : ∀ f ∈ fs, f.1 ∈ keys
  predefinedType : Setting fs "predefined_type" "569CD6" MeansColour t.predefinedType
  type : Setting fs "type" "4EC9B0" MeansColour t.type
  method : Setting fs "method" "DCDCAA" MeansColour t.method
  parameter : Setting fs "parameter" "9CDCFE" MeansColour t.parameter
  description : Setting fs "description" "D4D4D4" MeansColour t.description

/-! ### Unknown keys -/

/-- Each unknown key is one fault, under the key. -/
theorem faults_onlyKeys (known : List String) (fs : List (String × Data)) :
    (onlyKeys known fs).faults = (fs.filter fun f => !known.contains f.1).map fun f => ⟨[.key f.1], .unknownKey⟩ := by
  unfold onlyKeys
  split
  · next h => exact h.symm
  · rfl

/-- Each unknown key is reported in its place, and nothing else is. -/
theorem mem_faults_onlyKeys {known : List String} {e : Fault} :
    e ∈ (onlyKeys known fs).faults ↔ ∃ f ∈ fs, f.1 ∉ known ∧ e = ⟨[.key f.1], .unknownKey⟩ := by
  rw [faults_onlyKeys, List.mem_map]
  simp only [List.mem_filter, Bool.not_eq_true', List.contains_eq_mem, decide_eq_false_iff_not, and_assoc]
  exact exists_congr fun f => and_congr_right fun _ => and_congr_right fun _ => eq_comm

theorem onlyKeys_eq_done_iff {known : List String} {u : Unit} :
    onlyKeys known fs = .done u ↔ ∀ f ∈ fs, f.1 ∈ known := by
  constructor
  · intro h f hf
    by_contra hunknown
    have hmem := mem_faults_onlyKeys.mpr ⟨f, hf, hunknown, rfl⟩
    rw [h] at hmem
    exact List.not_mem_nil hmem
  · intro h
    have hnone : (fs.filter fun f => !known.contains f.1) = [] := by
      apply List.filter_eq_nil_iff.mpr
      intro f hf
      simp [h f hf]
    unfold onlyKeys
    rw [hnone]
    rfl

/-- **An unknown key** is reported by every reader that checks the keys last, whatever its fields are read as. -/
theorem mem_faults_of_unknownKey {α : Type} (fields : Reading (Unit → α)) {known : List String} {key : String}
    (hkey : key ∈ fs.map Prod.fst) (hunknown : key ∉ known) :
    ⟨[.key key], .unknownKey⟩ ∈ (fields <*> onlyKeys known fs).faults := by
  obtain ⟨f, hf, rfl⟩ := List.mem_map.mp hkey
  rw [Reading.faults_seq, List.mem_append]
  exact Or.inr (mem_faults_onlyKeys.mpr ⟨f, hf, hunknown, rfl⟩)

theorem optional_colour_eq_done_iff {key default c : String} :
    Reading.optional key default colour fs = .done c ↔ Setting fs key default MeansColour c :=
  optional_eq_done_iff_setting colour_eq_done_iff

/-- **Which documents are themes.** -/
theorem read_eq_done_iff {v : Data} {t : Theme} : read v = .done t ↔ ∃ fs, v = .table fs ∧ Describes fs t := by
  constructor
  · intro h
    cases v with
    | table fs =>
      -- the keys are checked last, so they are the outermost step
      obtain ⟨_, _, hfive, hkeys, rfl⟩ := Reading.seq_eq_done_iff.mp h
      obtain ⟨_, e, hfour, he, rfl⟩ := Reading.seq_eq_done_iff.mp hfive
      obtain ⟨_, d, hthree, hd, rfl⟩ := Reading.seq_eq_done_iff.mp hfour
      obtain ⟨_, c, htwo, hc, rfl⟩ := Reading.seq_eq_done_iff.mp hthree
      obtain ⟨_, b, hone, hb, rfl⟩ := Reading.seq_eq_done_iff.mp htwo
      obtain ⟨a, ha, rfl⟩ := Reading.map_eq_done_iff.mp hone
      rw [optional_colour_eq_done_iff] at ha hb hc hd he
      exact ⟨fs, rfl, onlyKeys_eq_done_iff.mp hkeys, ha, hb, hc, hd, he⟩
    | _ => contradiction
  · rintro ⟨fs, rfl, h⟩
    have ha := optional_colour_eq_done_iff.mpr h.predefinedType
    have hb := optional_colour_eq_done_iff.mpr h.type
    have hc := optional_colour_eq_done_iff.mpr h.method
    have hd := optional_colour_eq_done_iff.mpr h.parameter
    have he := optional_colour_eq_done_iff.mpr h.description
    have hkeys : onlyKeys keys fs = .done () := onlyKeys_eq_done_iff.mpr h.known
    simp only [read, Reading.tableOf, ha, hb, hc, hd, he, hkeys]
    rfl

end Theme

namespace Config

/-- The value is a spelling of the level. -/
def MeansLevel (v : Data) (l : LogLevel) : Prop := ∃ s, v = .text s ∧ Text.uppercase s = l.text

/-- **What the fields of a settings document say.** -/
structure Describes (fs : List (String × Data)) (c : Config) : Prop where
  known : ∀ f ∈ fs, f.1 ∈ keys
  base : Setting fs "position_base" 0 (fun v b => v.numeral? = some (b.val : Int)) c.base
  level : Setting fs "log_level" .warning MeansLevel c.level
  theme : Setting fs "theme" {} (fun v t => ∃ ts, v = .table ts ∧ Theme.Describes ts t) c.theme

/-- Zero and one are accepted in any of their spellings, and no other number is. -/
theorem base?_eq_some_iff {v : Data} {b : Fin 2} : base? v = some b ↔ v.numeral? = some (b.val : Int) := by
  have hint : ∀ n : Int, (if n = 0 then some 0 else if n = 1 then some 1 else none) = some b ↔ n = (b.val : Int) := by
    intro n
    split
    · simp only [Option.some.injEq, Fin.ext_iff]
      omega
    · split
      · simp only [Option.some.injEq, Fin.ext_iff]
        omega
      · simp only [reduceCtorEq, false_iff]
        omega
  cases v with
  | bool x => cases x <;> simp [base?, Data.numeral?, Fin.ext_iff] <;> omega
  | int n => simp [base?, Data.numeral?, hint]
  | real x =>
    simp only [base?, Data.numeral?]
    cases x.toInt? with
    | none => simp
    | some n => simp [hint]
  | _ => simp [base?, Data.numeral?]

/-- A base is a number equal to zero or one. -/
theorem readBase_eq_done_iff {v : Data} {b : Fin 2} : readBase v = .done b ↔ v.numeral? = some (b.val : Int) := by
  rw [← base?_eq_some_iff, readBase]
  cases base? v with
  | none => simp [Reading.fault]
  | some b' => simp

theorem find?_text_eq_some_iff {word : String} {l : LogLevel} :
    (LogLevel.all.find? fun l => l.text == word) = some l ↔ word = l.text := by
  constructor
  · intro h
    have hword : (l.text == word) = true := List.find?_some (p := fun l : LogLevel => l.text == word) h
    exact (beq_iff_eq.mp hword).symm
  · rintro rfl
    cases l <;> rfl

/-- A level is a text that in capitals is the word for it. -/
theorem readLevel_eq_done_iff {v : Data} {l : LogLevel} : readLevel v = .done l ↔ MeansLevel v l := by
  unfold MeansLevel
  cases v with
  | text s =>
    simp only [readLevel, Data.text.injEq, exists_eq_left', ← find?_text_eq_some_iff]
    cases LogLevel.all.find? fun l => l.text == Text.uppercase s with
    | none => simp [Reading.fault]
    | some l' => simp
  | _ => simp [readLevel, Reading.fault]

/-- **Which documents are settings.** -/
theorem read_eq_done_iff {v : Data} {c : Config} : read v = .done c ↔ ∃ fs, v = .table fs ∧ Describes fs c := by
  constructor
  · intro h
    cases v with
    | table fs =>
      obtain ⟨_, _, hthree, hkeys, rfl⟩ := Reading.seq_eq_done_iff.mp h
      obtain ⟨_, theme, htwo, htheme, rfl⟩ := Reading.seq_eq_done_iff.mp hthree
      obtain ⟨_, level, hone, hlevel, rfl⟩ := Reading.seq_eq_done_iff.mp htwo
      obtain ⟨base, hbase, rfl⟩ := Reading.map_eq_done_iff.mp hone
      exact ⟨fs, rfl, Theme.onlyKeys_eq_done_iff.mp hkeys, (optional_eq_done_iff_setting readBase_eq_done_iff).mp hbase,
        (optional_eq_done_iff_setting readLevel_eq_done_iff).mp hlevel,
        (optional_eq_done_iff_setting Theme.read_eq_done_iff).mp htheme⟩
    | _ => contradiction
  · rintro ⟨fs, rfl, h⟩
    have hbase := (optional_eq_done_iff_setting readBase_eq_done_iff).mpr h.base
    have hlevel := (optional_eq_done_iff_setting readLevel_eq_done_iff).mpr h.level
    have htheme := (optional_eq_done_iff_setting Theme.read_eq_done_iff).mpr h.theme
    have hkeys : Theme.onlyKeys keys fs = .done () := Theme.onlyKeys_eq_done_iff.mpr h.known
    simp only [read, Reading.tableOf, hbase, hlevel, htheme, hkeys]
    rfl

end Config

/-! ## Written out again -/

/-- A theme as data, every colour with its key. -/
def Theme.dump (t : Theme) : Data :=
  .table [("predefined_type", .text t.predefinedType), ("type", .text t.type), ("method", .text t.method),
    ("parameter", .text t.parameter), ("description", .text t.description)]

/-- Settings as data, every one with its key. -/
def Config.dump (c : Config) : Data :=
  .table [("position_base", .int c.base.val), ("log_level", .text c.level.text), ("theme", c.theme.dump)]

/-- A theme of colours in the form in which they are kept is read as itself. -/
theorem Theme.read_dump {t : Theme} (h : ∀ c ∈ t.colours, IsColour c) : read t.dump = .done t := by
  have hcolours : ∀ c ∈ t.colours, MeansColour (.text c) c :=
    fun c hc => colour_eq_done_iff.mp (colour_of_isColour (h c hc))
  simp only [colours, List.forall_mem_cons] at hcolours
  obtain ⟨ha, hb, hc, hd, he, -⟩ := hcolours
  refine read_eq_done_iff.mpr ⟨_, rfl, ?_, ?_, ?_, ?_, ?_, ?_⟩
  · simp [keys]
  · exact Or.inr ⟨_, rfl, ha⟩
  · exact Or.inr ⟨_, rfl, hb⟩
  · exact Or.inr ⟨_, rfl, hc⟩
  · exact Or.inr ⟨_, rfl, hd⟩
  · exact Or.inr ⟨_, rfl, he⟩

namespace Config

theorem uppercase_text (l : LogLevel) : Text.uppercase l.text = l.text := by
  cases l <;> decide

/-- Settings that are written out are read as themselves. -/
theorem read_dump {c : Config} (h : ∀ colour ∈ c.theme.colours, Theme.IsColour colour) : read c.dump = .done c := by
  refine read_eq_done_iff.mpr ⟨_, rfl, ?_, ?_, ?_, ?_⟩
  · simp [keys]
  · exact Or.inr ⟨_, rfl, rfl⟩
  · exact Or.inr ⟨_, rfl, _, rfl, uppercase_text c.level⟩
  · exact Or.inr ⟨_, rfl, Theme.read_eq_done_iff.mp (Theme.read_dump h)⟩

/-- **The faults of a theme** are reported among those of the settings. -/
theorem mem_faults_of_theme {fs : List (String × Data)} {v : Data} {e : Fault} (hv : Data.get? fs "theme" = some v)
    (he : e ∈ (Theme.read v).faults) : e.under (.key "theme") ∈ (read (.table fs)).faults := by
  have htheme : Reading.optional "theme" ({} : Config).theme Theme.read fs = (Theme.read v).under (.key "theme") := by
    unfold Reading.optional
    rw [hv]
  show _ ∈ (_ <*> Reading.optional "theme" ({} : Config).theme Theme.read fs <*> Theme.onlyKeys keys fs).faults
  rw [Reading.faults_seq, Reading.faults_seq, htheme, Reading.faults_under]
  simp only [List.mem_append]
  exact Or.inl (Or.inr (List.mem_map_of_mem he))

/-- **Settings that are accepted have the colours of a theme.** -/
theorem isColour_of_describes {fs : List (String × Data)} {c : Config} (h : Describes fs c) :
    ∀ colour ∈ c.theme.colours, Theme.IsColour colour := by
  rcases h.theme with ⟨-, htheme⟩ | ⟨v, -, htheme⟩
  · -- the default is what an empty table is read as
    have hdefault : Theme.read (.table []) = .done c.theme := by
      rw [htheme]
      rfl
    exact Theme.isColour_of_read hdefault
  · exact Theme.isColour_of_read (Theme.read_eq_done_iff.mpr htheme)

/-- **Settings have one canonical form.** A document is accepted exactly if it describes settings. These have base
zero or one, one of five words for the level and five colours of six digits or capital letters, and written out
again they are read as themselves. A value is a colour exactly if it is a text of six hexadecimal digits, perhaps
behind a hash, and two of these are kept alike exactly if they agree up to the hash and the case of the letters.
Every unknown key is reported in its place, among the settings and in the theme. -/
theorem read_canonical :
    (∀ document config, read document = .done config ↔ ∃ fs, document = .table fs ∧ Describes fs config) ∧
    (∀ document config, read document = .done config →
      (config.base.val = 0 ∨ config.base.val = 1) ∧
      config.level.text ∈ ["DEBUG", "INFO", "WARNING", "ERROR", "CRITICAL"] ∧
      (∀ colour ∈ config.theme.colours, Theme.IsColour colour) ∧
      read config.dump = .done config) ∧
    (∀ value, (∃ colour, Theme.colour value = .done colour) ↔ ∃ s digits, value = .text s ∧ Theme.Spells s digits) ∧
    (∀ s t digits digits' colour colour', Theme.Spells s digits → Theme.Spells t digits' →
      Theme.colour (.text s) = .done colour → Theme.colour (.text t) = .done colour' →
      (colour = colour' ↔ digits.map Char.toLower = digits'.map Char.toLower)) ∧
    (∀ fs key, key ∈ fs.map Prod.fst → key ∉ keys → ⟨[.key key], .unknownKey⟩ ∈ (read (.table fs)).faults) ∧
    (∀ fs ts key, Data.get? fs "theme" = some (.table ts) → key ∈ ts.map Prod.fst → key ∉ Theme.keys →
      ⟨[.key "theme", .key key], .unknownKey⟩ ∈ (read (.table fs)).faults) := by
  refine ⟨fun _ _ => read_eq_done_iff, ?_, ?_, ?_, ?_, ?_⟩
  · intro document config h
    obtain ⟨fs, rfl, hdescribes⟩ := read_eq_done_iff.mp h
    have hcolours := isColour_of_describes hdescribes
    refine ⟨by omega, ?_, hcolours, read_dump hcolours⟩
    -- there are five levels
    cases config.level <;> simp [LogLevel.text]
  · intro value
    simp only [Theme.colour_eq_done_iff]
    constructor
    · rintro ⟨_, s, digits, hvalue, hspells, -⟩
      exact ⟨s, digits, hvalue, hspells⟩
    · rintro ⟨s, digits, hvalue, hspells⟩
      exact ⟨_, s, digits, hvalue, hspells, rfl⟩
  · intro s t digits digits' colour colour' hs ht hcolour hcolour'
    obtain rfl := Reading.done.inj ((Theme.colour_of_spells hs).symm.trans hcolour)
    obtain rfl := Reading.done.inj ((Theme.colour_of_spells ht).symm.trans hcolour')
    exact Theme.stored_eq_iff hs.hex ht.hex
  · intro fs key hkey hunknown
    exact Theme.mem_faults_of_unknownKey _ hkey hunknown
  · intro fs ts key htheme hkey hunknown
    exact mem_faults_of_theme htheme (Theme.mem_faults_of_unknownKey _ hkey hunknown)

/-- A truth value, a dotless i and a colour behind a hash are read and kept in their canonical form. Another spelling of
the colour comes to the same, and a key that themes do not have is reported. -/
theorem read_canonical_of_spellings :
    ∃ config, read (.table [("position_base", .bool true), ("log_level", .text "warnıng"),
        ("theme", .table [("type", .text "#a0B1c2")])]) = .done config ∧
      config.base = 1 ∧ config.level = .warning ∧ config.theme.type = "A0B1C2" ∧ read config.dump = .done config ∧
      (∃ colour, Theme.colour (.text "A0b1C2") = .done colour ∧ config.theme.type = colour) ∧
      ⟨[.key "theme", .key "keyword"], .unknownKey⟩ ∈
        (read (.table [("theme", .table [("keyword", .text "FF0000")])])).faults := by
  obtain ⟨-, hcanonical, -, hsame, -, hunknown⟩ := read_canonical
  have hread : read (.table [("position_base", .bool true), ("log_level", .text "warnıng"),
      ("theme", .table [("type", .text "#a0B1c2")])]) = .done ⟨1, .warning, { type := "A0B1C2" }⟩ := rfl
  have hhash : Theme.colour (.text "#a0B1c2") = .done "A0B1C2" := rfl
  obtain ⟨-, -, -, hdump⟩ := hcanonical _ _ hread
  have hspells : Theme.Spells "#a0B1c2" "a0B1c2".toList :=
    ⟨by decide, by decide, Theme.all_isHexDigit_iff.mp (by decide)⟩
  have hspells' : Theme.Spells "A0b1C2" "A0b1C2".toList :=
    ⟨by decide, by decide, Theme.all_isHexDigit_iff.mp (by decide)⟩
  have hcolour := Theme.colour_of_spells hspells'
  refine ⟨_, hread, rfl, rfl, rfl, hdump, ⟨_, hcolour, ?_⟩, hunknown _ _ "keyword" rfl (by simp) (by decide)⟩
  exact (hsame _ _ _ _ _ _ hspells hspells' hhash hcolour).mpr (by decide)

end Config
end Caret
