import Caret.Proofs.Runs
import Caret.Proofs.Scanning
/-!
# `Caret.Proofs.SettingsFile` — settings files that cannot be used

Before it looks at the tree, a run reads the settings. A settings file that is no TOML document or does not have the
form of settings is reported, and the run ends with 2. Three sorts of files are not reported: those that cannot be
opened, those that are no text, and those in which an integer has more digits than can be read. With one of them the
run is cut short.

`Config.Readable` says that the content of a file is neither of the last two, and this is exactly when a run can
tell what is wrong with the settings (`Invocation.settings_refused_exactly`). A text without an integer of that
length is always readable (`Config.readable_of_short`). How deep the tables and arrays of a settings file are nested
is not limited here.

## Contents
- **Contents of settings files.** `Config.FileError.Reported`, `Config.Readable`, `Config.reported_iff_readable`.
- **Runs.** `Invocation.settings_refused_exactly`, and two files with which the run is cut short.
-/

namespace Caret

/-! ## Contents of settings files -/

namespace Config

/-- **Reported errors.** What is said of the file goes to the error stream. -/
def FileError.Reported : FileError → Prop
  | .notToml | .invalid _ => True
  | .unreadable _ | .encoding | .oversized _ => False

/-- **Readable settings.** The content is a text, and no integer in it stops the reader of TOML. -/
def Readable (content : ByteArray) : Prop :=
  ∃ text, String.fromUTF8? content = some text ∧ ∀ n, Toml.parse text ≠ .error (.oversized n)

variable {content : ByteArray}

/-- **Reading either gives settings or a reported error, exactly if the content is readable.** -/
theorem reported_iff_readable :
    ((∃ config, ofContent content = .ok config) ∨ ∃ e, ofContent content = .error e ∧ e.Reported) ↔
      Readable content := by
  unfold ofContent Readable
  cases htext : String.fromUTF8? content with
  | none => simp [FileError.Reported]
  | some text =>
    simp only [Option.some.injEq, exists_eq_left']
    cases hparse : Toml.parse text with
    | error fault =>
      cases fault with
      | malformed => simp [FileError.Reported]
      | oversized n => simp [FileError.Reported]
    | ok fields =>
      simp only
      cases read (.table fields) with
      | done config => simp
      | failed faults => simp [FileError.Reported]

theorem reported_of_error {e : FileError} (h : ofContent content = .error e) : e.Reported ↔ Readable content := by
  rw [← reported_iff_readable, h]
  constructor
  · intro he
    exact Or.inr ⟨e, rfl, he⟩
  · rintro (⟨config, hconfig⟩ | ⟨e', he', hreported⟩)
    · cases hconfig
    · cases he'
      exact hreported

/-- **A text without overlong integers is readable.** -/
theorem readable_of_short {text : String} (htext : String.fromUTF8? content = some text)
    (hshort : ∀ n, Text.maxDigits < n → ¬ Toml.Holds n text.toList) : Readable content := by
  refine ⟨text, htext, fun n hn => ?_⟩
  obtain ⟨hlarge, hholds⟩ := Toml.oversized_of_parse hn
  exact hshort n hlarge hholds

end Config

/-! ## Runs -/

namespace Invocation

variable {files : String → Entry} {directory : String} {i : Invocation}

/-- What stands at the path of the settings. -/
def settingsEntry (files : String → Entry) (directory : String) (i : Invocation) : Entry :=
  files (Path.join (Path.resolve directory i.configRoot) Config.fileName)

/-- The settings of a request, or what is wrong with them. -/
def settings (files : String → Entry) (directory : String) (i : Invocation) : Except Config.FileError Config :=
  Command.loadConfig files (Path.resolve directory i.configRoot)

theorem settings_of_content {content : ByteArray} (h : i.settingsEntry files directory = .ok content) :
    i.settings files directory = Config.ofContent content := by
  unfold settingsEntry at h
  unfold settings Command.loadConfig
  rw [h]

theorem settings_of_error {reason : ReadError} (h : i.settingsEntry files directory = .error reason) :
    i.settings files directory = if reason.isAbsence then .ok .initial else .error (.unreadable reason) := by
  unfold settingsEntry at h
  unfold settings Command.loadConfig
  rw [h]

/-- With settings that cannot be used the tree does not matter. -/
theorem run_of_settings_error {e : Config.FileError} (hroot : '\x00' ∉ i.configRoot.toList)
    (h : i.settings files directory = .error e) :
    i.run files directory = Command.configFailure (Path.resolve directory i.configRoot) e := by
  have hnull : ¬ i.configRoot.toList.contains '\x00' = true := by simpa using hroot
  unfold settings at h
  unfold run
  rw [if_neg hnull]
  simp only [h]

/-- A run ends with 2 on a reported error and is cut short on any other. -/
theorem configFailure_cases (root : String) (e : Config.FileError) :
    (e.Reported ∧ Command.configFailure root e =
      .finished { exit := 2, stderr := ["error: " ++ e.message (Path.join root Config.fileName)] }) ∨
    (¬ e.Reported ∧ ∃ reason, Command.configFailure root e = .crashed reason) := by
  cases e with
  | unreadable reason => exact Or.inr ⟨fun h => h, _, rfl⟩
  | encoding => exact Or.inr ⟨fun h => h, _, rfl⟩
  | notToml => exact Or.inl ⟨trivial, rfl⟩
  | oversized n => exact Or.inr ⟨fun h => h, _, rfl⟩
  | invalid faults => exact Or.inl ⟨trivial, rfl⟩

/-- **Which settings files are reported.** Without a settings file a request has the initial settings, and with one
that cannot be opened the run is cut short. The content of a settings file gives settings or a reported error
exactly if it is readable. If it gives no settings, the run ends with 2 and prints nothing but the error exactly if
the content is readable, and is cut short otherwise. Content that is not readable is no text or has an integer with
more digits than can be read.

This is exact for readers without a limit on nesting: a reader that gives up on arrays nested some hundred deep is left
aside. -/
theorem settings_refused_exactly (hroot : '\x00' ∉ i.configRoot.toList) :
    (∀ words, Invocation.read words = .ok i → Command.run files directory words = i.run files directory) ∧
    (i.settingsEntry files directory = .error .missing → i.settings files directory = .ok .initial) ∧
    (∀ reason, i.settingsEntry files directory = .error reason → reason.isAbsence = false →
      ∃ path, i.run files directory = .crashed (.unreadable reason path)) ∧
    (∀ content, i.settingsEntry files directory = .ok content →
      (((∃ config, i.settings files directory = .ok config) ∨
        ∃ e, i.settings files directory = .error e ∧ e.Reported) ↔ Config.Readable content) ∧
      (∀ e, i.settings files directory = .error e →
        ((∃ line, i.run files directory = .finished { exit := 2, stdout := "", stderr := ["error: " ++ line] }) ↔
          Config.Readable content) ∧
        (¬ Config.Readable content → ∃ reason, i.run files directory = .crashed reason)) ∧
      (¬ Config.Readable content → String.fromUTF8? content = none ∨
        ∃ text n, String.fromUTF8? content = some text ∧ Text.maxDigits < n ∧ Toml.Holds n text.toList)) := by
  refine ⟨fun words hwords => run_of_read hwords, ?_, ?_, ?_⟩
  · intro hmissing
    rw [settings_of_error hmissing]
    rfl
  · intro reason hreason habsence
    have hsettings := settings_of_error hreason
    rw [habsence, if_neg Bool.false_ne_true] at hsettings
    exact ⟨_, run_of_settings_error hroot hsettings⟩
  intro content hcontent
  have hsettings := settings_of_content hcontent
  refine ⟨?_, ?_, ?_⟩
  · rw [hsettings]
    exact Config.reported_iff_readable
  · intro e he
    have hrun := run_of_settings_error hroot he
    rw [← Config.reported_of_error (hsettings.symm.trans he), hrun]
    rcases configFailure_cases (Path.resolve directory i.configRoot) e with
      ⟨hreported, hfinished⟩ | ⟨hnot, reason, hcrash⟩
    · rw [hfinished]
      exact ⟨⟨fun _ => hreported, fun _ => ⟨_, rfl⟩⟩, fun hnot => absurd hreported hnot⟩
    · rw [hcrash]
      refine ⟨⟨?_, fun hreported => absurd hreported hnot⟩, fun _ => ⟨reason, rfl⟩⟩
      rintro ⟨line, hline⟩
      cases hline
  · intro hnot
    cases htext : String.fromUTF8? content with
    | none => exact Or.inl rfl
    | some text =>
      -- a text that is not readable has an overlong integer, since without one it would be readable
      by_contra hno
      refine hnot (Config.readable_of_short htext fun n hlarge hholds => hno ?_)
      exact Or.inr ⟨text, n, rfl, hlarge, hholds⟩

end Invocation

/-! ### Settings files -/

/-- The only file is the settings file of the root directory. -/
def Entry.onlySettings (content : ByteArray) : String → Entry :=
  fun path => if path = "/script-assist.toml" then .ok content else .error .missing

namespace Invocation

variable (content : ByteArray)

theorem settingsEntry_onlySettings (action : Action) (tree : String) (line column : Int) :
    (mk action tree line column ".").settingsEntry (.onlySettings content) "/" = .ok content := by
  show Entry.onlySettings content (Path.join (Path.resolve "/" ".") Config.fileName) = _
  rw [Path.resolve_root_point]
  rfl

theorem ofContent_unfinished : Config.ofContent "log_level =".toUTF8 = .error .notToml := by
  have hparse : Toml.parse "log_level =" = .error .malformed := rfl
  unfold Config.ofContent
  rw [Json.fromUTF8?_toUTF8]
  simp only [hparse]

/-- A level without a value is no TOML document: the run ends with 2. -/
theorem settings_refused_exactly_unfinished :
    ∃ e line, (mk .complete "t" 0 0 ".").settings (.onlySettings "log_level =".toUTF8) "/" = .error e ∧ e.Reported ∧
      Command.run (.onlySettings "log_level =".toUTF8) "/" ["complete", "t", "0", "0"] =
        .finished { exit := 2, stdout := "", stderr := ["error: " ++ line] } := by
  have hread : Invocation.read ["complete", "t", "0", "0"] = .ok (mk .complete "t" 0 0 ".") := rfl
  have hroot : '\x00' ∉ (mk .complete "t" 0 0 ".").configRoot.toList := by decide
  have hentry := settingsEntry_onlySettings "log_level =".toUTF8 .complete "t" 0 0
  have hsettings := (settings_of_content hentry).trans ofContent_unfinished
  have hreported : Config.FileError.notToml.Reported := trivial
  obtain ⟨hwords, -, -, hfile⟩ := @settings_refused_exactly (.onlySettings "log_level =".toUTF8) "/" _ hroot
  obtain ⟨-, herror, -⟩ := hfile _ hentry
  have hreadable := (Config.reported_of_error ofContent_unfinished).mp hreported
  obtain ⟨line, hrun⟩ := (herror _ hsettings).1.mpr hreadable
  exact ⟨_, line, hsettings, hreported, (hwords _ hread).trans hrun⟩

/-- On settings that cannot be used, whatever the position, a run fails as their content says. -/
theorem run_onlySettings {content : ByteArray} {e : Config.FileError} (h : Config.ofContent content = .error e) :
    Command.run (.onlySettings content) "/" ["complete", "t", "0", "0"] =
      Command.configFailure (Path.resolve "/" ".") e := by
  have hroot : '\x00' ∉ (mk .complete "t" 0 0 ".").configRoot.toList := by decide
  have hread : Invocation.read ["complete", "t", "0", "0"] = .ok (mk .complete "t" 0 0 ".") := rfl
  have hsettings := (settings_of_content (settingsEntry_onlySettings content .complete "t" 0 0)).trans h
  rw [run_of_read hread, run_of_settings_error hroot hsettings]

/-- An integer with more digits than can be read, in an otherwise correct document. -/
theorem ofContent_ones {n : Nat} (hn : Text.maxDigits < n) :
    Config.ofContent (String.ofList ('a' :: '=' :: List.replicate n '1')).toUTF8 = .error (.oversized n) := by
  unfold Config.ofContent
  rw [Json.fromUTF8?_toUTF8]
  simp only [Toml.parse_ones hn]

/-- **Two settings files with which a run is cut short.** One holds a byte that is no text, the other an integer of 4301
digits. -/
theorem settings_cut_run_short :
    Command.run (.onlySettings ⟨#[0xff]⟩) "/" ["complete", "t", "0", "0"] = .crashed .encoding ∧
    Command.run (.onlySettings (String.ofList ('a' :: '=' :: List.replicate 4301 '1')).toUTF8) "/"
      ["complete", "t", "0", "0"] = .crashed (.oversized 4301) := by
  have hbytes : Config.ofContent ⟨#[0xff]⟩ = .error .encoding := by
    have hnone : String.fromUTF8? ⟨#[0xff]⟩ = none := by decide
    unfold Config.ofContent
    rw [hnone]
  have hones := ofContent_ones (show Text.maxDigits < 4301 by decide)
  exact ⟨run_onlySettings hbytes, run_onlySettings hones⟩

end Invocation
end Caret
