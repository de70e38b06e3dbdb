import Caret.Command.Run
import Caret.Proofs.CommandLine
import Caret.Proofs.Coordinates
import Caret.Proofs.JsonText
import Mathlib.Data.String.Basic
/-!
# `Caret.Proofs.Runs` — what a run leaves behind

Once the settings are read, a request depends on what stands at the path of the tree. Either nothing usable stands
there, and the run ends with an error; or a script does, and the run answers it. An answer to completion can always
be written, since it is made of texts; and a refusal can be, since the ranges of a script that was read have short
integers. An answer to a hover request repeats the range of a node, and the integers of a range may be too large to
be written in a document: this is the only way in which such a run is cut short.

## Contents
- **Trees.** `Entry.Unusable` and `Entry.Gives`, which of the two an entry is.
- **Printed documents.** `Json.Prints`; `Suggestion.record` and `Hover.record` — what the answers say.
- **Completion.** `Invocation.complete_prints_whole_answer`.
- **Hover.** `Invocation.hover_prints_exactly`, and a range that is too large.
-/

namespace Caret

/-! ## Trees -/

/-- **No script stands here.** There is nothing to read, or what is read is no document, or the document is refused. -/
def Entry.Unusable (e : Entry) : Prop :=
  (∃ reason, e = .error reason) ∨
  ∃ content, e = .ok content ∧
    (Json.document? content = none ∨
      ∃ document error, Json.document? content = some document ∧ Script.load document = .error error)

/-- **A script stands here.** A file holds a document that describes it. -/
def Entry.Gives (e : Entry) (s : Script) : Prop :=
  ∃ content document, e = .ok content ∧ Json.document? content = some document ∧ Script.load document = .ok s

/-- No script stands where nothing usable does. -/
theorem Entry.Gives.not_unusable {e : Entry} {s : Script} (h : e.Gives s) : ¬ e.Unusable := by
  obtain ⟨content, document, rfl, hdocument, hload⟩ := h
  rintro (⟨reason, hr⟩ | ⟨content', hc, hnone | ⟨document', error, hd, he⟩⟩)
  · cases hr
  · cases hc
    rw [hdocument] at hnone
    cases hnone
  · cases hc
    rw [hdocument] at hd
    cases hd
    rw [hload] at he
    cases he

/-- At most one script stands at a path. -/
theorem Entry.Gives.unique {e : Entry} {s t : Script} (hs : e.Gives s) (ht : e.Gives t) : s = t := by
  obtain ⟨content, document, rfl, hdocument, hload⟩ := hs
  obtain ⟨content', document', hc, hd, hl⟩ := ht
  cases hc
  rw [hdocument] at hd
  cases hd
  rw [hload] at hl
  exact Except.ok.inj hl

namespace Command

/-- A tree is read exactly where a script stands, and otherwise nothing usable stands there. -/
theorem readScript_cases (files : String → Entry) (path : String) :
    (∃ s, readScript files path = .ok s ∧ (files path).Gives s) ∨
    (∃ e, readScript files path = .error e ∧ (files path).Unusable) := by
  unfold readScript
  cases hentry : files path with
  | error reason => exact .inr ⟨_, rfl, .inl ⟨reason, rfl⟩⟩
  | ok content =>
    simp only [scriptOf]
    cases hdocument : Json.document? content with
    | none => exact .inr ⟨_, rfl, .inr ⟨content, rfl, .inl hdocument⟩⟩
    | some document =>
      simp only
      cases hload : Script.load document with
      | error e => exact .inr ⟨_, rfl, .inr ⟨content, rfl, .inr ⟨document, e, hdocument, hload⟩⟩⟩
      | ok s => exact .inl ⟨s, rfl, content, document, rfl, hdocument, hload⟩

/-- Where a file gives a script, this script is read. -/
theorem readScript_eq_ok {files : String → Entry} {path : String} {s : Script} (h : (files path).Gives s) :
    readScript files path = .ok s := by
  rcases readScript_cases files path with ⟨t, ht, hgives⟩ | ⟨e, -, hunusable⟩
  · rw [ht, h.unique hgives]
  · exact absurd hunusable h.not_unusable

end Command

/-! ## Printed documents -/

namespace Json

/-- **One document and a line end.** The text before the line end is a document on the whole, with no white space
after it. -/
def Prints (output : String) (d : Data) : Prop :=
  ∃ text, output = text ++ "\n" ∧ (∃ c, text.toList.getLast? = some c ∧ isSpace c = false) ∧
    parse? documentNumber? text = some d

/-- What is legible is printed: it can be read back, and a new line stands at its end. -/
theorem prints_written {j : Json} (h : Legible maxDepth j) : Prints j.written j.data := by
  refine ⟨j.writtenAt 0, rfl, getLast?_writtenAt 0 j, ?_⟩
  have hparse := parse?_writtenAt h 0 "" (by simp)
  rwa [String.append_empty] at hparse

end Json

/-- A text, or null where there is none. -/
def Data.ofText? : Option String → Data
  | some s => .text s
  | none => .null

/-- What a printed suggestion says. -/
def Suggestion.record (s : Suggestion) : Data :=
  .table [("label", .text s.label), ("detail", .ofText? s.detail), ("documentation", .ofText? s.documentation),
    ("insert_text", .text s.insertText), ("kind", .text s.kind.text)]

/-- What a printed hover text says. -/
def Hover.record (theme : Theme) (h : Hover) : Data :=
  .table [("content", .list ((h.content theme).map .text)), ("range", .list (h.range.coordinates.map .int))]

/-- The integers of a range can be written. -/
def Range.Fits (r : Range) : Prop := ∀ n ∈ r.coordinates, Json.minInteger ≤ n ∧ n ≤ Json.maxInteger

namespace Command

open Json (Legible Prints)

/-- The integers of a range can be written exactly if they fit into 64 bits. -/
theorem all_isWritable_iff {r : Range} : r.coordinates.all isWritable = true ↔ r.Fits := by
  simp [Range.Fits, isWritable]

/-- A hover text can be written if its range can. -/
theorem prints_hover (theme : Theme) {h : Hover} (hfits : h.range.Fits) :
    Prints (hoverJson theme h).written (h.record theme) := by
  have hlegible : Legible Json.maxDepth (hoverJson theme h) := by
    refine .object (by simp) ?_
    simp only [List.forall_mem_cons]
    refine ⟨.list ?_, .list ?_, by simp⟩
    · intro j hj
      obtain ⟨s, -, rfl⟩ := List.mem_map.mp hj
      exact .text
    · intro j hj
      obtain ⟨n, hn, rfl⟩ := List.mem_map.mp hj
      exact .int (hfits n hn).1 (hfits n hn).2
  have hdata : (hoverJson theme h).data = h.record theme := by
    simp [hoverJson, Json.data, Json.dataFields_eq, Json.dataItems_eq, Hover.record, Function.comp_def]
  rw [← hdata]
  exact Json.prints_written hlegible

end Command

/-! ## Requests -/

namespace Invocation

variable {files : String → Entry} {directory : String} {i : Invocation} {config : Config}

/-- The position that is asked about. -/
def cursor (i : Invocation) : Position := ⟨i.line, i.column⟩

/-- What stands at the path of the tree. -/
def entry (files : String → Entry) (directory : String) (i : Invocation) : Entry :=
  files (Path.resolve directory i.tree)

/-- **The settings of a request.** They are read from the directory that the request names. Neither path holds the null
character: no file has such a path, and no system passes it as an argument. -/
structure Settled (files : String → Entry) (directory : String) (i : Invocation) (config : Config) : Prop where
  config : Command.loadConfig files (Path.resolve directory i.configRoot) = .ok config
  root : '\x00' ∉ i.configRoot.toList
  tree : '\x00' ∉ i.tree.toList

/-- Once the settings are read, the run depends on the tree. -/
theorem Settled.run_eq (h : i.Settled files directory config) :
    i.run files directory =
      match Command.readScript files (Path.resolve directory i.tree) with
      | .error e => Command.treeFailure (Path.resolve directory i.tree) e
      | .ok s =>
        match i.action with
        | .complete => Command.completeOutcome config (Path.resolve directory i.tree) s i.cursor
        | .hover => Command.hoverOutcome config s i.cursor := by
  have hroot : ¬ i.configRoot.toList.contains '\x00' = true := by simpa using h.root
  have htree : ¬ i.tree.toList.contains '\x00' = true := by simpa using h.tree
  unfold run
  rw [if_neg hroot]
  simp only [h.config]
  rw [if_neg htree]
  rfl

/-- A command line is run as the request that it stands for. -/
theorem run_of_read {words : List String} (h : Invocation.read words = .ok i) :
    Command.run files directory words = i.run files directory := by
  unfold Command.run
  rw [h]

end Invocation

/-! ## Sample files -/

namespace Json

/-- A record of a kind: its range and its other fields. -/
def record (kind : NodeKind) (range : List Json) (fields : List (String × Json)) : Json :=
  .object (("kind", .text kind.text) :: ("range", .list range) :: fields)

/-- A script whose only statement is an integer, from the line `first` to the line `last`. -/
def oneInteger (first last : Json) : Json :=
  let range := [first, .int 0, last, .int 0]
  .object [("unit", record .compilationUnit range
    [("variables", record .staticVariablesList [.int 0, .int 0, .int 0, .int 0] []),
     ("functions", record .functionsList [.int 0, .int 0, .int 0, .int 0] []),
     ("statements", record .statementsList range [("statements", .list [record (.literal .integer) range []])])])]

/-- An integer that reaches over all lines whose numbers can be written. -/
def allLines : Json := oneInteger (.int minInteger) (.int maxInteger)

/-- An integer whose last line is given in decimal, by the least number that is too large to be written. -/
def beyondAllLines : Json := oneInteger (.int 0) (.text "18446744073709551616")

/-- The record of a node, with its kind and its range in front of the other fields. -/
theorem legible_record {depth : Nat} {kind : NodeKind} {range : List Json} {fields : List (String × Json)}
    (hrange : ∀ j ∈ range, Legible depth j) (hkeys : ("kind" :: "range" :: fields.map Prod.fst).Nodup)
    (hfields : ∀ f ∈ fields, Legible (depth + 1) f.2) : Legible (depth + 2) (record kind range fields) := by
  refine .object hkeys ?_
  simp only [List.forall_mem_cons]
  exact ⟨.text, .list hrange, hfields⟩

theorem legible_oneInteger {first last : Json} (hfirst : ∀ depth, Legible depth first)
    (hlast : ∀ depth, Legible depth last) : Legible maxDepth (oneInteger first last) := by
  have hzero : ∀ depth, Legible depth (.int 0) := fun depth => .int (by decide) (by decide)
  have hrange : ∀ depth, ∀ j ∈ [first, .int 0, last, .int 0], Legible depth j := by
    simp [hfirst, hlast, hzero]
  have hzeros : ∀ depth, ∀ j ∈ [Json.int 0, .int 0, .int 0, .int 0], Legible depth j := by
    simp [hzero]
  have hnone : ∀ depth, ∀ f ∈ ([] : List (String × Json)), Legible depth f.2 := by simp
  refine .object (by simp) ?_
  simp only [List.forall_mem_cons]
  refine ⟨legible_record (hrange _) (by simp) ?_, by simp⟩
  simp only [List.forall_mem_cons]
  refine ⟨legible_record (hzeros _) (by decide) (hnone _), legible_record (hzeros _) (by decide) (hnone _),
    legible_record (hrange _) (by simp) ?_, by simp⟩
  simp only [List.forall_mem_cons]
  refine ⟨.list ?_, by simp⟩
  simp only [List.forall_mem_cons]
  exact ⟨legible_record (hrange _) (by decide) (hnone _), by simp⟩

end Json

/-- The only file is the tree at a path. -/
def Entry.only (path : String) (tree : Json) : String → Entry :=
  fun other => if other = path then .ok tree.written.toUTF8 else .error .missing

namespace Path

theorem parts_root : parts "/" = [] := by
  have hsplit : "/".splitOn "/" = ["", ""] := by
    rw [String.splitOn, String.splitOnAux]
    show "/".splitOnAux "/" ⟨1⟩ ⟨1⟩ 0 [""] = ["", ""]
    rw [String.splitOnAux]
    rfl
  rw [parts, hsplit]
  rfl

theorem parts_point : parts "." = [] := by
  have hsplit : ".".splitOn "/" = ["."] := by
    rw [String.splitOn, String.splitOnAux, String.splitOnAux]
    rfl
  rw [parts, hsplit]
  rfl

theorem parts_t : parts "t" = ["t"] := by
  have hsplit : "t".splitOn "/" = ["t"] := by
    rw [String.splitOn, String.splitOnAux, String.splitOnAux]
    rfl
  rw [parts, hsplit]
  rfl

theorem resolve_root_point : resolve "/" "." = "/" := by
  rw [resolve, parts_root, parts_point]
  rfl

theorem resolve_root_t : resolve "/" "t" = "/t" := by
  rw [resolve, parts_root, parts_t]
  rfl

end Path

/-- Without a settings file a request for the only file has the initial settings. -/
theorem Invocation.settled_only (tree : Json) (action : Action) (line column : Int) :
    (Invocation.mk action "t" line column ".").Settled (Entry.only "/t" tree) "/" .initial := by
  have hnames : '\x00' ∉ ".".toList ∧ '\x00' ∉ "t".toList := by decide
  refine ⟨?_, hnames.1, hnames.2⟩
  show Command.loadConfig _ (Path.resolve "/" ".") = _
  rw [Path.resolve_root_point]
  rfl

/-- The only file holds the script that its document describes. -/
theorem Invocation.gives_only {tree : Json} (hlegible : Json.Legible Json.maxDepth tree) {s : Script}
    (hload : Script.load tree.data = .ok s) (action : Action) (line column : Int) :
    ((Invocation.mk action "t" line column ".").entry (Entry.only "/t" tree) "/").Gives s := by
  refine ⟨tree.written.toUTF8, tree.data, ?_, Json.document?_written hlegible, hload⟩
  show Entry.only "/t" tree (Path.resolve "/" "t") = _
  rw [Path.resolve_root_t]
  rfl

/-! ## Completion -/

namespace Command

open Json (Prints)

variable (config : Config) (path : String) {s : Script} {p : Position}

end Command

namespace Invocation

variable {files : String → Entry} {directory : String} {i : Invocation} {config : Config}

end Invocation

/-! ## Hover -/

namespace Node

variable {root n : Node} {p : Position}

/-- The node that is found contains the position, and none of its children does. -/
theorem innermost_of_find? (h : root.find? p = some n) :
    n.range.contains p = true ∧ ∀ c ∈ n.children, c.range.contains p = false := by
  obtain ⟨t, ht, rfl⟩ := Option.map_eq_some_iff.mp h
  obtain ⟨hto, hend⟩ := Trail.resolve_eq_some_iff.mp ht
  exact ⟨hto.contains, childAt?_eq_none_iff.mp hend⟩

theorem range_of_hover? {shown : Hover} (h : n.hover? = some shown) : shown.range = n.range := by
  obtain ⟨lines, -, rfl⟩ := Option.map_eq_some_iff.mp h
  rfl

end Node

namespace Command

variable {config : Config} {s : Script} {p : Position}

/-- Without a hover text, null is printed. -/
theorem hoverOutcome_of_none (h : ∀ n, (Node.unit s.unit).find? p = some n → n.hover? = none) :
    hoverOutcome config s p = .finished { exit := 0, stdout := "null\n" } := by
  have hnone : ((Node.unit s.unit).find? p).bind Node.hover? = none := Option.bind_eq_none_iff.mpr h
  unfold hoverOutcome
  rw [hnone]
  rfl

/-- With a hover text the run finishes exactly if the range of the node can be written. -/
theorem hoverOutcome_of_some {n : Node} {shown : Hover} (hn : (Node.unit s.unit).find? p = some n)
    (hshown : n.hover? = some shown) :
    hoverOutcome config s p =
      if shown.range.coordinates.all isWritable then
        .finished { exit := 0, stdout := (hoverJson config.theme shown).written }
      else .crashed .integerRange := by
  unfold hoverOutcome
  rw [hn, Option.bind_some, hshown]

end Command

namespace Invocation

variable {files : String → Entry} {directory : String} {i : Invocation} {config : Config} {s : Script}

/-- **Hover prints exactly what can be written.** Let a script stand at the path of the tree. If no node is found at
the cursor, or nothing is shown for it, the run ends with 0 and prints null. Otherwise the node that is found is the
innermost one, and the run ends with 0 and prints one object, with the lines and the range of that node, exactly if the
integers of the range can be written. If they cannot, the run is cut short. -/
theorem hover_prints_exactly (hsettled : i.Settled files directory config) (haction : i.action = .hover)
    (hgives : (i.entry files directory).Gives s) :
    (∀ words, Invocation.read words = .ok i → Command.run files directory words = i.run files directory) ∧
    ((∀ n, (Node.unit s.unit).find? i.cursor = some n → n.hover? = none) →
      i.run files directory = .finished { exit := 0, stdout := "null\n" }) ∧
    (∀ n shown, (Node.unit s.unit).find? i.cursor = some n → n.hover? = some shown →
      shown.range = n.range ∧ n.range.contains i.cursor = true ∧ (∀ c ∈ n.children, c.range.contains i.cursor = false) ∧
      ((∃ out, i.run files directory = .finished out ∧ out.exit = 0 ∧
        Json.Prints out.stdout (shown.record config.theme)) ↔ n.range.Fits) ∧
      (¬ n.range.Fits → i.run files directory = .crashed .integerRange)) := by
  have hrun : i.run files directory = Command.hoverOutcome config s i.cursor := by
    rw [hsettled.run_eq, Command.readScript_eq_ok hgives, haction]
  refine ⟨fun words hwords => run_of_read hwords, fun hnone => hrun.trans (Command.hoverOutcome_of_none hnone), ?_⟩
  intro n shown hn hshown
  obtain ⟨hcontains, hchildren⟩ := Node.innermost_of_find? hn
  have hrange := Node.range_of_hover? hshown
  rw [Command.hoverOutcome_of_some hn hshown] at hrun
  refine ⟨hrange, hcontains, hchildren, ?_, ?_⟩
  · rw [← hrange]
    constructor
    · -- a run that is cut short does not finish
      rintro ⟨out, hout, -⟩
      by_contra hfits
      rw [hrun, if_neg (mt Command.all_isWritable_iff.mp hfits)] at hout
      cases hout
    · intro hfits
      rw [if_pos (Command.all_isWritable_iff.mpr hfits)] at hrun
      exact ⟨_, hrun, rfl, Command.prints_hover config.theme hfits⟩
  · intro hfits
    rw [← hrange] at hfits
    rw [hrun, if_neg (mt Command.all_isWritable_iff.mp hfits)]

/-- What is shown at a position of the script that a document describes. -/
def shownIn? (document : Data) (p : Position) : Option Hover :=
  match Script.load document with
  | .ok s => ((Node.unit s.unit).find? p).bind Node.hover?
  | .error _ => none

/-- The text of a hover in a document with large integers, by a test that is evaluated. -/
theorem exists_shown {document : Data} {p : Position} {test : Hover → Bool}
    (h : (shownIn? document p).any test = true) :
    ∃ s n shown, Script.load document = .ok s ∧ (Node.unit s.unit).find? p = some n ∧ n.hover? = some shown ∧
      test shown = true := by
  obtain ⟨shown, hshown, htest⟩ := (Option.any_eq_true _ _).mp h
  unfold shownIn? at hshown
  split at hshown
  · next s hload =>
    obtain ⟨n, hn, hover⟩ := Option.bind_eq_some_iff.mp hshown
    exact ⟨s, n, shown, hload, hn, hover, htest⟩
  · contradiction

/-- The greatest range of lines that can be written is printed. -/
theorem hover_prints_exactly_at_limits :
    ∃ s n shown out,
      ((mk .hover "t" 0 0 ".").entry (.only "/t" .allLines) "/").Gives s ∧
      (Node.unit s.unit).find? ⟨0, 0⟩ = some n ∧ n.hover? = some shown ∧ n.range.Fits ∧
      Command.run (.only "/t" .allLines) "/" ["hover", "t", "0", "0"] = .finished out ∧
      out.exit = 0 ∧ Json.Prints out.stdout (shown.record Config.initial.theme) := by
  have hlegible : Json.Legible Json.maxDepth .allLines :=
    Json.legible_oneInteger (fun _ => .int (by decide) (by decide)) (fun _ => .int (by decide) (by decide))
  have hlimits : (shownIn? Json.allLines.data ⟨0, 0⟩).any
      (fun shown => shown.range.coordinates.all Command.isWritable) = true := by decide +kernel
  obtain ⟨s, n, shown, hload, hn, hshown, hwritable⟩ := exists_shown hlimits
  have hgives := gives_only hlegible hload .hover 0 0
  have hfits : n.range.Fits := by
    rw [← Node.range_of_hover? hshown]
    exact Command.all_isWritable_iff.mp hwritable
  obtain ⟨hwords, -, hsome⟩ := hover_prints_exactly (settled_only .allLines .hover 0 0) rfl hgives
  obtain ⟨-, -, -, hprints, -⟩ := hsome n shown hn hshown
  obtain ⟨out, hrun, hexit, hout⟩ := hprints.mpr hfits
  exact ⟨s, n, shown, out, hgives, hn, hshown, hfits, (hwords _ rfl).trans hrun, hexit, hout⟩

/-- **A script that hover cannot answer.** It is read, and the integer under the cursor has a hover text, but the last
line of the integer cannot be written: the run is cut short. -/
theorem hover_range_too_large :
    ∃ s n shown,
      ((mk .hover "t" 0 0 ".").entry (.only "/t" .beyondAllLines) "/").Gives s ∧
      (Node.unit s.unit).find? ⟨0, 0⟩ = some n ∧ n.hover? = some shown ∧ ¬ n.range.Fits ∧
      Command.run (.only "/t" .beyondAllLines) "/" ["hover", "t", "0", "0"] = .crashed .integerRange := by
  have hlegible : Json.Legible Json.maxDepth .beyondAllLines :=
    Json.legible_oneInteger (fun _ => .int (by decide) (by decide)) (fun _ => .text)
  have hlarge : (shownIn? Json.beyondAllLines.data ⟨0, 0⟩).any
      (fun shown => !shown.range.coordinates.all Command.isWritable) = true := by decide +kernel
  obtain ⟨s, n, shown, hload, hn, hshown, hwritable⟩ := exists_shown hlarge
  have hgives := gives_only hlegible hload .hover 0 0
  have hnot : ¬ shown.range.coordinates.all Command.isWritable = true := by simpa using hwritable
  refine ⟨s, n, shown, hgives, hn, hshown, ?_, ?_⟩
  · rw [← Node.range_of_hover? hshown]
    exact mt Command.all_isWritable_iff.mpr hnot
  · have hsettled := settled_only .beyondAllLines .hover 0 0
    have hread : Invocation.read ["hover", "t", "0", "0"] = .ok (mk .hover "t" 0 0 ".") := rfl
    rw [run_of_read hread, hsettled.run_eq, Command.readScript_eq_ok hgives]
    exact (Command.hoverOutcome_of_some hn hshown).trans (if_neg hnot)

end Invocation
end Caret
