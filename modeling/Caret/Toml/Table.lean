import Caret.Data
/-!
# `Caret.Toml.Table` — the tables of a TOML document while it is read

A document is a sequence of statements that open tables, add tables to lists, and set values. What a statement may
touch depends on how the place came to be; this is recorded as marks on key paths beside the data.

## Contents
- **Nested tables.** `openTable` changes the table at a path, which is made on the way where it is missing.
- **Marks.** A path is `closed` when no header may open it again, and `frozen` when nothing at or below it may change.
- **Statements.** `Document.openHeader`, `Document.appendTable`, `Document.setValue`; each may be refused.
-/

namespace Caret.Toml

/-- The fields of a table. -/
abbrev Fields := List (String × Data)

/-- A path of keys from the root of a document. -/
abbrev KeyPath := List String

/-- Changes the table at a path by `change`. Missing tables on the way are made; at a list, its last table is meant when
`throughLists` says so. -/
def openTable (throughLists : Bool) (change : Fields → Option Fields) : KeyPath → Fields → Option Fields
  | [], fs => change fs
  | k :: ks, fs =>
    match Data.get? fs k with
    | none => (openTable throughLists change ks []).map fun inner => Data.set fs k (.table inner)
    | some (.table inner) => (openTable throughLists change ks inner).map fun inner => Data.set fs k (.table inner)
    | some (.list items) =>
      match throughLists, items.getLast? with
      | true, some (.table inner) =>
        (openTable throughLists change ks inner).map fun inner =>
          Data.set fs k (.list (items.dropLast ++ [.table inner]))
      | _, _ => none
    | some _ => none

/-- Adds a field that is not there yet. -/
def addField (key : String) (value : Data) (fs : Fields) : Option Fields :=
  match Data.get? fs key with
  | some _ => none
  | none => some (Data.set fs key value)

/-- Adds an empty table to the list under a key, which is made where it is missing. -/
def addTable (key : String) (fs : Fields) : Option Fields :=
  match Data.get? fs key with
  | none => some (Data.set fs key (.list [.table []]))
  | some (.list items) => some (Data.set fs key (.list (items ++ [.table []])))
  | some _ => none

/-- Sets a value at a path of keys inside one table. -/
def setAt (throughLists : Bool) (keys : KeyPath) (value : Data) (fs : Fields) : Option Fields :=
  match keys.getLast? with
  | some key => openTable throughLists (addField key value) keys.dropLast fs
  | none => none

/-- The value is a table or a list written in place, which nothing may change later. -/
def isContainer : Data → Bool
  | .table _ | .list _ => true
  | _ => false

/-! ## Inline tables -/

/-- An inline table while it is read, with the paths that may not change. -/
structure Inline where
  fields : Fields := []
  frozen : List KeyPath := []

/-- A path lies at or below one of some others. -/
def isBelow (paths : List KeyPath) (path : KeyPath) : Bool := paths.any fun p => p.isPrefixOf path

/-- Sets a value in an inline table. -/
def Inline.set (t : Inline) (keys : KeyPath) (value : Data) : Option Inline :=
  if isBelow t.frozen keys then none
  else (setAt false keys value t.fields).map fun fields =>
    ⟨fields, if isContainer value then keys :: t.frozen else t.frozen⟩

/-! ## Documents -/

/-- A document while it is read: its data, the marked paths, the paths that the next header will close, and the table
that statements are about. -/
structure Document where
  fields : Fields := []
  closed : List KeyPath := []
  frozen : List KeyPath := []
  pending : List KeyPath := []
  header : KeyPath := []

namespace Document

/-- What a header does first: the paths that were opened by dotted keys are closed. -/
def settle (d : Document) : Document := { d with closed := d.pending ++ d.closed, pending := [] }

/-- Opens the table at a path, as a header does. -/
def openHeader (d : Document) (path : KeyPath) : Option Document :=
  let d := d.settle
  if d.closed.contains path || isBelow d.frozen path then none
  else (openTable true some path d.fields).map fun fields =>
    { d with fields := fields, closed := path :: d.closed, header := path }

/-- Adds a table to the list at a path, as a header in double brackets does. What was known about paths below is
forgotten, because they now lead into the new table. -/
def appendTable (d : Document) (path : KeyPath) : Option Document :=
  let d := d.settle
  match path.getLast? with
  | none => none
  | some key =>
    if isBelow d.frozen path then none
    else (openTable true (addTable key) path.dropLast d.fields).map fun fields =>
      { d with
        fields := fields
        closed := path :: d.closed.filter fun p => !path.isPrefixOf p
        frozen := d.frozen.filter fun p => !path.isPrefixOf p
        header := path }

/-- The proper initial parts of a list of keys, the empty one left out. -/
def properPrefixes (keys : KeyPath) : List KeyPath := (List.range keys.length).tail.map keys.take

/-- Sets a value at a path below the current table. Tables on the way may not have been opened by a header. -/
def setValue (d : Document) (keys : KeyPath) (value : Data) : Option Document :=
  let onTheWay := (properPrefixes keys).map (d.header ++ ·)
  if onTheWay.any d.closed.contains || isBelow d.frozen (d.header ++ keys.dropLast) then none
  else (setAt true (d.header ++ keys) value d.fields).map fun fields =>
    { d with
      fields := fields
      pending := onTheWay ++ d.pending
      frozen := if isContainer value then (d.header ++ keys) :: d.frozen else d.frozen }

end Document
end Caret.Toml
