import Caret.Number.Binary64
/-!
# `Caret.Data` — structured data as documents hold it

The values that a document in one of the two formats read here can hold. Tables have each key once.
-/

namespace Caret

/-- A value of a document. -/
inductive Data where
  | null
  | bool (value : Bool)
  | int (value : Int)
  | real (value : Binary64)
  | text (value : String)
  /-- A date or a time of day, as it was written. -/
  | moment (written : String)
  | list (items : List Data)
  | table (fields : List (String × Data))
  deriving Inhabited

namespace Data

/-- The value under a key. -/
def get? (fields : List (String × Data)) (key : String) : Option Data := fields.lookup key

/-- The fields with one value set; a value that was there before is replaced. -/
def set (fields : List (String × Data)) (key : String) (value : Data) : List (String × Data) :=
  match fields with
  | [] => [(key, value)]
  | (k, v) :: rest => if k = key then (k, value) :: rest else (k, v) :: set rest key value

theorem get?_cons (k : String) (v : Data) (rest : List (String × Data)) (key : String) :
    get? ((k, v) :: rest) key = if k = key then some v else get? rest key := by
  unfold get?
  rw [List.lookup_cons]
  by_cases h : k = key
  · simp [h]
  · simp [h, beq_eq_false_iff_ne.mpr (Ne.symm h)]

theorem get?_set_self (fields : List (String × Data)) (key : String) (value : Data) :
    get? (set fields key value) key = some value := by
  induction fields with
  | nil => simp [set, get?_cons]
  | cons f rest ih =>
    obtain ⟨k, v⟩ := f
    by_cases h : k = key <;> simp [set, get?_cons, h, ih]

theorem get?_set_other {fields : List (String × Data)} {key other : String} {value : Data} (h : key ≠ other) :
    get? (set fields key value) other = get? fields other := by
  induction fields with
  | nil => simp [set, get?_cons, h]
  | cons f rest ih =>
    obtain ⟨k, v⟩ := f
    by_cases hk : k = key
    · subst hk
      simp [set, get?_cons, h]
    · simp only [set, hk, if_false, get?_cons, ih]

mutual

/-- How deep values are nested in a value; a value without parts has depth one. -/
def depth : Data → Nat
  | .list items => 1 + depthList items
  | .table fields => 1 + depthFields fields
  | _ => 1

/-- The greatest depth among values. -/
def depthList : List Data → Nat
  | [] => 0
  | d :: ds => max (depth d) (depthList ds)

/-- The greatest depth among the values of fields. -/
def depthFields : List (String × Data) → Nat
  | [] => 0
  | f :: fs => max (depthField f) (depthFields fs)

/-- The depth of the value of a field. -/
def depthField : String × Data → Nat
  | (_, d) => depth d

end

end Data
end Caret
