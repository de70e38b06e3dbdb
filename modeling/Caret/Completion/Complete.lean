import Caret.Completion.Members
import Caret.Completion.Offers
import Caret.Completion.Scope
import Caret.Completion.Suggestion
import Caret.Tree.Placement
/-!
# `Caret.Completion.Complete` — completion at a cursor

A request is refused when the cursor lies before the first position or the tree is misplaced. Otherwise the
suggestions come in a fixed order: members, the words `static` and `void`, built-in types, symbols, and the words
that start a statement.
-/

namespace Caret

/-- Why a completion request is refused. -/
inductive RequestFault where
  /-- The cursor lies before the first line or column. -/
  | cursor (position : Position) (base : Int)
  | placement (fault : PlacementFault)

/-- What is said of a refused request, if the integers in it can be written. -/
def RequestFault.message? : RequestFault → Option String
  | .cursor p base =>
    do return "Cursor " ++ (← p.text?) ++ " is before the first position " ++ (← (Position.mk base base).text?)
  | .placement fault => fault.message?

/-- The fault of a cursor, if lines and columns count from `base`. -/
def Position.fault? (p : Position) (base : Int) : Option RequestFault :=
  if p.line < base ∨ p.column < base then some (.cursor p base) else none

/-- The fault of a request: that of the cursor, or else that of the tree. -/
def Script.requestFault? (s : Script) (base : Int) (p : Position) : Option RequestFault :=
  (p.fault? base).or ((Node.unit s.unit).misplaced?.map .placement)

/-- Why there is no completion. -/
inductive CompletionError where
  | refused (fault : RequestFault)
  /-- The request has a fault, and an integer in what is to be said of it has too many digits. -/
  | unwritable (fault : RequestFault)
  | inconsistent (error : Inconsistency)

/-- The error that a fault leads to. What is said of the fault is written before the request is refused. -/
def RequestFault.error (fault : RequestFault) : CompletionError :=
  if fault.message?.isSome then .refused fault else .unwritable fault

/-- What is said when there is no completion. -/
def CompletionError.message (e : CompletionError) : String :=
  let message? := match e with
    | .refused fault | .unwritable fault => fault.message?
    | .inconsistent error => error.message?
  message?.getD (Text.digitLimitText none)

namespace Offers

/-- The members on offer. -/
def memberSuggestions (o : Offers) : List Suggestion :=
  match o.members with
  | some a =>
    (matchingProperties a.callee.type? a.name).map Suggestion.ofProperty
      ++ (matchingMethods a.callee.type? a.name).map Suggestion.ofMethod
  | none => []

/-- The suggestions on offer at a position, in display order. -/
def suggestions (o : Offers) (s : Script) (p : Position) : List Suggestion :=
  o.memberSuggestions
    ++ (if o.static then [Suggestion.keyword "static"] else [])
    ++ (if o.void then [Suggestion.keyword "void"] else [])
    ++ (if o.types then Predefined.offered.map fun t => Suggestion.ofType (.predefined t) else [])
    ++ (if o.symbols || o.statements then (s.visible o.context p).map Suggestion.ofSymbol else [])
    ++ (if o.statements then Suggestion.statementStarts else [])

end Offers

/-- The suggestions at a position of a script whose lines and columns count from `base`. -/
def Script.complete (s : Script) (base : Int) (p : Position) : Except CompletionError (List Suggestion) :=
  match s.requestFault? base p with
  | some fault => .error fault.error
  | none =>
    match Offers.ofPosition s.unit p with
    | .error e => .error (.inconsistent e)
    | .ok offers => .ok (offers.suggestions s p)

end Caret
