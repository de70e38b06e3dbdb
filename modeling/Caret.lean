import Caret.Main
import Caret.Proofs.Placement
import Caret.Proofs.Trail
import Caret.Proofs.Resolution
import Caret.Proofs.Scoping
import Caret.Proofs.Context
import Caret.Proofs.Requests
import Caret.Proofs.Sections
import Caret.Proofs.Laminar
import Caret.Proofs.Sources
import Caret.Proofs.Visibility
import Caret.Proofs.Likeness
import Caret.Proofs.Rebuilding
import Caret.Proofs.Replacement
import Caret.Proofs.Records
import Caret.Proofs.Schema
import Caret.Proofs.Drafts
import Caret.Proofs.Binding
import Caret.Proofs.Loading
import Caret.Proofs.Typing
import Caret.Proofs.Names
import Caret.Proofs.Relocation
import Caret.Proofs.Invariance
import Caret.Proofs.Governing
import Caret.Proofs.Markup
import Caret.Proofs.HoverText
import Caret.Proofs.JsonText
import Caret.Proofs.Runs
import Caret.Proofs.Narrowing
import Caret.Proofs.Members
import Caret.Proofs.StaticScope
import Caret.Proofs.Padding
import Caret.Proofs.Declarations
import Caret.Proofs.Scanning
import Caret.Proofs.SettingsFile
import Caret.Proofs.Faults
import Caret.Proofs.Unchecked
import Caret.Proofs.Mishaps
import Caret.Proofs.Canonical
import Caret.Proofs.EmptySections
import Caret.Proofs.Order
import Caret.Proofs.Refusals
import Caret.Proofs.Coordinates
