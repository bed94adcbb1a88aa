import NestedFilter.Main
import NestedFilter.Proofs.Calls
import NestedFilter.Proofs.Canonical
import NestedFilter.Proofs.Compilation
import NestedFilter.Proofs.Composition
import NestedFilter.Proofs.Document
import NestedFilter.Proofs.Edits
import NestedFilter.Proofs.EmptyPath
import NestedFilter.Proofs.Faults
import NestedFilter.Proofs.Gathering
import NestedFilter.Proofs.Grammar
import NestedFilter.Proofs.Height
import NestedFilter.Proofs.JsonNesting
import NestedFilter.Proofs.Lexemes
import NestedFilter.Proofs.Meaning
import NestedFilter.Proofs.Order
import NestedFilter.Proofs.Quoting
import NestedFilter.Proofs.Recognition
import NestedFilter.Proofs.Scope
import NestedFilter.Proofs.Segments
import NestedFilter.Proofs.SharedPath
import NestedFilter.Proofs.Spacing
import NestedFilter.Proofs.Surroundings
import NestedFilter.Proofs.Tiling
import NestedFilter.Proofs.Viable
import NestedFilter.Proofs.SortOrders
import NestedFilter.Proofs.Requests
import NestedFilter.Proofs.Carets
import NestedFilter.Proofs.Margins
import NestedFilter.Proofs.Visits
