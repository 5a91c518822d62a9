import FilterQuery.Main
import FilterQuery.Tree.Edit
import FilterQuery.Proofs.Alphabet
import FilterQuery.Proofs.LowerCase
import FilterQuery.Proofs.StackName
import FilterQuery.Proofs.Store.Trees
import FilterQuery.Proofs.Scan
import FilterQuery.Proofs.Grammar
import FilterQuery.Proofs.Grammar.Clauses
import FilterQuery.Proofs.Grammar.Grouping
import FilterQuery.Proofs.Grammar.Acceptance
import FilterQuery.Proofs.Sharing
import FilterQuery.Proofs.Assembly
import FilterQuery.Proofs.Expansion.Simulation
import FilterQuery.Proofs.Lexemes
import FilterQuery.Proofs.Leaves
import FilterQuery.Proofs.Printing
import FilterQuery.Proofs.Digits
import FilterQuery.Proofs.Double
import FilterQuery.Proofs.Calendar
import FilterQuery.Proofs.Parts
import FilterQuery.Proofs.Canonical
import FilterQuery.Proofs.Walk.Compiled
import FilterQuery.Proofs.Expansion.Sites
import FilterQuery.Proofs.LowerCase.Names
import FilterQuery.Proofs.Values
import FilterQuery.Proofs.Canonical.Read
import FilterQuery.Proofs.Canonical.RoundTrip
import FilterQuery.Proofs.History
import FilterQuery.Proofs.Editing
import FilterQuery.Proofs.Expansion.Answers
import FilterQuery.Proofs.Expansion.Cycles
import FilterQuery.Proofs.Store.Atomic
import FilterQuery.Proofs.Printing.Leaves
import FilterQuery.Proofs.Store.References
import FilterQuery.Proofs.Store.Synced
import FilterQuery.Proofs.Expansion.Origin
import FilterQuery.Proofs.Store.Shortcut
import FilterQuery.Proofs.Store.Listeners
import FilterQuery.Proofs.Expansion.Shape
import FilterQuery.Proofs.Printing.Compiled
import FilterQuery.Proofs.Printing.Truth
import FilterQuery.Proofs.Editing.Polarity
import FilterQuery.Proofs.Walk.Ranges
import FilterQuery.Proofs.Commands
import FilterQuery.Proofs.Tiling
import FilterQuery.Proofs.Isolation
import FilterQuery.Proofs.Walk.Understood
import FilterQuery.Proofs.Places.References
import FilterQuery.Proofs.Calendar.Spans
import FilterQuery.Proofs.Canonical.Dates
import FilterQuery.Proofs.Json.Compiled
import FilterQuery.Proofs.Store.Suggestions
import FilterQuery.Proofs.Session.Refining
import FilterQuery.Proofs.Config.Loading
import FilterQuery.Proofs.Storage
import FilterQuery.Proofs.Printing.Values
