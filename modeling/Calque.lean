import Calque.Outcome
import Calque.Lists
import Calque.Lexical.Index
import Calque.Lexical.Rescan
import Calque.Text.HiddenTable
import Calque.Dictionary.Entry
import Calque.Substitution.Options
import Calque.Substitution.Pass
import Calque.Dictionary.Basic
import Calque.Dictionary.Builtin
import Calque.Substitution.Chain
import Calque.Substitution.Event
import Calque.Decimal.Binary64
import Calque.Decimal.Shortest
import Calque.Json.Value
import Calque.Json.Grammar
import Calque.Json.Library
import Calque.Json.Laws
import Calque.Json.Fault
import Calque.Json.Numeral
import Calque.Json.Text
import Calque.Json.Token
import Calque.Json.Reader
import Calque.Json.Record
import Calque.Json.Writer
import Calque.Json.Standard
import Calque.Dictionary.Document
import Calque.Substitution.Document
import Calque.Substitution.Value
import Calque.Embedding
import Calque.SideBySide
import Calque.Machine.Basic
import Calque.Machine.FileTree
import Calque.Machine.Files
import Calque.Launch
import Calque.Machine.World
import Calque.Machine.Laws
import Calque.Machine.Mishap
import Calque.CommandLine.Arguments
import Calque.CommandLine.Invocation
import Calque.CommandLine.Run
import Calque.Main
import Calque.Proofs.Runs
import Calque.Proofs.Search
import Calque.Proofs.Scan
import Calque.Proofs.Phase
import Calque.Proofs.Passes
import Calque.Proofs.Rescanning
import Calque.Proofs.Simultaneous
import Calque.Proofs.Order
import Calque.Proofs.Comments
import Calque.Proofs.Openings
import Calque.Proofs.Visits
import Calque.Proofs.Spans
import Calque.Proofs.Literals
import Calque.Proofs.Lines
import Calque.Proofs.Commuting
import Calque.Proofs.Retranslation
import Calque.Proofs.Skeleton
import Calque.Proofs.LineComments
import Calque.Proofs.Counting
import Calque.Proofs.Protection
import Calque.Proofs.Delimiters
import Calque.Proofs.Relocation
import Calque.Substitution.Rescan
import Calque.Bounded.Basic
import Calque.Bounded.Lexical
import Calque.Bounded.Substitution
import Calque.Proofs.Splicing
import Calque.Proofs.Candidates
import Calque.Proofs.BoundedReading
import Calque.Proofs.BoundedIndex
import Calque.Proofs.BoundedPasses
import Calque.Bounded.Registry
import Calque.Proofs.Holes
import Calque.Proofs.Prefixes
import Calque.Proofs.Registration
import Calque.Proofs.Validation
import Calque.Proofs.Lookups
import Calque.Proofs.Lexemes
import Calque.Proofs.Grammar
import Calque.Proofs.Written
import Calque.Proofs.Standard
import Calque.Proofs.Records
import Calque.Proofs.ReadBack
import Calque.Proofs.Sections
import Calque.Proofs.Untouched
import Calque.Proofs.Columns
import Calque.Proofs.Colours
import Calque.Proofs.Calls
import Calque.Proofs.FileTrees
import Calque.Proofs.Replacement
