import ShapeQuery.Command.Disk
import ShapeQuery.Compact.Reader
import ShapeQuery.Compile.Builder
import ShapeQuery.Main
import ShapeQuery.Schema.Document
import ShapeQuery.Proofs.Guard
import ShapeQuery.Proofs.Visit
import ShapeQuery.Proofs.WellTyped
import ShapeQuery.Proofs.Checks
import ShapeQuery.Proofs.Lines
import ShapeQuery.Proofs.Placement
import ShapeQuery.Proofs.Arcs
import ShapeQuery.Proofs.GroupForm
import ShapeQuery.Proofs.FragmentForm
import ShapeQuery.Proofs.GroupGrammar
import ShapeQuery.Proofs.Compact.Reading
import ShapeQuery.Proofs.Compact.Terms
import ShapeQuery.Proofs.Compact.ShapeReading
import ShapeQuery.Proofs.Compact.TripleReading
import ShapeQuery.Proofs.Compact.RoundTrip
import ShapeQuery.Proofs.Leaves
import ShapeQuery.Proofs.References
import ShapeQuery.Proofs.Change
import ShapeQuery.Proofs.Unfolding
import ShapeQuery.Proofs.Compact.Produced
import ShapeQuery.Proofs.Linked
import ShapeQuery.Proofs.Renaming
import ShapeQuery.Proofs.SchemaTexts
import ShapeQuery.Proofs.FreshNames
import ShapeQuery.Proofs.RenamedQueries
import ShapeQuery.Proofs.QueryTemplates
import ShapeQuery.Proofs.Outcome
import ShapeQuery.Proofs.Document.Writer
import ShapeQuery.Proofs.Document.RoundTrip
import ShapeQuery.Proofs.LinesInside
import ShapeQuery.Proofs.ValueLists
import ShapeQuery.Proofs.BoundValues
import ShapeQuery.Proofs.FirstVariable
import ShapeQuery.Proofs.FilterBindings
import ShapeQuery.Proofs.Compact.Logic
import ShapeQuery.Proofs.Compact.Pace
import ShapeQuery.Proofs.Compact.Termination
import ShapeQuery.Proofs.Nesting
import ShapeQuery.Proofs.Splitting
import ShapeQuery.Proofs.Resolution
import ShapeQuery.Proofs.Compact.Iris
import ShapeQuery.Proofs.DiskPaths
import ShapeQuery.Proofs.Reports
import ShapeQuery.Proofs.Batch
import ShapeQuery.Proofs.Conditions
import ShapeQuery.Proofs.ValueSets
import ShapeQuery.Proofs.Disjunction
import ShapeQuery.Proofs.Compact.Sequel
import ShapeQuery.Proofs.Compact.SequelTokens
import ShapeQuery.Proofs.Compact.Lookahead
import ShapeQuery.Proofs.Compact.SequelConstraints
import ShapeQuery.Proofs.Compact.SequelExpressions
import ShapeQuery.Proofs.Compact.Cardinality
import ShapeQuery.Proofs.Compact.Brackets
import ShapeQuery.Proofs.Bubbling
import ShapeQuery.Proofs.WholeOccurrences
import ShapeQuery.Proofs.ConstructTriples
import ShapeQuery.Proofs.Exclusion
import ShapeQuery.Proofs.Layout
import ShapeQuery.Proofs.Compact.Quotations
import ShapeQuery.Proofs.Compact.Numerals
import ShapeQuery.Proofs.Compact.LocalNames
import ShapeQuery.Proofs.Compact.ExtraLists
import ShapeQuery.Proofs.NumberTexts
import ShapeQuery.Proofs.ClosedFilters
import ShapeQuery.Proofs.LabelOrder
