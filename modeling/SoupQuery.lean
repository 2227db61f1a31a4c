import SoupQuery.Compiler
import SoupQuery.Schema.Decode
import SoupQuery.Settings
import SoupQuery.Sql.Index
import SoupQuery.Proofs.Checked
import SoupQuery.Proofs.Filter
import SoupQuery.Proofs.Predicate
import SoupQuery.Proofs.Selection
import SoupQuery.Proofs.Connection
import SoupQuery.Proofs.Scoping
import SoupQuery.Proofs.Anchors
import SoupQuery.Proofs.Reading
import SoupQuery.Proofs.Quoting
import SoupQuery.Proofs.Unambiguous
import SoupQuery.Proofs.Coverage
import SoupQuery.Proofs.Joins
import SoupQuery.Proofs.Errors
import SoupQuery.Proofs.Names
import SoupQuery.Proofs.NormalForm
import SoupQuery.Proofs.Rows
import SoupQuery.Proofs.ResultPaths
import SoupQuery.Proofs.RelationshipPaths
import SoupQuery.Proofs.Renaming
import SoupQuery.Proofs.Transport
import SoupQuery.Proofs.MetadataOrder
import SoupQuery.Proofs.DocumentPaths
import SoupQuery.Proofs.RelatedRuns
import SoupQuery.Proofs.Users
import SoupQuery.Proofs.SchemaExtension
import SoupQuery.Proofs.WellTyped
import SoupQuery.Proofs.EmptyFilters
import SoupQuery.Proofs.Evaluation
import SoupQuery.Proofs.Widening
import SoupQuery.Proofs.Equality
import SoupQuery.Proofs.Membership
import SoupQuery.Proofs.NullOperands
import SoupQuery.Proofs.Combination
import SoupQuery.Proofs.Days
import SoupQuery.Proofs.Traversal
import SoupQuery.Proofs.IndexNames
import SoupQuery.Proofs.Numerals
import SoupQuery.Proofs.OperandShapes
import SoupQuery.Proofs.SortOrders
