import PigChain.Bind.Chain
import PigChain.Bind.Clause
import PigChain.Bind.Row
import PigChain.Compile
import PigChain.DataType
import PigChain.DateTime.Basic
import PigChain.DateTime.Read
import PigChain.Digest
import PigChain.Double.Basic
import PigChain.Double.Digits
import PigChain.Double.Read
import PigChain.Error
import PigChain.Expr.Basic
import PigChain.Expr.Build
import PigChain.Expr.Edit
import PigChain.Expr.Editor
import PigChain.Expr.Kind
import PigChain.Expr.OfJson
import PigChain.Expr.ToJson
import PigChain.Json.Basic
import PigChain.Json.Parse
import PigChain.Log.Basic
import PigChain.Log.Filter
import PigChain.Mart.Basic
import PigChain.Mart.Cache
import PigChain.Mart.Url
import PigChain.Pass.Columns
import PigChain.Pass.Literals
import PigChain.Pass.Parameters
import PigChain.Projector
import PigChain.Query.Basic
import PigChain.Query.Host
import PigChain.Query.Provider
import PigChain.Script.Alias
import PigChain.Script.Basic
import PigChain.Script.Lower
import PigChain.Script.Term
import PigChain.Settings
import PigChain.Text.Blank
import PigChain.Text.Normal
import PigChain.Text.Quoted
import PigChain.Text.Table
import PigChain.Text.Unseen
import PigChain.Text.Utf8
import PigChain.Trace
import PigChain.Url.Address
import PigChain.Url.Basic
import PigChain.Url.Domain
import PigChain.Url.Domain.Direction
import PigChain.Url.Domain.Forms
import PigChain.Url.Domain.Joining
import PigChain.Url.Form
import PigChain.Url.Punycode
import PigChain.Value
import PigChain.Yaml.Node
import PigChain.Yaml.Scalar
import PigChain.Yaml.Token
import PigChain.Proofs.Combinators
import PigChain.Proofs.Meaning
import PigChain.Proofs.Sorting
import PigChain.Proofs.Walk
import PigChain.Proofs.Flat
import PigChain.Proofs.RowBinding
import PigChain.Proofs.LiteralPasses
import PigChain.Proofs.Substitution
import PigChain.Proofs.Regular
import PigChain.Proofs.Wrapping
import PigChain.Proofs.FilterRows
import PigChain.Proofs.ProjectionRows
import PigChain.Proofs.ChildWalk
import PigChain.Proofs.Scope
import PigChain.Proofs.NestedChains
import PigChain.Proofs.ValueTypes
import PigChain.Proofs.Shape
import PigChain.Proofs.Inlining
import PigChain.Proofs.PlainMap
import PigChain.Proofs.Fields
import PigChain.Proofs.Calendar
import PigChain.Proofs.DateTimeText
import PigChain.Proofs.Coercion
import PigChain.Proofs.NullValues
import PigChain.Proofs.RecordForms
import PigChain.Proofs.GroupedRows
import PigChain.Proofs.Lowering
import PigChain.Proofs.Scoping
import PigChain.Proofs.ScopedScripts
import PigChain.Proofs.Plans
import PigChain.Proofs.Interleaving
import PigChain.Proofs.Graph
import PigChain.Proofs.DistinctColumns
import PigChain.Proofs.Emission
import PigChain.Proofs.SingleAssignment
import PigChain.Proofs.Scanning
import PigChain.Proofs.StatementTexts
import PigChain.Proofs.JsonText
import PigChain.Proofs.TypeJson
import PigChain.Proofs.EnclosedJson
import PigChain.Proofs.TreeJson
import PigChain.Proofs.RowCounts
import PigChain.Proofs.OrderedRows
import PigChain.Proofs.Sessions
import PigChain.Proofs.FormText
import PigChain.Proofs.AddressText
import PigChain.Proofs.HostText
import PigChain.Proofs.CanonicalUrl
import PigChain.Proofs.EqualSpellings
import PigChain.Proofs.ExplicitPorts
import PigChain.Proofs.SharedUrls
import PigChain.Proofs.UrlStem
import PigChain.Proofs.NamedMarts
import PigChain.Proofs.Capture
import PigChain.Proofs.TermOrigins
import PigChain.Proofs.Comments
import PigChain.Proofs.FirstOrder
import PigChain.Proofs.ScalarStages
import PigChain.Proofs.KeyMembers
import PigChain.Proofs.BareRows
import PigChain.Proofs.AggregatedRows
import PigChain.Proofs.GroupColumns
import PigChain.Proofs.GroupCounts
import PigChain.Proofs.Lexemes
import PigChain.Proofs.ReadBack
import PigChain.Proofs.Rebuilding
import PigChain.Proofs.ScopedSubstitution
import PigChain.Proofs.Preorder
import PigChain.Proofs.NullNormalForm
import PigChain.Proofs.CollectedColumns
import PigChain.Proofs.UpdateUris
import PigChain.Proofs.IntegerCoercion
import PigChain.Proofs.StatementCounts
import PigChain.Proofs.ReservedNames
import PigChain.Proofs.ScalarWidths
import PigChain.Proofs.NameOrder
import PigChain.Proofs.ListEdits
