import SelectorPath.Cache.Basic
import SelectorPath.Cache.Record
import SelectorPath.Cache.Session
import SelectorPath.Cache.Workers
import SelectorPath.Cursor
import SelectorPath.Host.Call
import SelectorPath.Host.Term
import SelectorPath.Query.Provider
import SelectorPath.Query.Session
import SelectorPath.Selector.Argument
import SelectorPath.Selector.Clause
import SelectorPath.Selector.Compiled
import SelectorPath.Selector.Error
import SelectorPath.Selector.Positions
import SelectorPath.Selector.Property
import SelectorPath.Selector.Segment
import SelectorPath.Selector.Segment.Attribute
import SelectorPath.Selector.Segment.Progress
import SelectorPath.Selector.Segment.Reader
import SelectorPath.Selector.Step
import SelectorPath.Selector.Union
import SelectorPath.Template
import SelectorPath.Text.Nesting
import SelectorPath.Text.Quote
import SelectorPath.Text.Quoted
import SelectorPath.Text.Space
import SelectorPath.Text.Symbol
import SelectorPath.Text.Unprintable
import SelectorPath.XPath.Condition
import SelectorPath.XPath.Literal
import SelectorPath.XPath.NodeTest
import SelectorPath.XPath.Path
import SelectorPath.Proofs.Text.Balanced
import SelectorPath.Proofs.XPath.Solid
import SelectorPath.Proofs.XPath.Pieces
import SelectorPath.Proofs.Selector.Solid
import SelectorPath.Proofs.Selector.Structure
import SelectorPath.Proofs.Cache.Contents
import SelectorPath.Proofs.Cache.Coherence
import SelectorPath.Proofs.Cache.Interleaving
import SelectorPath.Proofs.XPath.Location
import SelectorPath.Proofs.Selector.Combinators
import SelectorPath.Proofs.Text.Passes
import SelectorPath.Proofs.Selector.Unions
import SelectorPath.Proofs.Text.Trimmed
import SelectorPath.Proofs.Selector.Anchors
import SelectorPath.Proofs.Selector.Extent
import SelectorPath.Proofs.Selector.Spacing
import SelectorPath.Proofs.Selector.Layout
import SelectorPath.Proofs.Text.Quotations
import SelectorPath.Proofs.Bytes.Encoding
import SelectorPath.Proofs.Bytes.Scan
import SelectorPath.Proofs.Bytes.TopLevel
import SelectorPath.Proofs.Bytes.Reader
import SelectorPath.Proofs.Bytes.Segment
import SelectorPath.Proofs.Bytes.Step
import SelectorPath.Proofs.Bytes.Compile
import SelectorPath.Proofs.Cache.Answers
import SelectorPath.Proofs.Cache.Accounting
import SelectorPath.Proofs.Cache.Batch
import SelectorPath.Proofs.Cache.Workers
import SelectorPath.Proofs.Cache.Loading
import SelectorPath.Proofs.Cache.Poison
import SelectorPath.Proofs.Host.Isolation
import SelectorPath.Proofs.Selector.Folding
import SelectorPath.Proofs.Query.Agreement
import SelectorPath.Proofs.Query.Effects
import SelectorPath.Proofs.Text.Groups
import SelectorPath.Proofs.XPath.Arithmetic
import SelectorPath.Proofs.Selector.Positions
import SelectorPath.Proofs.XPath.Context
import SelectorPath.Proofs.Selector.Negation
import SelectorPath.Proofs.Selector.Grammar
import SelectorPath.Proofs.Selector.Verbatim
import SelectorPath.Proofs.Text.Words
import SelectorPath.Proofs.XPath.Tokens
import SelectorPath.Proofs.XPath.Expression
import SelectorPath.Proofs.XPath.Evaluation
import SelectorPath.Proofs.XPath.Literal
import SelectorPath.Proofs.Selector.Attributes
import SelectorPath.Proofs.Selector.Classes
import SelectorPath.Proofs.Selector.PositionGrammar
import SelectorPath.Proofs.Template.Contents
import SelectorPath.Proofs.Template.Matching
import SelectorPath.Proofs.Selector.Blame
import SelectorPath.Proofs.Bytes.Images
import SelectorPath.Proofs.Bytes.Splitting
import SelectorPath.Proofs.Text.Bodies
import SelectorPath.Proofs.Cursor.Boundaries
import SelectorPath.Proofs.Cursor.Groups
import SelectorPath.Proofs.Cursor.Sessions
import SelectorPath.Proofs.Bytes.Progress
