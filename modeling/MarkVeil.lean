import MarkVeil.Command.Arguments
import MarkVeil.Command.Disk
import MarkVeil.Command.Run
import MarkVeil.Command.Script
import MarkVeil.Decoration.Claimed
import MarkVeil.Decoration.Extract
import MarkVeil.Decoration.Kind
import MarkVeil.Decoration.Overlap
import MarkVeil.Decoration.Range
import MarkVeil.Decoration.Scan
import MarkVeil.Editor.Decorator
import MarkVeil.Editor.Selection
import MarkVeil.Main
import MarkVeil.Markdown.Block
import MarkVeil.Markdown.Document
import MarkVeil.Markdown.Entity
import MarkVeil.Markdown.EntityNames
import MarkVeil.Markdown.Event
import MarkVeil.Markdown.Html
import MarkVeil.Markdown.Inline
import MarkVeil.Markdown.LineStart
import MarkVeil.Markdown.Outline
import MarkVeil.Markdown.Paragraph
import MarkVeil.Markdown.Piece
import MarkVeil.Markdown.Place
import MarkVeil.Markdown.Target
import MarkVeil.Marker.CodeSpan
import MarkVeil.Marker.Emphasis
import MarkVeil.Marker.Heading
import MarkVeil.Marker.Link
import MarkVeil.Settings.Environment
import MarkVeil.Settings.File
import MarkVeil.Text.Alphanumeric
import MarkVeil.Text.Blank
import MarkVeil.Text.Bytes
import MarkVeil.Text.CaseFold
import MarkVeil.Text.Lines
import MarkVeil.Text.Printable
import MarkVeil.Text.Punctuation
import MarkVeil.Text.Quoted
import MarkVeil.Text.Source
import MarkVeil.Token.Builder
import MarkVeil.Token.Markup
import MarkVeil.Token.Node
import MarkVeil.Toml.Read
import MarkVeil.Toml.Scalar
import MarkVeil.Toml.Table
import MarkVeil.Toml.Text
import MarkVeil.Toml.Value
import MarkVeil.Viewer.Screen
import MarkVeil.Viewer.Style
import MarkVeil.Viewer.View
import MarkVeil.Proofs.Command.Accepted
import MarkVeil.Proofs.Command.Arguments
import MarkVeil.Proofs.Command.Disk
import MarkVeil.Proofs.Command.Dump
import MarkVeil.Proofs.Command.Load
import MarkVeil.Proofs.Command.Run
import MarkVeil.Proofs.Decoration.Access
import MarkVeil.Proofs.Decoration.Badges
import MarkVeil.Proofs.Decoration.Carried
import MarkVeil.Proofs.Decoration.CarriedTree
import MarkVeil.Proofs.Decoration.Claimed
import MarkVeil.Proofs.Decoration.CodeSpans
import MarkVeil.Proofs.Decoration.Collect
import MarkVeil.Proofs.Decoration.Fences
import MarkVeil.Proofs.Decoration.Followed
import MarkVeil.Proofs.Decoration.Forward
import MarkVeil.Proofs.Decoration.Headings
import MarkVeil.Proofs.Decoration.Hides
import MarkVeil.Proofs.Decoration.Leaves
import MarkVeil.Proofs.Decoration.LineEnds
import MarkVeil.Proofs.Decoration.Locality
import MarkVeil.Proofs.Decoration.Moved
import MarkVeil.Proofs.Decoration.Nesting
import MarkVeil.Proofs.Decoration.Origin
import MarkVeil.Proofs.Decoration.Overlap
import MarkVeil.Proofs.Decoration.Placed
import MarkVeil.Proofs.Decoration.Runs
import MarkVeil.Proofs.Decoration.Settled
import MarkVeil.Proofs.Decoration.Transparent
import MarkVeil.Proofs.Decoration.Turns
import MarkVeil.Proofs.Decoration.Within
import MarkVeil.Proofs.Editor.Update
import MarkVeil.Proofs.Marker.Block
import MarkVeil.Proofs.Marker.CodeSpan
import MarkVeil.Proofs.Marker.Link
import MarkVeil.Proofs.Marker.LinkAccess
import MarkVeil.Proofs.Marker.LinkGrammar
import MarkVeil.Proofs.Marker.TickRuns
import MarkVeil.Proofs.Phrase.Handlers
import MarkVeil.Proofs.Phrase.Recovery
import MarkVeil.Proofs.Phrase.Rendered
import MarkVeil.Proofs.Phrase.Tokens
import MarkVeil.Proofs.Settings.File
import MarkVeil.Proofs.Settings.Keys
import MarkVeil.Proofs.Text.Access
import MarkVeil.Proofs.Text.Carry
import MarkVeil.Proofs.Text.Context
import MarkVeil.Proofs.Text.Crlf
import MarkVeil.Proofs.Text.Encoded
import MarkVeil.Proofs.Text.First
import MarkVeil.Proofs.Text.Gap
import MarkVeil.Proofs.Text.Lines
import MarkVeil.Proofs.Text.Place
import MarkVeil.Proofs.Text.Positions
import MarkVeil.Proofs.Text.Quoted
import MarkVeil.Proofs.Text.Search
import MarkVeil.Proofs.Text.Source
import MarkVeil.Proofs.Text.Terminators
import MarkVeil.Proofs.Token.BlockEvents
import MarkVeil.Proofs.Token.Descendants
import MarkVeil.Proofs.Token.Events
import MarkVeil.Proofs.Token.Footprints
import MarkVeil.Proofs.Token.InlineEvents
import MarkVeil.Proofs.Token.Lines
import MarkVeil.Proofs.Token.Nested
import MarkVeil.Proofs.Token.Preorder
import MarkVeil.Proofs.Token.Recursion
import MarkVeil.Proofs.Token.Spans
import MarkVeil.Proofs.Token.Spelling
import MarkVeil.Proofs.Toml.Document
import MarkVeil.Proofs.Toml.Table
import MarkVeil.Proofs.Toml.Text
import MarkVeil.Proofs.Viewer.Drawn
import MarkVeil.Proofs.Viewer.Marks
import MarkVeil.Proofs.Viewer.Screen
import MarkVeil.Proofs.Viewer.Spans
import MarkVeil.Proofs.Viewer.Steps
