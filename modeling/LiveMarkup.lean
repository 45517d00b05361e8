import LiveMarkup.Text.Blank
import LiveMarkup.Text.Position
import LiveMarkup.Text.Identifier
import LiveMarkup.Text.Case
import LiveMarkup.Text.Utf8
import LiveMarkup.Text.Escaped
import LiveMarkup.Decimal.Notation
import LiveMarkup.Virtual.Tree
import LiveMarkup.Live.Outline
import LiveMarkup.Live.Reconcile
import LiveMarkup.Counter
import LiveMarkup.Markup.Node
import LiveMarkup.Markup.Reference
import LiveMarkup.Markup.Document
import LiveMarkup.Code.Token
import LiveMarkup.Code.TypeName
import LiveMarkup.Template.Classify
import LiveMarkup.Template.View
import LiveMarkup.Disk.Tree
import LiveMarkup.Build.Script
import LiveMarkup.Main
import LiveMarkup.Proofs.Live.LiveTree
import LiveMarkup.Proofs.Live.Redrawn
import LiveMarkup.Proofs.Live.Turn
import LiveMarkup.Proofs.Live.Pass
import LiveMarkup.Proofs.Live.Rebuild
import LiveMarkup.Proofs.Live.Sharing
import LiveMarkup.Proofs.Live.History
import LiveMarkup.Proofs.Live.Snapshot
import LiveMarkup.Proofs.Live.Isolation
import LiveMarkup.Proofs.Template.Meaning
import LiveMarkup.Proofs.Template.Correctness
import LiveMarkup.Proofs.Markup.Layout
import LiveMarkup.Proofs.Markup.Taking
import LiveMarkup.Proofs.Markup.Piece
import LiveMarkup.Proofs.Markup.Completeness
import LiveMarkup.Proofs.Live.Remount
import LiveMarkup.Proofs.Live.Script
import LiveMarkup.Proofs.Live.Tidy
import LiveMarkup.Proofs.Live.Always
import LiveMarkup.Proofs.Live.Safety
import LiveMarkup.Proofs.Markup.Decoding
import LiveMarkup.Proofs.Markup.OnePass
import LiveMarkup.Proofs.Markup.Taken
import LiveMarkup.Proofs.Markup.TakenPiece
import LiveMarkup.Proofs.Markup.TakenContent
import LiveMarkup.Proofs.Markup.Soundness
import LiveMarkup.Proofs.Markup.Signs
import LiveMarkup.Proofs.Markup.Strays
import LiveMarkup.Proofs.Template.Faults
import LiveMarkup.Proofs.Template.Numbering
import LiveMarkup.Proofs.Template.Hygiene
import LiveMarkup.Proofs.Template.Strictness
import LiveMarkup.Proofs.Template.Layouts
import LiveMarkup.Proofs.Template.Literals
import LiveMarkup.Proofs.Code.TextValue
import LiveMarkup.Proofs.Code.Quoting
import LiveMarkup.Proofs.Text.Plain
import LiveMarkup.Proofs.Live.Alone
import LiveMarkup.Proofs.Markup.Flat
import LiveMarkup.Proofs.Counter.View
import LiveMarkup.Proofs.Counter.Markup
import LiveMarkup.Proofs.Counter.Session
import LiveMarkup.Proofs.Markup.Equality
import LiveMarkup.Proofs.Template.Elements
import LiveMarkup.Proofs.Disk.Steps
import LiveMarkup.Proofs.Disk.Ways
import LiveMarkup.Proofs.Disk.Requests
import LiveMarkup.Proofs.Disk.Volume
import LiveMarkup.Proofs.Build.Effects
import LiveMarkup.Proofs.Text.Lines
import LiveMarkup.Proofs.Text.Utf8
import LiveMarkup.Proofs.Markup.Naming
import LiveMarkup.Proofs.Template.Remarks
import LiveMarkup.Proofs.Build.Announcement
import LiveMarkup.Proofs.Live.Healing
import LiveMarkup.Proofs.Live.Preorder
import LiveMarkup.Proofs.Live.Accounting
import LiveMarkup.Proofs.Live.Editing
import LiveMarkup.Proofs.Live.Restated
import LiveMarkup.Proofs.Live.Rearranged
import LiveMarkup.Proofs.Template.Classification
import LiveMarkup.Proofs.Markup.Along
import LiveMarkup.Proofs.Markup.Verbatim
import LiveMarkup.Proofs.Markup.TakenVerbatim
import LiveMarkup.Proofs.Markup.Sites
import LiveMarkup.Proofs.Markup.Violations
import LiveMarkup.Proofs.Markup.FirstViolation
import LiveMarkup.Proofs.Markup.Located
import LiveMarkup.Proofs.Template.Reports
import LiveMarkup.Proofs.Template.Steps
import LiveMarkup.Proofs.Template.Trace
import LiveMarkup.Proofs.Template.Discipline
import LiveMarkup.Proofs.Template.Backtracking
import LiveMarkup.Proofs.Template.Heads
import LiveMarkup.Proofs.Template.Accepted
import LiveMarkup.Proofs.Code.Nesting
import LiveMarkup.Proofs.Code.Spelling
import LiveMarkup.Proofs.Code.Leaving
import LiveMarkup.Proofs.Code.TypeNames
import LiveMarkup.Proofs.Template.ModuleNames
import LiveMarkup.Proofs.Code.Spacing
import LiveMarkup.Proofs.Code.Enclosing
import LiveMarkup.Proofs.Code.Following
import LiveMarkup.Proofs.Code.Cutting
import LiveMarkup.Proofs.Code.Words
import LiveMarkup.Proofs.Template.Items
import LiveMarkup.Proofs.Code.Suffixes
import LiveMarkup.Proofs.Template.Headers
import LiveMarkup.Proofs.Template.Files
import LiveMarkup.Proofs.Live.Disposal
import LiveMarkup.Proofs.Live.Replay
import LiveMarkup.Proofs.Live.Walk
import LiveMarkup.Proofs.Template.Imports
