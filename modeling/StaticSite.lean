import StaticSite.Command.Invocation
import StaticSite.Command.Line
import StaticSite.Command.Load
import StaticSite.Command.Report
import StaticSite.Command.Run
import StaticSite.Command.Scaffold
import StaticSite.Component.Blocks
import StaticSite.Component.Exports
import StaticSite.Component.Graph
import StaticSite.Component.Loader
import StaticSite.Component.Registry
import StaticSite.Data.Basic
import StaticSite.Data.Json
import StaticSite.Files.Disk
import StaticSite.Files.Path
import StaticSite.Files.Tree
import StaticSite.Literal.Fault
import StaticSite.Literal.Numeral
import StaticSite.Literal.Quoted
import StaticSite.Literal.Reader
import StaticSite.Literal.Trivia
import StaticSite.Main
import StaticSite.Markup.OpeningTag
import StaticSite.Markup.TagName
import StaticSite.Minify.Basic
import StaticSite.Minify.Css
import StaticSite.Minify.Html
import StaticSite.Minify.Script
import StaticSite.Number.Basic
import StaticSite.Number.Binary64
import StaticSite.Number.Power
import StaticSite.Pattern.Basic
import StaticSite.Pattern.CharSet
import StaticSite.Pattern.Class
import StaticSite.Pattern.Escape
import StaticSite.Pattern.Options
import StaticSite.Pattern.Parse
import StaticSite.Pattern.Size
import StaticSite.Preview.Address
import StaticSite.Preview.Clients
import StaticSite.Preview.Debounce
import StaticSite.Preview.Gate
import StaticSite.Preview.Hub
import StaticSite.Preview.Request
import StaticSite.Preview.Server
import StaticSite.Preview.Watch
import StaticSite.Proofs.Acceptance
import StaticSite.Proofs.Afresh
import StaticSite.Proofs.AnyOrder
import StaticSite.Proofs.Batches
import StaticSite.Proofs.BuildOrder
import StaticSite.Proofs.CanonicalPaths
import StaticSite.Proofs.CleanPaths
import StaticSite.Proofs.CommentEnds
import StaticSite.Proofs.Delivery
import StaticSite.Proofs.DepthFirst
import StaticSite.Proofs.Documents
import StaticSite.Proofs.DottedPaths
import StaticSite.Proofs.DroppedQueries
import StaticSite.Proofs.EncodedNames
import StaticSite.Proofs.Escaping
import StaticSite.Proofs.ExportOffsets
import StaticSite.Proofs.Filling
import StaticSite.Proofs.FirstTags
import StaticSite.Proofs.FreshInstances
import StaticSite.Proofs.Gaps
import StaticSite.Proofs.Grammar
import StaticSite.Proofs.InOrder
import StaticSite.Proofs.Isolation
import StaticSite.Proofs.Lookahead
import StaticSite.Proofs.NestedTemplates
import StaticSite.Proofs.NewFiles
import StaticSite.Proofs.Numerals
import StaticSite.Proofs.OpenBraces
import StaticSite.Proofs.OpeningTags
import StaticSite.Proofs.OrdinaryMarkup
import StaticSite.Proofs.Outcome
import StaticSite.Proofs.Parents
import StaticSite.Proofs.Passes
import StaticSite.Proofs.Placeholders
import StaticSite.Proofs.Places
import StaticSite.Proofs.Planned
import StaticSite.Proofs.Preamble
import StaticSite.Proofs.PrintedTrees
import StaticSite.Proofs.Printing
import StaticSite.Proofs.QuotedTexts
import StaticSite.Proofs.Readers
import StaticSite.Proofs.RecursiveSearch
import StaticSite.Proofs.Removal
import StaticSite.Proofs.Reordering
import StaticSite.Proofs.Requests
import StaticSite.Proofs.RouteData
import StaticSite.Proofs.Scaffolded
import StaticSite.Proofs.Schedules
import StaticSite.Proofs.ScratchFiles
import StaticSite.Proofs.Serving
import StaticSite.Proofs.SheetOrder
import StaticSite.Proofs.Slots
import StaticSite.Proofs.Stages
import StaticSite.Proofs.Starter
import StaticSite.Proofs.StatedExports
import StaticSite.Proofs.StyleReferences
import StaticSite.Proofs.StyleRules
import StaticSite.Proofs.Subscriptions
import StaticSite.Proofs.Success
import StaticSite.Proofs.TagOffsets
import StaticSite.Proofs.TagsInUse
import StaticSite.Proofs.Turns
import StaticSite.Proofs.Unfolding
import StaticSite.Proofs.Unread
import StaticSite.Proofs.Untouched
import StaticSite.Proofs.Vacancy
import StaticSite.Proofs.Walks
import StaticSite.Proofs.Writes
import StaticSite.Proofs.WrittenBlocks
import StaticSite.Site.Assets
import StaticSite.Site.Build
import StaticSite.Site.Document
import StaticSite.Site.Error
import StaticSite.Site.Pages
import StaticSite.Site.Parallel
import StaticSite.Site.Settings
import StaticSite.Site.SettingsText
import StaticSite.Template.Compile
import StaticSite.Template.Expression
import StaticSite.Template.Node
import StaticSite.Template.Render
import StaticSite.Terminal.Layout
import StaticSite.Terminal.Screen
import StaticSite.Text.Blank
import StaticSite.Text.Distinct
import StaticSite.Text.Letter
import StaticSite.Text.Quoted
import StaticSite.Text.Span
import StaticSite.Text.Visible
import StaticSite.Text.Word
import StaticSite.Toml.Document
import StaticSite.Toml.Quoted
import StaticSite.Toml.Token
import StaticSite.Toml.Value
import StaticSite.Toml.Written
