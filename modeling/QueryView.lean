import QueryView.CommandLine.FileTree
import QueryView.CommandLine.Options
import QueryView.CommandLine.Program
import QueryView.Failure
import QueryView.Highlighter
import QueryView.Json.Document
import QueryView.Json.Lexeme
import QueryView.Json.Members
import QueryView.Json.Print
import QueryView.Json.Quote
import QueryView.Json.Tree
import QueryView.Json.Value
import QueryView.Language
import QueryView.Layout
import QueryView.Main
import QueryView.Numeric.Binary
import QueryView.Numeric.DecimalText
import QueryView.Numeric.Shortest
import QueryView.Numeric.Single
import QueryView.Picker
import QueryView.Query.Keyword
import QueryView.Query.Lexer
import QueryView.ResultValue
import QueryView.Settings
import QueryView.Style.Color
import QueryView.Style.Palette
import QueryView.Style.Run
import QueryView.Style.TokenClass
import QueryView.Surface.Buffer
import QueryView.Surface.EchoGuard
import QueryView.Surface.Hook
import QueryView.Surface.Layer
import QueryView.Surface.Run
import QueryView.Surface.Screen
import QueryView.Surface.Script
import QueryView.Surface.State
import QueryView.Surface.Trial
import QueryView.Surface.World
import QueryView.Terminal.Frame
import QueryView.Terminal.Screen
import QueryView.Terminal.Sink
import QueryView.Text.Base64
import QueryView.Text.Basic
import QueryView.Text.Path
import QueryView.Text.Utf8
import QueryView.Text.Width
import QueryView.Toml.Blank
import QueryView.Toml.Document
import QueryView.Toml.Moment
import QueryView.Toml.Quoted
import QueryView.Toml.Scalar
import QueryView.Toml.Table
import QueryView.Toml.Value
import QueryView.Proofs.Surface.Alike
import QueryView.Proofs.Surface.Callback
import QueryView.Proofs.Surface.Match
import QueryView.Proofs.Surface.Turn
import QueryView.Proofs.Surface.Move
import QueryView.Proofs.Surface.Quiet
import QueryView.Proofs.Surface.InStep
import QueryView.Proofs.Surface.Echo
import QueryView.Query.Scanner
import QueryView.Proofs.Query.Scanner
import QueryView.Proofs.Query.Grammar
import QueryView.Proofs.Json.Grammar
import QueryView.Proofs.Json.Merge
import QueryView.Proofs.Json.Shown
import QueryView.Proofs.Json.Canonical
import QueryView.Proofs.Json.Legible
import QueryView.Proofs.Surface.Flag
import QueryView.Proofs.Surface.Setter
import QueryView.Proofs.Surface.Edit
import QueryView.Proofs.Surface.Agreement
import QueryView.Proofs.Surface.Twin
import QueryView.Proofs.Surface.Indifference
import QueryView.Proofs.Query.Append
import QueryView.Proofs.Terminal.Wrap
import QueryView.Proofs.Json.Breaks
import QueryView.Proofs.Highlighter
import QueryView.Proofs.CommandLine.Pipe
import QueryView.Proofs.Surface.Registry
import QueryView.Proofs.Surface.Behind
import QueryView.Proofs.Surface.Following
import QueryView.Proofs.Surface.CatchUp
import QueryView.Proofs.Terminal.Escapes
import QueryView.Proofs.Terminal.Lines
import QueryView.Proofs.Surface.Writing
import QueryView.Proofs.Surface.Mirror
import QueryView.Proofs.Terminal.Cutoff
import QueryView.Proofs.Surface.Silence
import QueryView.Proofs.Json.Number
import QueryView.Proofs.Json.Compact
import QueryView.Proofs.ResultValue
import QueryView.CommandLine.Session
import QueryView.Proofs.Surface.Deferred
import QueryView.Proofs.CommandLine.Session
import QueryView.Proofs.CommandLine.Verbatim
import QueryView.Proofs.CommandLine.Unseen
import QueryView.Proofs.Surface.Appearance
import QueryView.Proofs.Surface.Reordering
import QueryView.Proofs.Surface.Guest
import QueryView.Proofs.Surface.Native
import QueryView.Proofs.Surface.Census
import QueryView.Proofs.Surface.Round
import QueryView.Proofs.CommandLine.Placeholder
import QueryView.Proofs.Surface.Lasting
import QueryView.Proofs.Surface.Laying
import QueryView.Proofs.Surface.Prompt
import QueryView.Proofs.Terminal.Rewrap
import QueryView.Proofs.Query.Case
import QueryView.Proofs.Json.Pieces
import QueryView.Proofs.Json.Indentation
import QueryView.Proofs.Entries
import QueryView.Proofs.Surface.EchoGuard
import QueryView.Proofs.Terminal.Bound
import QueryView.Proofs.Terminal.Mark
import QueryView.Proofs.Surface.Diary
import QueryView.Proofs.Surface.Outdated
import QueryView.Proofs.CommandLine.Options
import QueryView.Proofs.Surface.Logbook
import QueryView.Proofs.Surface.Reporting
import QueryView.Proofs.Numeric.Format
import QueryView.Proofs.Numeric.Order
import QueryView.Proofs.Settings.Known
import QueryView.Proofs.Settings.Range
import QueryView.Proofs.Query.Bold
import QueryView.Proofs.Style.Color
