import Lectern.Text.Basic
import Lectern.Text.Replace
import Lectern.Text.Blank
import Lectern.Text.Lines
import Lectern.Text.Word
import Lectern.Text.Digit
import Lectern.Text.Lowercase
import Lectern.Text.Quoted
import Lectern.OrderedMap
import Lectern.Segment
import Lectern.Deck.Basic
import Lectern.Deck.Params
import Lectern.Deck.ElementHeader
import Lectern.Deck.Remark
import Lectern.Deck.BodyLine
import Lectern.Number.Binary64
import Lectern.Latex.Markup
import Lectern.Latex.Inline
import Lectern.Latex.Columns
import Lectern.Latex.Body
import Lectern.Latex.Document
import Lectern.Language.Table
import Lectern.Language.Basic
import Lectern.Json.Basic
import Lectern.Number.Shortest
import Lectern.Json.Problem
import Lectern.Json.Reader
import Lectern.Check.Diagnostic
import Lectern.Check.Report
import Lectern.Check.Header
import Lectern.Check.Scenes
import Lectern.Check.Slides
import Lectern.Check.Basic
import Lectern.Session.Level
import Lectern.Config.Basic
import Lectern.Config.Written
import Lectern.Files.Path
import Lectern.Files.FileError
import Lectern.Files.FileTree
import Lectern.Session.Failure
import Lectern.Session.Notice
import Lectern.Session.Host
import Lectern.Session.Machine
import Lectern.Deck.Written
import Lectern.Publish.Outputs
import Lectern.Publish.Run
import Lectern.Cli.Options
import Lectern.Cli.Run
import Lectern.Main
import Lectern.Deck.Parser
import Lectern.Proofs.Segment
import Lectern.Proofs.OrderedMap
import Lectern.Proofs.Text.Trim
import Lectern.Proofs.Text.Lines
import Lectern.Proofs.Text.Occurrence
import Lectern.Proofs.Text.Word
import Lectern.Proofs.Text.Replace
import Lectern.Proofs.Text.Returns
import Lectern.Proofs.Text.Utf8
import Lectern.Proofs.Deck.Segmentation
import Lectern.Proofs.Deck.Source
import Lectern.Proofs.Deck.ParamsReading
import Lectern.Proofs.Deck.ElementGrammar
import Lectern.Proofs.Deck.ElementReading
import Lectern.Proofs.Deck.HeaderReading
import Lectern.Proofs.Deck.RoundTrip
import Lectern.Proofs.Deck.Contained
import Lectern.Proofs.Deck.LineEndings
import Lectern.Proofs.Deck.BodyLine
import Lectern.Proofs.Deck.ElementTexts
import Lectern.Proofs.Latex.Token
import Lectern.Proofs.Latex.Inline
import Lectern.Proofs.Latex.Body
import Lectern.Proofs.Latex.ImageMarkers
import Lectern.Proofs.Latex.Columns
import Lectern.Proofs.Latex.Nesting
import Lectern.Proofs.Latex.Document
import Lectern.Proofs.Latex.OutputLines
import Lectern.Proofs.Latex.Blocks
import Lectern.Proofs.Latex.Percents
import Lectern.Proofs.Latex.Proportions
import Lectern.Proofs.Latex.Braces
import Lectern.Proofs.Latex.Unmarked
import Lectern.Proofs.Latex.Phrases
import Lectern.Proofs.Json.Records
import Lectern.Proofs.Publish.Languages
import Lectern.Proofs.Files.Path
import Lectern.Proofs.Files.FileTree
import Lectern.Proofs.Files.Changes
import Lectern.Proofs.Publish.OutputPath
import Lectern.Proofs.Session.Machine
import Lectern.Proofs.Publish.Run
import Lectern.Proofs.Publish.Frame
import Lectern.Proofs.Check.LanguageTags
import Lectern.Proofs.Files.Places
import Lectern.Proofs.Publish.Again
import Lectern.Proofs.Publish.Order
import Lectern.Proofs.Publish.SharedOutputs
import Lectern.Proofs.Config.Saved
import Lectern.Proofs.Language.Matching
import Lectern.Proofs.Config.Partial
import Lectern.Proofs.Language.Lookups
import Lectern.Proofs.Publish.OwnDeck
import Lectern.Proofs.Check.Degraded
import Lectern.Proofs.Files.Walk
import Lectern.Proofs.Publish.Discovery
import Lectern.Proofs.Deck.Padding
