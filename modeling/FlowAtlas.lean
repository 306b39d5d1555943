import FlowAtlas.CommandLine
import FlowAtlas.CommandLine.Arguments
import FlowAtlas.CommandLine.Report
import FlowAtlas.Config.Dump
import FlowAtlas.Config.Json
import FlowAtlas.Config.Key
import FlowAtlas.Config.Load
import FlowAtlas.Config.Merge
import FlowAtlas.Config.Settings
import FlowAtlas.Config.Value
import FlowAtlas.Config.Yaml
import FlowAtlas.Config.Yaml.Character
import FlowAtlas.Config.Yaml.Cursor
import FlowAtlas.Config.Yaml.Layout
import FlowAtlas.Config.Yaml.Literal
import FlowAtlas.Config.Yaml.Meaning
import FlowAtlas.Config.Yaml.Moment
import FlowAtlas.Config.Yaml.Node
import FlowAtlas.Config.Yaml.Plain
import FlowAtlas.Config.Yaml.Problem
import FlowAtlas.Config.Yaml.Property
import FlowAtlas.Config.Yaml.Quoted
import FlowAtlas.Config.Yaml.Reader
import FlowAtlas.Config.Yaml.Scalar
import FlowAtlas.Config.Yaml.Token
import FlowAtlas.Crawl
import FlowAtlas.Crawl.Merge
import FlowAtlas.Crawl.Prune
import FlowAtlas.Crawl.Selection
import FlowAtlas.Environment
import FlowAtlas.Fault
import FlowAtlas.FileFlow
import FlowAtlas.Files
import FlowAtlas.Grammar
import FlowAtlas.Graph
import FlowAtlas.Language
import FlowAtlas.Language.Builtins
import FlowAtlas.Language.Grammars
import FlowAtlas.Levels
import FlowAtlas.Main
import FlowAtlas.NodeId
import FlowAtlas.Number.Binary
import FlowAtlas.Number.Shortest
import FlowAtlas.Order
import FlowAtlas.Outline
import FlowAtlas.Outline.Fact
import FlowAtlas.Outline.Marker
import FlowAtlas.Outline.OfTree
import FlowAtlas.Outline.Reading
import FlowAtlas.Outline.Visit
import FlowAtlas.Parser
import FlowAtlas.Parser.TreeFile
import FlowAtlas.Path
import FlowAtlas.Proofs.AddedFile
import FlowAtlas.Proofs.Arrivals
import FlowAtlas.Proofs.BuiltinFilter
import FlowAtlas.Proofs.Bursts
import FlowAtlas.Proofs.Callers
import FlowAtlas.Proofs.ChainLevels
import FlowAtlas.Proofs.Crawl
import FlowAtlas.Proofs.CrawlableFiles
import FlowAtlas.Proofs.DeadEnds
import FlowAtlas.Proofs.DecisionForest
import FlowAtlas.Proofs.EventPatterns
import FlowAtlas.Proofs.FileFlow
import FlowAtlas.Proofs.FileLookup
import FlowAtlas.Proofs.FileOrder
import FlowAtlas.Proofs.FirstOccurrence
import FlowAtlas.Proofs.FlatFlow
import FlowAtlas.Proofs.Graph
import FlowAtlas.Proofs.IdFormat
import FlowAtlas.Proofs.LateEvents
import FlowAtlas.Proofs.LevelBound
import FlowAtlas.Proofs.Levels
import FlowAtlas.Proofs.LineBreaks
import FlowAtlas.Proofs.Merge
import FlowAtlas.Proofs.NameEndings
import FlowAtlas.Proofs.NameResolution
import FlowAtlas.Proofs.NodeChoice
import FlowAtlas.Proofs.NodeId
import FlowAtlas.Proofs.ObserverUse
import FlowAtlas.Proofs.Observers
import FlowAtlas.Proofs.OutlineFacts
import FlowAtlas.Proofs.OutlineOfTree
import FlowAtlas.Proofs.Overlay
import FlowAtlas.Proofs.Places
import FlowAtlas.Proofs.PlainPaths
import FlowAtlas.Proofs.PrunedTraces
import FlowAtlas.Proofs.Pruning
import FlowAtlas.Proofs.ReachedLevels
import FlowAtlas.Proofs.ReadValues
import FlowAtlas.Proofs.Relaxation
import FlowAtlas.Proofs.RelevantEvents
import FlowAtlas.Proofs.Results
import FlowAtlas.Proofs.Selection
import FlowAtlas.Proofs.SessionCoherence
import FlowAtlas.Proofs.SessionRun
import FlowAtlas.Proofs.SettledGraph
import FlowAtlas.Proofs.ShownPlaces
import FlowAtlas.Proofs.SingleWatcher
import FlowAtlas.Proofs.SourceText
import FlowAtlas.Proofs.Suppression
import FlowAtlas.Proofs.Table
import FlowAtlas.Proofs.TextStream
import FlowAtlas.Proofs.Tracing
import FlowAtlas.Proofs.Trimming
import FlowAtlas.Proofs.TypedCommands
import FlowAtlas.Proofs.UsableSettings
import FlowAtlas.Proofs.Utf8Pieces
import FlowAtlas.Proofs.VisitWeight
import FlowAtlas.Proofs.Walk
import FlowAtlas.Proofs.WatchedFiles
import FlowAtlas.Request
import FlowAtlas.Request.Command
import FlowAtlas.Session
import FlowAtlas.Session.Outcome
import FlowAtlas.SyntaxTree
import FlowAtlas.SyntaxTree.Rows
import FlowAtlas.Table
import FlowAtlas.Text.Blank
import FlowAtlas.Text.Casing
import FlowAtlas.Text.Lower
import FlowAtlas.Text.Numeral
import FlowAtlas.Text.Printable
import FlowAtlas.Text.Quoted
import FlowAtlas.Text.Search
import FlowAtlas.Text.Stream
import FlowAtlas.Text.Utf8
import FlowAtlas.Text.Wildcard
import FlowAtlas.Trace
import FlowAtlas.Watch.Change
import FlowAtlas.Watch.Channel
import FlowAtlas.Watch.Debouncer
import FlowAtlas.Watch.Event
import FlowAtlas.Watch.Handler
import FlowAtlas.Watch.Observer
import FlowAtlas.Watch.Pattern
import FlowAtlas.Watch.Relevance
import FlowAtlas.Watch.Watcher
