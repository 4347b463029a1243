import CacheActivity.Binary64.Basic
import CacheActivity.Binary64.Decimal
import CacheActivity.Calendar.Date
import CacheActivity.Calendar.Text
import CacheActivity.Calendar.Window
import CacheActivity.Capture.Archive
import CacheActivity.Capture.Rows
import CacheActivity.Command.Flag
import CacheActivity.Command.Help
import CacheActivity.Command.Invocation
import CacheActivity.Command.Outcome
import CacheActivity.Command.Run
import CacheActivity.Command.Watch
import CacheActivity.Count
import CacheActivity.Export
import CacheActivity.Dashboard
import CacheActivity.Display.Activity
import CacheActivity.Display.Bars
import CacheActivity.Display.Health
import CacheActivity.Display.Line
import CacheActivity.Display.Table
import CacheActivity.Fault
import CacheActivity.Files.Disk
import CacheActivity.Files.Path
import CacheActivity.Health
import CacheActivity.Json.Basic
import CacheActivity.Json.Cursor
import CacheActivity.Json.Layers
import CacheActivity.Json.Numeral
import CacheActivity.Json.Quoted
import CacheActivity.Json.Reader
import CacheActivity.Json.Skip
import CacheActivity.Json.Writer
import CacheActivity.Main
import CacheActivity.Settings.Basic
import CacheActivity.Settings.Reader
import CacheActivity.Settings.Store
import CacheActivity.Text.Basic
import CacheActivity.Text.Columns
import CacheActivity.Text.Emoji
import CacheActivity.Text.Extending
import CacheActivity.Text.Ligature
import CacheActivity.Text.Literal
import CacheActivity.Text.Split
import CacheActivity.Text.Width
import CacheActivity.Usage.Coercion
import CacheActivity.Usage.Document
import CacheActivity.Usage.Facets
import CacheActivity.Usage.Report
import CacheActivity.Usage.Row
import CacheActivity.Usage.RowReader
import CacheActivity.Usage.Selection
import CacheActivity.Yaml.Cursor
import CacheActivity.Yaml.Event
import CacheActivity.Yaml.Plain
import CacheActivity.Yaml.Property
import CacheActivity.Yaml.Scalar
import CacheActivity.Yaml.SyntaxError
import CacheActivity.Yaml.Token
import CacheActivity.Yaml.Writer
import CacheActivity.Proofs.Grouping
import CacheActivity.Proofs.Conservation
import CacheActivity.Proofs.DashboardRun
import CacheActivity.Proofs.Dates
import CacheActivity.Proofs.Places
import CacheActivity.Proofs.DailyFetch
import CacheActivity.Proofs.SaturatedSums
import CacheActivity.Proofs.Numerals
import CacheActivity.Proofs.QuotedTexts
import CacheActivity.Proofs.Grammar
import CacheActivity.Proofs.ReadingSound
import CacheActivity.Proofs.ReadingComplete
import CacheActivity.Proofs.Nesting
import CacheActivity.Proofs.HealthRoutes
import CacheActivity.Proofs.ErrorLayers
import CacheActivity.Proofs.CaptureFormats
import CacheActivity.Proofs.WindowParts
import CacheActivity.Proofs.Attempts
import CacheActivity.Proofs.DashboardHistory
import CacheActivity.Proofs.FlagReading
import CacheActivity.Proofs.HealthResults
import CacheActivity.Proofs.DrillDown
import CacheActivity.Proofs.FacetChoices
import CacheActivity.Proofs.Writes
import CacheActivity.Proofs.WrittenRows
import CacheActivity.Proofs.ReportMerge
import CacheActivity.Proofs.ActivityTable
import CacheActivity.Proofs.DateSpellings
import CacheActivity.Proofs.AskedWindow
import CacheActivity.Proofs.ExportPaths
import CacheActivity.Proofs.FinalErrors
import CacheActivity.Proofs.DistinctKeys
import CacheActivity.Proofs.FailureShapes
import CacheActivity.Proofs.ShownTexts
import CacheActivity.Proofs.PathEnds
import CacheActivity.Proofs.KeptSettings
import CacheActivity.Proofs.PeeledLayers
import CacheActivity.Proofs.TrimmedTexts
import CacheActivity.Proofs.PassedOver
import CacheActivity.Proofs.RowMembers
import CacheActivity.Proofs.RowDecoding
import CacheActivity.Proofs.WholeCounts
import CacheActivity.Proofs.CallTypeNames
import CacheActivity.Proofs.WholeDays
import CacheActivity.Proofs.WrittenDates
import CacheActivity.Proofs.LineBytes
import CacheActivity.Proofs.CaptureContents
import CacheActivity.Proofs.FacetSelection
import CacheActivity.Proofs.CountTexts
import CacheActivity.Proofs.ExportContents
import CacheActivity.Proofs.PrettyTexts
import CacheActivity.Proofs.PrintedDocuments
import CacheActivity.Proofs.PlainScalars
import CacheActivity.Proofs.QuotedScalars
import CacheActivity.Proofs.BlockScalars
import CacheActivity.Proofs.WrittenScalars
import CacheActivity.Proofs.FlatMappings
import CacheActivity.Proofs.MappingEvents
import CacheActivity.Proofs.SettingsTexts
import CacheActivity.Proofs.SavedSettings
import CacheActivity.Proofs.DigitGroups
import CacheActivity.Proofs.FittingBars
