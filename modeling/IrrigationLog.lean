import IrrigationLog.Calendar.Date
import IrrigationLog.Calendar.DateTime
import IrrigationLog.Calendar.Written
import IrrigationLog.Clock
import IrrigationLog.Command.Basic
import IrrigationLog.Command.Grammar
import IrrigationLog.Command.Line
import IrrigationLog.Command.Report
import IrrigationLog.Command.Run
import IrrigationLog.Command.Usage
import IrrigationLog.Command.Value
import IrrigationLog.Config
import IrrigationLog.Data.Basic
import IrrigationLog.Data.Form
import IrrigationLog.Data.Json
import IrrigationLog.Data.Toml.Document
import IrrigationLog.Data.Toml.Quoted
import IrrigationLog.Data.Toml.Scalar
import IrrigationLog.Data.Toml.Table
import IrrigationLog.Error
import IrrigationLog.Event.Limits
import IrrigationLog.LogBook.Basic
import IrrigationLog.LogBook.Recording
import IrrigationLog.LogBook.Step
import IrrigationLog.Machine
import IrrigationLog.Main
import IrrigationLog.Partition.Key
import IrrigationLog.Partition.Line
import IrrigationLog.Partition.Rows
import IrrigationLog.Proofs.AppendOnly
import IrrigationLog.Proofs.BinMeans
import IrrigationLog.Proofs.CalendarCount
import IrrigationLog.Proofs.Calls
import IrrigationLog.Proofs.ChartFromTable
import IrrigationLog.Proofs.ClockMoves
import IrrigationLog.Proofs.CountersAcrossRuns
import IrrigationLog.Proofs.DateOrder
import IrrigationLog.Proofs.EventChunks
import IrrigationLog.Proofs.EventStream
import IrrigationLog.Proofs.FailedCommand
import IrrigationLog.Proofs.FileScan
import IrrigationLog.Proofs.FormValues
import IrrigationLog.Proofs.GivenTime
import IrrigationLog.Proofs.GivenZones
import IrrigationLog.Proofs.InterruptedOutput
import IrrigationLog.Proofs.JsonForms
import IrrigationLog.Proofs.JsonText
import IrrigationLog.Proofs.LineEnds
import IrrigationLog.Proofs.MalformedLine
import IrrigationLog.Proofs.PaddedNumbers
import IrrigationLog.Proofs.PartitionFile
import IrrigationLog.Proofs.PartitionNames
import IrrigationLog.Proofs.QueryDocuments
import IrrigationLog.Proofs.QuotedText
import IrrigationLog.Proofs.RangeDays
import IrrigationLog.Proofs.ReadAfterRecord
import IrrigationLog.Proofs.Readiness
import IrrigationLog.Proofs.RecordScan
import IrrigationLog.Proofs.ReorderedRecords
import IrrigationLog.Proofs.SameDayUses
import IrrigationLog.Proofs.SavedAgain
import IrrigationLog.Proofs.SavedSettings
import IrrigationLog.Proofs.SensorRoundTrip
import IrrigationLog.Proofs.SeriesOrder
import IrrigationLog.Proofs.SeriesPoints
import IrrigationLog.Proofs.SeriesRuns
import IrrigationLog.Proofs.SettingRegisters
import IrrigationLog.Proofs.SettingUp
import IrrigationLog.Proofs.SettingsText
import IrrigationLog.Proofs.SortedScan
import IrrigationLog.Proofs.StreamedAnswers
import IrrigationLog.Proofs.StructuredParts
import IrrigationLog.Proofs.SystemLog
import IrrigationLog.Proofs.TreeFrame
import IrrigationLog.Proofs.TypedTimes
import IrrigationLog.Proofs.WaterBalance
import IrrigationLog.Proofs.WaterTotals
import IrrigationLog.Proofs.WateringRoundTrip
import IrrigationLog.Proofs.WholeLines
import IrrigationLog.Proofs.WiderRange
import IrrigationLog.Query.Bins
import IrrigationLog.Query.Output
import IrrigationLog.Query.Range
import IrrigationLog.Query.Scan
import IrrigationLog.Query.Series
import IrrigationLog.Query.Stream
import IrrigationLog.Query.View
import IrrigationLog.Record
import IrrigationLog.Station
import IrrigationLog.Text.Blank
import IrrigationLog.Text.Numeral
import IrrigationLog.Text.Split
import IrrigationLog.Text.Utf8
import IrrigationLog.Tree.Basic
import IrrigationLog.Tree.Change
import IrrigationLog.Tree.Path
import IrrigationLog.Vocabulary.Basic
import IrrigationLog.Vocabulary.Category
import IrrigationLog.Vocabulary.Grouping
import IrrigationLog.Vocabulary.Sensor
import IrrigationLog.Vocabulary.Severity
import IrrigationLog.WaterCounter
