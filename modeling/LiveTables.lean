import LiveTables.Cache.Basic
import LiveTables.Cache.Reference
import LiveTables.Console.Arguments
import LiveTables.Console.Command
import LiveTables.Console.Grid
import LiveTables.Console.Help
import LiveTables.Console.Program
import LiveTables.Console.Summary
import LiveTables.Engine.Connection
import LiveTables.Engine.Datum
import LiveTables.Engine.Disk
import LiveTables.Engine.Error
import LiveTables.Engine.Load
import LiveTables.Engine.Refusals
import LiveTables.Engine.Store
import LiveTables.Engine.Task
import LiveTables.Engine.Trace
import LiveTables.Failure
import LiveTables.Field
import LiveTables.Files.Fault
import LiveTables.Files.Path
import LiveTables.Files.Tree
import LiveTables.Host
import LiveTables.Lock.Fault
import LiveTables.Lock.Holder
import LiveTables.Lock.StoreLock
import LiveTables.Logs
import LiveTables.Main
import LiveTables.NameMap
import LiveTables.Number.Binary
import LiveTables.Number.Decimal
import LiveTables.Number.Shortest
import LiveTables.Number.Word
import LiveTables.Record.Scan
import LiveTables.Record.Source
import LiveTables.Session
import LiveTables.Settings.Basic
import LiveTables.Settings.Document
import LiveTables.Settings.Fault
import LiveTables.Settings.Matching
import LiveTables.Sql.Fingerprint
import LiveTables.Sql.Identifier
import LiveTables.Sql.Mask
import LiveTables.Sql.Reader
import LiveTables.Sql.Render
import LiveTables.Sql.Statement
import LiveTables.Sql.Token
import LiveTables.Table.Batch
import LiveTables.Table.Descriptor
import LiveTables.Table.Name
import LiveTables.Text.Blank
import LiveTables.Text.Escaped
import LiveTables.Text.Json
import LiveTables.Text.Repaired
import LiveTables.Text.Unprintable
import LiveTables.Text.Utf8
import LiveTables.Text.Width
import LiveTables.Text.Word
import LiveTables.Time.Calendar
import LiveTables.Toml.Document
import LiveTables.Toml.Quoted
import LiveTables.Toml.Scalar
import LiveTables.Toml.Value
import LiveTables.Value
import LiveTables.Watch.EntryName
import LiveTables.Watch.Inbox
import LiveTables.Watch.Monitor
import LiveTables.Watch.Poller
import LiveTables.Proofs.NameMapLookup
import LiveTables.Proofs.TextRuns
import LiveTables.Proofs.Naming
import LiveTables.Proofs.StatementText
import LiveTables.Proofs.StoredRows
import LiveTables.Proofs.TableStatements
import LiveTables.Proofs.TableLoading
import LiveTables.Proofs.BatchInserts
import LiveTables.Proofs.CacheSteps
import LiveTables.Proofs.Refreshing
import LiveTables.Proofs.CacheRuns
import LiveTables.Proofs.RefreshIsolation
import LiveTables.Proofs.IndependentTables
import LiveTables.Proofs.StoreAgreement
import LiveTables.Proofs.QueryContract
import LiveTables.Proofs.FileWrites
import LiveTables.Proofs.Interleaving
import LiveTables.Proofs.LostUpdates
import LiveTables.Proofs.DataRows
import LiveTables.Proofs.IntegerFields
import LiveTables.Proofs.ExactRounding
import LiveTables.Proofs.ColumnTypes
import LiveTables.Proofs.RowFaults
import LiveTables.Proofs.LoadOutcome
import LiveTables.Proofs.RecordLayout
import LiveTables.Proofs.ServedRows
import LiveTables.Proofs.QueryMatching
import LiveTables.Proofs.QueryWords
import LiveTables.Proofs.QueryStretches
import LiveTables.Proofs.AtomicBodies
import LiveTables.Proofs.ChangeOutcome
import LiveTables.Proofs.RowLines
import LiveTables.Proofs.TableHistory
import LiveTables.Proofs.Deliveries
import LiveTables.Proofs.UnmarkedTables
import LiveTables.Proofs.SessionRuns
import LiveTables.Proofs.DirectoryListing
import LiveTables.Proofs.PollHistory
import LiveTables.Proofs.Utf8Bytes
import LiveTables.Proofs.RepairedText
import LiveTables.Proofs.Numerals
import LiveTables.Proofs.MomentTexts
import LiveTables.Proofs.NestedTexts
import LiveTables.Proofs.QuotedText
import LiveTables.Proofs.DocumentLines
import LiveTables.Proofs.SettingsText
import LiveTables.Proofs.SavedSettings
import LiveTables.Proofs.HolderRecord
import LiveTables.Proofs.FileContents
import LiveTables.Proofs.FileNames
import LiveTables.Proofs.LockPaths
import LiveTables.Proofs.WatchedNames
import LiveTables.Proofs.LockParties
import LiveTables.Proofs.QuotedNames
import LiveTables.Proofs.SpanTexts
import LiveTables.Proofs.LetterCase
