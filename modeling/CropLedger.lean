import CropLedger.Binary64.Basic
import CropLedger.Binary64.Shortest
import CropLedger.Broker.Consumer
import CropLedger.Broker.Method
import CropLedger.Broker.Publisher
import CropLedger.Broker.Server
import CropLedger.Broker.Session
import CropLedger.Cache.Address
import CropLedger.Cache.Basic
import CropLedger.Cache.Fault
import CropLedger.Cache.Key
import CropLedger.Cache.KeyServer
import CropLedger.Cache.Memory
import CropLedger.Cache.Observed
import CropLedger.Cache.Remote
import CropLedger.Calendar.Date
import CropLedger.Calendar.Fault
import CropLedger.Calendar.Timestamp
import CropLedger.Decimal.Basic
import CropLedger.Decimal.Cell
import CropLedger.Decimal.Column
import CropLedger.Decimal.Reader
import CropLedger.Harvest.Basic
import CropLedger.Json.Fault
import CropLedger.Json.Numeral
import CropLedger.Json.Reader
import CropLedger.Json.Record
import CropLedger.Json.Scan
import CropLedger.Json.Value
import CropLedger.Market.Basic
import CropLedger.Market.Harvests
import CropLedger.Market.Operations
import CropLedger.Market.Prices
import CropLedger.Paging
import CropLedger.Price.Basic
import CropLedger.Price.View
import CropLedger.Report.Directory
import CropLedger.Report.Dispatcher
import CropLedger.Report.Range
import CropLedger.Report.Rendering
import CropLedger.Report.Request
import CropLedger.Report.Selection
import CropLedger.Report.Target
import CropLedger.Report.Workbook
import CropLedger.Report.Worker
import CropLedger.ServiceFault
import CropLedger.Settings
import CropLedger.Store.Migration
import CropLedger.Store.Schema
import CropLedger.Store.Statement
import CropLedger.Store.Tables
import CropLedger.Store.Work
import CropLedger.Text.Blank
import CropLedger.Text.Cased
import CropLedger.Text.Combining
import CropLedger.Text.Digits
import CropLedger.Text.Lowercase
import CropLedger.Text.Quoted
import CropLedger.Text.Split
import CropLedger.Text.Trim
import CropLedger.Text.Unprintable
import CropLedger.Text.Utf8
import CropLedger.Text.Whole
import CropLedger.Uuid
import CropLedger.Web.App
import CropLedger.Web.Envelope
import CropLedger.Web.Form
import CropLedger.Web.MediaType
import CropLedger.Web.Percent
import CropLedger.Web.Request
import CropLedger.Web.Resource
import CropLedger.Web.Response
import CropLedger.Proofs.Market.Commits
import CropLedger.Proofs.Market.Writes
import CropLedger.Proofs.Market.Orderly
import CropLedger.Proofs.Calendar.Utc
import CropLedger.Proofs.Market.RevisionLog
import CropLedger.Proofs.Text.Digits
import CropLedger.Proofs.Text.Utf8
import CropLedger.Proofs.Json.Leaves
import CropLedger.Proofs.Json.Tree
import CropLedger.Proofs.Json.Readers
import CropLedger.Proofs.Json.Records
import CropLedger.Proofs.Decimal.Written
import CropLedger.Proofs.Uuid
import CropLedger.Proofs.Calendar.Written
import CropLedger.Proofs.Market.Written
import CropLedger.Proofs.Cache.Keys
import CropLedger.Proofs.Store.Kinds
import CropLedger.Proofs.Market.Questions
import CropLedger.Proofs.Cache.Honest
import CropLedger.Proofs.Market.Transparency
import CropLedger.Proofs.Web.WriteAnswers
import CropLedger.Proofs.Report.Jobs
import CropLedger.Proofs.Report.Names
import CropLedger.Proofs.Report.Outages
import CropLedger.Proofs.Report.Correlation
import CropLedger.Proofs.Market.Consistency
import CropLedger.Proofs.Market.HistoryReads
import CropLedger.Proofs.Market.LateAnswers
import CropLedger.Proofs.Market.ConcurrentRevisions
import CropLedger.Proofs.Market.OldestFirst
import CropLedger.Proofs.Calendar.FileTimes
import CropLedger.Proofs.Report.Files
import CropLedger.Proofs.Report.HarvestSheets
import CropLedger.Proofs.Report.NewestRendering
import CropLedger.Proofs.Report.PriceSheets
import CropLedger.Proofs.Report.OpeningPrice
import CropLedger.Proofs.Text.Split
import CropLedger.Proofs.Web.Forms
import CropLedger.Proofs.Web.PollingAddress
import CropLedger.Proofs.Report.Directories
import CropLedger.Proofs.Report.Handling
import CropLedger.Proofs.Report.FailedJobs
import CropLedger.Proofs.Store.Tandem
import CropLedger.Proofs.Market.PairTables
import CropLedger.Proofs.Market.Calls
import CropLedger.Proofs.Market.PairReads
import CropLedger.Proofs.Market.FullArchive
import CropLedger.Proofs.Market.PairsApart
import CropLedger.Proofs.Cache.KeyServers
import CropLedger.Proofs.Report.AdjacentRanges
import CropLedger.Proofs.Cache.Backends
import CropLedger.Proofs.Market.RefusedScans
import CropLedger.Proofs.Market.BoundedStaleness
import CropLedger.Proofs.Paging
import CropLedger.Proofs.Market.Pages
import CropLedger.Proofs.Market.PricePages
import CropLedger.Proofs.Market.HarvestPages
import CropLedger.Proofs.Report.HarvestSelection
import CropLedger.Proofs.Broker.Reconnecting
import CropLedger.Proofs.Cache.RoundTrips
import CropLedger.Proofs.Binary64.Nearest
import CropLedger.Proofs.Decimal.Places
import CropLedger.Proofs.Decimal.Readings
import CropLedger.Proofs.Decimal.Stored
import CropLedger.Proofs.Market.ArchivedValues
import CropLedger.Proofs.Market.DropsByKind
