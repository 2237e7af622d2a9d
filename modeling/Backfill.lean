import Backfill.Acquisition.Pool
import Backfill.Command.Run
import Backfill.Config.Locate
import Backfill.Config.Reader
import Backfill.Config.Written
import Backfill.Fetch.Node
import Backfill.Height.Json
import Backfill.Height.Listing
import Backfill.Json.Document
import Backfill.Log.Coverage
import Backfill.Log.Files
import Backfill.Log.Scan
import Backfill.Log.Writer
import Backfill.Main
import Backfill.Proofs.Acquisition.Remote
import Backfill.Repair.Advice
import Backfill.Repair.Run
import Backfill.Replica.Files
import Backfill.Replica.Trace
import Backfill.Proofs.Acquisition.Scan
import Backfill.Proofs.Height.Sorted
import Backfill.Proofs.Repair.Sources
import Backfill.Proofs.Repair.Upkeep
import Backfill.Proofs.Repair.Range
import Backfill.Proofs.Repair.Accounting
import Backfill.Proofs.Height.Separated
import Backfill.Proofs.Replica.Populated
import Backfill.Proofs.Replica.Missing
import Backfill.Proofs.Replica.Written
import Backfill.Proofs.Repair.Trail
import Backfill.Proofs.Replica.Backed
import Backfill.Proofs.Replica.Reachable
import Backfill.Proofs.Repair.Durability
import Backfill.Proofs.Repair.Heights
import Backfill.Proofs.Repair.Filling
import Backfill.Proofs.Repair.Fetched
import Backfill.Proofs.Repair.Convergence
import Backfill.Proofs.Repair.Complete
import Backfill.Proofs.Repair.Restart
import Backfill.Proofs.Replica.Entries
import Backfill.Proofs.Replica.Transcript
import Backfill.Proofs.Replica.Transactions
import Backfill.Proofs.Replica.Tally
import Backfill.Proofs.Repair.Watched
import Backfill.Proofs.Repair.Delivery
import Backfill.Proofs.Repair.Batching
import Backfill.Proofs.Acquisition.Deeds
import Backfill.Proofs.Acquisition.Answers
import Backfill.Proofs.Acquisition.Interleaving
import Backfill.Proofs.Acquisition.Parallel
import Backfill.Proofs.Repair.Tracked
import Backfill.Proofs.Repair.Observed
import Backfill.Proofs.Repair.Failures
import Backfill.Proofs.Acquisition.Shortfall
import Backfill.Proofs.Repair.Fallback
import Backfill.Proofs.Repair.Tuning
import Backfill.Proofs.Repair.Faithful
import Backfill.Proofs.Replica.Query
import Backfill.Proofs.Log.RoundTrip
import Backfill.Proofs.Text.Hex
import Backfill.Proofs.Json.Quoted
import Backfill.Proofs.Json.Tokens
import Backfill.Proofs.Json.Document
import Backfill.Proofs.Record.RoundTrip
import Backfill.Proofs.File.Tree
import Backfill.Proofs.Log.Files
import Backfill.Proofs.Replica.Protocol
import Backfill.Proofs.Repair.Protocol
import Backfill.Proofs.Text.Decimal
import Backfill.Proofs.Replica.Readable
import Backfill.Proofs.Log.Reference
import Backfill.Proofs.Log.Scan
import Backfill.Proofs.Log.Density
import Backfill.Proofs.Log.Layouts
import Backfill.Proofs.Log.Machine
import Backfill.Proofs.Height.Complement
import Backfill.Proofs.Replica.Savepoint
import Backfill.Proofs.Replica.Overwritten
import Backfill.Proofs.Repair.Portions
import Backfill.Proofs.Repair.Bounded
import Backfill.Proofs.Repair.Cadence
import Backfill.Proofs.Datum.Fields
import Backfill.Proofs.Fetch.Response
import Backfill.Proofs.Fetch.Retry
import Backfill.Proofs.Height.Detected
import Backfill.Proofs.Height.Listing
import Backfill.Proofs.Log.Coverage
import Backfill.Proofs.Config.RoundTrip
import Backfill.Proofs.Height.Tiling
import Backfill.Proofs.Text.Blank
import Backfill.Proofs.Fetch.Endpoint
