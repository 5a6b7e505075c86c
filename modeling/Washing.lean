import Washing.Api.Answers
import Washing.Api.Checked
import Washing.Api.Metrics
import Washing.Api.OptimizationSummary
import Washing.Api.Plan
import Washing.Api.PlatformSummary
import Washing.Api.Providers
import Washing.Api.Provisioners
import Washing.Api.Readable
import Washing.Api.Refusals
import Washing.Api.Requests
import Washing.Applications.Job
import Washing.Applications.Projection
import Washing.Applications.Window
import Washing.Auth.Concurrent
import Washing.Auth.Roles
import Washing.Auth.Tokens
import Washing.Connectors.Membership
import Washing.Connectors.Scopes
import Washing.Db.Migrations
import Washing.Db.Statements
import Washing.Inventory.Constraints
import Washing.Inventory.Flavor
import Washing.Inventory.Job
import Washing.Inventory.Placement
import Washing.Inventory.Represent
import Washing.Inventory.Rerun
import Washing.Inventory.Retention
import Washing.Inventory.Unrenamed
import Washing.Jobs.Failures
import Washing.Jobs.LastError
import Washing.Jobs.Timeline
import Washing.Lib.Ensures
import Washing.Lib.Json
import Washing.Lib.JsonCanonical
import Washing.Lib.JsonReader
import Washing.Lib.JsonText
import Washing.Lib.Schedule
import Washing.Lib.Timeline
import Washing.Lib.Transaction
import Washing.Lib.TtlCache
import Washing.Lib.Upsert
import Washing.Lib.WorkQueue
import Washing.Metrics.Alone
import Washing.Metrics.Concurrent
import Washing.Metrics.Convergence
import Washing.Metrics.Daily
import Washing.Metrics.Dispatch
import Washing.Metrics.Frame
import Washing.Metrics.Job
import Washing.Metrics.Membership
import Washing.Metrics.Placement
import Washing.Metrics.Samples
import Washing.Operations
import Washing.Optimizations.Fit
import Washing.Optimizations.Flavor
import Washing.Optimizations.Inputs
import Washing.Optimizations.Stability
import Washing.Queue.Concurrent
import Washing.Queue.Lifecycle
import Washing.Queue.Results
import Washing.Scheduler.Accounting
import Washing.Scheduler.Interleaving
import Washing.Security.Encryption
import Washing.Security.Sanitization
import Washing.Security.Secrets
import Washing.Worker.FanOut
import Washing.Worker.Gateway
import Washing.Worker.Kept
import Washing.Worker.Runs
import Washing.Worker.Slots
import Washing.Worker.Stored
import Washing.Worker.System
import Washing.Worker.Tasks
