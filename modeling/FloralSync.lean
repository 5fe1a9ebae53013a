import FloralSync.Replication.Keyed
import FloralSync.Replication.Journal
import FloralSync.Replication.Pull
import FloralSync.Result
import FloralSync.Store.Push
import FloralSync.Store.Runs
import FloralSync.Store.LastWriteWins
import FloralSync.Store.ReadBack
import FloralSync.Store.Represents
import FloralSync.Store.Restore
import FloralSync.Store.Admin
import FloralSync.Store.Reachable
import FloralSync.Store.RestoreResult
import FloralSync.Store.Client
import FloralSync.Store.Convergence
import FloralSync.Store.TombstoneHolds
import FloralSync.Store.OpenAgreement
import FloralSync.Store.Atomicity
import FloralSync.Store.FailingStep
import FloralSync.Store.History
import FloralSync.Store.Search
import FloralSync.Store.Pages
import FloralSync.Store.Overflow
import FloralSync.Config.Overrides
import FloralSync.Config.Reload
import FloralSync.Config.Concurrent
import FloralSync.Config.Pending
import FloralSync.Config.Deployment
import FloralSync.Sync.Wait
import FloralSync.Sync.Agreement
import FloralSync.Admin.Settings
import FloralSync.Admin.Passwords
import FloralSync.Admin.Sessions
import FloralSync.Admin.Archive
import FloralSync.Admin.ExportDir
import FloralSync.Store.Latest
import FloralSync.Config.Idempotent
import FloralSync.Admin.ArchiveNames
import FloralSync.Admin.Cookies
import FloralSync.Admin.Origin
import FloralSync.Admin.Restart
import FloralSync.Sync.Replicas
import FloralSync.Store.Delivery
import FloralSync.Store.Views
import FloralSync.Store.Notebook
import FloralSync.Store.Recovery
import FloralSync.Server.System
import FloralSync.Server.Lifecycle
import FloralSync.Server.Command
import FloralSync.Url
import FloralSync.Admin.Routes
import FloralSync.Admin.Client
import FloralSync.Admin.Saved
