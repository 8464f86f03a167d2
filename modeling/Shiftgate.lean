import Shiftgate.Securestore.CollectionRuns
import Shiftgate.Checkpoint.RollbackRuns
import Shiftgate.Checkpoint.Public
import Shiftgate.Checkpoint.Live
import Shiftgate.Checkpoint.ForkRuns
import Shiftgate.Gc.Retention
import Shiftgate.Transfer.Reaping
import Shiftgate.Migration.FreezeRuns
import Shiftgate.Migration.Preserved
import Shiftgate.Migration.OneCopy
import Shiftgate.Migration.Events
import Shiftgate.Migration.Admission
import Shiftgate.Failover.Exclusive
import Shiftgate.Failover.Duties
import Shiftgate.Jobs.Lease
import Shiftgate.Jobs.Truth
import Shiftgate.Accounts.SignIn
import Shiftgate.Accounts.Metadata
import Shiftgate.Accounts.Rotation
import Shiftgate.Accounts.Tenancy
import Shiftgate.Accounts.Grace
import Shiftgate.Relay.Outliving
import Shiftgate.Runtime.Manager
import Shiftgate.Scheduler.Capacity
import Shiftgate.Housekeeping.Sweep
import Shiftgate.Objectstore.Signing
import Shiftgate.Storage.Metering
import Shiftgate.Checkpoint.Mounts
import Shiftgate.Checkpoint.Multipart
import Shiftgate.Checkpoint.RepositoryRuns
import Shiftgate.Billing.WebhookRuns
import Shiftgate.Accounts.Seats
import Shiftgate.Accounts.KeyRank
import Shiftgate.Usage.Reporter
import Shiftgate.Jobs.Assignment
import Shiftgate.Kubernetes.Controller
import Shiftgate.Billing.Reconciled
import Shiftgate.Failover.Death
import Shiftgate.Machines.AgentURL
import Shiftgate.Update.Binding
import Shiftgate.Update.Manager
import Shiftgate.Update.Rollout
