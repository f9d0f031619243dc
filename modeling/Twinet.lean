import Twinet.Agent.Handlers
import Twinet.Deploy.MarkerProtocol
import Twinet.Deploy.Redeploy
import Twinet.Deploy.Continuity
import Twinet.Agent.ContainerNames
import Twinet.Agent.StateImport
import Twinet.Agent.Replication
import Twinet.Agent.StateExport
import Twinet.Agent.Reconcile
import Twinet.Client.Coordinator
import Twinet.Fault.Ledger
import Twinet.Client.Converged
import Twinet.Harness.Name
import Twinet.Harness.Grow
import Twinet.Plan.Complete
import Twinet.Agent.Memory
import Twinet.Agent.SolveTransition
import Twinet.Agent.Tenure
import Twinet.Agent.CollectionFence
import Twinet.Agent.Operations
import Twinet.Agent.Lifetime
import Twinet.Agent.Collector
import Twinet.Client.SplitCommit
import Twinet.Place.Place
import Twinet.Place.LocalityOrder
import Twinet.Client.RunningPlacement
import Twinet.Client.ReplicaChoice
import Twinet.Agent.Ancestors
import Twinet.Agent.PreservedInventory
import Twinet.State.EventJournal
import Twinet.Grade.Release
import Twinet.Grade.Width
import Twinet.Netx.OrphanBridge
import Twinet.Netx.Shaping
import Twinet.Svc.ValleyFree
import Twinet.Svc.RoaPublish
