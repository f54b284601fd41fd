import ConcordBft.IncomingMsgsStorage
import ConcordBft.AsyncTlsConnection
import ConcordBft.ControllerWithSimpleHistory
import ConcordBft.UniqueNumbers
import ConcordBft.ViewChangeSafetyLogic.Rule
import ConcordBft.ViewChangeMsg.Parser
import ConcordBft.ViewsManager.Reporting
import ConcordBft.ReplicaImp.Bookkeeping
import ConcordBft.ReplicaImp.StatusReports
import ConcordBft.ReplicaImp.Replies
import ConcordBft.ReplicaImp.NewPrimary
import ConcordBft.BackgroundJobs.Runs
import ConcordBft.BCStateTran.Merge
import ConcordBft.DebugPersistentStorage.ReadBack
import ConcordBft.SignaturesProcessingJob
import ConcordBft.FileStorage.Durable
import ConcordBft.SimpleKVBC.StateTransferContract
import ConcordBft.SimpleKVBC.BlockData
import ConcordBft.MembershipService.Answers
import ConcordBft.MembershipService.Gateway
import ConcordBft.PyClient.Quorum
