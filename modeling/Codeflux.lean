import Codeflux.Storage.Budget.Reconciliation
import Codeflux.Events.Delivery
import Codeflux.Events.Queues
import Codeflux.Events.Gaps
import Codeflux.SessionClient.Reconnect
import Codeflux.Gitwork.Rollback
import Codeflux.Gitwork.Porcelain
import Codeflux.Executor.PatchPlacement
import Codeflux.Executor.PatchRoundTrip
import Codeflux.Storage.Memory.Confirmation
import Codeflux.Storage.Memory.Cascade
import Codeflux.Pipeline.Fixpoint
import Codeflux.GraphLayout.Stability
import Codeflux.TaskGraph.Reobservation
import Codeflux.TaskGraph.Visibility
import Codeflux.Redact.Chunks
import Codeflux.Redact.Structured
import Codeflux.Agent.RepairProfile
import Codeflux.Providers.Attempts
import Codeflux.Providers.Reassembly
import Codeflux.Providers.Backpressure
import Codeflux.Storage.SessionSnapshots
import Codeflux.Storage.SessionCommands
import Codeflux.Frontend.ProjectionValidity
import Codeflux.Checkpoint.Encoding
import Codeflux.Recovery.Soundness
import Codeflux.Retrieval.ContractKey
