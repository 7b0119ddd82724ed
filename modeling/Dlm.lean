import Dlm.Plock.Failures
import Dlm.Plock.Leak
import Dlm.Plock.RateLimit
import Dlm.Plock.ServiceErrors
import Dlm.Plock.PendingOwner
import Dlm.Plock.SectionBuf
import Dlm.Cluster.Pending
import Dlm.Cluster.Exclusion
import Dlm.Cluster.Sections
import Dlm.Cpg.Fencing
import Dlm.Cpg.Acknowledged
import Dlm.Cpg.SyncFlags
import Dlm.Cpg.Reuse
import Dlm.Cpg.Replay
import Dlm.Cpg.Departed
import Dlm.Cpg.Renewed
import Dlm.Cpg.Merged
import Dlm.Cpg.Polling
import Dlm.Cpg.Adopted
import Dlm.Cpg.Wire
import Dlm.Cpg.MinProtocol
import Dlm.Cpg.Agreement
import Dlm.Deadlock.Counters
import Dlm.Deadlock.Home
import Dlm.Deadlock.Names
import Dlm.Deadlock.OwnData
import Dlm.Deadlock.Victim
import Dlm.Deadlock.ReadingOrder
import Dlm.Main.Crc
import Dlm.Main.Requests
import Dlm.Tool.Lockdebug
