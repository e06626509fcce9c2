import Upshift.Aborts
import Upshift.Account.Clients
import Upshift.Isolation.Holders
import Upshift.Isolation.Parallel
import Upshift.Isolation.Vaults
import Upshift.Queue.Caller
import Upshift.Queue.Cancel
import Upshift.Queue.Deadlines
import Upshift.Queue.Gate
import Upshift.Queue.NetPayout
import Upshift.Queue.Passage
import Upshift.Queue.Reconstruction
import Upshift.Queue.Schedule
import Upshift.Queue.WideCounters
import Upshift.Vault.BurnManoeuvre
import Upshift.Vault.Closing
import Upshift.Vault.Coalition
import Upshift.Vault.Conservation
import Upshift.Vault.Exits
import Upshift.Vault.Handover
import Upshift.Vault.Opening
import Upshift.Vault.Outflow
import Upshift.Vault.Overflow
import Upshift.Vault.Pause
import Upshift.Vault.Principal
import Upshift.Vault.Privileges
import Upshift.Vault.Provenance
import Upshift.Vault.Quotes
import Upshift.Vault.Recall
import Upshift.Vault.Reports
import Upshift.Vault.RoundTrip
import Upshift.Vault.Solvency
import Upshift.Vault.Splitting
import Upshift.Vault.WriteOff
