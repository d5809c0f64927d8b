import PushQueue.FileTree
import PushQueue.Main
import PushQueue.Proofs.Mailbox.Acknowledged
import PushQueue.Proofs.Mailbox.Batches
import PushQueue.Proofs.Mailbox.Overwrites
import PushQueue.Proofs.Mailbox.Paging
import PushQueue.Proofs.Mailbox.Progress
import PushQueue.Proofs.Mailbox.Drained
import PushQueue.Proofs.Mailbox.Oldest
import PushQueue.Proofs.Channels
import PushQueue.Proofs.Calendar
import PushQueue.Proofs.Migration
import PushQueue.Proofs.Walk
import PushQueue.Proofs.FirstUse
import PushQueue.Proofs.Router
import PushQueue.Proofs.Ownership
import PushQueue.Proofs.Mailbox.Ledger
import PushQueue.Proofs.Mailbox.Lifetimes
import PushQueue.Proofs.Isolation
import PushQueue.Proofs.Readable
import PushQueue.Proofs.Retries
import PushQueue.Proofs.Coverage
import PushQueue.Proofs.Arrivals
import PushQueue.Proofs.Merges
import PushQueue.Proofs.Inspection
import PushQueue.Proofs.TableName
import PushQueue.Proofs.Deadlines
import PushQueue.Proofs.Counters
import PushQueue.Proofs.Spelling
import PushQueue.Proofs.Records
import PushQueue.Proofs.Partitions
import PushQueue.Proofs.Table.Reads
