import SqsInput.Handle
import SqsInput.Batch
import SqsInput.Tracker
import SqsInput.Reader
import SqsInput.Invariant
import SqsInput.Acks
import SqsInput.Fetch
import SqsInput.Refresh
import SqsInput.Tracking
import SqsInput.EntryIds
import SqsInput.Shutdown
import SqsInput.Read
import SqsInput.Safety
import SqsInput.Lease
