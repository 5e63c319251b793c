import RecordStore.Scenario.Backend
import RecordStore.Scenario.Saving
import RecordStore.Proofs.Save.Enclosure
import RecordStore.Proofs.Save.Calls
import RecordStore.Proofs.Save.Restoration
import RecordStore.Proofs.Save.Refusals
import RecordStore.Proofs.Save.Units
import RecordStore.Proofs.Save.LazyUnits
import RecordStore.Proofs.Save.Restarts
import RecordStore.Proofs.Transaction.PartialCommit
import RecordStore.Proofs.Transaction.Tenure
import RecordStore.Proofs.TableLock
import RecordStore.Proofs.LoadedRecords
import RecordStore.Proofs.Search.Acceptance
import RecordStore.Proofs.Search.Meaning
import RecordStore.Proofs.Search.Joining
import RecordStore.Proofs.Search.Counting
import RecordStore.Proofs.Search.Independence
import RecordStore.Proofs.Search.Wording
import RecordStore.Proofs.Search.Folding
import RecordStore.Proofs.Decimal.Shortest
import RecordStore.Proofs.Backend.Waiting
import RecordStore.Proofs.Backend.NestedLocks
import RecordStore.Proofs.KeyOrder
import RecordStore.Proofs.Save.Settled
import RecordStore.Proofs.Search.Buckets
import RecordStore.Proofs.Backend.Checkouts
import RecordStore.Proofs.Edits
import RecordStore.Proofs.Schema
import RecordStore.Proofs.Search.Spellings
import RecordStore.Proofs.Search.ColumnCalls
