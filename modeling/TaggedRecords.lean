import TaggedRecords.Handle
import TaggedRecords.Failure
import TaggedRecords.Filter
import TaggedRecords.Pattern
import TaggedRecords.Record
import TaggedRecords.Config
import TaggedRecords.Query
import TaggedRecords.Store.Program
import TaggedRecords.Store.Memory
import TaggedRecords.Store.Scripted
import TaggedRecords.Client.Records
import TaggedRecords.Client.Session
import TaggedRecords.Proofs.Filters
import TaggedRecords.Proofs.NormalForms
import TaggedRecords.Proofs.Grammar
import TaggedRecords.Proofs.Codes
import TaggedRecords.Proofs.Spellings
import TaggedRecords.Proofs.Memory.Searches
import TaggedRecords.Proofs.Memory.Registers
import TaggedRecords.Proofs.Memory.Refusals
import TaggedRecords.Proofs.Memory.Needs
import TaggedRecords.Proofs.Memory.Handles
import TaggedRecords.Proofs.Memory.Tagging
import TaggedRecords.Proofs.Memory.Consistency
import TaggedRecords.Proofs.Memory.Isolation
import TaggedRecords.Proofs.Clients.Collecting
import TaggedRecords.Proofs.Clients.Traffic
import TaggedRecords.Proofs.Clients.Endings
import TaggedRecords.Proofs.Clients.Requests
