import PaymentsProcessor.Concurrency.Prog
import PaymentsProcessor.Concurrency.Machine
import PaymentsProcessor.Concurrency.Logic
import PaymentsProcessor.Storage.LockStore
import PaymentsProcessor.Python.Basic
import PaymentsProcessor.Python.Uuid
import PaymentsProcessor.Python.Text
import PaymentsProcessor.Python.Decimal
import PaymentsProcessor.Python.Digits
import PaymentsProcessor.Python.Json
import PaymentsProcessor.Storage.Numeric
import PaymentsProcessor.Storage.Column
import PaymentsProcessor.Constants
import PaymentsProcessor.Errors
import PaymentsProcessor.Models
import PaymentsProcessor.Python.IpAddress
import PaymentsProcessor.Python.UrlParse
import PaymentsProcessor.Effects
import PaymentsProcessor.Utils
import PaymentsProcessor.Repositories
import PaymentsProcessor.Services
import PaymentsProcessor.Concurrency.Trace
import PaymentsProcessor.Storage.Table
import PaymentsProcessor.Amqp.Topology
import PaymentsProcessor.Messaging
import PaymentsProcessor.Api
import PaymentsProcessor.Consumer
import PaymentsProcessor.OutboxDispatcher
import PaymentsProcessor.Database
import PaymentsProcessor.Database.Lemmas
import PaymentsProcessor.Database.Records
import PaymentsProcessor.System
import PaymentsProcessor.System.Steps
import PaymentsProcessor.System.Frame
import PaymentsProcessor.System.Records
import PaymentsProcessor.System.Requests
import PaymentsProcessor.System.Alphabets
import PaymentsProcessor.System.Integrity
import PaymentsProcessor.Guarantees.Payments
import PaymentsProcessor.Messaging.Topology
import PaymentsProcessor.Consumer.Handling
import PaymentsProcessor.Guarantees.Delivery
import PaymentsProcessor.Guarantees.Retries
import PaymentsProcessor.Guarantees.Destinations
import PaymentsProcessor.Guarantees.Guard
import PaymentsProcessor.OutboxDispatcher.Dispatching
import PaymentsProcessor.Guarantees.Backoff
import PaymentsProcessor.Validation.Checked
import PaymentsProcessor.Schemas
import PaymentsProcessor.Schemas.Validation
import PaymentsProcessor.Routers
import PaymentsProcessor.Guarantees.Validation
import PaymentsProcessor.Guarantees.Columns
import PaymentsProcessor.System.Scope
import PaymentsProcessor.System.Outcomes
import PaymentsProcessor.Guarantees.Outcomes
import PaymentsProcessor.System.Finality
import PaymentsProcessor.System.Vetting
import PaymentsProcessor.Guarantees.Rebinding
import PaymentsProcessor.System.Transactions
import PaymentsProcessor.Database.Changes
import PaymentsProcessor.OutboxDispatcher.Batches
import PaymentsProcessor.Guarantees.Batches
import PaymentsProcessor.System.Handover
import PaymentsProcessor.System.Dispatchers
import PaymentsProcessor.Guarantees.Handover
import PaymentsProcessor.System.Custody
import PaymentsProcessor.System.Consumers
import PaymentsProcessor.Guarantees.Custody
import PaymentsProcessor.Guarantees.Signatures
import PaymentsProcessor.System.Processes
import PaymentsProcessor.System.Batching
import PaymentsProcessor.OutboxDispatcher.Ahead
import PaymentsProcessor.System.Waiting
import PaymentsProcessor.System.SingleDispatcher
import PaymentsProcessor.System.Advancing
import PaymentsProcessor.Guarantees.Starvation
import PaymentsProcessor.System.RetryChain
import PaymentsProcessor.Guarantees.RetryChain
import PaymentsProcessor.Concurrency.Discipline
import PaymentsProcessor.System.Locks
import PaymentsProcessor.Guarantees.Deadlock
import PaymentsProcessor.System.Provenance
import PaymentsProcessor.Guarantees.Provenance
import PaymentsProcessor.Database.Scans
import PaymentsProcessor.Concurrency.Possible
import PaymentsProcessor.System.Addresses
import PaymentsProcessor.System.Recovery
import PaymentsProcessor.System.Restarts
import PaymentsProcessor.Guarantees.Recovery
import PaymentsProcessor.Guarantees.Reading
import PaymentsProcessor.System.Telling
import PaymentsProcessor.System.Attempts
import PaymentsProcessor.Guarantees.Attempts
import PaymentsProcessor.Amqp.Definitions
import PaymentsProcessor.Messaging.Bootstrap
import PaymentsProcessor.Messaging.Declaring
import PaymentsProcessor.Guarantees.Bootstrap
import PaymentsProcessor.Guarantees.Admission
