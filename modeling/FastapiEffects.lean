import FastapiEffects.Conformance.Models
import FastapiEffects.Conformance.Reported
import FastapiEffects.Conformance.Safety
import FastapiEffects.Core.Backoff
import FastapiEffects.Core.Delivery
import FastapiEffects.Core.Envelope
import FastapiEffects.Core.Event
import FastapiEffects.Core.Principal
import FastapiEffects.Core.Registry
import FastapiEffects.Core.Retry
import FastapiEffects.Core.Routing
import FastapiEffects.Core.Snapshots
import FastapiEffects.Coroutine
import FastapiEffects.Delegation.Audit
import FastapiEffects.Delegation.Audited
import FastapiEffects.Delegation.Chains
import FastapiEffects.Delegation.Edge
import FastapiEffects.Delegation.Encoding
import FastapiEffects.Delegation.KeyEvents
import FastapiEffects.Delegation.Keys
import FastapiEffects.Delegation.Models
import FastapiEffects.Delegation.Segments
import FastapiEffects.Delegation.Signing
import FastapiEffects.Delegation.Targets
import FastapiEffects.Delegation.Verified
import FastapiEffects.Errors
import FastapiEffects.Executors.Admission
import FastapiEffects.Executors.Bridge
import FastapiEffects.Executors.Bridging
import FastapiEffects.Executors.Envelope
import FastapiEffects.Executors.Lifecycle
import FastapiEffects.Executors.Taskiq
import FastapiEffects.Framing
import FastapiEffects.Handlers.Destinations
import FastapiEffects.Handlers.Executor
import FastapiEffects.Idempotency.Acquired
import FastapiEffects.Idempotency.Committed
import FastapiEffects.Idempotency.Fingerprint
import FastapiEffects.Idempotency.Generations
import FastapiEffects.Idempotency.Ledger
import FastapiEffects.Idempotency.Locked
import FastapiEffects.Idempotency.Preparation
import FastapiEffects.Idempotency.Responses
import FastapiEffects.Idempotency.Windows
import FastapiEffects.Interaction
import FastapiEffects.Postgres.Cells
import FastapiEffects.Postgres.InPlace
import FastapiEffects.Postgres.Isolation
import FastapiEffects.Postgres.Leasing
import FastapiEffects.Postgres.Lifecycle
import FastapiEffects.Postgres.Relay
import FastapiEffects.Python.Base64
import FastapiEffects.Python.Calendar
import FastapiEffects.Python.Dict
import FastapiEffects.Python.Digits
import FastapiEffects.Python.Dumps
import FastapiEffects.Python.Encodable
import FastapiEffects.Python.Equal
import FastapiEffects.Python.Float
import FastapiEffects.Python.Indented
import FastapiEffects.Python.Isoformat
import FastapiEffects.Python.Json
import FastapiEffects.Python.Loads
import FastapiEffects.Python.Measure
import FastapiEffects.Python.Members
import FastapiEffects.Python.Quote
import FastapiEffects.Python.RoundTrip
import FastapiEffects.Python.Scanned
import FastapiEffects.Python.Sha1
import FastapiEffects.Python.Sorted
import FastapiEffects.Python.Str
import FastapiEffects.Python.Stream
import FastapiEffects.Python.Time
import FastapiEffects.Python.Url
import FastapiEffects.Python.Urlsplit
import FastapiEffects.Python.Uuid
import FastapiEffects.Python.UuidText
import FastapiEffects.Python.Zoned
import FastapiEffects.ReadCommitted.Appended
import FastapiEffects.ReadCommitted.Caller
import FastapiEffects.ReadCommitted.Limit
import FastapiEffects.ReadCommitted.Outcome
import FastapiEffects.ReadCommitted.Prog
import FastapiEffects.ReadCommitted.Ranked
import FastapiEffects.ReadCommitted.Returns
import FastapiEffects.ReadCommitted.Rules
import FastapiEffects.ReadCommitted.Runner
import FastapiEffects.ReadCommitted.Serial
import FastapiEffects.ReadCommitted.Serializable
import FastapiEffects.ReadCommitted.Table
import FastapiEffects.ReadCommitted.Unique
import FastapiEffects.ReadCommitted.Walk
import FastapiEffects.ReadCommitted.World
import FastapiEffects.ReadCommitted.Written
import FastapiEffects.Runtime
import FastapiEffects.Runtime.Agreement
import FastapiEffects.Runtime.Claim
import FastapiEffects.Runtime.Creation
import FastapiEffects.Runtime.Deadlines
import FastapiEffects.Runtime.Discipline
import FastapiEffects.Runtime.Executions
import FastapiEffects.Runtime.Fairness
import FastapiEffects.Runtime.Fencing
import FastapiEffects.Runtime.Finalize
import FastapiEffects.Runtime.Handoffs
import FastapiEffects.Runtime.Leases
import FastapiEffects.Runtime.Pending
import FastapiEffects.Runtime.Ready
import FastapiEffects.Runtime.Reconcile
import FastapiEffects.Runtime.Replays
import FastapiEffects.Runtime.Reports
import FastapiEffects.Runtime.Retries
import FastapiEffects.Runtime.Sound
import FastapiEffects.Runtime.Statements
import FastapiEffects.Runtime.Stopped
import FastapiEffects.Runtime.Stored
import FastapiEffects.Runtime.Writes
import FastapiEffects.Sqlalchemy.Canonical
import FastapiEffects.Sqlalchemy.Deduplicated
import FastapiEffects.Sqlalchemy.Limits
import FastapiEffects.Sqlalchemy.Models
import FastapiEffects.Sqlalchemy.Normalize
import FastapiEffects.Sqlalchemy.Repository
import FastapiEffects.Sqlalchemy.Scoped
import FastapiEffects.Sqlalchemy.Strict
import FastapiEffects.Sqlalchemy.UnitOfWork
import FastapiEffects.TaskGroup
import FastapiEffects.Testing.Boundary
import FastapiEffects.Testing.Reference
import FastapiEffects.Webhooks.AddressPolicy
import FastapiEffects.Webhooks.Chunked
import FastapiEffects.Webhooks.Classification
import FastapiEffects.Webhooks.Endpoints
import FastapiEffects.Webhooks.Envelopes
import FastapiEffects.Webhooks.Heads
import FastapiEffects.Webhooks.Health
import FastapiEffects.Webhooks.History
import FastapiEffects.Webhooks.Http11
import FastapiEffects.Webhooks.Lifecycle
import FastapiEffects.Webhooks.Normalized
import FastapiEffects.Webhooks.Prune
import FastapiEffects.Webhooks.Redirects
import FastapiEffects.Webhooks.Requests
import FastapiEffects.Webhooks.Responses
import FastapiEffects.Webhooks.Retained
import FastapiEffects.Webhooks.Retention
import FastapiEffects.Webhooks.Rotating
import FastapiEffects.Webhooks.Secrets
import FastapiEffects.Webhooks.Signing
import FastapiEffects.Webhooks.Sink
import FastapiEffects.Webhooks.Subscriptions
import FastapiEffects.Webhooks.Transport
import FastapiEffects.Webhooks.Versions
