import LayeredCache.Corruption
import LayeredCache.Directory
import LayeredCache.Fleet.Basic
import LayeredCache.Fleet.Perform
import LayeredCache.Host
import LayeredCache.Json.Reader
import LayeredCache.Json.Token
import LayeredCache.KeyedQueue.Arena
import LayeredCache.KeyedQueue.Basic
import LayeredCache.KeyedQueue.Chain
import LayeredCache.KeyedQueue.Draining
import LayeredCache.KeyedQueue.Represents
import LayeredCache.Lock
import LayeredCache.Metrics.Exposition
import LayeredCache.Metrics.Metric
import LayeredCache.Metrics.Snapshot
import LayeredCache.Metrics.Tally
import LayeredCache.Settings.Basic
import LayeredCache.Settings.Decoding
import LayeredCache.Settings.Field
import LayeredCache.Text
import LayeredCache.Tier.Pinned
import LayeredCache.Tier.Primary
import LayeredCache.Tier.Soft
import LayeredCache.Tiers.Basic
import LayeredCache.Tiers.Operations
import LayeredCache.Time
import LayeredCache.Workbench
import LayeredCache.Proofs.Bindings
import LayeredCache.Proofs.KeyedQueue.Audit
import LayeredCache.Proofs.Line
import LayeredCache.Proofs.Tier.Lines
import LayeredCache.Proofs.Tiers.Cases
import LayeredCache.Proofs.Tiers.Operation
import LayeredCache.Proofs.Tiers.Settling
import LayeredCache.Proofs.Tiers.Simulation
import LayeredCache.Proofs.Tiers.Valid
import LayeredCache.Proofs.Fleet.Access
import LayeredCache.Proofs.Fleet.Soundness
import LayeredCache.Proofs.Tiers.Contents
import LayeredCache.Proofs.Fleet.Quiet
import LayeredCache.Proofs.Tiers.Record
import LayeredCache.Proofs.Fleet.Record
import LayeredCache.Proofs.Tiers.Accounts
import LayeredCache.Proofs.Tiers.Conservation
import LayeredCache.Proofs.Tiers.Departures
import LayeredCache.Proofs.Tiers.OneLine
import LayeredCache.Proofs.Tier.Ageing
import LayeredCache.Proofs.Tiers.Matching
import LayeredCache.Proofs.Bench
import LayeredCache.Proofs.Fleet.Twin
import LayeredCache.Proofs.Fleet.Purging
import LayeredCache.Proofs.Fleet.Acquisition
import LayeredCache.Proofs.Fleet.Outcome
import LayeredCache.Proofs.Fleet.Timeouts
import LayeredCache.Proofs.Fleet.Closure
import LayeredCache.Proofs.Tiers.SoftLine
import LayeredCache.Proofs.Tiers.Lifetime
import LayeredCache.Proofs.Fleet.Passing
import LayeredCache.Proofs.Fleet.Ageing
import LayeredCache.Proofs.Fleet.Conservation
import LayeredCache.Proofs.Tiers.Visibility
import LayeredCache.Proofs.Fleet.Visibility
import LayeredCache.Proofs.Tiers.Dialogue
import LayeredCache.Proofs.Tiers.Serving
import LayeredCache.Proofs.Tiers.Happenings
import LayeredCache.Proofs.Tiers.Course
import LayeredCache.Proofs.Fleet.Execution
import LayeredCache.Proofs.Fleet.Coherence
import LayeredCache.Proofs.Fleet.Nesting
import LayeredCache.Proofs.Fleet.Deeds
import LayeredCache.Proofs.Fleet.Listening
import LayeredCache.Proofs.Fleet.Pins
import LayeredCache.Proofs.Fleet.Stamps
import LayeredCache.Proofs.Fleet.Determinacy
import LayeredCache.Proofs.Tiers.Pins
import LayeredCache.Proofs.Tiers.Victims
import LayeredCache.Proofs.Tiers.Stamps
import LayeredCache.Proofs.Fleet.Discretion
import LayeredCache.Proofs.Tiers.Readings
import LayeredCache.Proofs.Fleet.Readings
import LayeredCache.Proofs.Tiers.Inclusion
import LayeredCache.Proofs.Fleet.Inclusion
import LayeredCache.Proofs.Metrics.Totals
import LayeredCache.Proofs.Metrics.Outcomes
import LayeredCache.Proofs.Metrics.Postings
import LayeredCache.Proofs.Tiers.Recordings
import LayeredCache.Proofs.Tiers.Outcomes
import LayeredCache.Proofs.Tiers.Balance
import LayeredCache.Proofs.Fleet.Counting
import LayeredCache.Proofs.Fleet.Reckoning
import LayeredCache.Proofs.Fleet.Counters
import LayeredCache.Proofs.Fleet.Flow
import LayeredCache.Proofs.KeyedQueue.Operation
import LayeredCache.Proofs.KeyedQueue.Access
import LayeredCache.Proofs.KeyedQueue.Refinement
import LayeredCache.Proofs.Tiers.Cascade
import LayeredCache.Proofs.Tiers.Touching
import LayeredCache.Proofs.Tiers.Copies
import LayeredCache.Proofs.Tiers.Merging
import LayeredCache.Proofs.Tiers.Reordering
import LayeredCache.Proofs.Tiers.Replaying
import LayeredCache.Proofs.Tiers.Lookups
import LayeredCache.Proofs.Fleet.Interludes
import LayeredCache.Proofs.Fleet.Replaying
import LayeredCache.Proofs.KeyedQueue.Validation
import LayeredCache.Proofs.KeyedQueue.Allotment
import LayeredCache.Proofs.Tiers.Resizing
import LayeredCache.Proofs.Tiers.Unpinning
import LayeredCache.Proofs.Tiers.Admissions
import LayeredCache.Proofs.Tiers.Lasting
import LayeredCache.Proofs.Fleet.Timeline
import LayeredCache.Proofs.Fleet.Concealment
import LayeredCache.Proofs.Fleet.Expiry
import LayeredCache.Proofs.Metrics.Readback
import LayeredCache.Proofs.Settings.Rounding
import LayeredCache.Proofs.Settings.Building
import LayeredCache.Proofs.Json.Grammar
import LayeredCache.Proofs.Json.Strings
import LayeredCache.Proofs.Json.Scanning
import LayeredCache.Proofs.Json.Reading
import LayeredCache.Proofs.Settings.Documents
