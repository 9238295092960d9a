import Troupe.Event.Journal
import Troupe.Message.Decode
import Troupe.Operations
import Troupe.Proofs.Address.Subtree
import Troupe.Proofs.Flow.Contract
import Troupe.Proofs.Platform.Table
import Troupe.Table.Lemmas
import Troupe.Proofs.Event.Tidings
import Troupe.Proofs.Platform.Queues
import Troupe.Proofs.Platform.Tasks
import Troupe.Proofs.Platform.Awake
import Troupe.Proofs.Platform.Invariant
import Troupe.Proofs.Platform.Settlement
import Troupe.Proofs.Stage.Removal
import Troupe.Proofs.Stage.Allocation
import Troupe.Proofs.Machine.Heap
import Troupe.Proofs.Machine.Ownership
import Troupe.Proofs.Machine.Turns
import Troupe.Proofs.Flow.Discipline
import Troupe.Proofs.Flow.Requests
import Troupe.Proofs.Flow.Scripts
import Troupe.Proofs.Flow.Activities
import Troupe.Proofs.Flow.Stepwise
import Troupe.Proofs.Flow.Calls
import Troupe.Proofs.Flow.Changes
import Troupe.Proofs.Operations
import Troupe.Proofs.Moments
import Troupe.Proofs.Guarantee.Population
import Troupe.Proofs.Guarantee.Scheduling
import Troupe.Proofs.Guarantee.Handles
import Troupe.Proofs.Guarantee.Scripts
import Troupe.Proofs.Guarantee.Tasks
import Troupe.Proofs.Watch.Moves
import Troupe.Proofs.Watch.Track
import Troupe.Proofs.Watch.Requests
import Troupe.Proofs.Watch.Activities
import Troupe.Proofs.Watch.Past
import Troupe.Proofs.Watch.Diary
import Troupe.Proofs.Watch.Lives
import Troupe.Proofs.Watch.Homes
import Troupe.Proofs.Watch.Ledger
import Troupe.Proofs.Watch.Occasions
import Troupe.Proofs.Watch.Takings
import Troupe.Proofs.Watch.Comings
import Troupe.Proofs.Watch.Recorded
import Troupe.Proofs.Guarantee.Quiescence
import Troupe.Proofs.Guarantee.Lives
import Troupe.Proofs.Guarantee.Mailboxes
import Troupe.Proofs.Guarantee.Hands
import Troupe.Proofs.Platform.Waits
import Troupe.Proofs.Guarantee.Blocking
import Troupe.Proofs.Guarantee.Verdicts
import Troupe.Proofs.Guarantee.Sending
import Troupe.Proofs.Platform.Slots
import Troupe.Proofs.Flow.Strides
import Troupe.Proofs.Watch.Roster
import Troupe.Proofs.Guarantee.Slots
import Troupe.Proofs.Guarantee.Traps
import Troupe.Proofs.Event.Hearing
import Troupe.Proofs.Guarantee.Fanout
import Troupe.Proofs.Guarantee.Feedback
import Troupe.Proofs.Platform.Plain
import Troupe.Proofs.Stage.Plain
import Troupe.Proofs.Flow.Play
import Troupe.Proofs.Flow.Blind
import Troupe.Proofs.Sessions
import Troupe.Proofs.Guarantee.Observers
import Troupe.Proofs.Address.Parsing
import Troupe.Proofs.Flow.Lines
import Troupe.Proofs.Guarantee.Broadcasts
import Troupe.Proofs.Flow.Serving
import Troupe.Proofs.Guarantee.Telling
import Troupe.Proofs.Guarantee.Raisers
import Troupe.Proofs.Stage.Plans
import Troupe.Proofs.Stage.Names
import Troupe.Proofs.Stage.Leavings
import Troupe.Proofs.Flow.Doings
import Troupe.Proofs.Guarantee.Restarts
import Troupe.Proofs.Stage.Subtrees
import Troupe.Proofs.Platform.Outcomes
import Troupe.Proofs.Stage.Attempts
import Troupe.Proofs.Stage.Faults
import Troupe.Proofs.Guarantee.Removals
import Troupe.Proofs.Guarantee.Rollbacks
import Troupe.Proofs.Guarantee.Allocation
import Troupe.Proofs.Guarantee.Spawning
import Troupe.Proofs.Address.Encoding
import Troupe.Proofs.Guarantee.Addresses
import Troupe.Proofs.Guarantee.Routing
import Troupe.Proofs.Flow.Silent
import Troupe.Proofs.Flow.Traces
import Troupe.Proofs.Guarantee.Reading
import Troupe.Proofs.Guarantee.Receivers
import Troupe.Proofs.Machine.Forward
import Troupe.Proofs.Guarantee.Termination
import Troupe.Proofs.Platform.Turns
import Troupe.Proofs.Guarantee.Fairness
import Troupe.Proofs.Guarantee.Starts
import Troupe.Proofs.Guarantee.Trees
import Troupe.Proofs.Address.Bytes
import Troupe.Proofs.Guarantee.Descendants
import Troupe.Proofs.Guarantee.Cells
