import CollectiveFabric.Common.BigEndian
import CollectiveFabric.Common.Reading
import CollectiveFabric.Foundation.Model.Values
import CollectiveFabric.Digest.Model.Canonical
import CollectiveFabric.Digest.Model.Crc32
import CollectiveFabric.Digest.Model.Sha256
import CollectiveFabric.Digest.Canonical
import CollectiveFabric.Digest.Sequences
import CollectiveFabric.Digest.Crc32
import CollectiveFabric.Authority.Model.Evaluation
import CollectiveFabric.Authority.Fencing
import CollectiveFabric.Common.Framing
import CollectiveFabric.Protocol.Model.Frame
import CollectiveFabric.Protocol.Codec
import CollectiveFabric.Protocol.Bursts
import CollectiveFabric.Protocol.Stream
import CollectiveFabric.Protocol.Progress
import CollectiveFabric.Store.Model.State
import CollectiveFabric.Store.Model.File
import CollectiveFabric.Store.Model.Saving
import CollectiveFabric.Store.RoundTrip
import CollectiveFabric.Store.Frame
import CollectiveFabric.Store.Overlap
import CollectiveFabric.Store.Canonical
import CollectiveFabric.Store.Corruption
import CollectiveFabric.Store.Duplicates
import CollectiveFabric.Common.OrdMap
import CollectiveFabric.Common.Trail
import CollectiveFabric.Common.Run
import CollectiveFabric.Common.Loops
import CollectiveFabric.Common.While
import CollectiveFabric.Common.Files
import CollectiveFabric.Common.Latest
import CollectiveFabric.Common.Cyclic
import CollectiveFabric.Common.Best
import CollectiveFabric.Common.Keyed
import CollectiveFabric.Common.Delimited
import CollectiveFabric.Common.Blocks
import CollectiveFabric.Common.Fips180
import CollectiveFabric.Common.Saturation
import CollectiveFabric.Lifecycle.Model.StateMachine
import CollectiveFabric.Lifecycle.History
import CollectiveFabric.Group.Model.Group
import CollectiveFabric.Group.Building
import CollectiveFabric.Group.Construction
import CollectiveFabric.Group.Ranks
import CollectiveFabric.Collective.Model.Descriptor
import CollectiveFabric.Topology.Model.Topology
import CollectiveFabric.Topology.Building
import CollectiveFabric.Topology.Endpoints
import CollectiveFabric.Topology.Capability
import CollectiveFabric.Topology.Bookkeeping
import CollectiveFabric.Digest.Coverage
import CollectiveFabric.Digest.Sha256
import CollectiveFabric.Digest.Model.Hex
import CollectiveFabric.Digest.Hex
import CollectiveFabric.Backend.Model.Capabilities
import CollectiveFabric.Planner.Model.Planner
import CollectiveFabric.Planner.Selection
import CollectiveFabric.Planner.Costs
import CollectiveFabric.Planner.Logarithm
import CollectiveFabric.Planner.Minimum
import CollectiveFabric.Planner.Estimates
import CollectiveFabric.Planner.Constraints
import CollectiveFabric.Engine.Model.ReferenceEngine
import CollectiveFabric.Engine.Semantics
import CollectiveFabric.Engine.Reference
import CollectiveFabric.Engine.Composition
import CollectiveFabric.Engine.Outcomes
import CollectiveFabric.Engine.Overflow
import CollectiveFabric.Engine.Validation
import CollectiveFabric.Engine.Rejection
import CollectiveFabric.Engine.Orderless
import CollectiveFabric.Runtime.Model.Records
import CollectiveFabric.Runtime.Model.Runtime
import CollectiveFabric.Runtime.Model.System
import CollectiveFabric.Runtime.Quorum
import CollectiveFabric.Runtime.Steps
import CollectiveFabric.Runtime.Moves
import CollectiveFabric.Runtime.Invariant
import CollectiveFabric.Runtime.Outcome
import CollectiveFabric.Runtime.Fence
import CollectiveFabric.Runtime.Answer
import CollectiveFabric.Runtime.Ends
import CollectiveFabric.Runtime.Active
import CollectiveFabric.Runtime.Reserved
import CollectiveFabric.Runtime.Superseded
import CollectiveFabric.Runtime.Sizes
import CollectiveFabric.Runtime.Executable
import CollectiveFabric.Runtime.Atomic
import CollectiveFabric.Runtime.Tables
import CollectiveFabric.Runtime.Health
import CollectiveFabric.Runtime.Measurements
import CollectiveFabric.Runtime.Completions
import CollectiveFabric.Runtime.Misplaced
import CollectiveFabric.Runtime.Planned
import CollectiveFabric.Runtime.Accounting
import CollectiveFabric.Runtime.Model.Serial
import CollectiveFabric.Runtime.Locality
import CollectiveFabric.Runtime.Serial
import CollectiveFabric.Multiprocess.Model.Recovery
import CollectiveFabric.Multiprocess.Recovery
import CollectiveFabric.Multiprocess.Model.Messages
import CollectiveFabric.Multiprocess.Model.Channel
import CollectiveFabric.Multiprocess.Model.Coordinator
import CollectiveFabric.Multiprocess.Model.Recover
import CollectiveFabric.Multiprocess.Cleared
import CollectiveFabric.Multiprocess.Incarnations
import CollectiveFabric.Multiprocess.Coordination
import CollectiveFabric.Multiprocess.Forming
import CollectiveFabric.Multiprocess.Invariant
import CollectiveFabric.Multiprocess.Payloads
import CollectiveFabric.Multiprocess.Contributions
import CollectiveFabric.Multiprocess.Contained
import CollectiveFabric.Multiprocess.Reconfiguration
import CollectiveFabric.Multiprocess.Trailing
import CollectiveFabric.Multiprocess.Exports
import CollectiveFabric.Common.Pipe
import CollectiveFabric.Multiprocess.Model.Worker
import CollectiveFabric.Multiprocess.Model.Deployment
import CollectiveFabric.Multiprocess.Wiring
import CollectiveFabric.Multiprocess.Hearing
import CollectiveFabric.Multiprocess.Links
import CollectiveFabric.Multiprocess.Replies
import CollectiveFabric.Multiprocess.Seats
import CollectiveFabric.Multiprocess.Standing
import CollectiveFabric.Multiprocess.Scene
import CollectiveFabric.Multiprocess.Scenario
import CollectiveFabric.Multiprocess.Acting
import CollectiveFabric.Multiprocess.Turning
import CollectiveFabric.Multiprocess.Agreement
import CollectiveFabric.Multiprocess.Fidelity
import CollectiveFabric.Multiprocess.Discipline
import CollectiveFabric.Multiprocess.Blocking
import CollectiveFabric.Multiprocess.Quiescence
import CollectiveFabric.Multiprocess.Settling
import CollectiveFabric.Multiprocess.Model.Host
import CollectiveFabric.Multiprocess.Rejoining
