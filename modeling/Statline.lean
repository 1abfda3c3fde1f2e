import Statline.ContextPool
import Statline.Document.Kind
import Statline.Files
import Statline.Proofs.Aggregator.Coherence
import Statline.Proofs.Resolver.SingleStat
import Statline.Proofs.Graph.Cycle
import Statline.Proofs.Formula.Failure
import Statline.Proofs.Resolver.Changes
import Statline.Proofs.Double.Addition
import Statline.Proofs.Double.Order
import Statline.Proofs.Caps.Range
import Statline.Proofs.Caps.Folding
import Statline.Proofs.Rule.History
import Statline.Proofs.Roster.Accepted
import Statline.Proofs.Snapshot.Accounting
import Statline.Proofs.Snapshot.Finiteness
import Statline.Proofs.Aggregator.Accounting
import Statline.Proofs.Caps.Containment
import Statline.Proofs.Resolver.Memo
import Statline.Proofs.Cache.Expiry
import Statline.Proofs.Aggregator.Registration
import Statline.Proofs.Snapshot.Isolation
import Statline.Proofs.Aggregator.Tolerance
import Statline.Proofs.Cache.Service
import Statline.Proofs.Document.Names
import Statline.Proofs.Graph.Subgraph
import Statline.Proofs.Graph.Recursion
import Statline.Proofs.Graph.Replay
import Statline.Proofs.Resolver.Substitution
import Statline.Proofs.Cache.Eviction
import Statline.Proofs.Bucket.Stages
import Statline.Proofs.Resolver.Admission
import Statline.Proofs.Resolver.Reading
import Statline.Proofs.Caps.Reset
import Statline.Proofs.Caps.Combination
import Statline.Proofs.Operator
import Statline.Proofs.Bucket.Override
import Statline.Proofs.Cache.Refusal
import Statline.Proofs.Aggregator.Metrics
import Statline.Proofs.Formula.Positions
import Statline.Proofs.Resolver.Clamped
import Statline.Proofs.Roster.Sequence
import Statline.Proofs.Engine.Assembly
