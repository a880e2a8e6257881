import Flyover.RFlov.Safety
import Flyover.RFlov.Obligations
import Flyover.RFlov.Soundness
import Flyover.RFlov.Wakeup
import Flyover.Flov.Views
import Flyover.Flov.Regression
import Flyover.Flov.Comparison
import Flyover.Routing.Offers
import Flyover.Routing.DimensionOrder
import Flyover.Parking.Delivery
import Flyover.Parking.Aggressive
import Flyover.Parking.Conservative
import Flyover.Parking.OffCores
import Flyover.NoRD.RingEscape
import Flyover.NoRD.DatelineMesh
import Flyover.NoRD.WakeupMonitors
import Flyover.NoRD.BypassPackets
import Flyover.Buffer.Capacity
import Flyover.Buffer.SlotLimits
import Flyover.Buffer.Probing
import Flyover.Flov.CreditRelay
import Flyover.Drain.Bound
import Flyover.Switch.DrainDone
import Flyover.Allocator.Types
import Flyover.Allocator.ArbiterChoice
import Flyover.Pipeline.NextPacket
import Flyover.Pipeline.Reroute
import Flyover.Pipeline.Escape
import Flyover.Pipeline.Piggyback
import Flyover.Injection.AfterBypass
import Flyover.Adaptive.Votes
import Flyover.Allocator.MaxCardinality
import Flyover.Allocator.PriorityGreedy
import Flyover.Allocator.PriorityArbiter
import Flyover.Allocator.Maximal
import Flyover.Config.Tokenize
import Flyover.Traffic.Outstanding
import Flyover.Routing.TorusDateline
import Flyover.Routing.Butterfly
import Flyover.Routing.FatTree
import Flyover.Routing.FlatFlyValiant
import Flyover.Routing.DragonflyUgal
import Flyover.AnyNet.Delivery
import Flyover.AnyNet.File
