import Recapn.Packing.Shortfall
import Recapn.Io.TableReuse
import Recapn.Io.SliceParsers
import Recapn.Io.Limits
import Recapn.Ptr.Disjoint
import Recapn.Ptr.GrowingArena
import Recapn.Ptr.Upgrade
import Recapn.Ptr.Nesting
import Recapn.Ptr.Allocators
import Recapn.Ptr.DataEquality
import Recapn.Ptr.Copies
import Recapn.Channel.Cycles
import Recapn.Channel.Locks
import Recapn.Channel.Lost
import Recapn.Channel.Finished
import Recapn.Channel.HandOver
import Recapn.Channel.Parents
import Recapn.Channel.Draining
import Recapn.Channel.Intrusive
import Recapn.Rpc.ExportTable
import Recapn.Rpc.Responder
import Recapn.Rpc.ReceivedCap
import Recapn.Codegen.UncheckedNode
import Recapn.Codegen.Reset
import Recapn.Codegen.ScopeWalks
import Recapn.Codegen.Collisions
import Recapn.Codegen.FieldDefaults
