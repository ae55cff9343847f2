import TileFabric.Main
import TileFabric.Proofs.Packing.ClockBuffers
import TileFabric.Proofs.Packing.TableBlocks
import TileFabric.Proofs.Routing.Reachability
import TileFabric.Proofs.Packing.FlipFlopBlocks
import TileFabric.Proofs.Packing.VirtualIo
import TileFabric.Proofs.Packing.Obstacles
import TileFabric.Proofs.Netlist.Listing
import TileFabric.Proofs.Routing.LoneBox
import TileFabric.Proofs.Packing.Repacking
import TileFabric.Proofs.Packing.EitherOrder
import TileFabric.Proofs.ParamTable
import TileFabric.Proofs.Routing.BoxDeclares
import TileFabric.Proofs.Netlist.RoundTrip
import TileFabric.Proofs.Packing.MovingBack
import TileFabric.Proofs.Property
import TileFabric.Proofs.Packing.ConstantRewiring
import TileFabric.Proofs.Routing.Adjacency
import TileFabric.Proofs.Netlist.Detaching
import TileFabric.Proofs.Netlist.FreshNames
import TileFabric.Proofs.Routing.Tiles
import TileFabric.Proofs.Reports
import TileFabric.Proofs.Routing.Labels
import TileFabric.Proofs.Packing.FailedConversions
