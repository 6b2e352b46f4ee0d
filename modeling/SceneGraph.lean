import SceneGraph.Lock
import SceneGraph.Session.Control
import SceneGraph.Session.Settings
import SceneGraph.Proofs.Acyclicity
import SceneGraph.Proofs.InstanceBatches
import SceneGraph.Proofs.Refusals
import SceneGraph.Proofs.RoundTrips
import SceneGraph.Proofs.Exchanges
import SceneGraph.Proofs.Histories
import SceneGraph.Proofs.Allocations
import SceneGraph.Proofs.Formats
import SceneGraph.Proofs.Blindness
import SceneGraph.Proofs.Frames
import SceneGraph.Proofs.FramePlacement
import SceneGraph.Proofs.ArenaCalls
import SceneGraph.Proofs.Marking
import SceneGraph.Proofs.ReadbackOrder
import SceneGraph.Proofs.Handles
import SceneGraph.Proofs.ShallowDestruction
import SceneGraph.Proofs.ExactRebuilds
import SceneGraph.Proofs.FramePacing
import SceneGraph.Proofs.Assignments
import SceneGraph.Proofs.IndependentWrites
import SceneGraph.Proofs.Cursors
import SceneGraph.Proofs.CompoundEdits
import SceneGraph.Proofs.Renderers
import SceneGraph.Proofs.VertexData
import SceneGraph.Proofs.Clamping
import SceneGraph.Proofs.Names
