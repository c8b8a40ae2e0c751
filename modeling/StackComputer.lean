import StackComputer.Main
import StackComputer.Proofs.Screen.Operation
import StackComputer.Proofs.Screen.Rendering
import StackComputer.Proofs.Screen.WriteBack
import StackComputer.Proofs.Screen.Tiles
import StackComputer.Proofs.Screen.Marked
import StackComputer.Proofs.Host.Calls
import StackComputer.Proofs.Safety.Checked
import StackComputer.Proofs.Safety.Processor
import StackComputer.Proofs.Safety.Computer
import StackComputer.Proofs.Safety.NoPanic
import StackComputer.Proofs.Machine.Blind
import StackComputer.Proofs.Machine.Lockstep
import StackComputer.Proofs.Machine.Halting
import StackComputer.Proofs.Semantics.BaseModes
import StackComputer.Proofs.Semantics.KeepMode
import StackComputer.Proofs.Semantics.FaultConditions
import StackComputer.Proofs.Semantics.ReturnMode
import StackComputer.Proofs.Host.Lockstep
import StackComputer.Proofs.Host.Masks
import StackComputer.Proofs.Host.History
import StackComputer.Proofs.Host.Halted
import StackComputer.Proofs.Host.Paths
import StackComputer.Proofs.Host.Exit
import StackComputer.Proofs.Host.Streams
import StackComputer.Proofs.Host.Schedules
import StackComputer.Proofs.Batch.Steps
import StackComputer.Proofs.Batch.Run
import StackComputer.Proofs.Machine.Hidden
import StackComputer.Proofs.Host.Hidden
import StackComputer.Proofs.Machine.Tracing
import StackComputer.Proofs.Host.Confinement
import StackComputer.Proofs.Host.Palette
import StackComputer.Proofs.Memory.Copies
import StackComputer.Proofs.Memory.Fills
import StackComputer.Proofs.Host.Sizes
import StackComputer.Proofs.Host.Reset
import StackComputer.Proofs.Screen.Overlaid
import StackComputer.Proofs.Host.Frames
import StackComputer.Proofs.Host.TileGrid
import StackComputer.Proofs.Screen.Filling
import StackComputer.Proofs.Screen.Layers
import StackComputer.Proofs.Semantics.LoadStore
import StackComputer.Proofs.Host.Arguments
import StackComputer.Proofs.Machine.Listing
import StackComputer.Proofs.Machine.StackReport
import StackComputer.Proofs.Screen.Absorption
import StackComputer.Proofs.Screen.Pending
