import VirtualPC.Files.Tree
import VirtualPC.Machine.Operation
import VirtualPC.Main
import VirtualPC.Proofs.Core.Fetch
import VirtualPC.Proofs.Core.Run
import VirtualPC.Proofs.Program.Reference
import VirtualPC.Proofs.Program.Refinement
import VirtualPC.Proofs.Machine.Execution
import VirtualPC.Proofs.Machine.Slicing
import VirtualPC.Proofs.Video.Sampling
import VirtualPC.Proofs.Machine.Invariant
import VirtualPC.Proofs.Machine.FaultLatch
import VirtualPC.Proofs.Core.Confinement
import VirtualPC.Proofs.Machine.Loading
import VirtualPC.Proofs.Machine.Viewing
import VirtualPC.Proofs.Program.Safety
import VirtualPC.Proofs.Program.Samples
import VirtualPC.Proofs.Machine.SampleRuns
import VirtualPC.Proofs.Instruction.Decoding
import VirtualPC.Proofs.Program.Sweep
import VirtualPC.Proofs.Core.Record
import VirtualPC.Proofs.Program.Listing
import VirtualPC.Proofs.Core.Dependence
import VirtualPC.Proofs.Video.Painting
import VirtualPC.Proofs.Video.Redraw
import VirtualPC.Proofs.Memory.History
import VirtualPC.Proofs.Command.Session
import VirtualPC.Proofs.Command.Ticking
import VirtualPC.Proofs.Command.Budget
import VirtualPC.Proofs.Machine.Layout
import VirtualPC.Proofs.Core.Faults
import VirtualPC.Proofs.Core.Inspection
import VirtualPC.Proofs.Machine.SampleLayouts
import VirtualPC.Proofs.Core.Iteration
import VirtualPC.Proofs.Core.StoreLog
import VirtualPC.Proofs.Program.Rounds
import VirtualPC.Proofs.Program.SampleRounds
import VirtualPC.Proofs.Machine.SampleOutcomes
import VirtualPC.Proofs.Machine.Visibility
import VirtualPC.Proofs.Video.Rectangles
import VirtualPC.Proofs.Video.Lettering
import VirtualPC.Proofs.Text.Digits
import VirtualPC.Proofs.Video.Reading
import VirtualPC.Proofs.Machine.StatusScreen
import VirtualPC.Proofs.Program.Paging
import VirtualPC.Proofs.Program.Readback
import VirtualPC.Proofs.Word.Checked
import VirtualPC.Proofs.Memory.Window
import VirtualPC.Proofs.Video.Clipping
import VirtualPC.Proofs.Video.CheckedDrawing
import VirtualPC.Proofs.Text.Grammar
import VirtualPC.Proofs.Command.Sizes
import VirtualPC.Proofs.Instruction.Calls
import VirtualPC.Proofs.Files.Names
import VirtualPC.Proofs.Files.Walks
import VirtualPC.Proofs.Files.Creation
import VirtualPC.Proofs.Files.Installing
