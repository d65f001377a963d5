import DemoReel.Bytes.Request
import DemoReel.Main
import DemoReel.Playback.Session
import DemoReel.Program.Encoding
import DemoReel.Proofs.Playback.Barrier
import DemoReel.Proofs.Playback.Elements
import DemoReel.Proofs.Playback.Invariants
import DemoReel.Proofs.Playback.Mirror
import DemoReel.Proofs.Playback.Supply
import DemoReel.Proofs.Program.Isolation
import DemoReel.Proofs.Program.Leaves
import DemoReel.Proofs.Program.Reencoding
import DemoReel.Proofs.Program.RoundTrip
import DemoReel.Proofs.Playback.Rendering
import DemoReel.Proofs.Playback.Overlays
import DemoReel.Proofs.Playback.Lockstep
import DemoReel.Proofs.Playback.Portrait
import DemoReel.Proofs.Playback.Passes
import DemoReel.Proofs.Playback.Periodicity
import DemoReel.Proofs.Playback.Slots
import DemoReel.Proofs.Playback.Regrouping
import DemoReel.Proofs.Program.Truncation
import DemoReel.Proofs.Program.Localizing
import DemoReel.Proofs.Program.Strictness
import DemoReel.Proofs.Playback.Prefetching
import DemoReel.Proofs.Program.Shape
import DemoReel.Proofs.Program.Offsets
import DemoReel.Proofs.Playback.Blocks
import DemoReel.Proofs.Playback.Walking
import DemoReel.Proofs.Playback.Panning
import DemoReel.Proofs.Playback.Work
import DemoReel.Proofs.Playback.Arithmetic
import DemoReel.Proofs.Playback.Placement
import DemoReel.Proofs.Playback.Tables
import DemoReel.Proofs.Text.Keys
import DemoReel.Proofs.World.Bindings
import DemoReel.Proofs.Bytes.Requests
import DemoReel.Proofs.Program.Cost
