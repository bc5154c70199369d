import SimpleSipClient.Foundation.MachineInt
import SimpleSipClient.Foundation.Block
import SimpleSipClient.Foundation.Loop
import SimpleSipClient.Foundation.Bytes
import SimpleSipClient.Foundation.Framing
import SimpleSipClient.Foundation.Formatting
import SimpleSipClient.Foundation.Unicode
import SimpleSipClient.Foundation.Sequence
import SimpleSipClient.Foundation.Runs
import SimpleSipClient.Foundation.Table
import SimpleSipClient.Foundation.Simulation
import SimpleSipClient.Foundation.Returns
import SimpleSipClient.Demux.Source
import SimpleSipClient.Demux.Walk
import SimpleSipClient.Demux.RoundTrip
import SimpleSipClient.Demux.Bounds
import SimpleSipClient.Demux.Overlap
import SimpleSipClient.Demux.Progress
import SimpleSipClient.Demux.Soundness
import SimpleSipClient.Receiver.Calls
import SimpleSipClient.Receiver.Capacity
import SimpleSipClient.Receiver.Loss
import SimpleSipClient.Receiver.Ordering
import SimpleSipClient.Receiver.Sources
import SimpleSipClient.Sms.Source
import SimpleSipClient.Sms.Gate
import SimpleSipClient.Sms.Stream
import SimpleSipClient.Sms.Commands
import SimpleSipClient.Sms.Login
import SimpleSipClient.Sms.Leaks
import SimpleSipClient.Sms.Classify
import SimpleSipClient.Sms.Backpressure
import SimpleSipClient.Access.Source
import SimpleSipClient.Access.Forwarding
import SimpleSipClient.Access.Disconnects
import SimpleSipClient.Access.Json
import SimpleSipClient.Access.Characters
import SimpleSipClient.MediaClient.Source
import SimpleSipClient.MediaClient.OutParams
import SimpleSipClient.MediaClient.Invite
import SimpleSipClient.MediaClient.Retry
import SimpleSipClient.Messages.Source
import SimpleSipClient.Messages.Capacity
import SimpleSipClient.Messages.Identity
import SimpleSipClient.Decoder.Source
import SimpleSipClient.Decoder.Packing
import SimpleSipClient.Decoder.Picture
import SimpleSipClient.Playback.Source
import SimpleSipClient.Playback.Lifecycle
import SimpleSipClient.Playback.Calls
import SimpleSipClient.Playback.Teardown
import SimpleSipClient.MediaClient.Shutdown
import SimpleSipClient.Call.Source
import SimpleSipClient.Call.Step
import SimpleSipClient.Call.Coherence
import SimpleSipClient.Call.Report
import SimpleSipClient.Call.Sending
import SimpleSipClient.Call.Others
import SimpleSipClient.Call.Inviting
import SimpleSipClient.Call.Inputs
import SimpleSipClient.Call.Needs
import SimpleSipClient.Call.Safety
import SimpleSipClient.Foundation.HeapOrder
import SimpleSipClient.Foundation.FreeList
import SimpleSipClient.Foundation.Refinement
import SimpleSipClient.TimerHeap.Source
import SimpleSipClient.TimerHeap.Time
import SimpleSipClient.TimerHeap.Slots
import SimpleSipClient.TimerHeap.Reheap
import SimpleSipClient.TimerHeap.Nodes
import SimpleSipClient.TimerHeap.Timers
import SimpleSipClient.TimerHeap.Refine
import SimpleSipClient.TimerHeap.Safety
import SimpleSipClient.Foundation.Interleaving
import SimpleSipClient.Pipeline.Source
import SimpleSipClient.Pipeline.Frames
import SimpleSipClient.Playback.Threads
import SimpleSipClient.Pipeline.Turns
import SimpleSipClient.Receiver.Streams
import SimpleSipClient.Pipeline.Display
