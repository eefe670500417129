import Lzmq.Lib.Steps
import Lzmq.Lib.Registry
import Lzmq.Lib.Table
import Lzmq.Lib.Arrays
import Lzmq.Lib.Drain
import Lzmq.Lib.Rounding
import Lzmq.CPoller.Registrations
import Lzmq.CPoller.Wrapper
import Lzmq.CPoller.Cursor
import Lzmq.CPoller.Dispatch
import Lzmq.CPoller.Served
import Lzmq.CPoller.Representation
import Lzmq.CPoller.Nested
import Lzmq.Lib.Positions
import Lzmq.FfiPoller.Registry
import Lzmq.FfiPoller.Dispatch
import Lzmq.FfiPoller.Capacity
import Lzmq.CSocket.Receive
import Lzmq.Lib.Cursor
import Lzmq.Loop.Timer
import Lzmq.WinClock.Monotonic
import Lzmq.Loop.Machine
import Lzmq.Loop.Effect
import Lzmq.Loop.Invariant
import Lzmq.Loop.OneEvent
import Lzmq.Loop.Reentry
import Lzmq.Loop.Rearm
import Lzmq.Loop.Fire
import Lzmq.Loop.Progress
import Lzmq.CSocket.Framing
import Lzmq.Loop.Interrupt
import Lzmq.Loop.Ownership
import Lzmq.Loop.Destroy
import Lzmq.CContext.Close
import Lzmq.FfiContext.Close
import Lzmq.CContext.Create
import Lzmq.CContext.Plan
import Lzmq.CContext.Atomic
import Lzmq.CContext.Room
import Lzmq.CContext.Destroy
import Lzmq.CContext.Count
import Lzmq.FfiContext.Count
import Lzmq.Pollers.Agree
import Lzmq.CApi.Values
import Lzmq.Lib.CFunction
import Lzmq.CApi.Send
import Lzmq.CApi.Options
import Lzmq.CApi.StackBound
import Lzmq.FfiSocket.Send
import Lzmq.StringOptions.RoundTrip
import Lzmq.Sends.Reject
import Lzmq.Sends.Agree
import Lzmq.Sends.Layers
import Lzmq.Lib.Buffer
import Lzmq.Messages.Heap
import Lzmq.CMessage.Edit
import Lzmq.CMessage.Copy
import Lzmq.CMessage.Build
import Lzmq.FfiMessage.Message
import Lzmq.FfiMessage.Edit
import Lzmq.FfiMessage.Sharing
import Lzmq.FfiMessage.Copy
import Lzmq.FfiMessage.Bounds
import Lzmq.Messages.More
import Lzmq.Messages.Resize
import Lzmq.Messages.Copies
import Lzmq.Loop.Locks
import Lzmq.Loop.Pass
import Lzmq.Loop.NewSocket
import Lzmq.Z85.Decode
import Lzmq.Threads.Bootstrap
import Lzmq.Threads.Options
import Lzmq.Threads.Start
import Lzmq.Lib.Delivery
import Lzmq.Lib.Bytes
import Lzmq.Lib.Broken
import Lzmq.FfiSocket.Receive
import Lzmq.Receives.Agree
import Lzmq.Receives.Lossless
import Lzmq.Receives.Event
import Lzmq.FfiSocket.Framing
import Lzmq.Sends.Broken
import Lzmq.Contexts.Handle
import Lzmq.Contexts.Closing
import Lzmq.Contexts.Attempts
import Lzmq.Contexts.Agree
import Lzmq.FfiContext.Destroy
import Lzmq.FfiContext.Create
import Lzmq.Contexts.Sockets
import Lzmq.Lib.Queue
import Lzmq.Peers.Link
import Lzmq.Lib.Names
import Lzmq.Threads.Pipes
import Lzmq.Threads.Pairing
import Lzmq.Lib.Search
import Lzmq.Binds.RandomPort
import Lzmq.Lib.Owners
import Lzmq.CContext.Owners
import Lzmq.Z85.Codec
