import XivelyClient.Lib.Resumable
import XivelyClient.Lib.HighestBit
import XivelyClient.Lib.Base128
import XivelyClient.State
import XivelyClient.Layer
import XivelyClient.DataDesc
import XivelyClient.Mqtt.Message
import XivelyClient.Mqtt.Parser
import XivelyClient.Mqtt.Serialiser
import XivelyClient.Mqtt.Chunking
import XivelyClient.Mqtt.Wire
import XivelyClient.Mqtt.Layout
import XivelyClient.Mqtt.Bodies
import XivelyClient.Mqtt.Framing
import XivelyClient.Mqtt.Encoding
import XivelyClient.Mqtt.RoundTrip
import XivelyClient.Mqtt.DataHelpers
import XivelyClient.Mqtt.CodecLayer
import XivelyClient.Mqtt.Receiving
import XivelyClient.Lib.Runs
import XivelyClient.Lib.Cells
import XivelyClient.Mqtt.Sending
import XivelyClient.Mqtt.SendQueue
import XivelyClient.Mqtt.Agreement
import XivelyClient.Mqtt.Independence
import XivelyClient.ConnectionData
import XivelyClient.ConnectionAttempts
import XivelyClient.Mqtt.Logic.Task
import XivelyClient.Mqtt.Logic.Commands
import XivelyClient.Mqtt.Logic.Layer
import XivelyClient.Mqtt.Logic.Frame
import XivelyClient.Mqtt.Logic.QueueQ0
import XivelyClient.Mqtt.Logic.PublishOrder
import XivelyClient.Mqtt.Logic.Handshake
import XivelyClient.Mqtt.Logic.Keepalive
import XivelyClient.Mqtt.Logic.QueueQ12
import XivelyClient.Mqtt.Logic.MessageIds
import XivelyClient.Mqtt.Logic.Pending
import XivelyClient.Mqtt.Logic.Routing
import XivelyClient.Mqtt.Logic.Subscriptions
import XivelyClient.Mqtt.Logic.Acknowledgement
import XivelyClient.Sft.Message
import XivelyClient.Sft.Logic
import XivelyClient.Sft.Steps
import XivelyClient.Sft.Calls
import XivelyClient.Sft.Requests
import XivelyClient.Sft.Callbacks
import XivelyClient.Sft.Pointers
import XivelyClient.Sft.Waiting
import XivelyClient.Sft.Handles
import XivelyClient.Sft.Integrity
import XivelyClient.EventDispatcher.TimeEvent
import XivelyClient.EventDispatcher.Positions
import XivelyClient.EventDispatcher.Operations
import XivelyClient.EventDispatcher.BackLinks
import XivelyClient.EventDispatcher.StableQueue
import XivelyClient.EventDispatcher.Dispatcher
import XivelyClient.EventDispatcher.Step
import XivelyClient.LayerChain.Chain
import XivelyClient.LayerChain.Closing
import XivelyClient.Datastructures.Vector
import XivelyClient.Datastructures.Handle
import XivelyClient.MemoryLimiter
import XivelyClient.Cbor.ControlMessage
import XivelyClient.Cbor.Lists
import XivelyClient.Cbor.Fields
import XivelyClient.Cbor.Typing
import XivelyClient.Io.ResourceManager
import XivelyClient.Io.Errors
import XivelyClient.Io.Reading
import XivelyClient.Sft.Revision
import XivelyClient.Contexts
import XivelyClient.TimedTask.Lifecycle
import XivelyClient.Mqtt.Logic.Dispatch
import XivelyClient.Mqtt.Malformed
import XivelyClient.Backoff.Decay
import XivelyClient.MemoryLimiter.LeakList
import XivelyClient.Mqtt.Positions
import XivelyClient.HeapAllocator.Assertions
import XivelyClient.Senml.Injection
import XivelyClient.DataDesc.Growth
import XivelyClient.ConnectionUpdate
import XivelyClient.Sft.DownloadOrder
import XivelyClient.TimedTask.Registration
import XivelyClient.Io.FsMemory
import XivelyClient.Tls.RawInput
import XivelyClient.Io.NetWrite
import XivelyClient.EventDispatcher.Descriptors
import XivelyClient.EventDispatcher.FileEvents
import XivelyClient.EventLoop.Sockets
import XivelyClient.EventLoop.Timeout
import XivelyClient.Datastructures.Filtering
import XivelyClient.Backoff.Penalty
import XivelyClient.Senml.Builder
import XivelyClient.Timeseries
import XivelyClient.Lib.BlockFold
import XivelyClient.Lib.BigEndian
import XivelyClient.Checksum.Sha256
import XivelyClient.Checksum.Standard
import XivelyClient.Checksum.Streaming
import XivelyClient.Lib.WriteCursor
import XivelyClient.Cbor.Grammar
import XivelyClient.Cbor.Decoder
import XivelyClient.Cbor.Accepts
import XivelyClient.Cbor.Encoder
import XivelyClient.Cbor.RoundTrip
import XivelyClient.Cbor.ControlEncoder
import XivelyClient.Cbor.Delivery
import XivelyClient.Lib.Descent
import XivelyClient.Sft.Exchange
import XivelyClient.Mqtt.Stream
import XivelyClient.Mqtt.Link
import XivelyClient.Lib.Fair
import XivelyClient.Threads.Pool
import XivelyClient.Threads.Shutdown
import XivelyClient.Threads.Progress
