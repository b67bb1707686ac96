import ChatApp.Lib.Bytes
import ChatApp.Lib.UnorderedMap
import ChatApp.Lib.Run
import ChatApp.Lib.Simulation
import ChatApp.Spec.Mailboxes
import ChatApp.ByteProtocol.Refinement
import ChatApp.Lib.Utf8
import ChatApp.Lib.Wire
import ChatApp.Lib.Truncate
import ChatApp.Lib.Terminal
import ChatApp.Common.Common
import ChatApp.Common.Packet
import ChatApp.Common.PacketCut
import ChatApp.Server.Database
import ChatApp.Server.Ids
import ChatApp.Server.Shape
import ChatApp.Server.OneQueue
import ChatApp.Server.Lookup
import ChatApp.Server.MccServer
import ChatApp.Tcp.Socket
import ChatApp.Tcp.Stream
import ChatApp.Console.Console
import ChatApp.Console.PromptLine
import ChatApp.Console.Lines
import ChatApp.Console.Utf8Line
import ChatApp.Console.EndOfInput
import ChatApp.Server.ServerApp
import ChatApp.Server.Usernames
import ChatApp.Client.MccClient
import ChatApp.Client.App
import ChatApp.Client.Directory
import ChatApp.Client.Prompts
import ChatApp.ByteProtocol.Requests
import ChatApp.ByteProtocol.Framing
import ChatApp.ByteProtocol.Memory
import ChatApp.ByteProtocol.Malformed
import ChatApp.ByteProtocol.Responses
import ChatApp.ByteProtocol.Shape
import ChatApp.ByteProtocol.Commute
import ChatApp.ByteProtocol.System
import ChatApp.ByteProtocol.Delivery
import ChatApp.ByteProtocol.Buffers
import ChatApp.ByteProtocol.RoundTrip
import ChatApp.ByteProtocol.Streamed
import ChatApp.Protobuf.Service
import ChatApp.Protobuf.Sizes
import ChatApp.Protobuf.Agreement
import ChatApp.Protobuf.Addressing
import ChatApp.Protobuf.StaleBuffer
import ChatApp.Protobuf.Segmentation
import ChatApp.Protobuf.ClosedPeer
import ChatApp.Protobuf.Exchanges
import ChatApp.Protobuf.Directories
import ChatApp.Protobuf.InvalidRequests
import ChatApp.Protobuf.Identity
import ChatApp.Protobuf.Polls
import ChatApp.Protobuf.Naming
import ChatApp.ByteProtocol.Capacity
import ChatApp.ByteProtocol.Disclosure
import ChatApp.Protobuf.History
import ChatApp.Protobuf.Announcements
import ChatApp.Protobuf.Convergence
import ChatApp.Client.Dialogue
import ChatApp.Protobuf.ChatSessions
import ChatApp.Protobuf.DirectoryLimit
import ChatApp.Protobuf.Threads
import ChatApp.Tutorial.AddressBook
import ChatApp.Tutorial.Listing
import ChatApp.Client.Threads
import ChatApp.Protobuf.Interleavings
