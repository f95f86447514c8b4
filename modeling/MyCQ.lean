import MyCQ.Foundation.Transition
import MyCQ.Foundation.Octets
import MyCQ.Foundation.Buffer
import MyCQ.Foundation.CArray
import MyCQ.Foundation.CString
import MyCQ.Foundation.Numeral
import MyCQ.Foundation.ShiftFold
import MyCQ.Foundation.AsyncSocket
import MyCQ.Foundation.Monitor
import MyCQ.Foundation.LockOrder
import MyCQ.Foundation.Labels
import MyCQ.Foundation.Stack
import MyCQ.Foundation.Linearizability
import MyCQ.Foundation.Relay
import MyCQ.Net.Message
import MyCQ.Net.Contents
import MyCQ.Net.MessageStack
import MyCQ.Net.Handshake
import MyCQ.Net.Connection
import MyCQ.Net.Frame
import MyCQ.Net.Endpoint
import MyCQ.Net.Endpoint.Reader
import MyCQ.Net.Endpoint.Validation
import MyCQ.Net.Endpoint.Isolation
import MyCQ.Net.Endpoint.Parsing
import MyCQ.Net.Endpoint.Writer
import MyCQ.Net.Endpoint.Framing
import MyCQ.Net.Endpoint.Client
import MyCQ.Net.Endpoint.SendQueue
import MyCQ.Net.Endpoint.OutgoingStream
import MyCQ.Net.Transfer
import MyCQ.Net.Link
import MyCQ.Net.Link.Handshake
import MyCQ.Net.Link.Settling
import MyCQ.Net.Link.RoundTrip
import MyCQ.Net.Arrival
import MyCQ.Net.TsNetQueue
import MyCQ.Net.TsNetQueue.WakeUp
import MyCQ.Net.TsNetQueue.Waiting
import MyCQ.Net.TsNetQueue.Deadlock
import MyCQ.Net.TsNetQueue.Linearizable
import MyCQ.App.Payloads
import MyCQ.App.Server
import MyCQ.App.Server.Delivery
import MyCQ.App.Server.Requests
import MyCQ.App.Server.ClientList
import MyCQ.App.Server.Pruning
import MyCQ.App.Client
import MyCQ.App.Client.Requests
import MyCQ.App.Client.Dispatch
import MyCQ.App.Client.Lifecycle
import MyCQ.App.Client.Console
import MyCQ.App.Client.Program
import MyCQ.App.Client.Program.Keyboard
import MyCQ.App.Client.Program.Connection
import MyCQ.App.Client.Program.Closed
import MyCQ.App.Extraction
import MyCQ.App.BroadcastText
import MyCQ.App.PrivateMessage
import MyCQ.App.System
import MyCQ.App.System.Steps
import MyCQ.App.System.Connections
import MyCQ.App.System.Incoming
import MyCQ.App.System.Framing
import MyCQ.App.System.Gate
import MyCQ.App.System.Passes
import MyCQ.App.System.Lifetime
import MyCQ.App.System.Roster
import MyCQ.App.System.ClientList
import MyCQ.App.System.Senders
import MyCQ.App.System.Routing
import MyCQ.App.System.BroadcastOrder
import MyCQ.App.System.Replies
import MyCQ.App.System.Feeds
import MyCQ.App.System.Relaying
import MyCQ.App.System.Lists
import MyCQ.App.System.Waiting
import MyCQ.App.System.Serving
import MyCQ.App.System.Lifecycle
import MyCQ.App.Disclosure
import MyCQ.App.Network
import MyCQ.App.Network.Wiring
import MyCQ.App.Network.Delivery
import MyCQ.App.Network.Conversation
import MyCQ.App.Network.Feeds
import MyCQ.App.Network.Answers
import MyCQ.App.Network.Broadcasts
import MyCQ.App.Network.Lists
import MyCQ.App.Network.Safety
import MyCQ.App.Network.Reliable
import MyCQ.App.Network.Rest
import MyCQ.App.Network.Settling
