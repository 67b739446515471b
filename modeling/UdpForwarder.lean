import UdpForwarder.Ciphertext
import UdpForwarder.ClientId
import UdpForwarder.CommandLine
import UdpForwarder.Common
import UdpForwarder.ConnectionTable
import UdpForwarder.Deadlock
import UdpForwarder.Delivery
import UdpForwarder.Deployment
import UdpForwarder.Descriptors
import UdpForwarder.Draining
import UdpForwarder.EndToEnd
import UdpForwarder.Endpoint
import UdpForwarder.Exchange
import UdpForwarder.Faults
import UdpForwarder.FilterConfig
import UdpForwarder.Filters
import UdpForwarder.Forwarder
import UdpForwarder.Forwarding
import UdpForwarder.Ipc
import UdpForwarder.Isolation
import UdpForwarder.KeyDerivation
import UdpForwarder.Launch
import UdpForwarder.Leakage
import UdpForwarder.Lib.BlockMode
import UdpForwarder.Lib.Buffer
import UdpForwarder.Lib.Fifo
import UdpForwarder.Lib.History
import UdpForwarder.Lib.ListenQueue
import UdpForwarder.Lib.LittleEndian
import UdpForwarder.Lib.Numeral
import UdpForwarder.Lib.PartialMap
import UdpForwarder.Lib.Pipeline
import UdpForwarder.Lib.Reader
import UdpForwarder.Lib.Rijndael
import UdpForwarder.Lib.Settling
import UdpForwarder.Lib.Transition
import UdpForwarder.Listener
import UdpForwarder.Lossless
import UdpForwarder.Mapping
import UdpForwarder.Network
import UdpForwarder.OptParser
import UdpForwarder.Outcome
import UdpForwarder.Plain
import UdpForwarder.Plusaes.Counter
import UdpForwarder.Plusaes.Inverse
import UdpForwarder.Plusaes.Modes
import UdpForwarder.Plusaes.Padding
import UdpForwarder.Plusaes.Standard
import UdpForwarder.Plusaes.State
import UdpForwarder.Process
import UdpForwarder.Progress
import UdpForwarder.Refinement
import UdpForwarder.Rejection
import UdpForwarder.Relay
import UdpForwarder.Sequence
import UdpForwarder.SockIO
import UdpForwarder.Sockets
import UdpForwarder.Startup
import UdpForwarder.Stream
import UdpForwarder.Survival
import UdpForwarder.System
import UdpForwarder.TcpPipe
import UdpForwarder.Tunnel
