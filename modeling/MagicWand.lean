import MagicWand.Kernel.WriteCheck
import MagicWand.Kernel.DeadIns
import MagicWand.Kernel.Heartbeat
import MagicWand.Foundation.Gauge
import MagicWand.Foundation.RoundRobin
import MagicWand.Foundation.Transition
import MagicWand.Ins.SlotAccount
import MagicWand.Ins.Wakeups
import MagicWand.Ins.Buffers
import MagicWand.Ins.Oplock
import MagicWand.Ins.RemoteClose
import MagicWand.Ins.Errnos
import MagicWand.Ins.SocketCount
import MagicWand.Ins.ListeningPorts
import MagicWand.Kernel.FileOps
import MagicWand.Kernel.CloseLock
import MagicWand.Kernel.BareRequest
import MagicWand.Kernel.PollCount
import MagicWand.Kernel.PollQueries
import MagicWand.Kernel.RoundRobin
import MagicWand.Kernel.Sending
import MagicWand.Kernel.Errors
import MagicWand.Kernel.Polling
import MagicWand.Kernel.Failover
import MagicWand.Kernel.References
import MagicWand.Kernel.Listeners
import MagicWand.Kernel.InsTable
import MagicWand.Kernel.Routing
import MagicWand.Kernel.Netflow
import MagicWand.Ring
import MagicWand.Events
import MagicWand.Service
import MagicWand.Load
import MagicWand.Forwarded
import MagicWand.Handshake.Completion
import MagicWand.Shim.Recv
import MagicWand.Shim.EndToEnd
import MagicWand.Shim.Address
import MagicWand.Shim.Options
import MagicWand.Shim.Status
import MagicWand.Shim.Creation
import MagicWand.Shim.PassThrough
import MagicWand.Shim.VectorIO
import MagicWand.AcceptFlags
import MagicWand.GrantRefs
import MagicWand.Kernel.Mitigation
import MagicWand.Monitor.Framing
import MagicWand.Monitor.Receive
import MagicWand.Monitor.RequestIds
import MagicWand.Monitor.Connections
import MagicWand.Distro.Tables
