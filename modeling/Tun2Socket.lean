import Tun2Socket.Library.Machine
import Tun2Socket.Native.Queues
import Tun2Socket.Native.Packets
import Tun2Socket.Native.Handles
import Tun2Socket.Native.Interface
import Tun2Socket.Native.World
import Tun2Socket.Native.Transition
import Tun2Socket.Native.Locks
import Tun2Socket.Native.Scope
import Tun2Socket.Native.Transmit
import Tun2Socket.Native.PollFlag
import Tun2Socket.Native.Serials
import Tun2Socket.Native.TransmitOrder
import Tun2Socket.Native.Receive
import Tun2Socket.Native.Sleepers
import Tun2Socket.Native.ReceiveOrder
import Tun2Socket.Native.Attachment
import Tun2Socket.Native.Ownership
import Tun2Socket.Native.Barrier
import Tun2Socket.Native.Lifetime
import Tun2Socket.Native.TcpConn
import Tun2Socket.Native.TcpListener
import Tun2Socket.Lwip.Bind
import Tun2Socket.Lwip.Udp
import Tun2Socket.Native.TcpAccept
import Tun2Socket.Native.NewStack
import Tun2Socket.Native.Restart
import Tun2Socket.Native.WriteCalls
import Tun2Socket.Native.FailedAllocs
import Tun2Socket.Native.Deadlock
import Tun2Socket.Native.TcpRead
import Tun2Socket.Native.NetbufCustody
import Tun2Socket.Native.TcpWrite
import Tun2Socket.Native.TcpClose
import Tun2Socket.Native.UdpEcho
import Tun2Socket.Native.LinkCustody
import Tun2Socket.Native.UdpCustody
import Tun2Socket.Native.MtuBound
import Tun2Socket.Lwip.Ip4Input
import Tun2Socket.Make.CommandLine
import Tun2Socket.Lwip.TcpAborts
import Tun2Socket.Lwip.TcpSendOrder
import Tun2Socket.Lwip.TcpLink
import Tun2Socket.Lwip.SysMbox
import Tun2Socket.Lwip.IcmpEcho
import Tun2Socket.Lwip.TcpOptions
