import StreamSocket.Core.LTS
import StreamSocket.Core.Word
import StreamSocket.Core.Except
import StreamSocket.Core.FirstWins
import StreamSocket.L1Encoding.Wrap32
import StreamSocket.L1Encoding.Parser
import StreamSocket.L1Encoding.FixedWidth
import StreamSocket.L1Encoding.Checksum
import StreamSocket.L1Encoding.Ipv4
import StreamSocket.L1Encoding.Ipv4Codec
import StreamSocket.L1Encoding.Ethernet
import StreamSocket.L1Encoding.EthernetCodec
import StreamSocket.L1Encoding.Splitting
import StreamSocket.L2Machine.ByteStream
import StreamSocket.L2Machine.Reassembler
import StreamSocket.L2Machine.ReassemblerInsert
import StreamSocket.L2Machine.TcpMessages
import StreamSocket.L2Machine.TcpReceiver
import StreamSocket.L2Machine.ReceiverIndex
import StreamSocket.L2Machine.TcpSender
import StreamSocket.L2Machine.TcpSegment
import StreamSocket.L2Machine.TcpOverIp
import StreamSocket.L2Machine.TcpAccepted
import StreamSocket.L2Machine.TcpPeer
import StreamSocket.L2Machine.NetworkInterface
import StreamSocket.L2Machine.Router
import StreamSocket.L2Machine.EthernetAdapter
import StreamSocket.L2Machine.FileDescriptor
import StreamSocket.L2Machine.EventLoop
import StreamSocket.L2Machine.MinnowSocket
import StreamSocket.L3Protocol.ByteStreamRun
import StreamSocket.L3Protocol.ReassemblerRun
import StreamSocket.L3Protocol.ReassemblerBounds
import StreamSocket.L3Protocol.ReceiverRun
import StreamSocket.L3Protocol.ReceiverTwice
import StreamSocket.L3Protocol.SenderLog
import StreamSocket.L3Protocol.SenderRun
import StreamSocket.L3Protocol.SenderTimer
import StreamSocket.L3Protocol.SenderPush
import StreamSocket.L3Protocol.SenderAck
import StreamSocket.L3Protocol.SenderWindow
import StreamSocket.L3Protocol.SenderSpace
import StreamSocket.L3Protocol.Inbox
import StreamSocket.L3Protocol.EndToEnd
import StreamSocket.L3Protocol.AckSound
import StreamSocket.L3Protocol.PeerRun
import StreamSocket.L3Protocol.PeerPair
import StreamSocket.L3Protocol.ArpRun
import StreamSocket.L3Protocol.ArpRate
import StreamSocket.L3Protocol.ArpPending
import StreamSocket.L3Protocol.Routing
import StreamSocket.L3Protocol.DatagramWire
import StreamSocket.L3Protocol.ConnectionLatch
import StreamSocket.L3Protocol.NestedFrame
import StreamSocket.L3Protocol.FrameFilter
import StreamSocket.L3Protocol.RoutePrefix
import StreamSocket.L3Protocol.EventLoopRun
import StreamSocket.L4System.Network
import StreamSocket.L4System.Wire
import StreamSocket.L4System.Calm
import StreamSocket.L4System.Progress
import StreamSocket.L4System.Link
import StreamSocket.L4System.Internet
import StreamSocket.L4System.Stack
import StreamSocket.L4System.Sockets
import StreamSocket.L4System.Rounds
