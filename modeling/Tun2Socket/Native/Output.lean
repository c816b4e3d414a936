import Tun2Socket.Lwip.Icmp
import Tun2Socket.Lwip.TcpSends
import Tun2Socket.Native.Interface
import Tun2Socket.Native.UdpEcho

namespace Tun2Socket.Native
open Lwip Library

/-- A finished link_read copied from a packet that it had taken. -/
structure LinkRead where
  entry : Queued
  size : Int
  result : Int × Bytes

/-- The reading side of a link, with the packets that if_output got and the results of its readers. -/
structure OutLink where
  mtu : Int
  closed : Bool
  rx : PacketQueue Queued
  /-- The packets that readers have taken and still copy from. -/
  reading : List Queued
  passed : List Pbuf
  reads : List LinkRead

def OutLink.waiting (link : OutLink) : List Queued := link.rx.packets ++ link.reading

structure OutDevice where
  interface : Interface Nat
  links : List OutLink

namespace OutDevice

/-- The queue takes over the reference to the packet, and frees the packet that it evicts. -/
def ifOutput (heap : Memory Pbuf) (link : OutLink) (p : Nat) : Memory Pbuf × OutLink :=
  match heap.value p with
  | none => (heap, link)
  | some packet =>
      (heap.releases ((link.rx.evicted ⟨p, packet⟩).map Queued.p),
        { link with rx := link.rx.append ⟨p, packet⟩, passed := link.passed ++ [packet] })

/-- The interface does not copy the packet, but takes a reference to it. -/
def globalIfOutput (heap : Memory Pbuf) (device : OutDevice) (p : Nat) : Memory Pbuf × OutDevice :=
  match device.interface.globalIfOutput with
  | none => (heap, device)
  | some id =>
      match device.links[id]? with
      | none => (heap, device)
      | some link =>
          let (heap, link) := ifOutput (heap.retain p) link p
          (heap, { device with links := device.links.set id link })

def globalIf : Netif OutDevice := ⟨fun device => device.interface.mtu.toNat, globalIfOutput⟩

/-- The link that is attached. -/
def attached (device : OutDevice) : Option OutLink := device.interface.globalIfOutput.bind (device.links[·]?)

end OutDevice

/-- A datagram handle owns the pbufs of its queue, and those that its poll has taken. -/
structure UdpSender where
  pcb : Option UdpPcb
  tx : PacketQueue Nat
  polling : List Nat

/-- The stack with all that holds its pbufs, on a target of one kind. -/
structure OutWorld where
  platform : Platform
  tx : TxState OutDevice
  pcbs : List SendPcb
  senders : List UdpSender

/-- The actions of the stack, the readers and the senders. An action that allocates gets the free addresses. -/
inductive OutAct where
  | linkAttach (mtu : Int)
  | linkClose (id : Nat)
  | readTake (id : Nat)
  | readFinish (id reader : Nat) (size : Int)
  | listenInput (control : SendControl) (ends : FourTuple) (option : Option UInt16)
  | parseOpt (index : Nat) (option : UInt16)
  | tcp (index : Nat) (call : TcpCall)
  | rst (memory : Option Nat) (seqno ackno : UInt32) (ends : FourTuple)
  | udpListen (pcb : UdpPcb)
  | udpClose (index : Nat)
  | udpSendto (index : Nat) (metadata : UdpMetadata) (buffer : Bytes) (addr : Nat)
  | udpPollTake (index : Nat)
  | udpPollOne (index : Nat)
  | echo (buffer : Bytes) (addr : Nat) (memory : Bool)
  | unreachable (packet : Bytes) (code : UInt8) (addr : Nat)

def INITIAL_MSS : Nat := 536

/-- The option of a segment sets the mss. Zero and larger values stand for the configured one. -/
def tcpParseoptMss (option : UInt16) : Nat :=
  if option.toNat > TCP_MSS ∨ option.toNat = 0 then TCP_MSS else option.toNat

/-- The effective mss of a route. Without a route nothing bounds it. -/
def tcpEffSendMss (sendmss mtu : Nat) (dest : Ip4Addr) : Nat :=
  if ip4Route dest then tcpEffSendMssNetif sendmss mtu else sendmss

namespace OutWorld

def start (platform : Platform) : OutWorld := ⟨platform, ⟨fun _ => none, ⟨.globalInterfaceInit, []⟩, 0⟩, [], []⟩

def device (w : OutWorld) : OutDevice := w.tx.device

def linkAttach (w : OutWorld) (mtu : Int) : OutWorld :=
  if w.device.interface.globalInterfaceIsAttached then w
  else
    { w with tx := { w.tx with device :=
      { interface := w.device.interface.globalInterfaceAttachDevice (some .ifOutput) (some w.device.links.length) mtu
        links := w.device.links ++ [⟨mtu, false, .zeroed, [], [], []⟩] } } }

/-- The close detaches whatever is attached. -/
def linkClose (w : OutWorld) (id : Nat) : Option OutWorld :=
  w.device.links[id]?.map fun link =>
    { w with tx := { w.tx with device :=
      { interface := w.device.interface.globalInterfaceAttachDevice none none DEFAULT_MTU
        links := w.device.links.set id { link with closed := true } } } }

/-- A reader takes the oldest packet of its link. -/
def readTake (w : OutWorld) (id : Nat) : Option OutWorld :=
  w.device.links[id]?.bind fun link =>
    (link.rx.popped 1).head?.join.map fun entry =>
      { w with tx := { w.tx with device := { w.device with
        links := w.device.links.set id { link with rx := link.rx.pop 1, reading := link.reading ++ [entry] } } } }

/-- A reader copies its packet, wherever it is by now, and frees it. -/
def readFinish (w : OutWorld) (id reader : Nat) (size : Int) : Option OutWorld :=
  w.device.links[id]?.bind fun link =>
    link.reading[reader]?.map fun entry =>
      { w with tx := { w.tx with
        heap := w.tx.heap.release entry.p
        device := { w.device with links := w.device.links.set id { link with
          reading := link.reading.eraseIdx reader
          reads := link.reads ++ [⟨entry, size, linkReadCopy (w.tx.heap.value entry.p) size⟩] } } } }

/-- A SYN makes a pcb. It takes over the index of the listening pcb, which tcp_listen has left without an interface. The
options come first, and then the route bounds the mss. -/
def listenInput (w : OutWorld) (control : SendControl) (ends : FourTuple) (option : Option UInt16) : OutWorld :=
  let mss := option.elim INITIAL_MSS tcpParseoptMss
  { w with pcbs := w.pcbs ++ [{ control with
    ends
    netifIdx := NETIF_NO_INDEX
    mss := tcpEffSendMss mss w.device.interface.mtu.toNat ends.remoteIp
    sndQueuelen := 0
    sndLbb := control.sndNxt
    unsentOversize := 0
    unsent := []
    unacked := [] }] }

/-- A later segment with the option sets the mss again. -/
def parseOpt (w : OutWorld) (index : Nat) (option : UInt16) : Option OutWorld :=
  w.pcbs[index]?.map fun pcb => { w with pcbs := w.pcbs.set index { pcb with mss := tcpParseoptMss option } }

def free (w : OutWorld) (addr : Nat) : Bool := (w.tx.heap addr).isNone

def tcp (w : OutWorld) (index : Nat) (call : TcpCall) : Option OutWorld :=
  w.pcbs[index]?.bind fun pcb =>
    if call.memory.Nodup ∧ call.memory.all w.free then
      (tcpCall OutDevice.globalIf pcb w.tx call).toOption.map fun (pcb, tx) => { w with tx, pcbs := w.pcbs.set index pcb }
    else none

/-- A segment without a pcb is answered with a reset. -/
def rst (w : OutWorld) (memory : Option Nat) (seqno ackno : UInt32) (ends : FourTuple) : Option OutWorld :=
  if memory.all w.free then some { w with tx := tcpRst OutDevice.globalIf w.tx none memory seqno ackno ends } else none

def udpClose (w : OutWorld) (index : Nat) : Option OutWorld :=
  w.senders[index]?.map fun sender => { w with senders := w.senders.set index { sender with pcb := none } }

/-- A datagram is queued with its record, and the queue frees the one that it evicts. -/
def udpSendto (w : OutWorld) (index : Nat) (metadata : UdpMetadata) (buffer : Bytes) (addr : Nat) : Option OutWorld :=
  w.senders[index]?.bind fun sender =>
    if sender.pcb.isNone then some w
    else
      match udpConnSendtoBuf w.platform metadata buffer buffer.length with
      | none => some w
      | some buf =>
          if w.free addr then
            some { w with
              tx := { w.tx with heap := (w.tx.heap.alloc addr buf).releases (sender.tx.evicted addr) }
              senders := w.senders.set index { sender with tx := sender.tx.append addr } }
          else none

/-- The poll takes up to 32 datagrams. -/
def udpPollTake (w : OutWorld) (index : Nat) : Option OutWorld :=
  w.senders[index]?.map fun sender =>
    { w with senders := w.senders.set index { sender with
      tx := sender.tx.pop 32
      polling := sender.polling ++ (sender.tx.popped 32).reduceOption } }

/-- The headers of a datagram are written in place. -/
def udpSend (tx : TxState OutDevice) (pcb : Option UdpPcb) (addr : Nat) : TxState OutDevice :=
  match (tx.heap.value addr).map fun buf => UdpConn.udpPollOne ⟨pcb, .zeroed, .zeroed⟩ buf tx.ipId with
  | some (some q, ipId) => { tx with heap := tx.heap.modify addr fun _ => q, ipId }.output OutDevice.globalIf addr
  | _ => tx

/-- One turn of the poll loop sends a datagram and frees it. -/
def udpPollOne (w : OutWorld) (index : Nat) : Option OutWorld :=
  w.senders[index]?.bind fun sender =>
    match sender.polling with
    | [] => none
    | addr :: rest =>
        let sent := udpSend w.tx sender.pcb addr
        some { w with
          tx := { sent with heap := sent.heap.release addr }
          senders := w.senders.set index { sender with polling := rest } }

/-- The reply to a written packet. -/
def echoReply (platform : Platform) (buffer : Bytes) (memory : Bool) : Option Pbuf :=
  (linkWriteTarget platform buffer buffer.length).bind fun p =>
    (ip4Input p).bind fun (data, p) => icmpInput platform memory data p

/-- The reply is output and freed. -/
def echo (w : OutWorld) (buffer : Bytes) (addr : Nat) (memory : Bool) : Option OutWorld :=
  match echoReply w.platform buffer memory with
  | none => some w
  | some reply =>
      if w.free addr then
        let sent := { w.tx with heap := w.tx.heap.alloc addr reply }.output OutDevice.globalIf addr
        some { w with tx := { sent with heap := sent.heap.release addr } }
      else none

/-- A packet for a closed port or an unknown protocol is answered with a message. -/
def unreachable (w : OutWorld) (packet : Bytes) (code : UInt8) (addr : Nat) : Option OutWorld :=
  match icmpSendResponse packet ICMP_DUR code with
  | none => some w
  | some (p, dest) =>
      if w.free addr then
        some { w with tx :=
          (w.tx.outputOnce OutDevice.globalIf addr p globalNetifAddr dest ICMP_TTL 0 IP_PROTO_ICMP).2 }
      else none

def step (w : OutWorld) : OutAct → Option OutWorld
  | .linkAttach mtu => some (w.linkAttach mtu)
  | .linkClose id => w.linkClose id
  | .readTake id => w.readTake id
  | .readFinish id reader size => w.readFinish id reader size
  | .listenInput control ends option => some (w.listenInput control ends option)
  | .parseOpt index option => w.parseOpt index option
  | .tcp index call => w.tcp index call
  | .rst memory seqno ackno ends => w.rst memory seqno ackno ends
  | .udpListen pcb => some { w with senders := w.senders ++ [⟨some pcb, .zeroed, []⟩] }
  | .udpClose index => w.udpClose index
  | .udpSendto index metadata buffer addr => w.udpSendto index metadata buffer addr
  | .udpPollTake index => w.udpPollTake index
  | .udpPollOne index => w.udpPollOne index
  | .echo buffer addr memory => w.echo buffer addr memory
  | .unreachable packet code addr => w.unreachable packet code addr

/-- A run starts with empty queues and takes its actions in any order. -/
def machine : Machine OutWorld OutAct := ⟨fun w => ∃ platform, w = start platform, step⟩

theorem start_initial (platform : Platform) : machine.initial (start platform) := ⟨platform, rfl⟩

end OutWorld

end Tun2Socket.Native
