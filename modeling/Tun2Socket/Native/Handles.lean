import Tun2Socket.Native.Packets
import Tun2Socket.Native.Queues

namespace Tun2Socket.Native
open Lwip

/-- A thread of the application. -/
abbrev Tid := Nat

/-- The address of a link_t or udp_conn_t, which no later allocation uses again. -/
abbrev Hid := Nat

/-- A queued packet is a pbuf pointer with the number of its allocation. -/
structure Packet where
  serial : Nat
  pbuf : Pbuf

/-- The packet that a write call builds before it takes any lock. -/
def writeBuf (metadata : Option UdpMetadata) (buffer : Bytes) : Option Pbuf :=
  match metadata with
  | none => linkWriteTarget .bits64 buffer buffer.length
  | some metadata => udpConnSendtoBuf .bits64 metadata buffer buffer.length

/-- A write carries the caller's data together with the packet built from it. -/
structure Write where
  serial : Nat
  metadata : Option UdpMetadata
  buffer : Bytes
  pbuf : Pbuf
  built : writeBuf metadata buffer = some pbuf

def Write.packet (write : Write) : Packet := ⟨write.serial, write.pbuf⟩

/-- The holder of a tx mutex stands at one point of its critical section. -/
inductive TxSection where
  | write (thread : Tid) (write : Write)
  | appended (thread : Tid) (size : Nat)
  | posted (thread : Tid) (size : Nat)
  | poll

/-- The holder of an rx mutex is a reader, the delivering callback or a closing call. -/
inductive RxSection where
  | read (thread : Tid) (size : Int)
  | deliver (packet : Packet)
  | close (thread : Tid) (thenFree : Bool)

/-- The two kinds of handle differ in how they remember that they are closed. -/
inductive Endpoint where
  | link (closed : Bool) (mtu : Int)
  | udp (pcb : Option Nat)

/-- The log of a handle records what crossed its queues, in order. -/
structure HandleLog where
  accepted : List Write
  injected : List (Nat × Bytes)
  sent : List (Nat × Datagram)
  delivered : List Packet
  taken : List (Tid × Packet)

/-- The handle holds the fields of link_t or udp_conn_t, the state of its locks and its log. -/
structure Handle where
  endpoint : Endpoint
  rx : PacketQueue Packet
  tx : PacketQueue Packet
  rxMutex : Option RxSection
  rxWaiting : List Tid
  rxNotified : List Tid
  txMutex : Option TxSection
  txPolling : Nat
  freed : Bool
  log : HandleLog

namespace Handle

/-- A fresh handle is zeroed memory with its mutexes and its condition variable initialized. -/
def create (endpoint : Endpoint) : Handle where
  endpoint := endpoint
  rx := .zeroed
  tx := .zeroed
  rxMutex := none
  rxWaiting := []
  rxNotified := []
  txMutex := none
  txPolling := 0
  freed := false
  log := ⟨[], [], [], [], []⟩

/-- The link tests its closed flag and the UDP handle its pcb pointer. -/
def isClosed (handle : Handle) : Bool :=
  match handle.endpoint with
  | .link closed _ => closed
  | .udp pcb => pcb.isNone

def isLink (handle : Handle) : Bool :=
  match handle.endpoint with
  | .link _ _ => true
  | .udp _ => false

/-- Only link_write tests for a closed handle inside its critical section. -/
def refusesWrite (handle : Handle) : Bool := handle.isLink && handle.isClosed

def closedEndpoint (handle : Handle) : Endpoint :=
  match handle.endpoint with
  | .link _ mtu => .link true mtu
  | .udp _ => .udp none

/-- A writer stores its packet in the tx queue. -/
def appendTx (handle : Handle) (write : Write) (size : Nat) (thread : Tid) : Handle :=
  { handle with
    tx := handle.tx.append write.packet
    txMutex := some (.appended thread size)
    log := { handle.log with accepted := handle.log.accepted ++ [write] } }

/-- The poll clears its flag, takes at most 32 packets and leaves the critical section. -/
def pollTx (handle : Handle) : Handle :=
  { handle with txPolling := 0, tx := handle.tx.pop 32, txMutex := none }

/-- The array of the poll holds the packets taken. -/
def pollArray (handle : Handle) : List (Option Packet) := handle.tx.popped 32

/-- The callback stores its packet in the rx queue and signals, which wakes the given waiters. -/
def deliverRx (handle : Handle) (packet : Packet) (woken : List Tid) : Handle :=
  { handle with
    rx := handle.rx.append packet
    rxMutex := none
    rxWaiting := handle.rxWaiting.filter (· ∉ woken)
    rxNotified := handle.rxNotified ++ handle.rxWaiting.filter (· ∈ woken)
    log := { handle.log with delivered := handle.log.delivered ++ [packet] } }

/-- A signal wakes at least one waiter if there is one. -/
def signals (handle : Handle) (woken : List Tid) : Bool :=
  handle.rxWaiting.isEmpty || handle.rxWaiting.any (· ∈ woken)

/-- A reader that finds the queue empty and the handle open releases the mutex and waits. -/
def waitRx (handle : Handle) (thread : Tid) : Handle :=
  { handle with rxMutex := none, rxWaiting := handle.rxWaiting ++ [thread] }

/-- A reader takes the oldest packet and leaves the critical section. -/
def takeRx (handle : Handle) (thread : Tid) : Handle :=
  { handle with
    rx := handle.rx.pop 1
    rxMutex := none
    log := { handle.log with
      taken := handle.log.taken ++ (handle.rx.popped 1).reduceOption.map (thread, ·) } }

/-- The source of a reader is the entry that it popped. -/
def readSource (handle : Handle) : Option Packet := (handle.rx.popped 1).head?.join

/-- A null entry of the array reaches nobody. -/
def logInjected (handle : Handle) (packets : List Packet) : Handle :=
  { handle with
    log := { handle.log with
      injected := handle.log.injected ++ packets.map fun packet => (packet.serial, packet.pbuf.bytes) } }

/-- The datagram of a packet goes out while the pcb is there and the record can be stripped. -/
def datagramOf (handle : Handle) (packet : Packet) : List (Nat × Datagram) :=
  match udpPollTxStrip packet.pbuf with
  | none => []
  | some (metadata, buf) => if handle.isClosed then [] else [(packet.serial, metadata.datagram buf.bytes)]

def logSent (handle : Handle) (packet : Packet) : Handle :=
  { handle with log := { handle.log with sent := handle.log.sent ++ handle.datagramOf packet } }

/-- The close marks the handle, wakes all waiters and leaves the critical section. -/
def closeRx (handle : Handle) : Handle :=
  { handle with
    endpoint := handle.closedEndpoint
    rxMutex := none
    rxWaiting := []
    rxNotified := handle.rxNotified ++ handle.rxWaiting }

end Handle

end Tun2Socket.Native
