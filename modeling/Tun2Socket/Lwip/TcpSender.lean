import Tun2Socket.Library.Machine
import Tun2Socket.Lwip.TcpDelivery
import Tun2Socket.Lwip.TcpTiles

namespace Tun2Socket.Lwip
open Library

variable {Device : Type}

def TCP_SND_BUF : Nat := 65535

/-- The interface with a list of the packets that it gets. -/
def Netif.logged (netif : Netif Device) : Netif (Device × List Bytes) where
  mtu device := netif.mtu device.1
  output heap device addr :=
    let (heap', device') := netif.output heap device.1 addr
    (heap', (device', device.2 ++ ((heap.value addr).map Pbuf.bytes).toList))

/-- The send side of a connection, with the data and the end of stream that its application gave to it. -/
structure Sender (Device : Type) where
  pcb : SendPcb
  tx : TxState (Device × List Bytes)
  data : Bytes
  closed : Bool

/-- What happens to the send side. The memory is what the allocator hands out. -/
inductive SenderAction (Device : Type) where
  | write (data : Bytes) (more : Bool) (memory : WriteMemory)
  | close (memory : Option Nat)
  | output (memory : Option Nat)
  | ack (ackno : UInt32) (memory : Option Nat)
  | rexmitRto
  | rexmit
  | split (split : Nat) (memory : Option Nat) (segMemory : Bool)
  | sendEmptyAck (memory : Option Nat)
  | keepalive (memory : Option Nat)
  | zeroWindowProbe (memory : Option Nat)
  /-- The input, the timers and the owner set the other fields. -/
  | control (control : SendControl)
  /-- The driver, the reader and the other connections work on. -/
  | world (next : TxState Device)

def SenderAction.memory : SenderAction Device → List Nat
  | .write _ _ memory => memory.segs
  | .close memory | .output memory | .ack _ memory | .split _ memory _ | .sendEmptyAck memory | .keepalive memory
  | .zeroWindowProbe memory => memory.toList
  | .rexmitRto | .rexmit | .control _ | .world _ => []

/-- The states in which a connection takes data to send. -/
def TcpState.sends : TcpState → Bool
  | .ESTABLISHED | .CLOSE_WAIT => true
  | _ => false

namespace Sender

/-- A FIN that was queued moves the state. Without memory it is tried again. -/
def tcpCloseShutdownFin (s : Sender Device) (memory : Option Nat) : Checked (Sender Device) := do
  if s.pcb.state.sends then
    let (err, pcb, heap) ← tcpSendFin s.tx.heap s.pcb memory
    let tx := { s.tx with heap }
    if err = .ERR_OK then
      return { s with pcb := { pcb with state := Receiver.closeState pcb.state }, tx, closed := true }
    else return { s with pcb, tx }
  else return s

/-- An acknowledgement of new data frees it, and one of data that was never sent is answered. -/
def tcpReceive (netif : Netif Device) (s : Sender Device) (ackno : UInt32) (memory : Option Nat) :
    Checked (Sender Device) := do
  if seqLeq ackno s.pcb.lastack then return s
  else if seqBetween ackno (s.pcb.lastack + 1) s.pcb.sndNxt then
    let (pcb, heap) ← tcpReceiveAck s.tx.heap { s.pcb with lastack := ackno } ackno
    return { s with pcb, tx := { s.tx with heap } }
  else
    let (_, pcb, tx) := Lwip.tcpSendEmptyAck netif.logged s.pcb s.tx memory
    return { s with pcb, tx }

/-- The other fields change, and the numbers of the stream stay. -/
def retune (pcb : SendPcb) (control : SendControl) : SendPcb :=
  { pcb with toSendControl := { control with lastack := pcb.lastack, sndNxt := pcb.sndNxt, sndBuf := pcb.sndBuf } }

def act (netif : Netif Device) (s : Sender Device) : SenderAction Device → Checked (Sender Device)
  | .write data more memory => do
      let (err, pcb, heap) ← tcpWrite s.tx.heap s.pcb data more memory
      return { s with pcb, tx := { s.tx with heap }, data := if err = .ERR_OK then s.data ++ data else s.data }
  | .close memory => s.tcpCloseShutdownFin memory
  | .output memory => do
      let (_, pcb, tx) ← Lwip.tcpOutput netif.logged s.pcb s.tx memory
      return { s with pcb, tx }
  | .ack ackno memory => s.tcpReceive netif ackno memory
  | .rexmitRto => return { s with pcb := (tcpRexmitRtoPrepare s.tx.heap s.pcb).2 }
  | .rexmit => return { s with pcb := (tcpRexmit s.tx.heap s.pcb).2 }
  | .split split memory segMemory => do
      let (_, pcb, heap) ← tcpSplitUnsentSeg s.tx.heap s.pcb split memory segMemory
      return { s with pcb, tx := { s.tx with heap } }
  | .sendEmptyAck memory =>
      let (_, pcb, tx) := Lwip.tcpSendEmptyAck netif.logged s.pcb s.tx memory
      return { s with pcb, tx }
  | .keepalive memory => return { s with tx := tcpKeepalive netif.logged s.pcb s.tx memory }
  | .zeroWindowProbe memory =>
      let (pcb, tx) := tcpZeroWindowProbe netif.logged s.pcb s.tx memory
      return { s with pcb, tx }
  | .control control => return { s with pcb := retune s.pcb control }
  | .world next => return { s with tx := ⟨next.heap, (next.device, s.tx.device.2), next.ipId⟩ }

/-- The packets that went out. -/
def wire (s : Sender Device) : List Bytes := s.tx.device.2

end Sender

namespace TxState

/-- The memory and the driver without the list of packets. -/
def unlogged (s : TxState (Device × List Bytes)) : TxState Device := ⟨s.heap, s.device.1, s.ipId⟩

theorem output_log (netif : Netif Device) (s : TxState (Device × List Bytes)) (addr : Nat) :
    (s.output netif.logged addr).device.2 = s.device.2 ++ ((s.heap.value addr).map Pbuf.bytes).toList := rfl

end TxState

section Logged

variable {s next : TxState (Device × List Bytes)} {mine after : Multiset Nat}

/-- The list of packets is no part of the driver. -/
def DriverView.logged (view : DriverView Device) : DriverView (Device × List Bytes) :=
  ⟨fun device => view.waits device.1, fun device => view.fine device.1⟩

theorem DriverView.logged_holds {view : DriverView Device} {owners : Multiset Nat} :
    view.logged.Holds s owners ↔ view.Holds s.unlogged owners :=
  ⟨fun holds => ⟨holds.balanced, holds.frozen, holds.fine⟩, fun holds => ⟨holds.balanced, holds.frozen, holds.fine⟩⟩

theorem DriverView.logged_acts {view : DriverView Device} (acts : view.Acts s.unlogged mine next.unlogged after) :
    view.logged.Acts s mine next after := by
  intro others holds
  obtain ⟨done, kept⟩ := acts others (logged_holds.mp holds)
  exact ⟨logged_holds.mpr done, kept⟩

def Driver.logged (driver : Driver Device) : Driver (Device × List Bytes) where
  toDriverView := driver.toDriverView.logged
  netif := driver.netif.logged
  fits := driver.fits
  outputs held one found fits := DriverView.logged_acts (driver.outputs held one found fits)
  unchanged s addr one := driver.unchanged s.unlogged addr one

end Logged

end Tun2Socket.Lwip
