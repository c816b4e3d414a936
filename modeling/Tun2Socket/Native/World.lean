import Tun2Socket.Library.Machine
import Tun2Socket.Native.Handles
import Tun2Socket.Native.Interface

namespace Tun2Socket.Native
open Lwip Library

/-- The core lock belongs to the tcpip thread or to a thread of the application. -/
inductive Owner where
  | tcpip
  | app (thread : Tid)
  deriving DecidableEq

/-- A bound UDP pcb carries the argument of its receive callback. -/
structure UdpPcb where
  id : Nat
  recvArg : Hid

/-- The tcpip thread runs one posted poll callback at a time. -/
inductive Poll where
  | idle
  | fetched (handle : Hid)
  | locking (handle : Hid)
  | popping (handle : Hid)
  | injecting (handle : Hid) (array : List (Option Packet))

/-- The stack is inside if_output or udp_on_received with a packet for the handle. -/
structure Callback where
  handle : Hid
  packet : Packet

/-- A thread of the application stands between calls or at one point of a call. -/
inductive Pc where
  | idle
  | attach (mtu : Int)
  | attaching (mtu : Int)
  | listen
  | listening
  | write (handle : Hid) (write : Write)
  | writing (handle : Hid)
  | read (handle : Hid) (size : Int)
  | reading (handle : Hid)
  | sleeping (handle : Hid) (size : Int)
  | close (handle : Hid) (thenFree : Bool)
  | closing (handle : Hid) (thenFree : Bool)
  | closingLocked (handle : Hid)
  | freeing (handle : Hid)
  | stack
  | inStack

/-- A finished call leaves its result. -/
inductive Return where
  | attached (handle : Option Hid)
  | listened (handle : Option Hid)
  | wrote (handle : Hid) (value : Int)
  | linkRead (handle : Hid) (value : Int) (data : Bytes)
  | udpConnRecv (handle : Hid) (value : Int) (data : Option (UdpMetadata × Bytes))
  | readClosed (handle : Hid)
  | closed (handle : Hid)
  | freed (handle : Hid)

/-- The world holds every handle, the interface, the pcbs, the mailbox, the core lock and all threads. -/
structure World where
  handles : Hid → Handle
  nextHandle : Hid
  interface : Interface Hid
  udpPcbs : List UdpPcb
  nextPcb : Nat
  mailbox : List Hid
  core : Option Owner
  poll : Poll
  callback : Option Callback
  pcs : Tid → Pc
  nextSerial : Nat
  freedPbufs : List Nat
  returns : List (Tid × Return)

/-- A thread may call each exported function, or enter the stack by another way. -/
inductive Call where
  | linkAttach (mtu : Int)
  | linkWrite (handle : Hid) (buffer : Bytes)
  | linkRead (handle : Hid) (size : Int)
  | linkClose (handle : Hid)
  | linkFree (handle : Hid)
  | udpConnListen
  | udpConnSendto (handle : Hid) (metadata : UdpMetadata) (buffer : Bytes) (memory : Bool)
  | udpConnRecv (handle : Hid) (size : Int)
  | udpConnClose (handle : Hid)
  | udpConnFree (handle : Hid)
  | stack

/-- An action is one step of one thread, with the outcome that the step leaves open. -/
inductive Act where
  | call (thread : Tid) (call : Call)
  | lockCore (thread : Tid)
  | coreStep (thread : Tid)
  | lockTx (thread : Tid)
  | txStep (handle : Hid) (posts : Bool)
  | lockRx (thread : Tid)
  | rxStep (handle : Hid) (woken : List Tid)
  | spuriousWake (handle : Hid) (thread : Tid)
  | finishFree (thread : Tid)
  | fetch
  | pollLockCore
  | pollLockTx
  | inject
  | output (p : Pbuf)
  | receive (pcb : UdpPcb) (metadata : UdpMetadata) (p : Pbuf) (memory : Bool)
  | callbackLockRx

namespace World

/-- The initialized library has no handle, no device and an idle tcpip thread. -/
def init : World where
  handles _ := .create (.udp none)
  nextHandle := 0
  interface := .globalInterfaceInit
  udpPcbs := []
  nextPcb := 0
  mailbox := []
  core := none
  poll := .idle
  callback := none
  pcs _ := .idle
  nextSerial := 0
  freedPbufs := []
  returns := []

def setPc (w : World) (thread : Tid) (pc : Pc) : World :=
  { w with pcs := Function.update w.pcs thread pc }

def setHandle (w : World) (handle : Hid) (value : Handle) : World :=
  { w with handles := Function.update w.handles handle value }

/-- The call ends with its result. -/
def finish (w : World) (thread : Tid) (result : Return) : World :=
  { w.setPc thread .idle with returns := w.returns ++ [(thread, result)] }

def free (w : World) (packets : List Packet) : World :=
  { w with freedPbufs := w.freedPbufs ++ packets.map Packet.serial }

/-- The handle is an allocated link_t. -/
def isLink (w : World) (handle : Hid) : Bool := decide (handle < w.nextHandle) && (w.handles handle).isLink

/-- The handle is an allocated udp_conn_t. -/
def isUdp (w : World) (handle : Hid) : Bool := decide (handle < w.nextHandle) && !(w.handles handle).isLink

/-- A write call holds its packet and goes for the tx mutex. -/
def startWrite (w : World) (thread : Tid) (handle : Hid) (metadata : Option UdpMetadata) (buffer : Bytes) : Option World :=
  match built : writeBuf metadata buffer with
  | none => none
  | some pbuf =>
      some { w.setPc thread (.write handle ⟨w.nextSerial, metadata, buffer, pbuf, built⟩) with
        nextSerial := w.nextSerial + 1 }

/-- An idle thread starts a call. -/
def startCall (w : World) (thread : Tid) : Call → Option World
  | .linkAttach mtu => some (w.setPc thread (.attach mtu))
  | .linkWrite handle buffer => if w.isLink handle then w.startWrite thread handle none buffer else none
  | .linkRead handle size => if w.isLink handle then some (w.setPc thread (.read handle size)) else none
  | .linkClose handle => if w.isLink handle then some (w.setPc thread (.close handle false)) else none
  | .linkFree handle =>
      if w.isLink handle then
        some ((w.setHandle handle { w.handles handle with freed := true }).finish thread (.freed handle))
      else none
  | .udpConnListen => some (w.setPc thread .listen)
  | .udpConnSendto handle metadata buffer memory =>
      if w.isUdp handle then
        if (w.handles handle).isClosed then some (w.finish thread (.wrote handle (-1)))
        else if !memory || (writeBuf (some metadata) buffer).isNone then some (w.finish thread (.wrote handle (-1)))
        else w.startWrite thread handle (some metadata) buffer
      else none
  | .udpConnRecv handle size => if w.isUdp handle then some (w.setPc thread (.read handle size)) else none
  | .udpConnClose handle => if w.isUdp handle then some (w.setPc thread (.close handle false)) else none
  | .udpConnFree handle => if w.isUdp handle then some (w.setPc thread (.close handle true)) else none
  | .stack => some (w.setPc thread .stack)

/-- A link is detached from the interface as soon as its close holds the core lock. -/
def detach (w : World) (handle : Hid) : World :=
  { w with
    interface := if (w.handles handle).isLink then w.interface.globalInterfaceAttachDevice none none DEFAULT_MTU
      else w.interface }

/-- A thread takes the free core lock. -/
def lockCore (w : World) (thread : Tid) : Option World :=
  match w.core with
  | some _ => none
  | none =>
      let locked := { w with core := some (.app thread) }
      match w.pcs thread with
      | .attach mtu => some (locked.setPc thread (.attaching mtu))
      | .listen => some (locked.setPc thread .listening)
      | .close handle thenFree => some ((locked.detach handle).setPc thread (.closing handle thenFree))
      | .stack => some (locked.setPc thread .inStack)
      | _ => none

def unlockCore (w : World) : World := { w with core := none }

/-- The attach fails while a device is attached, and otherwise creates a link and attaches it. -/
def linkAttach (w : World) (thread : Tid) (mtu : Int) : World :=
  if w.interface.globalInterfaceIsAttached then w.unlockCore.finish thread (.attached none)
  else
    let created := w.setHandle w.nextHandle (.create (.link false mtu))
    { created.unlockCore.finish thread (.attached (some w.nextHandle)) with
      nextHandle := w.nextHandle + 1
      interface := w.interface.globalInterfaceAttachDevice (some .ifOutput) (some w.nextHandle) mtu }

/-- The listen fails while another pcb holds the any-port, and otherwise creates a handle with a bound pcb. -/
def udpConnListen (w : World) (thread : Tid) : World :=
  if w.udpPcbs.isEmpty then
    let created := w.setHandle w.nextHandle (.create (.udp (some w.nextPcb)))
    { created.unlockCore.finish thread (.listened (some w.nextHandle)) with
      nextHandle := w.nextHandle + 1
      udpPcbs := [⟨w.nextPcb, w.nextHandle⟩]
      nextPcb := w.nextPcb + 1 }
  else { w.unlockCore.finish thread (.listened none) with nextPcb := w.nextPcb + 1 }

/-- The holder of the core lock runs its short critical section or leaves the stack. -/
def coreStep (w : World) (thread : Tid) : Option World :=
  match w.pcs thread with
  | .attaching mtu => some (w.linkAttach thread mtu)
  | .listening => some (w.udpConnListen thread)
  | .inStack => if w.callback.isNone then some (w.unlockCore.setPc thread .idle) else none
  | _ => none

/-- A writer takes the free tx mutex. -/
def lockTx (w : World) (thread : Tid) : Option World :=
  match w.pcs thread with
  | .write handle write =>
      match (w.handles handle).txMutex with
      | some _ => none
      | none =>
          some ((w.setHandle handle { w.handles handle with txMutex := some (.write thread write) }).setPc thread
            (.writing handle))
  | _ => none

/-- The writer leaves the tx mutex and returns the size. -/
def writeReturn (w : World) (handle : Hid) (value : Handle) (thread : Tid) (size : Int) : World :=
  (w.setHandle handle { value with txMutex := none }).finish thread (.wrote handle size)

/-- The holder of the tx mutex takes its next step, where a post may fail. -/
def txStep (w : World) (handle : Hid) (posts : Bool) : Option World :=
  let value := w.handles handle
  match value.txMutex with
  | none => none
  | some (.write thread write) =>
      if value.refusesWrite then some ((w.free [write.packet]).writeReturn handle value thread (-1))
      else
        some ((w.free (value.tx.evicted write.packet)).setHandle handle
          (value.appendTx write write.buffer.length thread))
  | some (.appended thread size) =>
      if value.txPolling = 0 ∧ posts = true then
        some { w.setHandle handle { value with txMutex := some (.posted thread size) } with
          mailbox := w.mailbox ++ [handle] }
      else some (w.writeReturn handle value thread size)
  | some (.posted thread size) => some (w.writeReturn handle { value with txPolling := 1 } thread size)
  | some .poll => some { w.setHandle handle value.pollTx with poll := .injecting handle value.pollArray }

/-- A reader, a woken reader or a closing thread takes the free rx mutex. -/
def lockRx (w : World) (thread : Tid) : Option World :=
  match w.pcs thread with
  | .read handle size =>
      match (w.handles handle).rxMutex with
      | some _ => none
      | none =>
          some ((w.setHandle handle { w.handles handle with rxMutex := some (.read thread size) }).setPc thread
            (.reading handle))
  | .sleeping handle size =>
      match (w.handles handle).rxMutex with
      | some _ => none
      | none =>
          if thread ∈ (w.handles handle).rxNotified then
            some ((w.setHandle handle { w.handles handle with
              rxMutex := some (.read thread size)
              rxNotified := (w.handles handle).rxNotified.erase thread }).setPc thread (.reading handle))
          else none
  | .closing handle thenFree =>
      match (w.handles handle).rxMutex with
      | some _ => none
      | none =>
          some ((w.setHandle handle { w.handles handle with rxMutex := some (.close thread thenFree) }).setPc thread
            (.closingLocked handle))
  | _ => none

/-- The result of a reader that took a packet. -/
def readResult (w : World) (handle : Hid) (size : Int) : Return :=
  let pbuf := (w.handles handle).readSource.map Packet.pbuf
  if (w.handles handle).isLink then
    let copied := linkReadCopy pbuf size
    .linkRead handle copied.1 copied.2
  else
    let copied := udpConnRecvCopy pbuf size
    .udpConnRecv handle copied.1 copied.2

/-- The reader copies the packet out of the lock and frees it. -/
def readReturn (w : World) (handle : Hid) (thread : Tid) (size : Int) : World :=
  ((w.free (w.handles handle).readSource.toList).setHandle handle ((w.handles handle).takeRx thread)).finish thread
    (w.readResult handle size)

/-- The close of a UDP handle removes its pcb from the stack. -/
def removePcb (w : World) (handle : Hid) : World :=
  { w with
    udpPcbs := match (w.handles handle).endpoint with
      | .udp (some pcb) => w.udpPcbs.filter (·.id ≠ pcb)
      | _ => w.udpPcbs }

/-- The close leaves all its locks, and udp_conn_free goes on to free the handle. -/
def closeReturn (w : World) (handle : Hid) (thread : Tid) (thenFree : Bool) : World :=
  { ((w.removePcb handle).setHandle handle (w.handles handle).closeRx).unlockCore.setPc thread
      (if thenFree then .freeing handle else .idle) with
    returns := w.returns ++ (if thenFree then [] else [(thread, .closed handle)]) }

/-- The holder of the rx mutex takes its next step, where a signal may wake several waiters. -/
def rxStep (w : World) (handle : Hid) (woken : List Tid) : Option World :=
  let value := w.handles handle
  match value.rxMutex with
  | none => none
  | some (.read thread size) =>
      if value.rx.length = 0 then
        if value.isClosed then
          some ((w.setHandle handle { value with rxMutex := none }).finish thread (.readClosed handle))
        else some ((w.setHandle handle (value.waitRx thread)).setPc thread (.sleeping handle size))
      else some (w.readReturn handle thread size)
  | some (.deliver packet) =>
      if value.signals woken then
        some { (w.free (value.rx.evicted packet)).setHandle handle (value.deliverRx packet woken) with callback := none }
      else none
  | some (.close thread thenFree) =>
      match value.txMutex with
      | some _ => none
      | none => some (w.closeReturn handle thread thenFree)

/-- A waiter may wake without a signal. -/
def spuriousWake (w : World) (handle : Hid) (thread : Tid) : Option World :=
  let value := w.handles handle
  if thread ∈ value.rxWaiting then
    some (w.setHandle handle { value with
      rxWaiting := value.rxWaiting.erase thread
      rxNotified := value.rxNotified ++ [thread] })
  else none

/-- The second half of udp_conn_free releases the memory. -/
def finishFree (w : World) (thread : Tid) : Option World :=
  match w.pcs thread with
  | .freeing handle =>
      some ((w.setHandle handle { w.handles handle with freed := true }).finish thread (.freed handle))
  | _ => none

/-- The idle tcpip thread takes the oldest posted callback. -/
def fetch (w : World) : Option World :=
  match w.poll, w.mailbox with
  | .idle, handle :: rest => some { w with poll := .fetched handle, mailbox := rest }
  | _, _ => none

def pollLockCore (w : World) : Option World :=
  match w.poll, w.core with
  | .fetched handle, none => some { w with poll := .locking handle, core := some .tcpip }
  | _, _ => none

def pollLockTx (w : World) : Option World :=
  match w.poll with
  | .locking handle =>
      match (w.handles handle).txMutex with
      | some _ => none
      | none =>
          some { w.setHandle handle { w.handles handle with txMutex := some .poll } with poll := .popping handle }
  | _ => none

/-- The packet of a link goes to the input function of the interface, which takes it over. -/
def globalInterfaceInjectPacket (w : World) (handle : Hid) (entry : Option Packet) : World :=
  w.setHandle handle ((w.handles handle).logInjected entry.toList)

/-- The packet of a UDP handle is stripped of its record, sent while the pcb is there, and freed. -/
def udpPollTxSend (w : World) (handle : Hid) (packet : Packet) : World :=
  (w.free [packet]).setHandle handle ((w.handles handle).logSent packet)

/-- The poll hands out its next packet, or ends and releases the core lock. -/
def inject (w : World) : Option World :=
  match w.poll, w.callback with
  | .injecting handle (entry :: rest), none =>
      let next := { w with poll := .injecting handle rest }
      if (w.handles handle).isLink then some (next.globalInterfaceInjectPacket handle entry)
      else
        match entry with
        | none => none
        | some packet => some (next.udpPollTxSend handle packet)
  | .injecting _ [], none => some { w.unlockCore with poll := .idle }
  | _, _ => none

/-- The stack runs when the holder of the core lock is inside it and not inside a callback. -/
def stackActive (w : World) : Bool :=
  match w.callback, w.core with
  | none, some .tcpip =>
      match w.poll with
      | .injecting _ _ => true
      | _ => false
  | none, some (.app thread) =>
      match w.pcs thread with
      | .inStack => true
      | _ => false
  | _, _ => false

/-- The stack enters a callback of the handle with a packet. -/
def enterCallback (w : World) (handle : Hid) (p : Pbuf) : World :=
  { w with callback := some ⟨handle, w.nextSerial, p⟩, nextSerial := w.nextSerial + 1 }

/-- The stack puts a packet out on the interface. -/
def output (w : World) (p : Pbuf) : Option World :=
  if w.stackActive then
    match w.interface.globalIfOutput with
    | none => some w
    | some handle => some (w.enterCallback handle p)
  else none

/-- The stack hands a datagram to the callback of a bound pcb, which gives up without memory. -/
def receive (w : World) (pcb : UdpPcb) (metadata : UdpMetadata) (p : Pbuf) (memory : Bool) : Option World :=
  if w.stackActive && w.udpPcbs.any (fun bound => bound.id = pcb.id ∧ bound.recvArg = pcb.recvArg) then
    if memory then
      match udpOnReceivedBuffer metadata p with
      | none => some w
      | some buffer => some (w.enterCallback pcb.recvArg buffer)
    else some w
  else none

def callbackLockRx (w : World) : Option World :=
  match w.callback with
  | none => none
  | some callback =>
      let value := w.handles callback.handle
      match value.rxMutex with
      | some _ => none
      | none => some (w.setHandle callback.handle { value with rxMutex := some (.deliver callback.packet) })

/-- Each action runs the code that it names. -/
def step (w : World) : Act → Option World
  | .call thread call =>
      match w.pcs thread with
      | .idle => w.startCall thread call
      | _ => none
  | .lockCore thread => w.lockCore thread
  | .coreStep thread => w.coreStep thread
  | .lockTx thread => w.lockTx thread
  | .txStep handle posts => w.txStep handle posts
  | .lockRx thread => w.lockRx thread
  | .rxStep handle woken => w.rxStep handle woken
  | .spuriousWake handle thread => w.spuriousWake handle thread
  | .finishFree thread => w.finishFree thread
  | .fetch => w.fetch
  | .pollLockCore => w.pollLockCore
  | .pollLockTx => w.pollLockTx
  | .inject => w.inject
  | .output p => w.output p
  | .receive pcb metadata p memory => w.receive pcb metadata p memory
  | .callbackLockRx => w.callbackLockRx

/-- The library machine starts in the initialized world. -/
def machine : Machine World Act := ⟨fun w => w = init, step⟩

end World

end Tun2Socket.Native
