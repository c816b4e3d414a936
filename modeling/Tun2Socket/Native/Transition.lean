import Tun2Socket.Native.World

namespace Tun2Socket.Native
open Lwip Library

/-- The handle that a running call is about. -/
def Pc.handle : Pc → Option Hid
  | .write handle _ => some handle
  | .writing handle => some handle
  | .read handle _ => some handle
  | .reading handle => some handle
  | .sleeping handle _ => some handle
  | .close handle _ => some handle
  | .closing handle _ => some handle
  | .closingLocked handle => some handle
  | .freeing handle => some handle
  | _ => none

/-- The handle that a call names. -/
def Call.handle : Call → Option Hid
  | .linkWrite handle _ => some handle
  | .linkRead handle _ => some handle
  | .linkClose handle => some handle
  | .linkFree handle => some handle
  | .udpConnSendto handle _ _ _ => some handle
  | .udpConnRecv handle _ => some handle
  | .udpConnClose handle => some handle
  | .udpConnFree handle => some handle
  | _ => none

namespace World

/-- The first point of a call that needs an allocated handle or none. -/
inductive Entry (w : World) : Pc → Prop
  | attach (mtu : Int) : Entry w (.attach mtu)
  | listen : Entry w .listen
  | stack : Entry w .stack
  | read (handle : Hid) (size : Int) (known : handle < w.nextHandle) : Entry w (.read handle size)
  | close (handle : Hid) (thenFree : Bool) (known : handle < w.nextHandle) : Entry w (.close handle thenFree)

/-- The relation lists everything that one action can do. -/
inductive Transition : World → Act → World → Prop
  | enter {w : World} {thread : Tid} {call : Call} {pc : Pc} (names : pc.handle = call.handle)
      (idle : w.pcs thread = .idle) (entry : w.Entry pc) :
      Transition w (.call thread call) (w.setPc thread pc)
  | startWrite {w : World} {thread : Tid} {call : Call} {handle : Hid} {write : Write}
      (names : call.handle = some handle) (idle : w.pcs thread = .idle) (known : handle < w.nextHandle) (serial : write.serial = w.nextSerial)
      (kind : (w.handles handle).isLink = write.metadata.isNone) :
      Transition w (.call thread call)
        { w.setPc thread (.write handle write) with nextSerial := w.nextSerial + 1 }
  | refuseCall {w : World} {thread : Tid} {call : Call} {handle : Hid} (idle : w.pcs thread = .idle) :
      Transition w (.call thread call) (w.finish thread (.wrote handle (-1)))
  | linkFree {w : World} {thread : Tid} {handle : Hid} (idle : w.pcs thread = .idle)
      (known : handle < w.nextHandle) (link : (w.handles handle).isLink = true) :
      Transition w (.call thread (.linkFree handle))
        ((w.setHandle handle { w.handles handle with freed := true }).finish thread (.freed handle))
  | lockAttach {w : World} {thread : Tid} {mtu : Int} (open' : w.core = none) (pc : w.pcs thread = .attach mtu) :
      Transition w (.lockCore thread) ({ w with core := some (.app thread) }.setPc thread (.attaching mtu))
  | lockListen {w : World} {thread : Tid} (open' : w.core = none) (pc : w.pcs thread = .listen) :
      Transition w (.lockCore thread) ({ w with core := some (.app thread) }.setPc thread .listening)
  | lockClose {w : World} {thread : Tid} {handle : Hid} {thenFree : Bool} (open' : w.core = none)
      (pc : w.pcs thread = .close handle thenFree) :
      Transition w (.lockCore thread)
        ((({ w with core := some (.app thread) }).detach handle).setPc thread (.closing handle thenFree))
  | lockStack {w : World} {thread : Tid} (open' : w.core = none) (pc : w.pcs thread = .stack) :
      Transition w (.lockCore thread) ({ w with core := some (.app thread) }.setPc thread .inStack)
  | attachFail {w : World} {thread : Tid} {mtu : Int} (pc : w.pcs thread = .attaching mtu)
      (attached : w.interface.globalInterfaceIsAttached = true) :
      Transition w (.coreStep thread) (w.unlockCore.finish thread (.attached none))
  | attach {w : World} {thread : Tid} {mtu : Int} (pc : w.pcs thread = .attaching mtu)
      (detached : w.interface.globalInterfaceIsAttached = false) :
      Transition w (.coreStep thread)
        { (w.setHandle w.nextHandle (.create (.link false mtu))).unlockCore.finish thread
            (.attached (some w.nextHandle)) with
          nextHandle := w.nextHandle + 1
          interface := w.interface.globalInterfaceAttachDevice (some .ifOutput) (some w.nextHandle) mtu }
  | listenFail {w : World} {thread : Tid} (pc : w.pcs thread = .listening) (bound : w.udpPcbs ≠ []) :
      Transition w (.coreStep thread)
        { w.unlockCore.finish thread (.listened none) with nextPcb := w.nextPcb + 1 }
  | listen {w : World} {thread : Tid} (pc : w.pcs thread = .listening) (unbound : w.udpPcbs = []) :
      Transition w (.coreStep thread)
        { (w.setHandle w.nextHandle (.create (.udp (some w.nextPcb)))).unlockCore.finish thread
            (.listened (some w.nextHandle)) with
          nextHandle := w.nextHandle + 1
          udpPcbs := [⟨w.nextPcb, w.nextHandle⟩]
          nextPcb := w.nextPcb + 1 }
  | leaveStack {w : World} {thread : Tid} (pc : w.pcs thread = .inStack) (outside : w.callback = none) :
      Transition w (.coreStep thread) (w.unlockCore.setPc thread .idle)
  | lockTx {w : World} {thread : Tid} {handle : Hid} {write : Write} (pc : w.pcs thread = .write handle write)
      (unlocked : (w.handles handle).txMutex = none) :
      Transition w (.lockTx thread)
        ((w.setHandle handle { w.handles handle with txMutex := some (.write thread write) }).setPc thread
          (.writing handle))
  | refuse {w : World} {thread : Tid} {handle : Hid} {write : Write} {posts : Bool}
      (inside : (w.handles handle).txMutex = some (.write thread write))
      (refused : (w.handles handle).refusesWrite = true) :
      Transition w (.txStep handle posts)
        ((w.free [write.packet]).writeReturn handle (w.handles handle) thread (-1))
  | append {w : World} {thread : Tid} {handle : Hid} {write : Write} {posts : Bool}
      (inside : (w.handles handle).txMutex = some (.write thread write))
      (accepted : (w.handles handle).refusesWrite = false) :
      Transition w (.txStep handle posts)
        ((w.free ((w.handles handle).tx.evicted write.packet)).setHandle handle
          ((w.handles handle).appendTx write write.buffer.length thread))
  | post {w : World} {thread : Tid} {handle : Hid} {size : Nat}
      (inside : (w.handles handle).txMutex = some (.appended thread size))
      (polling : (w.handles handle).txPolling = 0) :
      Transition w (.txStep handle true)
        { w.setHandle handle { w.handles handle with txMutex := some (.posted thread size) } with
          mailbox := w.mailbox ++ [handle] }
  | postNone {w : World} {thread : Tid} {handle : Hid} {size : Nat} {posts : Bool}
      (inside : (w.handles handle).txMutex = some (.appended thread size))
      (polling : (w.handles handle).txPolling ≠ 0 ∨ posts = false) :
      Transition w (.txStep handle posts) (w.writeReturn handle (w.handles handle) thread size)
  | setPolling {w : World} {thread : Tid} {handle : Hid} {size : Nat} {posts : Bool}
      (inside : (w.handles handle).txMutex = some (.posted thread size)) :
      Transition w (.txStep handle posts)
        (w.writeReturn handle { w.handles handle with txPolling := 1 } thread size)
  | pollPop {w : World} {handle : Hid} {posts : Bool} (inside : (w.handles handle).txMutex = some .poll) :
      Transition w (.txStep handle posts)
        { w.setHandle handle (w.handles handle).pollTx with
          poll := .injecting handle (w.handles handle).pollArray }
  | lockRead {w : World} {thread : Tid} {handle : Hid} {size : Int} (pc : w.pcs thread = .read handle size)
      (unlocked : (w.handles handle).rxMutex = none) :
      Transition w (.lockRx thread)
        ((w.setHandle handle { w.handles handle with rxMutex := some (.read thread size) }).setPc thread
          (.reading handle))
  | relock {w : World} {thread : Tid} {handle : Hid} {size : Int} (pc : w.pcs thread = .sleeping handle size)
      (unlocked : (w.handles handle).rxMutex = none) (notified : thread ∈ (w.handles handle).rxNotified) :
      Transition w (.lockRx thread)
        ((w.setHandle handle { w.handles handle with
          rxMutex := some (.read thread size)
          rxNotified := (w.handles handle).rxNotified.erase thread }).setPc thread (.reading handle))
  | lockClosing {w : World} {thread : Tid} {handle : Hid} {thenFree : Bool}
      (pc : w.pcs thread = .closing handle thenFree) (unlocked : (w.handles handle).rxMutex = none) :
      Transition w (.lockRx thread)
        ((w.setHandle handle { w.handles handle with rxMutex := some (.close thread thenFree) }).setPc thread
          (.closingLocked handle))
  | readClosed {w : World} {thread : Tid} {handle : Hid} {size : Int} {woken : List Tid}
      (inside : (w.handles handle).rxMutex = some (.read thread size))
      (empty : (w.handles handle).rx.packets = []) (closed : (w.handles handle).isClosed = true) :
      Transition w (.rxStep handle woken)
        ((w.setHandle handle { w.handles handle with rxMutex := none }).finish thread (.readClosed handle))
  | wait {w : World} {thread : Tid} {handle : Hid} {size : Int} {woken : List Tid}
      (inside : (w.handles handle).rxMutex = some (.read thread size))
      (empty : (w.handles handle).rx.packets = []) (opened : (w.handles handle).isClosed = false) :
      Transition w (.rxStep handle woken)
        ((w.setHandle handle ((w.handles handle).waitRx thread)).setPc thread (.sleeping handle size))
  | take {w : World} {thread : Tid} {handle : Hid} {size : Int} {woken : List Tid}
      (inside : (w.handles handle).rxMutex = some (.read thread size))
      (filled : (w.handles handle).rx.packets ≠ []) :
      Transition w (.rxStep handle woken) (w.readReturn handle thread size)
  | deliver {w : World} {handle : Hid} {packet : Packet} {woken : List Tid}
      (inside : (w.handles handle).rxMutex = some (.deliver packet))
      (signals : (w.handles handle).signals woken = true) :
      Transition w (.rxStep handle woken)
        { (w.free ((w.handles handle).rx.evicted packet)).setHandle handle
            ((w.handles handle).deliverRx packet woken) with callback := none }
  | closeReturn {w : World} {thread : Tid} {handle : Hid} {thenFree : Bool} {woken : List Tid}
      (inside : (w.handles handle).rxMutex = some (.close thread thenFree))
      (unlocked : (w.handles handle).txMutex = none) :
      Transition w (.rxStep handle woken) (w.closeReturn handle thread thenFree)
  | spuriousWake {w : World} {handle : Hid} {thread : Tid} (waiting : thread ∈ (w.handles handle).rxWaiting) :
      Transition w (.spuriousWake handle thread)
        (w.setHandle handle { w.handles handle with
          rxWaiting := (w.handles handle).rxWaiting.erase thread
          rxNotified := (w.handles handle).rxNotified ++ [thread] })
  | finishFree {w : World} {thread : Tid} {handle : Hid} (pc : w.pcs thread = .freeing handle) :
      Transition w (.finishFree thread)
        ((w.setHandle handle { w.handles handle with freed := true }).finish thread (.freed handle))
  | fetch {w : World} {handle : Hid} {rest : List Hid} (idle : w.poll = .idle) (mailbox : w.mailbox = handle :: rest) :
      Transition w .fetch { w with poll := .fetched handle, mailbox := rest }
  | pollLockCore {w : World} {handle : Hid} (poll : w.poll = .fetched handle) (open' : w.core = none) :
      Transition w .pollLockCore { w with poll := .locking handle, core := some .tcpip }
  | pollLockTx {w : World} {handle : Hid} (poll : w.poll = .locking handle)
      (unlocked : (w.handles handle).txMutex = none) :
      Transition w .pollLockTx
        { w.setHandle handle { w.handles handle with txMutex := some .poll } with poll := .popping handle }
  | injectLink {w : World} {handle : Hid} {entry : Option Packet} {rest : List (Option Packet)}
      (poll : w.poll = .injecting handle (entry :: rest)) (outside : w.callback = none)
      (link : (w.handles handle).isLink = true) :
      Transition w .inject ({ w with poll := .injecting handle rest }.globalInterfaceInjectPacket handle entry)
  | injectUdp {w : World} {handle : Hid} {packet : Packet} {rest : List (Option Packet)}
      (poll : w.poll = .injecting handle (some packet :: rest)) (outside : w.callback = none)
      (udp : (w.handles handle).isLink = false) :
      Transition w .inject ({ w with poll := .injecting handle rest }.udpPollTxSend handle packet)
  | pollDone {w : World} {handle : Hid} (poll : w.poll = .injecting handle []) (outside : w.callback = none) :
      Transition w .inject { w.unlockCore with poll := .idle }
  | outputNone {w : World} {p : Pbuf} : Transition w (.output p) w
  | output {w : World} {handle : Hid} {p : Pbuf} (active : w.stackActive = true)
      (attached : w.interface.globalIfOutput = some handle) :
      Transition w (.output p) (w.enterCallback handle p)
  | receiveNone {w : World} {pcb : UdpPcb} {metadata : UdpMetadata} {p : Pbuf} {memory : Bool} :
      Transition w (.receive pcb metadata p memory) w
  | receive {w : World} {pcb : UdpPcb} {metadata : UdpMetadata} {p buffer : Pbuf} {memory : Bool}
      (active : w.stackActive = true) (bound : pcb ∈ w.udpPcbs) :
      Transition w (.receive pcb metadata p memory) (w.enterCallback pcb.recvArg buffer)
  | callbackLockRx {w : World} {callback : Callback} (called : w.callback = some callback)
      (unlocked : (w.handles callback.handle).rxMutex = none) :
      Transition w .callbackLockRx
        (w.setHandle callback.handle { w.handles callback.handle with rxMutex := some (.deliver callback.packet) })

theorem isLink_iff {w : World} {handle : Hid} :
    w.isLink handle = true ↔ handle < w.nextHandle ∧ (w.handles handle).isLink = true := by
  simp [isLink]

theorem isUdp_iff {w : World} {handle : Hid} :
    w.isUdp handle = true ↔ handle < w.nextHandle ∧ (w.handles handle).isLink = false := by
  simp [isUdp]

theorem startWrite_transition {w next : World} {thread : Tid} {call : Call} {handle : Hid}
    {metadata : Option UdpMetadata} {buffer : Bytes} (names : call.handle = some handle)
    (idle : w.pcs thread = .idle) (known : handle < w.nextHandle) (kind : (w.handles handle).isLink = metadata.isNone)
    (started : w.startWrite thread handle metadata buffer = some next) : Transition w (.call thread call) next := by
  unfold startWrite at started
  split at started
  · cases started
  · obtain rfl := Option.some.inj started
    exact .startWrite names idle known rfl kind

/-- A started call is one of the listed transitions. -/
theorem startCall_transition {w next : World} {thread : Tid} {call : Call} (idle : w.pcs thread = .idle)
    (started : w.startCall thread call = some next) : Transition w (.call thread call) next := by
  cases call with
  | linkAttach mtu =>
      obtain rfl := Option.some.inj started
      exact .enter rfl idle (.attach mtu)
  | linkWrite handle buffer =>
      simp only [startCall] at started
      split_ifs at started with link
      have found := isLink_iff.mp link
      exact startWrite_transition rfl idle found.1 (by simpa using found.2) started
  | linkRead handle size =>
      simp only [startCall] at started
      split_ifs at started with link
      obtain rfl := Option.some.inj started
      exact .enter rfl idle (.read handle size (isLink_iff.mp link).1)
  | linkClose handle =>
      simp only [startCall] at started
      split_ifs at started with link
      obtain rfl := Option.some.inj started
      exact .enter rfl idle (.close handle false (isLink_iff.mp link).1)
  | linkFree handle =>
      simp only [startCall] at started
      split_ifs at started with link
      obtain rfl := Option.some.inj started
      exact .linkFree idle (isLink_iff.mp link).1 (isLink_iff.mp link).2
  | udpConnListen =>
      obtain rfl := Option.some.inj started
      exact .enter rfl idle .listen
  | udpConnSendto handle metadata buffer memory =>
      simp only [startCall] at started
      split_ifs at started with udp closed failed
      · obtain rfl := Option.some.inj started
        exact .refuseCall idle
      · obtain rfl := Option.some.inj started
        exact .refuseCall idle
      · have found := isUdp_iff.mp udp
        exact startWrite_transition rfl idle found.1 (by simpa using found.2) started
  | udpConnRecv handle size =>
      simp only [startCall] at started
      split_ifs at started with udp
      obtain rfl := Option.some.inj started
      exact .enter rfl idle (.read handle size (isUdp_iff.mp udp).1)
  | udpConnClose handle =>
      simp only [startCall] at started
      split_ifs at started with udp
      obtain rfl := Option.some.inj started
      exact .enter rfl idle (.close handle false (isUdp_iff.mp udp).1)
  | udpConnFree handle =>
      simp only [startCall] at started
      split_ifs at started with udp
      obtain rfl := Option.some.inj started
      exact .enter rfl idle (.close handle true (isUdp_iff.mp udp).1)
  | stack =>
      obtain rfl := Option.some.inj started
      exact .enter rfl idle .stack

theorem lockCore_transition {w next : World} {thread : Tid} (locked : w.lockCore thread = some next) :
    Transition w (.lockCore thread) next := by
  unfold lockCore at locked
  split at locked
  · cases locked
  · rename_i free
    split at locked
    · obtain rfl := Option.some.inj locked
      exact .lockAttach free ‹_›
    · obtain rfl := Option.some.inj locked
      exact .lockListen free ‹_›
    · obtain rfl := Option.some.inj locked
      exact .lockClose free ‹_›
    · obtain rfl := Option.some.inj locked
      exact .lockStack free ‹_›
    · cases locked

theorem coreStep_transition {w next : World} {thread : Tid} (stepped : w.coreStep thread = some next) :
    Transition w (.coreStep thread) next := by
  unfold coreStep at stepped
  split at stepped
  · obtain rfl := Option.some.inj stepped
    unfold linkAttach
    split_ifs with attached
    · exact .attachFail ‹_› attached
    · exact .attach ‹_› (by simpa using attached)
  · obtain rfl := Option.some.inj stepped
    unfold udpConnListen
    split_ifs with unbound
    · exact .listen ‹_› (by simpa using unbound)
    · exact .listenFail ‹_› (by simpa using unbound)
  · split_ifs at stepped with outside
    obtain rfl := Option.some.inj stepped
    exact .leaveStack ‹_› (by simpa using outside)
  · cases stepped

theorem lockTx_transition {w next : World} {thread : Tid} (locked : w.lockTx thread = some next) :
    Transition w (.lockTx thread) next := by
  unfold lockTx at locked
  split at locked
  · split at locked
    · cases locked
    · obtain rfl := Option.some.inj locked
      exact .lockTx ‹_› ‹_›
  · cases locked

theorem txStep_transition {w next : World} {handle : Hid} {posts : Bool}
    (stepped : w.txStep handle posts = some next) : Transition w (.txStep handle posts) next := by
  unfold txStep at stepped
  dsimp only at stepped
  split at stepped
  · cases stepped
  · split_ifs at stepped with refused
    · obtain rfl := Option.some.inj stepped
      exact .refuse ‹_› refused
    · obtain rfl := Option.some.inj stepped
      exact .append ‹_› (by simpa using refused)
  · split_ifs at stepped with posting
    · obtain ⟨polling, rfl⟩ := posting
      obtain rfl := Option.some.inj stepped
      exact .post ‹_› polling
    · obtain rfl := Option.some.inj stepped
      refine .postNone ‹_› ?_
      by_contra neither
      simp only [not_or, not_not, Bool.not_eq_false] at neither
      exact posting neither
  · obtain rfl := Option.some.inj stepped
    exact .setPolling ‹_›
  · obtain rfl := Option.some.inj stepped
    exact .pollPop ‹_›

theorem lockRx_transition {w next : World} {thread : Tid} (locked : w.lockRx thread = some next) :
    Transition w (.lockRx thread) next := by
  unfold lockRx at locked
  split at locked
  · split at locked
    · cases locked
    · obtain rfl := Option.some.inj locked
      exact .lockRead ‹_› ‹_›
  · split at locked
    · cases locked
    · split_ifs at locked with notified
      obtain rfl := Option.some.inj locked
      exact .relock ‹_› ‹_› notified
  · split at locked
    · cases locked
    · obtain rfl := Option.some.inj locked
      exact .lockClosing ‹_› ‹_›
  · cases locked

theorem rxStep_transition {w next : World} {handle : Hid} {woken : List Tid}
    (stepped : w.rxStep handle woken = some next) : Transition w (.rxStep handle woken) next := by
  unfold rxStep at stepped
  dsimp only at stepped
  split at stepped
  · cases stepped
  · split_ifs at stepped with empty closed
    · obtain rfl := Option.some.inj stepped
      exact .readClosed ‹_› (by simpa using empty) closed
    · obtain rfl := Option.some.inj stepped
      exact .wait ‹_› (by simpa using empty) (by simpa using closed)
    · obtain rfl := Option.some.inj stepped
      exact .take ‹_› (by simpa using empty)
  · split_ifs at stepped with signals
    obtain rfl := Option.some.inj stepped
    exact .deliver ‹_› signals
  · split at stepped
    · cases stepped
    · obtain rfl := Option.some.inj stepped
      exact .closeReturn ‹_› ‹_›

theorem inject_transition {w next : World} (stepped : w.inject = some next) : Transition w .inject next := by
  unfold inject at stepped
  split at stepped
  · dsimp only at stepped
    split_ifs at stepped with link
    · obtain rfl := Option.some.inj stepped
      exact .injectLink ‹_› ‹_› link
    · split at stepped
      · cases stepped
      · obtain rfl := Option.some.inj stepped
        exact .injectUdp ‹_› ‹_› (by simpa using link)
  · obtain rfl := Option.some.inj stepped
    exact .pollDone ‹_› ‹_›
  · cases stepped

theorem receive_transition {w next : World} {pcb : UdpPcb} {metadata : UdpMetadata} {p : Pbuf} {memory : Bool}
    (stepped : w.receive pcb metadata p memory = some next) :
    Transition w (.receive pcb metadata p memory) next := by
  unfold receive at stepped
  split_ifs at stepped with guard holds
  · simp only [Bool.and_eq_true, List.any_eq_true, decide_eq_true_eq] at guard
    obtain ⟨active, bound, member, sameId, sameArg⟩ := guard
    have found : pcb ∈ w.udpPcbs := by
      cases bound
      cases pcb
      simp only at sameId sameArg
      rwa [← sameId, ← sameArg]
    split at stepped
    · obtain rfl := Option.some.inj stepped
      exact .receiveNone
    · obtain rfl := Option.some.inj stepped
      exact .receive active found
  · obtain rfl := Option.some.inj stepped
    exact .receiveNone

/-- Every step of the machine is one of the listed transitions. -/
theorem step_transition {w next : World} {act : Act} (stepped : w.step act = some next) :
    Transition w act next := by
  cases act with
  | call thread call =>
      simp only [step] at stepped
      split at stepped
      · exact startCall_transition ‹_› stepped
      · cases stepped
  | lockCore thread => exact lockCore_transition stepped
  | coreStep thread => exact coreStep_transition stepped
  | lockTx thread => exact lockTx_transition stepped
  | txStep handle posts => exact txStep_transition stepped
  | lockRx thread => exact lockRx_transition stepped
  | rxStep handle woken => exact rxStep_transition stepped
  | spuriousWake handle thread =>
      simp only [step, spuriousWake] at stepped
      split_ifs at stepped with waiting
      obtain rfl := Option.some.inj stepped
      exact .spuriousWake waiting
  | finishFree thread =>
      simp only [step, finishFree] at stepped
      split at stepped
      · obtain rfl := Option.some.inj stepped
        exact .finishFree ‹_›
      · cases stepped
  | fetch =>
      simp only [step, fetch] at stepped
      split at stepped
      · obtain rfl := Option.some.inj stepped
        exact .fetch ‹_› ‹_›
      · cases stepped
  | pollLockCore =>
      simp only [step, pollLockCore] at stepped
      split at stepped
      · obtain rfl := Option.some.inj stepped
        exact .pollLockCore ‹_› ‹_›
      · cases stepped
  | pollLockTx =>
      simp only [step, pollLockTx] at stepped
      split at stepped
      · split at stepped
        · cases stepped
        · obtain rfl := Option.some.inj stepped
          exact .pollLockTx ‹_› ‹_›
      · cases stepped
  | inject => exact inject_transition stepped
  | output p =>
      simp only [step, output] at stepped
      split_ifs at stepped with active
      split at stepped
      · obtain rfl := Option.some.inj stepped
        exact .outputNone
      · obtain rfl := Option.some.inj stepped
        exact .output active ‹_›
  | receive pcb metadata p memory => exact receive_transition stepped
  | callbackLockRx =>
      simp only [step, callbackLockRx] at stepped
      split at stepped
      · cases stepped
      · split at stepped
        · cases stepped
        · obtain rfl := Option.some.inj stepped
          exact .callbackLockRx ‹_› ‹_›

end World

end Tun2Socket.Native
