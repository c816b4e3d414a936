import Tun2Socket.Native.Transmit

namespace Tun2Socket.Native
open Lwip Library

/-- The receive side of one handle, as its readers and the delivering callbacks see it. -/
structure RxView where
  closed : Bool
  queue : List Packet
  holder : Option RxSection
  waiting : List Tid
  notified : List Tid
  delivered : List Packet
  taken : List (Tid × Packet)

def RxView.ofHandle (handle : Handle) : RxView where
  closed := handle.isClosed
  queue := handle.rx.packets
  holder := handle.rxMutex
  waiting := handle.rxWaiting
  notified := handle.rxNotified
  delivered := handle.log.delivered
  taken := handle.log.taken

def World.rx (w : World) (handle : Hid) : RxView := .ofHandle (w.handles handle)

/-- The abstract receive machine of one handle. -/
inductive RxStep : RxView → RxView → Prop
  | create (endpoint : Endpoint) :
      RxStep (.ofHandle (.create (.udp none))) (.ofHandle (.create endpoint))
  | lock {view : RxView} (section' : RxSection) (unlocked : view.holder = none) :
      RxStep view { view with holder := some section' }
  | relock {view : RxView} {thread : Tid} (size : Int) (unlocked : view.holder = none)
      (notified : thread ∈ view.notified) :
      RxStep view { view with holder := some (.read thread size), notified := view.notified.erase thread }
  | readClosed {view : RxView} {thread : Tid} {size : Int} (inside : view.holder = some (.read thread size))
      (empty : view.queue = []) (closed : view.closed = true) :
      RxStep view { view with holder := none }
  | wait {view : RxView} {thread : Tid} {size : Int} (inside : view.holder = some (.read thread size))
      (empty : view.queue = []) (opened : view.closed = false) :
      RxStep view { view with holder := none, waiting := view.waiting ++ [thread] }
  | take {view : RxView} {thread : Tid} {size : Int} {packet : Packet} {rest : List Packet}
      (inside : view.holder = some (.read thread size)) (filled : view.queue = packet :: rest) :
      RxStep view { view with
        queue := rest
        holder := none
        taken := view.taken ++ [(thread, packet)] }
  | deliver {view : RxView} {packet : Packet} (woken : List Tid) (inside : view.holder = some (.deliver packet))
      (signals : view.waiting = [] ∨ ∃ thread ∈ view.waiting, thread ∈ woken) :
      RxStep view { view with
        queue := lastItems PBUF_QUEUE_LENGTH (view.queue ++ [packet])
        holder := none
        waiting := view.waiting.filter (· ∉ woken)
        notified := view.notified ++ view.waiting.filter (· ∈ woken)
        delivered := view.delivered ++ [packet] }
  | close {view : RxView} {thread : Tid} {thenFree : Bool} (inside : view.holder = some (.close thread thenFree)) :
      RxStep view { view with
        closed := true
        holder := none
        waiting := []
        notified := view.notified ++ view.waiting }
  | spuriousWake {view : RxView} {thread : Tid} (waiting : thread ∈ view.waiting) :
      RxStep view { view with
        waiting := view.waiting.erase thread
        notified := view.notified ++ [thread] }

namespace World

variable {w next : World} {act : Act}

theorem rx_update_of_ne {at' handle : Hid} (value : Handle) (apart : handle ≠ at') :
    RxView.ofHandle (Function.update w.handles at' value handle) = w.rx handle := by
  rw [Function.update_of_ne apart]
  rfl

/-- An update that keeps the receive fields of a handle keeps the view of every handle. -/
theorem rx_update_same {at' : Hid} (value : Handle) (kept : RxView.ofHandle value = w.rx at') (handle : Hid) :
    RxView.ofHandle (Function.update w.handles at' value handle) = w.rx handle := by
  by_cases here : handle = at'
  · subst here
    rw [Function.update_self, kept]
  · exact rx_update_of_ne value here

/-- A step of one handle is a receive step of its view and leaves the other views alone. -/
theorem rx_update_step {at' : Hid} {value : Handle} (moved : RxStep (w.rx at') (.ofHandle value)) (handle : Hid) :
    RxView.ofHandle (Function.update w.handles at' value handle) = w.rx handle ∨
      RxStep (w.rx handle) (.ofHandle (Function.update w.handles at' value handle)) := by
  by_cases here : handle = at'
  · subst here
    rw [Function.update_self]
    exact Or.inr moved
  · exact Or.inl (rx_update_of_ne value here)

theorem take_view {handle : Hid} {thread : Tid} {size : Int}
    (inside : (w.handles handle).rxMutex = some (.read thread size)) (filled : (w.handles handle).rx.packets ≠ []) :
    RxStep (w.rx handle) (.ofHandle ((w.handles handle).takeRx thread)) := by
  obtain ⟨packet, rest, queue⟩ := List.exists_cons_of_ne_nil filled
  have popped : (w.handles handle).rx.popped 1 = [some packet] := by
    rw [PacketQueue.popped_packets, queue]
    rfl
  have moved := RxStep.take (show (w.rx handle).holder = _ from inside) (show (w.rx handle).queue = _ from queue)
  have made : RxView.ofHandle ((w.handles handle).takeRx thread) =
      { w.rx handle with queue := rest, holder := none, taken := (w.rx handle).taken ++ [(thread, packet)] } := by
    simp only [RxView.ofHandle, Handle.takeRx, PacketQueue.pop_packets, queue, popped, rx]
    rfl
  rwa [made]

theorem deliver_view {handle : Hid} {packet : Packet} {woken : List Tid}
    (inside : (w.handles handle).rxMutex = some (.deliver packet))
    (signals : (w.handles handle).signals woken = true) :
    RxStep (w.rx handle) (.ofHandle ((w.handles handle).deliverRx packet woken)) := by
  have wakes : (w.rx handle).waiting = [] ∨ ∃ thread ∈ (w.rx handle).waiting, thread ∈ woken := by
    change (w.handles handle).rxWaiting = [] ∨ ∃ thread ∈ (w.handles handle).rxWaiting, thread ∈ woken
    simpa [Handle.signals] using signals
  have moved := RxStep.deliver woken (show (w.rx handle).holder = _ from inside) wakes
  have made : RxView.ofHandle ((w.handles handle).deliverRx packet woken) =
      { w.rx handle with
        queue := lastItems PBUF_QUEUE_LENGTH ((w.rx handle).queue ++ [packet])
        holder := none
        waiting := (w.rx handle).waiting.filter (· ∉ woken)
        notified := (w.rx handle).notified ++ (w.rx handle).waiting.filter (· ∈ woken)
        delivered := (w.rx handle).delivered ++ [packet] } := by
    simp only [RxView.ofHandle, Handle.deliverRx, PacketQueue.append_packets, rx]
    rfl
  rwa [made]

theorem close_view {handle : Hid} {thread : Tid} {thenFree : Bool}
    (inside : (w.handles handle).rxMutex = some (.close thread thenFree)) :
    RxStep (w.rx handle) (.ofHandle (w.handles handle).closeRx) := by
  have moved := RxStep.close (show (w.rx handle).holder = _ from inside)
  have made : RxView.ofHandle (w.handles handle).closeRx =
      { w.rx handle with
        closed := true
        holder := none
        waiting := []
        notified := (w.rx handle).notified ++ (w.rx handle).waiting } := by
    have closed := isClosed_closedEndpoint (w.handles handle)
    change RxView.mk _ _ _ _ _ _ _ = RxView.mk _ _ _ _ _ _ _
    congr 1
  rwa [made]

/-- Every step of the world is a receive step of each handle, or leaves its view alone. -/
theorem rx_step (sound : w.Sound) (moved : Transition w act next) (handle : Hid) :
    next.rx handle = w.rx handle ∨ RxStep (w.rx handle) (next.rx handle) := by
  cases moved
  case enter | startWrite | refuseCall | lockAttach | lockListen | lockClose | lockStack | attachFail | listenFail |
      leaveStack | fetch | pollLockCore | pollDone | outputNone | output | receiveNone | receive => exact Or.inl rfl
  case linkFree | lockTx | refuse | append | post | postNone | setPolling | pollPop | finishFree | pollLockTx |
      injectLink | injectUdp =>
    exact Or.inl (rx_update_same _ (by rfl) handle)
  case attach | listen =>
    refine rx_update_step ?_ handle
    rw [rx, sound.scope.blank w.nextHandle (Nat.le_refl _)]
    exact .create _
  case lockRead unlocked => exact rx_update_step (.lock _ unlocked) handle
  case relock unlocked notified => exact rx_update_step (.relock _ unlocked notified) handle
  case lockClosing unlocked => exact rx_update_step (.lock _ unlocked) handle
  case readClosed inside empty closed => exact rx_update_step (.readClosed inside empty closed) handle
  case wait inside empty opened => exact rx_update_step (.wait inside empty opened) handle
  case take inside filled => exact rx_update_step (take_view inside filled) handle
  case deliver inside signals => exact rx_update_step (deliver_view inside signals) handle
  case closeReturn inside _ => exact rx_update_step (close_view inside) handle
  case spuriousWake waiting => exact rx_update_step (.spuriousWake waiting) handle
  case callbackLockRx unlocked => exact rx_update_step (.lock _ unlocked) handle

end World

end Tun2Socket.Native
