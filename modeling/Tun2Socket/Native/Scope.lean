import Tun2Socket.Native.Locks

namespace Tun2Socket.Native
open Lwip Library

/-- The handle that the tcpip thread polls. -/
def Poll.handle : Poll → Option Hid
  | .idle => none
  | .fetched handle => some handle
  | .locking handle => some handle
  | .popping handle => some handle
  | .injecting handle _ => some handle

namespace World

/-- Every reference to a handle names an allocated one, and the others are blank memory. -/
structure Scoped (w : World) : Prop where
  blank : ∀ handle, w.nextHandle ≤ handle → w.handles handle = .create (.udp none)
  mailbox : ∀ handle ∈ w.mailbox, handle < w.nextHandle
  poll : ∀ handle, w.poll.handle = some handle → handle < w.nextHandle
  callback : ∀ called, w.callback = some called → called.handle < w.nextHandle
  pcs : ∀ thread handle, (w.pcs thread).handle = some handle → handle < w.nextHandle
  output : ∀ handle, w.interface.outputContext = some handle → handle < w.nextHandle
  pcbs : ∀ pcb ∈ w.udpPcbs, pcb.recvArg < w.nextHandle

theorem init_scoped : init.Scoped where
  blank := by intro handle _; rfl
  mailbox := by intro handle member; cases member
  poll := by intro handle member; cases member
  callback := by intro called member; cases member
  pcs := by intro thread handle member; cases member
  output := by intro handle member; cases member
  pcbs := by intro pcb member; cases member

namespace Scoped

variable {w next : World} {act : Act}

theorem txSection (scope : w.Scoped) (locks : w.Locks) {handle : Hid} {held : TxSection}
    (inside : (w.handles handle).txMutex = some held) : handle < w.nextHandle := by
  have owner := locks.tx handle held inside
  cases held with
  | write thread _ => exact scope.pcs thread handle (congrArg Pc.handle owner)
  | appended thread _ => exact scope.pcs thread handle (congrArg Pc.handle owner)
  | posted thread _ => exact scope.pcs thread handle (congrArg Pc.handle owner)
  | poll => exact scope.poll handle (congrArg Poll.handle owner)

theorem rxSection (scope : w.Scoped) (locks : w.Locks) {handle : Hid} {held : RxSection}
    (inside : (w.handles handle).rxMutex = some held) : handle < w.nextHandle := by
  have owner := locks.rx handle held inside
  cases held with
  | read thread _ => exact scope.pcs thread handle (congrArg Pc.handle owner)
  | deliver packet => exact scope.callback _ owner
  | close thread _ => exact scope.pcs thread handle (congrArg Pc.handle owner)

/-- Handles are never taken back. -/
theorem nextHandle_mono (moved : Transition w act next) : w.nextHandle ≤ next.nextHandle := by
  cases moved <;> first | exact Nat.le_refl _ | exact Nat.le_succ _

theorem blank_update {handle : Hid} {value : Handle} (scope : w.Scoped) (known : handle < w.nextHandle) (other : Hid)
    (beyond : w.nextHandle ≤ other) : Function.update w.handles handle value other = .create (.udp none) := by
  rw [Function.update_of_ne (Nat.ne_of_gt (Nat.lt_of_lt_of_le known beyond)), scope.blank other beyond]

theorem blank_create {value : Handle} (scope : w.Scoped) (other : Hid)
    (beyond : w.nextHandle + 1 ≤ other) : Function.update w.handles w.nextHandle value other = .create (.udp none) := by
  rw [Function.update_of_ne (Nat.ne_of_gt beyond), scope.blank other (Nat.le_of_succ_le beyond)]

theorem blank_step (scope : w.Scoped) (locks : w.Locks) (moved : Transition w act next) :
    ∀ handle, next.nextHandle ≤ handle → next.handles handle = .create (.udp none) := by
  cases moved
  case linkFree known _ => exact scope.blank_update known
  case attach | listen => exact scope.blank_create
  case lockTx pc _ => exact scope.blank_update (scope.pcs _ _ (by rw [pc]; rfl))
  case refuse inside _ | append inside _ | post inside _ | postNone inside _ | setPolling inside | pollPop inside =>
    exact scope.blank_update (scope.txSection locks inside)
  case lockRead pc _ | relock pc _ _ | lockClosing pc _ =>
    exact scope.blank_update (scope.pcs _ _ (by rw [pc]; rfl))
  case readClosed inside _ _ | wait inside _ _ | take inside _ | deliver inside _ | closeReturn inside _ =>
    exact scope.blank_update (scope.rxSection locks inside)
  case spuriousWake handle thread waiting =>
    refine scope.blank_update ?_
    by_contra beyond
    rw [scope.blank handle (Nat.le_of_not_lt beyond)] at waiting
    cases waiting
  case finishFree pc => exact scope.blank_update (scope.pcs _ _ (by rw [pc]; rfl))
  case pollLockTx poll _ | injectLink poll _ _ | injectUdp poll _ _ =>
    exact scope.blank_update (scope.poll _ (by rw [poll]; rfl))
  case callbackLockRx called _ => exact scope.blank_update (scope.callback _ called)
  all_goals exact scope.blank

theorem mailbox_step (scope : w.Scoped) (locks : w.Locks) (moved : Transition w act next) :
    ∀ handle ∈ next.mailbox, handle < next.nextHandle := by
  cases moved
  case attach | listen => exact fun handle member => Nat.lt_succ_of_lt (scope.mailbox handle member)
  case post inside _ =>
    intro handle member
    rcases List.mem_append.mp member with old | new
    · exact scope.mailbox handle old
    · obtain rfl := List.mem_singleton.mp new
      exact scope.txSection locks inside
  case fetch mailbox => exact fun handle member => scope.mailbox handle (mailbox ▸ List.mem_cons_of_mem _ member)
  all_goals exact scope.mailbox

theorem poll_step (scope : w.Scoped) (locks : w.Locks) (moved : Transition w act next) :
    ∀ handle, next.poll.handle = some handle → handle < next.nextHandle := by
  cases moved
  case attach | listen => exact fun handle named => Nat.lt_succ_of_lt (scope.poll handle named)
  case pollPop inside =>
    rintro handle ⟨⟩
    exact scope.txSection locks inside
  case fetch mailbox =>
    rintro handle ⟨⟩
    exact scope.mailbox _ (mailbox ▸ List.mem_cons_self)
  case pollLockCore poll _ | pollLockTx poll _ | injectLink poll _ _ | injectUdp poll _ _ =>
    rintro handle ⟨⟩
    exact scope.poll _ (by rw [poll]; rfl)
  case pollDone => rintro handle ⟨⟩
  all_goals exact scope.poll

theorem output_step (scope : w.Scoped) (moved : Transition w act next) :
    ∀ handle, next.interface.outputContext = some handle → handle < next.nextHandle := by
  cases moved
  case attach =>
    rintro handle ⟨⟩
    exact Nat.lt_succ_self _
  case listen => exact fun handle named => Nat.lt_succ_of_lt (scope.output handle named)
  case lockClose =>
    intro handle named
    simp only [setPc, detach] at named
    split at named
    · cases named
    · exact scope.output handle named
  all_goals exact scope.output

theorem pcbs_step (scope : w.Scoped) (moved : Transition w act next) :
    ∀ pcb ∈ next.udpPcbs, pcb.recvArg < next.nextHandle := by
  cases moved
  case attach => exact fun pcb member => Nat.lt_succ_of_lt (scope.pcbs pcb member)
  case listen =>
    intro pcb member
    obtain rfl := List.mem_singleton.mp member
    exact Nat.lt_succ_self _
  case closeReturn =>
    intro pcb member
    simp only [closeReturn, unlockCore, setPc, setHandle, removePcb] at member
    split at member
    · exact scope.pcbs pcb (List.mem_of_mem_filter member)
    · exact scope.pcbs pcb member
  all_goals exact scope.pcbs

theorem callback_step (scope : w.Scoped) (moved : Transition w act next) :
    ∀ called, next.callback = some called → called.handle < next.nextHandle := by
  cases moved
  case attach | listen => exact fun called running => Nat.lt_succ_of_lt (scope.callback called running)
  case deliver => rintro called ⟨⟩
  case output attached =>
    rintro called ⟨⟩
    refine scope.output _ ?_
    unfold Interface.globalIfOutput at attached
    split at attached
    · cases attached
    · exact attached
  case receive bound =>
    rintro called ⟨⟩
    exact scope.pcbs _ bound
  all_goals exact scope.callback

theorem pcs_update {thread : Tid} {pc : Pc} (scope : w.Scoped)
    (known : ∀ handle, pc.handle = some handle → handle < w.nextHandle) (other : Tid) (handle : Hid)
    (named : (Function.update w.pcs thread pc other).handle = some handle) : handle < w.nextHandle := by
  by_cases same : other = thread
  · subst same
    rw [Function.update_self] at named
    exact known handle named
  · rw [Function.update_of_ne same] at named
    exact scope.pcs other handle named

theorem pcs_step (scope : w.Scoped) (locks : w.Locks) (moved : Transition w act next) :
    ∀ thread handle, (next.pcs thread).handle = some handle → handle < next.nextHandle := by
  cases moved
  case enter pc _ _ entry =>
    refine scope.pcs_update ?_
    intro handle named
    cases entry <;> cases named <;> assumption
  case startWrite known _ _ => exact scope.pcs_update (by rintro handle ⟨⟩; exact known)
  case attach | listen =>
    exact fun thread handle named => Nat.lt_succ_of_lt
      (scope.pcs_update (by rintro handle ⟨⟩) thread handle named)
  case refuseCall | linkFree | lockAttach | lockListen | lockStack | attachFail | listenFail | leaveStack | refuse |
      postNone | setPolling | readClosed | take | finishFree =>
    exact scope.pcs_update (by rintro handle ⟨⟩)
  case lockClose pc | lockTx pc _ | lockRead pc _ | relock pc _ _ | lockClosing pc _ =>
    exact scope.pcs_update (by rintro handle ⟨⟩; exact scope.pcs _ _ (by rw [pc]; rfl))
  case wait inside _ _ => exact scope.pcs_update (by rintro handle ⟨⟩; exact scope.rxSection locks inside)
  case closeReturn thenFree _ inside _ =>
    refine scope.pcs_update ?_
    intro handle named
    split at named <;> cases named
    exact scope.rxSection locks inside
  all_goals exact scope.pcs

theorem step (scope : w.Scoped) (locks : w.Locks) (moved : Transition w act next) : next.Scoped where
  blank := scope.blank_step locks moved
  mailbox := scope.mailbox_step locks moved
  poll := scope.poll_step locks moved
  callback := scope.callback_step moved
  pcs := scope.pcs_step locks moved
  output := scope.output_step moved
  pcbs := scope.pcbs_step moved

/-- Every reachable world refers to allocated handles only. -/
theorem reachable {allowed : World → Act → Prop} (reached : machine.Reachable allowed w) : w.Scoped := by
  have both : w.Locks ∧ w.Scoped := by
    refine reached.invariant (fun w => w.Locks ∧ w.Scoped) ?_ ?_
    · rintro _ rfl
      exact ⟨init_locks, init_scoped⟩
    · intro before action after ⟨locks, scope⟩ _ stepped
      have moved := step_transition stepped
      exact ⟨locks.step moved, scope.step locks moved⟩
  exact both.2

end Scoped

end World

end Tun2Socket.Native
