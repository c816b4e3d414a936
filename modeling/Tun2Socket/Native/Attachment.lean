import Tun2Socket.Native.Transmit

namespace Tun2Socket.Native
open Lwip Library

/-- The handle that a close has begun to take apart under the core lock. -/
def Pc.closes : Pc → Option Hid
  | .closing handle _ => some handle
  | .closingLocked handle => some handle
  | _ => none

namespace World

variable {w next : World} {act : Act}

theorem closing_handle {pc : Pc} {handle : Hid} (closing : pc.closes = some handle) : pc.handle = some handle := by
  cases pc <;> cases closing <;> rfl

theorem closing_holdsCore {pc : Pc} {handle : Hid} (closing : pc.closes = some handle) :
    pc.holdsCore = true ∧ pc ≠ .inStack := by
  cases pc <;> cases closing <;> exact ⟨rfl, by simp⟩

/-- An allocated handle changes its endpoint only when a close marks it. -/
theorem endpoint_step (moved : Transition w act next) {handle : Hid} (known : handle < w.nextHandle) :
    (next.handles handle).endpoint = (w.handles handle).endpoint ∨
      (∃ thread thenFree woken, (w.handles handle).rxMutex = some (.close thread thenFree) ∧
        act = .rxStep handle woken ∧ next = w.closeReturn handle thread thenFree) := by
  have same : ∀ {at' : Hid} {value : Handle}, value.endpoint = (w.handles at').endpoint →
      (Function.update w.handles at' value handle).endpoint = (w.handles handle).endpoint := by
    intro at' value kept
    by_cases here : handle = at'
    · subst here
      rw [Function.update_self, kept]
    · rw [Function.update_of_ne here]
  cases moved
  case attach | listen =>
    exact Or.inl (congrArg Handle.endpoint (Function.update_of_ne (Nat.ne_of_lt known) _ _))
  case closeReturn thread at' thenFree woken inside unlocked =>
    by_cases here : handle = at'
    · subst here
      exact Or.inr ⟨thread, thenFree, woken, inside, rfl, rfl⟩
    · exact Or.inl (congrArg Handle.endpoint (Function.update_of_ne here _ _))
  case enter | startWrite | refuseCall | lockAttach | lockListen | lockClose | lockStack | attachFail | listenFail |
      leaveStack | fetch | pollLockCore | pollDone | outputNone | output | receiveNone | receive => exact Or.inl rfl
  all_goals exact Or.inl (same rfl)

theorem isClosed_of_endpoint {first second : Handle} (same : first.endpoint = second.endpoint) :
    first.isClosed = second.isClosed := by
  rw [Handle.isClosed, same, Handle.isClosed]

/-- A closed handle stays closed. -/
theorem closed_step (moved : Transition w act next) {handle : Hid} (known : handle < w.nextHandle)
    (closed : (w.handles handle).isClosed = true) : (next.handles handle).isClosed = true := by
  rcases endpoint_step moved known with same | ⟨thread, thenFree, woken, inside, rfl, rfl⟩
  · rw [isClosed_of_endpoint same, closed]
  · simp only [closeReturn, unlockCore, setPc, setHandle, Function.update_self]
    exact isClosed_closedEndpoint (w.handles handle)

/-- A handle that no close has begun to take apart stays open. -/
theorem open_step (sound : w.Sound) (moved : Transition w act next) {handle : Hid} (known : handle < w.nextHandle)
    (opened : (w.handles handle).isClosed = false) (free : ∀ thread, (w.pcs thread).closes ≠ some handle) :
    (next.handles handle).isClosed = false := by
  rcases endpoint_step moved known with same | ⟨thread, thenFree, woken, inside, _, _⟩
  · rw [isClosed_of_endpoint same, opened]
  · have pc := sound.locks.closerPc inside
    exact absurd (by rw [pc]; rfl) (free thread)

/-- A close begins when it takes the free core lock. -/
theorem closing_step (moved : Transition w act next) {thread : Tid} {handle : Hid}
    (closing : (next.pcs thread).closes = some handle) :
    (w.pcs thread).closes = some handle ∨
      w.core = none ∧ act = .lockCore thread ∧ ∃ thenFree, w.pcs thread = .close handle thenFree := by
  have other : ∀ {mover : Tid} {pc : Pc}, (pc.closes = some handle → (w.pcs mover).closes = some handle) →
      (Function.update w.pcs mover pc thread).closes = some handle →
      (w.pcs thread).closes = some handle := by
    intro mover pc quiet now
    by_cases same : thread = mover
    · subst same
      rw [Function.update_self] at now
      exact quiet now
    · rwa [Function.update_of_ne same] at now
  cases moved
  case enter entry => exact Or.inl (other (by cases entry <;> exact fun now => by cases now) closing)
  case lockClose mover at' thenFree free pc =>
    by_cases same : thread = mover
    · subst same
      simp only [setPc, Function.update_self, Pc.closes, Option.some.injEq] at closing
      subst closing
      exact Or.inr ⟨free, rfl, thenFree, pc⟩
    · simp only [setPc, detach, Function.update_of_ne same] at closing
      exact Or.inl closing
  case lockClosing pc _ => exact Or.inl (other (by rw [pc]; exact id) closing)
  case closeReturn => exact Or.inl (other (by split <;> exact fun now => by cases now) closing)
  case append | post | pollPop | deliver | spuriousWake | fetch | pollLockCore | pollLockTx | injectLink | injectUdp |
      pollDone | outputNone | output | receiveNone | receive | callbackLockRx => exact Or.inl closing
  all_goals exact Or.inl (other (fun now => by cases now) closing)

/-- Only open handles are reachable from the interface, from a pcb and from a running callback. -/
structure Live (w : World) : Prop where
  pair : w.interface.Names w.interface.outputContext
  output : ∀ handle, w.interface.outputContext = some handle →
    (w.handles handle).isLink = true ∧ (w.handles handle).isClosed = false
  closing : ∀ thread handle, (w.pcs thread).closes = some handle → (w.handles handle).isLink = true →
    w.interface.outputContext = none
  pcbs : ∀ pcb ∈ w.udpPcbs, (w.handles pcb.recvArg).endpoint = .udp (some pcb.id)
  callback : ∀ called, w.callback = some called → (w.handles called.handle).isClosed = false

theorem init_live : init.Live where
  pair := ⟨rfl, rfl⟩
  output _ attached := by cases attached
  closing _ _ closing := by cases closing
  pcbs _ member := by cases member
  callback _ called := by cases called

namespace Live

/-- The interface changes when a link is attached or when a close of a link takes the core lock. -/
theorem interface_step (moved : Transition w act next) :
    next.interface = w.interface ∨
      (w.interface.globalInterfaceIsAttached = false ∧ next.interface.Names (some w.nextHandle) ∧
        next.nextHandle = w.nextHandle + 1 ∧ (next.handles w.nextHandle).isLink = true ∧
        (next.handles w.nextHandle).isClosed = false ∧ ∃ thread mtu, act = .coreStep thread ∧
          w.pcs thread = .attaching mtu ∧ next.pcs = Function.update w.pcs thread .idle) ∨
      (w.core = none ∧ next.interface.Names none ∧ next.handles = w.handles ∧
        ∃ thread handle thenFree, act = .lockCore thread ∧ w.pcs thread = .close handle thenFree ∧
          (w.handles handle).isLink = true ∧
          next.pcs = Function.update w.pcs thread (.closing handle thenFree)) := by
  cases moved
  case attach thread mtu pc detached =>
    refine Or.inr (Or.inl ⟨detached, ⟨rfl, rfl⟩, rfl, ?_, ?_, thread, mtu, rfl, pc, rfl⟩)
    · simp [finish, setPc, unlockCore, setHandle, Handle.create, Handle.isLink]
    · simp [finish, setPc, unlockCore, setHandle, Handle.create, Handle.isClosed]
  case lockClose thread handle thenFree free pc =>
    cases link : (w.handles handle).isLink with
    | true =>
        refine Or.inr (Or.inr ⟨free, ?_, rfl, thread, handle, thenFree, rfl, pc, link, rfl⟩)
        simp only [setPc, detach, link, if_true]
        exact ⟨rfl, rfl⟩
    | false =>
        refine Or.inl ?_
        simp [setPc, detach, link]
  all_goals exact Or.inl rfl

theorem output_step (live : w.Live) (sound : w.Sound) (moved : Transition w act next) :
    ∀ handle, next.interface.outputContext = some handle →
      (next.handles handle).isLink = true ∧ (next.handles handle).isClosed = false := by
  intro handle attached
  rcases interface_step moved with same | ⟨_, names, _, link, opened, _⟩ | ⟨_, names, _⟩
  · rw [same] at attached
    obtain ⟨link, opened⟩ := live.output handle attached
    have known := sound.scope.output handle attached
    refine ⟨by rw [isLink_step moved known, link], open_step sound moved known opened ?_⟩
    intro thread closing
    rw [live.closing thread handle closing link] at attached
    cases attached
  · rw [names.2, Option.some.injEq] at attached
    subst attached
    exact ⟨link, opened⟩
  · rw [names.2] at attached
    cases attached

theorem pair_step (live : w.Live) (moved : Transition w act next) :
    next.interface.Names next.interface.outputContext := by
  rcases interface_step moved with same | ⟨_, names, _⟩ | ⟨_, names, _⟩
  · rw [same]
    exact live.pair
  · rwa [names.2]
  · rwa [names.2]

theorem closing_step (live : w.Live) (sound : w.Sound) (moved : Transition w act next) :
    ∀ thread handle, (next.pcs thread).closes = some handle → (next.handles handle).isLink = true →
      next.interface.outputContext = none := by
  intro thread handle closing link
  rcases World.closing_step moved closing with before | ⟨_, rfl, thenFree, pc⟩
  · have known : handle < w.nextHandle := sound.scope.pcs thread handle (closing_handle before)
    have detached := live.closing thread handle before (by rwa [isLink_step moved known] at link)
    rcases interface_step moved with same | ⟨_, _, _, _, _, other, mtu, _, attaching, _⟩ | ⟨_, names, _⟩
    · rw [same, detached]
    · have mine := sound.locks.app thread (closing_holdsCore before).1
      have theirs := sound.locks.app other (by rw [attaching]; rfl)
      rw [mine, Option.some.injEq, Owner.app.injEq] at theirs
      subst theirs
      rw [attaching] at before
      cases before
    · exact names.2
  · have known := sound.scope.pcs thread handle (by rw [pc]; rfl)
    rw [isLink_step moved known] at link
    cases moved with
    | lockClose _ pc' =>
        rw [pc, Pc.close.injEq] at pc'
        obtain ⟨rfl, rfl⟩ := pc'
        simp only [setPc, detach, link, if_true]
        rfl
    | lockAttach _ pc' | lockListen _ pc' | lockStack _ pc' =>
        rw [pc] at pc'
        cases pc'

/-- A pcb is bound by a listen or was bound before. -/
theorem pcb_from (moved : Transition w act next) {pcb : UdpPcb} (member : pcb ∈ next.udpPcbs) :
    pcb ∈ w.udpPcbs ∨ (next.handles pcb.recvArg).endpoint = .udp (some pcb.id) := by
  cases moved
  case listen =>
    obtain rfl := List.mem_singleton.mp member
    refine Or.inr ?_
    simp [finish, setPc, unlockCore, setHandle, Handle.create]
  case closeReturn handle _ _ _ _ =>
    refine Or.inl ?_
    simp only [closeReturn, unlockCore, setPc, setHandle, removePcb] at member
    split at member
    · exact List.mem_of_mem_filter member
    · exact member
  all_goals exact Or.inl member

theorem pcbs_step (live : w.Live) (sound : w.Sound) (moved : Transition w act next) :
    ∀ pcb ∈ next.udpPcbs, (next.handles pcb.recvArg).endpoint = .udp (some pcb.id) := by
  intro pcb member
  rcases pcb_from moved member with before | fresh
  · have endpoint := live.pcbs pcb before
    rcases endpoint_step moved (sound.scope.pcbs pcb before) with same | ⟨thread, thenFree, _, _, _, rfl⟩
    · rw [same, endpoint]
    · simp only [closeReturn, unlockCore, setPc, setHandle, removePcb, endpoint, List.mem_filter] at member
      simp at member
  · exact fresh

theorem callback_step (live : w.Live) (sound : w.Sound) (moved : Transition w act next) :
    ∀ called, next.callback = some called → (next.handles called.handle).isClosed = false := by
  intro called running
  have keep : w.callback = some called → (next.handles called.handle).isClosed = false := by
    intro before
    refine open_step sound moved (sound.scope.callback called before) (live.callback called before) ?_
    intro thread closing
    have holds := closing_holdsCore closing
    rw [sound.locks.callback_none holds.1 holds.2] at before
    cases before
  cases moved
  case deliver => cases running
  case output attached =>
    obtain rfl := Option.some.inj running
    rw [Interface.output_eq live.pair] at attached
    exact (live.output _ attached).2
  case receive pcb _ _ _ _ _ bound =>
    obtain rfl := Option.some.inj running
    change (w.handles pcb.recvArg).isClosed = false
    rw [Handle.isClosed, live.pcbs pcb bound]
    rfl
  all_goals exact keep running

theorem step (live : w.Live) (sound : w.Sound) (moved : Transition w act next) : next.Live where
  pair := live.pair_step moved
  output := live.output_step sound moved
  closing := live.closing_step sound moved
  pcbs := live.pcbs_step sound moved
  callback := live.callback_step sound moved

/-- Every reachable world is live. -/
theorem reachable {allowed : World → Act → Prop} (reached : machine.Reachable allowed w) : w.Sound ∧ w.Live := by
  refine reached.invariant (fun w => w.Sound ∧ w.Live) ?_ ?_
  · rintro _ rfl
    exact ⟨init_sound, init_live⟩
  · intro before action after ⟨sound, live⟩ _ stepped
    have moved := step_transition stepped
    exact ⟨sound.step moved, live.step sound moved⟩

end Live

end World

end Tun2Socket.Native
