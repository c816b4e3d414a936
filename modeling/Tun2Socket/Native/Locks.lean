import Tun2Socket.Native.Transition

namespace Tun2Socket.Native
open Lwip Library

/-- The points of a call at which the thread holds the core lock. -/
def Pc.holdsCore : Pc → Bool
  | .attaching _ => true
  | .listening => true
  | .closing _ _ => true
  | .closingLocked _ => true
  | .inStack => true
  | _ => false

/-- The points of a poll at which the tcpip thread holds the core lock. -/
def Poll.holdsCore : Poll → Bool
  | .locking _ => true
  | .popping _ => true
  | .injecting _ _ => true
  | _ => false

/-- The owner of a tx section stands at the matching point of its call or poll. -/
def TxSection.Held (w : World) (handle : Hid) : TxSection → Prop
  | .write thread _ => w.pcs thread = .writing handle
  | .appended thread _ => w.pcs thread = .writing handle
  | .posted thread _ => w.pcs thread = .writing handle
  | .poll => w.poll = .popping handle

/-- The thread of a tx section, unless the poll is in it. -/
def TxSection.writer : TxSection → Option Tid
  | .write thread _ => some thread
  | .appended thread _ => some thread
  | .posted thread _ => some thread
  | .poll => none

/-- The owner of an rx section stands at the matching point of its call or callback. -/
def RxSection.Held (w : World) (handle : Hid) : RxSection → Prop
  | .read thread _ => w.pcs thread = .reading handle
  | .deliver packet => w.callback = some ⟨handle, packet⟩
  | .close thread _ => w.pcs thread = .closingLocked handle

/-- The application threads in a core section agree with the owner of the core lock. -/
def CoreApp (pcs : Tid → Pc) (core : Option Owner) : Prop :=
  ∀ thread, (pcs thread).holdsCore = true → core = some (.app thread)

namespace CoreApp

variable {pcs : Tid → Pc} {core : Option Owner} {thread : Tid} {pc : Pc}

theorem quiet (held : CoreApp pcs core) (thread : Tid) (free : pc.holdsCore = false) :
    CoreApp (Function.update pcs thread pc) core := by
  intro other inside
  by_cases same : other = thread
  · subst same
    rw [Function.update_self, free] at inside
    cases inside
  · rw [Function.update_of_ne same] at inside
    exact held other inside

theorem keep (held : CoreApp pcs core) (inside : (pcs thread).holdsCore = true) (pc : Pc) :
    CoreApp (Function.update pcs thread pc) core := by
  intro other now
  by_cases same : other = thread
  · subst same
    exact held other inside
  · rw [Function.update_of_ne same] at now
    exact held other now

theorem lock (held : CoreApp pcs none) (thread : Tid) (pc : Pc) :
    CoreApp (Function.update pcs thread pc) (some (.app thread)) := by
  intro other inside
  by_cases same : other = thread
  · rw [same]
  · rw [Function.update_of_ne same] at inside
    cases held other inside

theorem unlock (held : CoreApp pcs core) (inside : (pcs thread).holdsCore = true) (free : pc.holdsCore = false) :
    CoreApp (Function.update pcs thread pc) none := by
  intro other now
  by_cases same : other = thread
  · subst same
    rw [Function.update_self, free] at now
    cases now
  · rw [Function.update_of_ne same] at now
    have mine := held thread inside
    have theirs := held other now
    rw [mine, Option.some.injEq, Owner.app.injEq] at theirs
    exact absurd theirs.symm same

theorem locked (held : CoreApp pcs none) (core : Option Owner) : CoreApp pcs core := by
  intro other inside
  cases held other inside

theorem tcpip (held : CoreApp pcs (some .tcpip)) (core : Option Owner) : CoreApp pcs core := by
  intro other inside
  cases held other inside

end CoreApp

/-- The poll in a core section agrees with the owner of the core lock. -/
def CoreTcpip (poll : Poll) (core : Option Owner) : Prop :=
  poll.holdsCore = true → core = some .tcpip

theorem CoreTcpip.unlocked {poll : Poll} (held : CoreTcpip poll none) (core : Option Owner) :
    CoreTcpip poll core := by
  intro inside
  cases held inside

theorem CoreTcpip.app {poll : Poll} {thread : Tid} (held : CoreTcpip poll (some (.app thread)))
    (core : Option Owner) : CoreTcpip poll core := by
  intro inside
  cases held inside

namespace World

theorem Entry.holdsCore {w : World} {pc : Pc} (entry : w.Entry pc) : pc.holdsCore = false := by
  cases entry <;> rfl

/-- The holder of the core lock is running code of the stack. -/
def InStack (w : World) : Prop :=
  (∃ thread, w.core = some (.app thread) ∧ w.pcs thread = .inStack) ∨
    w.core = some .tcpip ∧ ∃ handle array, w.poll = .injecting handle array

theorem stackActive_iff {w : World} : w.stackActive = true ↔ w.callback = none ∧ w.InStack := by
  unfold stackActive InStack
  rcases callback : w.callback with _ | called
  · rcases core : w.core with _ | (_ | thread)
    · simp
    · cases poll : w.poll <;> simp
    · cases pc : w.pcs thread <;> simp [pc]
  · simp

/-- Every lock is held by a thread that stands in a section of that lock. -/
structure Locks (w : World) : Prop where
  app : CoreApp w.pcs w.core
  tcpip : CoreTcpip w.poll w.core
  callback : ∀ called, w.callback = some called → w.InStack
  tx : ∀ handle held, (w.handles handle).txMutex = some held → held.Held w handle
  rx : ∀ handle held, (w.handles handle).rxMutex = some held → held.Held w handle

theorem init_locks : init.Locks where
  app := by intro thread inside; cases inside
  tcpip := by intro inside; cases inside
  callback := by intro called inside; cases inside
  tx := by intro handle held inside; cases inside
  rx := by intro handle held inside; cases inside

namespace Locks

variable {w next : World} {act : Act}

theorem readerPc (locks : w.Locks) {handle : Hid} {thread : Tid} {size : Int}
    (inside : (w.handles handle).rxMutex = some (.read thread size)) : w.pcs thread = .reading handle :=
  locks.rx handle _ inside

theorem closerPc (locks : w.Locks) {handle : Hid} {thread : Tid} {thenFree : Bool}
    (inside : (w.handles handle).rxMutex = some (.close thread thenFree)) :
    w.pcs thread = .closingLocked handle :=
  locks.rx handle _ inside

theorem writerPc (locks : w.Locks) {handle : Hid} {thread : Tid} {held : TxSection}
    (inside : (w.handles handle).txMutex = some held) (writer : held.writer = some thread) :
    w.pcs thread = .writing handle := by
  have owner := locks.tx handle held inside
  cases held <;> cases writer <;> exact owner

/-- The core lock follows the calls. -/
theorem app_step (locks : w.Locks) (moved : Transition w act next) : CoreApp next.pcs next.core := by
  have app := locks.app
  cases moved
  case enter entry => exact app.quiet _ entry.holdsCore
  case startWrite => exact app.quiet _ rfl
  case refuseCall => exact app.quiet _ rfl
  case linkFree => exact app.quiet _ rfl
  case lockAttach free pc => exact (free ▸ app).lock _ _
  case lockListen free pc => exact (free ▸ app).lock _ _
  case lockClose free pc => exact (free ▸ app).lock _ _
  case lockStack free pc => exact (free ▸ app).lock _ _
  case attachFail pc _ => exact app.unlock (by rw [pc]; rfl) rfl
  case attach pc _ => exact app.unlock (by rw [pc]; rfl) rfl
  case listenFail pc _ => exact app.unlock (by rw [pc]; rfl) rfl
  case listen pc _ => exact app.unlock (by rw [pc]; rfl) rfl
  case leaveStack pc _ => exact app.unlock (by rw [pc]; rfl) rfl
  case lockTx => exact app.quiet _ rfl
  case refuse => exact app.quiet _ rfl
  case postNone => exact app.quiet _ rfl
  case setPolling => exact app.quiet _ rfl
  case lockRead => exact app.quiet _ rfl
  case relock => exact app.quiet _ rfl
  case lockClosing pc _ => exact app.keep (by rw [pc]; rfl) _
  case readClosed => exact app.quiet _ rfl
  case wait => exact app.quiet _ rfl
  case take => exact app.quiet _ rfl
  case closeReturn inside _ =>
    refine app.unlock (by rw [locks.closerPc inside]; rfl) ?_
    split <;> rfl
  case finishFree => exact app.quiet _ rfl
  case pollLockCore poll free => exact (free ▸ app).locked _
  case pollDone poll _ =>
    have owner := locks.tcpip (by rw [poll]; rfl)
    exact (owner ▸ app).tcpip _
  all_goals exact app

/-- The core lock follows the poll. -/
theorem tcpip_step (locks : w.Locks) (moved : Transition w act next) : CoreTcpip next.poll next.core := by
  have tcpip := locks.tcpip
  have released : ∀ thread, (w.pcs thread).holdsCore = true → CoreTcpip w.poll none := by
    intro thread inside
    exact (locks.app thread inside ▸ tcpip).app _
  cases moved
  case lockAttach free _ => exact (free ▸ tcpip).unlocked _
  case lockListen free _ => exact (free ▸ tcpip).unlocked _
  case lockClose free _ => exact (free ▸ tcpip).unlocked _
  case lockStack free _ => exact (free ▸ tcpip).unlocked _
  case attachFail pc _ => exact released _ (by rw [pc]; rfl)
  case attach pc _ => exact released _ (by rw [pc]; rfl)
  case listenFail pc _ => exact released _ (by rw [pc]; rfl)
  case listen pc _ => exact released _ (by rw [pc]; rfl)
  case leaveStack pc _ => exact released _ (by rw [pc]; rfl)
  case closeReturn inside _ => exact released _ (by rw [locks.closerPc inside]; rfl)
  case pollPop inside => exact fun _ => tcpip (by rw [locks.tx _ _ inside]; rfl)
  case fetch => intro inside; cases inside
  case pollLockCore => exact fun _ => rfl
  case pollLockTx poll _ => exact fun _ => tcpip (by rw [poll]; rfl)
  case injectLink poll _ _ => exact fun _ => tcpip (by rw [poll]; rfl)
  case injectUdp poll _ _ => exact fun _ => tcpip (by rw [poll]; rfl)
  case pollDone => intro inside; cases inside
  all_goals exact tcpip

/-- No callback runs while a call stands in its own core section. -/
theorem callback_none (locks : w.Locks) {thread : Tid} (inside : (w.pcs thread).holdsCore = true)
    (outside : w.pcs thread ≠ .inStack) : w.callback = none := by
  by_contra called
  obtain ⟨called, callback⟩ := Option.ne_none_iff_exists'.mp called
  have owner := locks.app thread inside
  rcases locks.callback called callback with ⟨other, core, pc⟩ | ⟨core, _⟩ <;> rw [owner] at core
  · obtain rfl := Owner.app.inj (Option.some.inj core)
    exact outside pc
  · cases core

/-- The running callback keeps its stack context while another thread moves. -/
theorem callback_quiet (locks : w.Locks) {thread : Tid} (outside : w.pcs thread ≠ .inStack) (pc : Pc)
    {called : Callback} (callback : w.callback = some called) :
    (∃ other, w.core = some (.app other) ∧ Function.update w.pcs thread pc other = .inStack) ∨
      w.core = some .tcpip ∧ ∃ handle array, w.poll = .injecting handle array := by
  rcases locks.callback called callback with ⟨other, core, inside⟩ | tcpip
  · refine Or.inl ⟨other, core, ?_⟩
    rw [Function.update_of_ne, inside]
    rintro rfl
    exact outside inside
  · exact Or.inr tcpip

/-- A running callback stays inside the stack. -/
theorem callback_step (locks : w.Locks) (moved : Transition w act next) :
    ∀ called, next.callback = some called → next.InStack := by
  intro called callback
  have callback' := locks.callback
  have coreNone : w.core = none → w.callback = none := by
    intro free
    by_contra present
    obtain ⟨running, found⟩ := Option.ne_none_iff_exists'.mp present
    rcases locks.callback running found with ⟨_, core, _⟩ | ⟨core, _⟩ <;> rw [free] at core <;> cases core
  have clash : ∀ {thread}, (w.pcs thread).holdsCore = true → w.pcs thread ≠ .inStack → w.callback ≠ some called := by
    intro thread inside outside
    rw [locks.callback_none inside outside]
    simp
  cases moved
  case enter idle entry => exact locks.callback_quiet (by simp [idle]) _ callback
  case startWrite idle _ _ _ => exact locks.callback_quiet (by simp [idle]) _ callback
  case refuseCall idle => exact locks.callback_quiet (by simp [idle]) _ callback
  case linkFree idle _ _ => exact locks.callback_quiet (by simp [idle]) _ callback
  case lockAttach free _ => exact absurd ((coreNone free).symm.trans callback) (by simp)
  case lockListen free _ => exact absurd ((coreNone free).symm.trans callback) (by simp)
  case lockClose free _ => exact absurd ((coreNone free).symm.trans callback) (by simp)
  case lockStack free _ => exact absurd ((coreNone free).symm.trans callback) (by simp)
  case attachFail pc _ => exact absurd callback (clash (by rw [pc]; rfl) (by simp [pc]))
  case attach pc _ => exact absurd callback (clash (by rw [pc]; rfl) (by simp [pc]))
  case listenFail pc _ => exact absurd callback (clash (by rw [pc]; rfl) (by simp [pc]))
  case listen pc _ => exact absurd callback (clash (by rw [pc]; rfl) (by simp [pc]))
  case leaveStack outside => exact absurd (outside.symm.trans callback) (by simp)
  case lockTx pc _ => exact locks.callback_quiet (by simp [pc]) _ callback
  case refuse inside _ => exact locks.callback_quiet (by simp [locks.writerPc inside rfl]) _ callback
  case postNone inside _ => exact locks.callback_quiet (by simp [locks.writerPc inside rfl]) _ callback
  case setPolling inside => exact locks.callback_quiet (by simp [locks.writerPc inside rfl]) _ callback
  case pollPop inside =>
    have poll := locks.tx _ _ inside
    exact Or.inr ⟨locks.tcpip (by rw [poll]; rfl), _, _, rfl⟩
  case lockRead pc _ => exact locks.callback_quiet (by simp [pc]) _ callback
  case relock pc _ _ => exact locks.callback_quiet (by simp [pc]) _ callback
  case lockClosing pc _ => exact locks.callback_quiet (by simp [pc]) _ callback
  case readClosed inside _ _ => exact locks.callback_quiet (by simp [locks.readerPc inside]) _ callback
  case wait inside _ _ => exact locks.callback_quiet (by simp [locks.readerPc inside]) _ callback
  case take inside _ => exact locks.callback_quiet (by simp [locks.readerPc inside]) _ callback
  case deliver => cases callback
  case closeReturn inside _ =>
    have pc := locks.closerPc inside
    exact absurd callback (clash (by rw [pc]; rfl) (by simp [pc]))
  case finishFree pc => exact locks.callback_quiet (by simp [pc]) _ callback
  case fetch idle _ =>
    rcases callback' called callback with app | ⟨_, _, _, poll⟩
    · exact Or.inl app
    · rw [idle] at poll; cases poll
  case pollLockCore free => exact absurd ((coreNone free).symm.trans callback) (by simp)
  case pollLockTx poll _ =>
    rcases callback' called callback with app | ⟨_, _, _, injecting⟩
    · exact Or.inl app
    · rw [poll] at injecting; cases injecting
  case injectLink outside _ => exact absurd (outside.symm.trans callback) (by simp)
  case injectUdp outside _ => exact absurd (outside.symm.trans callback) (by simp)
  case pollDone outside => exact absurd (outside.symm.trans callback) (by simp)
  case output active _ => exact (stackActive_iff.mp active).2
  case receive active _ => exact (stackActive_iff.mp active).2
  all_goals exact callback' called callback

theorem pcs_quiet {thread : Tid} {pc : Pc} {point : Pc} (outside : w.pcs thread ≠ point) (other : Tid)
    (stands : w.pcs other = point) : Function.update w.pcs thread pc other = point := by
  rw [Function.update_of_ne, stands]
  rintro rfl
  exact outside stands

/-- A step that leaves a tx mutex alone keeps its section held. -/
theorem tx_frame (locks : w.Locks) (handle : Hid)
    (kept : ∀ held, (next.handles handle).txMutex = some held → (w.handles handle).txMutex = some held)
    (pcs : ∀ thread, w.pcs thread = .writing handle → next.pcs thread = .writing handle)
    (poll : w.poll = .popping handle → next.poll = .popping handle) (held : TxSection)
    (inside : (next.handles handle).txMutex = some held) : held.Held next handle := by
  have before := locks.tx handle held (kept held inside)
  cases held with
  | write thread _ => exact pcs thread before
  | appended thread _ => exact pcs thread before
  | posted thread _ => exact pcs thread before
  | poll => exact poll before

/-- A step at one handle keeps the tx sections of the others. -/
theorem tx_at (locks : w.Locks) (handle : Hid)
    (own : ∀ held, (next.handles handle).txMutex = some held → held.Held next handle)
    (others : ∀ other, other ≠ handle → next.handles other = w.handles other)
    (pcs : ∀ other, other ≠ handle → ∀ thread, w.pcs thread = .writing other → next.pcs thread = .writing other)
    (poll : ∀ other, other ≠ handle → w.poll = .popping other → next.poll = .popping other) :
    ∀ other held, (next.handles other).txMutex = some held → held.Held next other := by
  intro other held inside
  by_cases same : other = handle
  · subst same
    exact own held inside
  · exact locks.tx_frame other (fun held now => others other same ▸ now) (pcs other same) (poll other same) held inside

/-- An update of one handle that keeps a mutex of it, or frees it, takes none of these mutexes. -/
theorem mutex_kept {Section : Type} (mutex : Handle → Option Section) {handle : Hid} {value : Handle}
    (kept : ∀ held, mutex value = some held → mutex (w.handles handle) = some held) (other : Hid) (held : Section)
    (inside : mutex (Function.update w.handles handle value other) = some held) : mutex (w.handles other) = some held := by
  by_cases same : other = handle
  · subst same
    rw [Function.update_self] at inside
    exact kept held inside
  · rwa [Function.update_of_ne same] at inside

theorem update_others {value : Handle} {handle : Hid} (other : Hid) (apart : other ≠ handle) :
    Function.update w.handles handle value other = w.handles other := Function.update_of_ne apart _ _

theorem tx_step (locks : w.Locks) (moved : Transition w act next) :
    ∀ handle held, (next.handles handle).txMutex = some held → held.Held next handle := by
  cases moved
  case enter | startWrite | refuseCall | lockAttach | lockListen | lockClose | lockStack | attachFail | listenFail |
      leaveStack =>
    exact fun handle => locks.tx_frame handle (fun _ => id) (pcs_quiet (by simp [*])) id
  case linkFree | lockRead | relock | lockClosing | finishFree =>
    exact fun handle => locks.tx_frame handle (mutex_kept Handle.txMutex (fun _ => by exact id) handle)
      (pcs_quiet (by simp [*])) id
  case attach | listen =>
    exact fun handle => locks.tx_frame handle (mutex_kept Handle.txMutex (fun _ now => by cases now) handle)
      (pcs_quiet (by simp [*])) id
  case readClosed inside _ _ | wait inside _ _ | take inside _ =>
    exact fun handle => locks.tx_frame handle (mutex_kept Handle.txMutex (fun _ => by exact id) handle)
      (pcs_quiet (by simp [locks.readerPc inside])) id
  case closeReturn inside _ =>
    exact fun handle => locks.tx_frame handle (mutex_kept Handle.txMutex (fun _ => by exact id) handle)
      (pcs_quiet (by simp [locks.closerPc inside])) id
  case lockTx thread handle write pc _ =>
    refine locks.tx_at handle ?_ update_others (fun other _ => pcs_quiet (by simp [pc])) (fun _ _ => id)
    intro held inside
    obtain rfl : TxSection.write thread write = held := by simpa [setPc, setHandle] using inside
    exact Function.update_self _ _ _
  case refuse handle _ _ inside _ | postNone handle _ _ inside _ | setPolling handle _ _ inside =>
    refine locks.tx_at handle ?_ update_others ?_ (fun _ _ => id)
    · intro held now
      simp [writeReturn, finish, setPc, setHandle] at now
    · intro other apart
      exact pcs_quiet (by simp [locks.writerPc inside rfl, Ne.symm apart])
  case append thread handle write _ inside _ =>
    refine locks.tx_at handle ?_ update_others (fun _ _ _ => id) (fun _ _ => id)
    intro held now
    obtain rfl : TxSection.appended thread write.buffer.length = held := by
      simpa [setHandle, Handle.appendTx] using now
    exact locks.writerPc inside rfl
  case post thread handle size inside _ =>
    refine locks.tx_at handle ?_ update_others (fun _ _ _ => id) (fun _ _ => id)
    intro held now
    obtain rfl : TxSection.posted thread size = held := by simpa [setHandle] using now
    exact locks.writerPc inside rfl
  case pollPop handle _ inside =>
    have poll : w.poll = .popping handle := locks.tx _ _ inside
    refine locks.tx_at handle ?_ update_others (fun _ _ _ => id) ?_
    · intro held now
      simp [setHandle, Handle.pollTx] at now
    · intro other apart popping
      rw [poll, Poll.popping.injEq] at popping
      exact absurd popping.symm apart
  case pollLockTx handle poll _ =>
    refine locks.tx_at handle ?_ update_others (fun _ _ _ => id) ?_
    · intro held now
      obtain rfl : TxSection.poll = held := by simpa [setHandle] using now
      rfl
    · intro other _ popping
      rw [poll] at popping
      cases popping
  case deliver | spuriousWake | callbackLockRx =>
    exact fun handle => locks.tx_frame handle (mutex_kept Handle.txMutex (fun _ => by exact id) handle) (fun _ => id) id
  case fetch idle _ =>
    exact fun handle => locks.tx_frame handle (fun _ => id) (fun _ => id) (by rw [idle]; intro now; cases now)
  case pollLockCore poll _ | pollDone poll _ =>
    exact fun handle => locks.tx_frame handle (fun _ => id) (fun _ => id) (by rw [poll]; intro now; cases now)
  case injectLink poll _ _ | injectUdp poll _ _ =>
    exact fun handle => locks.tx_frame handle (mutex_kept Handle.txMutex (fun _ => by exact id) handle) (fun _ => id)
      (by rw [poll]; intro now; cases now)
  case outputNone | receiveNone | output | receive => exact locks.tx

/-- A step that leaves an rx mutex alone keeps its section held. -/
theorem rx_frame (locks : w.Locks) (handle : Hid)
    (kept : ∀ held, (next.handles handle).rxMutex = some held → (w.handles handle).rxMutex = some held)
    (reading : ∀ thread, w.pcs thread = .reading handle → next.pcs thread = .reading handle)
    (closing : ∀ thread, w.pcs thread = .closingLocked handle → next.pcs thread = .closingLocked handle)
    (callback : ∀ packet, w.callback = some ⟨handle, packet⟩ → next.callback = some ⟨handle, packet⟩)
    (held : RxSection) (inside : (next.handles handle).rxMutex = some held) : held.Held next handle := by
  have before := locks.rx handle held (kept held inside)
  cases held with
  | read thread _ => exact reading thread before
  | deliver packet => exact callback packet before
  | close thread _ => exact closing thread before

/-- A step at one handle keeps the rx sections of the others. -/
theorem rx_at (locks : w.Locks) (handle : Hid)
    (own : ∀ held, (next.handles handle).rxMutex = some held → held.Held next handle)
    (others : ∀ other, other ≠ handle → next.handles other = w.handles other)
    (reading : ∀ other, other ≠ handle → ∀ thread, w.pcs thread = .reading other → next.pcs thread = .reading other)
    (closing : ∀ other, other ≠ handle → ∀ thread, w.pcs thread = .closingLocked other →
      next.pcs thread = .closingLocked other)
    (callback : ∀ other, other ≠ handle → ∀ packet, w.callback = some ⟨other, packet⟩ →
      next.callback = some ⟨other, packet⟩) :
    ∀ other held, (next.handles other).rxMutex = some held → held.Held next other := by
  intro other held inside
  by_cases same : other = handle
  · subst same
    exact own held inside
  · exact locks.rx_frame other (fun held now => others other same ▸ now) (reading other same) (closing other same)
      (callback other same) held inside

theorem rx_step (locks : w.Locks) (moved : Transition w act next) :
    ∀ handle held, (next.handles handle).rxMutex = some held → held.Held next handle := by
  cases moved
  case enter | startWrite | refuseCall | lockAttach | lockListen | lockClose | lockStack | attachFail | listenFail |
      leaveStack =>
    exact fun handle => locks.rx_frame handle (fun _ => id) (pcs_quiet (by simp [*])) (pcs_quiet (by simp [*]))
      (fun _ => id)
  case linkFree | lockTx | finishFree =>
    exact fun handle => locks.rx_frame handle (mutex_kept Handle.rxMutex (fun _ => by exact id) handle)
      (pcs_quiet (by simp [*])) (pcs_quiet (by simp [*])) (fun _ => id)
  case attach | listen =>
    exact fun handle => locks.rx_frame handle (mutex_kept Handle.rxMutex (fun _ now => by cases now) handle)
      (pcs_quiet (by simp [*])) (pcs_quiet (by simp [*])) (fun _ => id)
  case refuse inside _ | postNone inside _ | setPolling inside =>
    have pc := locks.writerPc inside rfl
    exact fun handle => locks.rx_frame handle (mutex_kept Handle.rxMutex (fun _ => by exact id) handle)
      (pcs_quiet (by simp [pc])) (pcs_quiet (by simp [pc])) (fun _ => id)
  case append | post | pollPop | spuriousWake | pollLockTx | injectLink | injectUdp =>
    exact fun handle => locks.rx_frame handle (mutex_kept Handle.rxMutex (fun _ => by exact id) handle)
      (fun _ => id) (fun _ => id) (fun _ => id)
  case lockRead thread handle size pc _ | relock thread handle size pc _ _ =>
    refine locks.rx_at handle ?_ update_others (fun other _ => pcs_quiet (by simp [pc]))
      (fun other _ => pcs_quiet (by simp [pc])) (fun _ _ _ => id)
    intro held inside
    obtain rfl : RxSection.read thread size = held := by simpa [setPc, setHandle] using inside
    exact Function.update_self _ _ _
  case lockClosing thread handle thenFree pc _ =>
    refine locks.rx_at handle ?_ update_others (fun other _ => pcs_quiet (by simp [pc]))
      (fun other _ => pcs_quiet (by simp [pc])) (fun _ _ _ => id)
    intro held inside
    obtain rfl : RxSection.close thread thenFree = held := by simpa [setPc, setHandle] using inside
    exact Function.update_self _ _ _
  case readClosed handle _ _ inside _ _ | wait handle _ _ inside _ _ | take handle _ _ inside _ =>
    have pc := locks.readerPc inside
    refine locks.rx_at handle ?_ update_others
      (fun other apart => pcs_quiet (by simp [pc, Ne.symm apart])) (fun other _ => pcs_quiet (by simp [pc]))
      (fun _ _ _ => id)
    intro held now
    simp [readReturn, finish, setPc, setHandle, Handle.waitRx, Handle.takeRx] at now
  case deliver handle packet woken inside _ =>
    have called : w.callback = some ⟨handle, packet⟩ := locks.rx _ _ inside
    refine locks.rx_at handle ?_ update_others (fun _ _ _ => id) (fun _ _ _ => id) ?_
    · intro held now
      simp [setHandle, Handle.deliverRx] at now
    · intro other apart packet running
      rw [called, Option.some.injEq, Callback.mk.injEq] at running
      exact absurd running.1.symm apart
  case closeReturn handle _ _ inside _ =>
    have pc := locks.closerPc inside
    refine locks.rx_at handle ?_ update_others (fun other _ => pcs_quiet (by simp [pc]))
      (fun other apart => pcs_quiet (by simp [pc, Ne.symm apart])) (fun _ _ _ => id)
    intro held now
    simp [closeReturn, unlockCore, setPc, setHandle, Handle.closeRx] at now
  case fetch | pollLockCore | pollDone | outputNone | receiveNone => exact locks.rx
  case output active _ | receive active _ =>
    have outside := (stackActive_iff.mp active).1
    refine fun handle => locks.rx_frame handle (fun _ => id) (fun _ => id) (fun _ => id) ?_
    intro packet running
    rw [outside] at running
    cases running
  case callbackLockRx callback called _ =>
    refine locks.rx_at callback.handle ?_ update_others (fun _ _ _ => id) (fun _ _ _ => id)
      (fun _ _ _ => id)
    intro held now
    obtain rfl : RxSection.deliver callback.packet = held := by simpa [setHandle] using now
    exact called

theorem step (locks : w.Locks) (moved : Transition w act next) : next.Locks where
  app := locks.app_step moved
  tcpip := locks.tcpip_step moved
  callback := locks.callback_step moved
  tx := locks.tx_step moved
  rx := locks.rx_step moved

/-- Every reachable world keeps its locks in order. -/
theorem reachable {allowed : World → Act → Prop} (reached : machine.Reachable allowed w) : w.Locks :=
  reached.invariant Locks (by rintro _ rfl; exact init_locks)
    (fun _ _ _ locks _ stepped => locks.step (step_transition stepped))

end Locks

end World

end Tun2Socket.Native
