import Tun2Socket.Library.LockOrder
import Tun2Socket.Native.Transmit

namespace Tun2Socket.Native
open Lwip Library

/-- A lock of the native layer. The last one protects the mailbox of the tcpip thread. -/
inductive Lock where
  | core
  | rx (handle : Hid)
  | tx (handle : Hid)
  | mbox

/-- The order in which the locks are taken. -/
@[simp] def Lock.rank : Lock → Nat
  | .core => 0
  | .rx _ => 1
  | .tx _ => 2
  | .mbox => 3

/-- The mailbox is used by the tcpip thread and by the writer inside the tx mutex of a handle. -/
inductive MboxUser where
  | tcpip
  | writer (handle : Hid)
  deriving DecidableEq

/-- The world with the lock of the mailbox. -/
structure LockWorld where
  world : World
  mbox : Option MboxUser

inductive LockAct where
  | native (act : Act)
  | lockMbox (user : MboxUser)
  /-- The fetch finds the mailbox empty and waits outside of its lock. -/
  | waitMbox

/-- The writer inside the tx mutex has appended its packet and no callback is posted. -/
def World.posting (w : World) (handle : Hid) : Bool :=
  match (w.handles handle).txMutex with
  | some (.appended _ _) => (w.handles handle).txPolling = 0
  | _ => false

namespace LockWorld

/-- Who calls the mailbox in a step. -/
def mboxUser (l : LockWorld) : Act → Option MboxUser
  | .fetch => some .tcpip
  | .txStep handle _ => if l.world.posting handle then some (.writer handle) else none
  | _ => none

/-- A post that finds no memory for its message does not come to the mailbox. -/
def skipsMbox : Act → Bool
  | .txStep _ posts => !posts
  | _ => false

def step (l : LockWorld) : LockAct → Option LockWorld
  | .native act =>
      match l.mboxUser act with
      | none => (l.world.step act).map fun world => { l with world := world }
      | some user =>
          if l.mbox = some user then (l.world.step act).map fun world => ⟨world, none⟩
          else if skipsMbox act then (l.world.step act).map fun world => { l with world := world }
          else none
  | .lockMbox user =>
      match l.mbox, user with
      | some _, _ => none
      | none, .tcpip =>
          match l.world.poll with
          | .idle => some { l with mbox := some .tcpip }
          | _ => none
      | none, .writer handle => if l.world.posting handle then some { l with mbox := some (.writer handle) } else none
  | .waitMbox => if l.mbox = some .tcpip ∧ l.world.mailbox = [] then some { l with mbox := none } else none

def machine : Machine LockWorld LockAct := ⟨fun l => l = ⟨.init, none⟩, step⟩

/-- Who is inside the critical section of a lock. A callback runs in the thread that holds the core lock. -/
inductive Holds (l : LockWorld) : Owner → Lock → Prop
  | core {owner : Owner} (owns : l.world.core = some owner) : Holds l owner .core
  | reader {handle : Hid} {thread : Tid} {size : Int}
      (inside : (l.world.handles handle).rxMutex = some (.read thread size)) : Holds l (.app thread) (.rx handle)
  | closer {handle : Hid} {thread : Tid} {thenFree : Bool}
      (inside : (l.world.handles handle).rxMutex = some (.close thread thenFree)) : Holds l (.app thread) (.rx handle)
  | callback {handle : Hid} {packet : Packet} {owner : Owner}
      (inside : (l.world.handles handle).rxMutex = some (.deliver packet)) (owns : l.world.core = some owner) :
      Holds l owner (.rx handle)
  | writer {handle : Hid} {held : TxSection} {thread : Tid} (inside : (l.world.handles handle).txMutex = some held)
      (writes : held.writer = some thread) : Holds l (.app thread) (.tx handle)
  | poll {handle : Hid} (inside : (l.world.handles handle).txMutex = some .poll) : Holds l .tcpip (.tx handle)
  | post {handle : Hid} {held : TxSection} {thread : Tid} (uses : l.mbox = some (.writer handle))
      (inside : (l.world.handles handle).txMutex = some held) (writes : held.writer = some thread) :
      Holds l (.app thread) .mbox
  | fetch (uses : l.mbox = some .tcpip) : Holds l .tcpip .mbox

/-- Who can only go on with a lock. A thread in pthread_cond_wait goes for the mutex after a signal. -/
inductive Waits (l : LockWorld) : Owner → Lock → Prop
  | attach {thread : Tid} {mtu : Int} (pc : l.world.pcs thread = .attach mtu) : Waits l (.app thread) .core
  | listen {thread : Tid} (pc : l.world.pcs thread = .listen) : Waits l (.app thread) .core
  | close {thread : Tid} {handle : Hid} {thenFree : Bool} (pc : l.world.pcs thread = .close handle thenFree) :
      Waits l (.app thread) .core
  | stack {thread : Tid} (pc : l.world.pcs thread = .stack) : Waits l (.app thread) .core
  | write {thread : Tid} {handle : Hid} {write : Write} (pc : l.world.pcs thread = .write handle write) :
      Waits l (.app thread) (.tx handle)
  | read {thread : Tid} {handle : Hid} {size : Int} (pc : l.world.pcs thread = .read handle size) :
      Waits l (.app thread) (.rx handle)
  | relock {thread : Tid} {handle : Hid} {size : Int} (pc : l.world.pcs thread = .sleeping handle size)
      (notified : thread ∈ (l.world.handles handle).rxNotified) : Waits l (.app thread) (.rx handle)
  | closing {thread : Tid} {handle : Hid} {thenFree : Bool} (pc : l.world.pcs thread = .closing handle thenFree) :
      Waits l (.app thread) (.rx handle)
  | closingLocked {thread : Tid} {handle : Hid} (pc : l.world.pcs thread = .closingLocked handle) :
      Waits l (.app thread) (.tx handle)
  | post {handle : Hid} {thread : Tid} {size : Nat}
      (inside : (l.world.handles handle).txMutex = some (.appended thread size))
      (unposted : (l.world.handles handle).txPolling = 0) (outside : l.mbox ≠ some (.writer handle)) :
      Waits l (.app thread) .mbox
  | fetch (poll : l.world.poll = .idle) (outside : l.mbox ≠ some .tcpip) : Waits l .tcpip .mbox
  | fetched {handle : Hid} (poll : l.world.poll = .fetched handle) : Waits l .tcpip .core
  | locking {handle : Hid} (poll : l.world.poll = .locking handle) : Waits l .tcpip (.tx handle)
  | callback {called : Callback} {owner : Owner} (inside : l.world.callback = some called)
      (outside : (l.world.handles called.handle).rxMutex ≠ some (.deliver called.packet))
      (owns : l.world.core = some owner) : Waits l owner (.rx called.handle)

def lockState (l : LockWorld) : LockState Owner Lock := ⟨l.Holds, l.Waits⟩

end LockWorld

/-- The owner of the core lock stands at a point where it holds it. -/
structure World.CoreHeld (w : World) : Prop where
  app : ∀ thread, w.core = some (.app thread) → (w.pcs thread).holdsCore = true
  tcpip : w.core = some .tcpip → w.poll.holdsCore = true

namespace World

variable {w next : World} {act : Act}

theorem CoreHeld.quiet (held : w.CoreHeld) {thread : Tid} (outside : (w.pcs thread).holdsCore = false) (pc : Pc)
    (other : Tid) (owns : w.core = some (.app other)) : (Function.update w.pcs thread pc other).holdsCore = true := by
  have inside := held.app other owns
  rw [Function.update_of_ne, inside]
  rintro rfl
  rw [outside] at inside
  cases inside

theorem CoreHeld.ofFree (free : w.core = none) : w.CoreHeld := by
  constructor
  all_goals
    intros
    simp_all

theorem CoreHeld.ofApp {thread : Tid} (owns : w.core = some (.app thread)) (holds : (w.pcs thread).holdsCore = true) :
    w.CoreHeld := by
  constructor
  · intro other same
    obtain rfl : thread = other := by simpa [owns] using same
    exact holds
  · intro same
    simp [owns] at same

theorem CoreHeld.ofTcpip (owns : w.core = some .tcpip) (holds : w.poll.holdsCore = true) : w.CoreHeld := by
  constructor
  · intro other same
    simp [owns] at same
  · exact fun _ => holds

theorem CoreHeld.step (held : w.CoreHeld) (locks : w.Locks) (moved : Transition w act next) : next.CoreHeld := by
  have tcpip := held.tcpip
  cases moved
  case enter idle _ | startWrite idle _ _ _ | refuseCall idle | linkFree idle _ _ =>
    exact ⟨held.quiet (by rw [idle]; rfl) _, tcpip⟩
  case lockAttach thread _ _ _ | lockListen thread _ _ | lockClose thread _ _ _ _ | lockStack thread _ _ =>
    exact @CoreHeld.ofApp _ thread rfl (by simp [setPc, Pc.holdsCore])
  case attachFail | attach | listenFail | listen | leaveStack | closeReturn | pollDone => exact .ofFree rfl
  case lockTx pc _ | lockRead pc _ | relock pc _ _ | finishFree pc => exact ⟨held.quiet (by rw [pc]; rfl) _, tcpip⟩
  case lockClosing thread _ _ pc _ =>
    refine ⟨fun other owns => ?_, tcpip⟩
    by_cases same : other = thread
    · subst same
      simp [setPc, Pc.holdsCore]
    · simpa [setPc, setHandle, same] using held.app other owns
  case refuse inside _ | postNone inside _ | setPolling inside =>
    exact ⟨held.quiet (by rw [locks.writerPc inside rfl]; rfl) _, tcpip⟩
  case readClosed inside _ _ | wait inside _ _ | take inside _ =>
    exact ⟨held.quiet (by rw [locks.readerPc inside]; rfl) _, tcpip⟩
  case pollPop inside => exact ⟨held.app, fun _ => rfl⟩
  case fetch idle _ =>
    refine ⟨held.app, fun owns => ?_⟩
    have inside := tcpip owns
    rw [idle] at inside
    cases inside
  case pollLockCore => exact .ofTcpip rfl rfl
  case pollLockTx | injectLink | injectUdp => exact ⟨held.app, fun _ => rfl⟩
  all_goals exact ⟨held.app, tcpip⟩

/-- Only its own writer moves a section that comes to its post. -/
theorem appended_step (sound : w.Sound) (moved : Transition w act next) {handle : Hid} {thread : Tid} {size : Nat}
    (inside : (w.handles handle).txMutex = some (.appended thread size)) :
    (∃ posts, act = .txStep handle posts) ∨
      ((next.handles handle).txMutex = some (.appended thread size) ∧
        (next.handles handle).txPolling = (w.handles handle).txPolling) := by
  have known := sound.scope.txSection sound.locks inside
  have elsewhere : ∀ {at' : Hid} {value : Handle}, handle ≠ at' →
      (Function.update w.handles at' value handle).txMutex = some (.appended thread size) ∧
        (Function.update w.handles at' value handle).txPolling = (w.handles handle).txPolling := by
    intro at' value apart
    rw [Function.update_of_ne apart, inside]
    exact ⟨rfl, rfl⟩
  have kept : ∀ {at' : Hid} {value : Handle}, value.txMutex = (w.handles at').txMutex →
      value.txPolling = (w.handles at').txPolling →
      (Function.update w.handles at' value handle).txMutex = some (.appended thread size) ∧
        (Function.update w.handles at' value handle).txPolling = (w.handles handle).txPolling := by
    intro at' value same polling
    by_cases here : handle = at'
    · subst here
      rw [Function.update_self, same, inside]
      exact ⟨rfl, polling⟩
    · exact elsewhere here
  have unlocked : ∀ {at' : Hid}, (w.handles at').txMutex = none → handle ≠ at' := by
    rintro at' free rfl
    rw [free] at inside
    cases inside
  have stepped : ∀ {at' : Hid} {value : Handle} {posts : Bool},
      (∃ chosen, Act.txStep at' posts = .txStep handle chosen) ∨
        ((Function.update w.handles at' value handle).txMutex = some (.appended thread size) ∧
          (Function.update w.handles at' value handle).txPolling = (w.handles handle).txPolling) := by
    intro at' value posts
    by_cases here : handle = at'
    · exact .inl ⟨posts, by rw [here]⟩
    · exact .inr (elsewhere here)
  cases moved
  case attach | listen => exact .inr (elsewhere (Nat.ne_of_lt known))
  case refuse | append | post | postNone | setPolling | pollPop => exact stepped
  case lockTx free | pollLockTx free => exact .inr (elsewhere (unlocked free))
  case enter | startWrite | refuseCall | lockAttach | lockListen | lockClose | lockStack | attachFail | listenFail |
      leaveStack | fetch | pollLockCore | pollDone | outputNone | output | receiveNone | receive =>
    exact .inr ⟨inside, rfl⟩
  all_goals exact .inr (kept rfl rfl)

/-- The idle tcpip thread does nothing but fetch. -/
theorem idle_step (locks : w.Locks) (moved : Transition w act next) (idle : w.poll = .idle) :
    act = .fetch ∨ next.poll = .idle := by
  cases moved
  case fetch => exact .inl rfl
  case pollPop inside =>
    have popping := locks.tx _ _ inside
    rw [TxSection.Held, idle] at popping
    cases popping
  case pollLockCore poll _ | pollLockTx poll _ | injectLink poll _ _ | injectUdp poll _ _ =>
    rw [idle] at poll
    cases poll
  case pollDone => exact .inr rfl
  all_goals exact .inr idle

theorem posting_iff {handle : Hid} : w.posting handle = true ↔
    ∃ thread size, (w.handles handle).txMutex = some (.appended thread size) ∧ (w.handles handle).txPolling = 0 := by
  unfold posting
  split
  · rename_i thread size inside
    exact ⟨fun unposted => ⟨thread, size, inside, of_decide_eq_true unposted⟩, fun ⟨_, _, _, unposted⟩ => decide_eq_true unposted⟩
  · rename_i outside
    exact ⟨nofun, fun ⟨thread, size, inside, _⟩ => absurd inside (outside thread size)⟩

end World

/-- The ranks of the locks that a thread may hold at a point lie below its bound. -/
@[simp] def Pc.bound : Pc → Nat
  | .attaching _ | .listening | .closing _ _ => 1
  | .closingLocked _ | .reading _ | .inStack => 2
  | .writing _ => 4
  | _ => 0

/-- The same for the tcpip thread. -/
@[simp] def Poll.bound : Poll → Nat
  | .idle => 4
  | .fetched _ => 0
  | .locking _ => 1
  | .popping _ => 3
  | .injecting _ _ => 2

theorem Pc.bound_pos {pc : Pc} (inside : pc.holdsCore = true) : 0 < pc.bound := by
  cases pc <;> first | exact Nat.succ_pos _ | cases inside

theorem Poll.bound_pos {poll : Poll} (inside : poll.holdsCore = true) : 0 < poll.bound := by
  cases poll <;> first | exact Nat.succ_pos _ | cases inside

namespace LockWorld

variable {l next : LockWorld}

/-- The world is sound, and the user of the mailbox stands at its door. -/
structure Sound (l : LockWorld) : Prop where
  world : l.world.Sound
  core : l.world.CoreHeld
  fetch : l.mbox = some .tcpip → l.world.poll = .idle
  post : ∀ handle, l.mbox = some (.writer handle) →
    ∃ thread size, (l.world.handles handle).txMutex = some (.appended thread size) ∧ (l.world.handles handle).txPolling = 0

namespace Sound

/-- A step of another thread leaves the user of the mailbox where it is. -/
theorem native (sound : l.Sound) {act : Act} {world : World} (done : l.world.step act = some world)
    (others : ∀ user, l.mbox = some user → l.mboxUser act ≠ some user) : Sound { l with world := world } := by
  have moved := World.step_transition done
  refine ⟨sound.world.step moved, sound.core.step sound.world.locks moved, fun uses => ?_, fun handle uses => ?_⟩
  · rcases World.idle_step sound.world.locks moved (sound.fetch uses) with rfl | idle
    · exact absurd rfl (others _ uses)
    · exact idle
  · obtain ⟨thread, size, inside, unposted⟩ := sound.post handle uses
    rcases World.appended_step sound.world moved inside with ⟨posts, rfl⟩ | ⟨kept, polling⟩
    · have posting : l.world.posting handle = true := World.posting_iff.mpr ⟨thread, size, inside, unposted⟩
      exact absurd (by simp [mboxUser, posting]) (others _ uses)
    · exact ⟨thread, size, kept, polling.trans unposted⟩

theorem step {act : LockAct} (sound : l.Sound) (done : l.step act = some next) : next.Sound := by
  cases act with
  | native act =>
      simp only [LockWorld.step] at done
      split at done
      · rename_i unused
        obtain ⟨world, stepped, rfl⟩ := Option.map_eq_some_iff.mp done
        exact sound.native stepped fun user _ used => by rw [unused] at used; cases used
      · rename_i user used
        split at done
        · -- the step of the user releases the mailbox
          obtain ⟨world, stepped, rfl⟩ := Option.map_eq_some_iff.mp done
          have moved := World.step_transition stepped
          exact ⟨sound.world.step moved, sound.core.step sound.world.locks moved, nofun, nofun⟩
        · rename_i other
          split at done
          · obtain ⟨world, stepped, rfl⟩ := Option.map_eq_some_iff.mp done
            refine sound.native stepped fun holder holds same => other ?_
            rw [holds, ← same, used]
          · cases done
  | lockMbox user =>
      simp only [LockWorld.step] at done
      split at done
      · cases done
      · split at done
        · rename_i idle
          obtain rfl := Option.some.inj done
          exact ⟨sound.world, sound.core, fun _ => idle, nofun⟩
        · cases done
      · rename_i handle free
        split at done
        · rename_i posting
          obtain rfl := Option.some.inj done
          refine ⟨sound.world, sound.core, nofun, fun other uses => ?_⟩
          obtain rfl : handle = other := by simpa using uses
          exact World.posting_iff.mp posting
        · cases done
  | waitMbox =>
      simp only [LockWorld.step] at done
      split at done
      · obtain rfl := Option.some.inj done
        exact ⟨sound.world, sound.core, nofun, nofun⟩
      · cases done

theorem start : Sound ⟨.init, none⟩ := ⟨World.init_sound, ⟨nofun, nofun⟩, nofun, nofun⟩

theorem reachable (reached : machine.Reachable Machine.anyStep l) : l.Sound := by
  refine reached.invariant Sound (fun first initial => ?_) fun before act after held _ done => held.step done
  obtain rfl : first = ⟨.init, none⟩ := initial
  exact start

/-- The thread inside a callback runs the stack. -/
theorem inStack (sound : l.Sound) {called : Callback} {owner : Owner} (inside : l.world.callback = some called)
    (owns : l.world.core = some owner) :
    (∃ thread, owner = .app thread ∧ l.world.pcs thread = .inStack) ∨
      (owner = .tcpip ∧ ∃ handle array, l.world.poll = .injecting handle array) := by
  rcases sound.world.locks.callback called inside with ⟨thread, core, pc⟩ | ⟨core, poll⟩
  · exact .inl ⟨thread, Option.some.inj (owns.symm.trans core), pc⟩
  · exact .inr ⟨Option.some.inj (owns.symm.trans core), poll⟩

/-- Each lock that a thread holds has a rank below the bound of the point where it stands. -/
theorem holds_app (sound : l.Sound) {thread : Tid} {lock : Lock} (holds : l.Holds (.app thread) lock) :
    lock.rank < (l.world.pcs thread).bound := by
  have locks := sound.world.locks
  cases holds with
  | core owns => exact Pc.bound_pos (sound.core.app thread owns)
  | reader inside =>
      rw [locks.readerPc inside]
      exact Nat.one_lt_two
  | closer inside =>
      rw [locks.closerPc inside]
      exact Nat.one_lt_two
  | callback inside owns =>
      obtain ⟨same, mine, pc⟩ | ⟨impossible, -⟩ := sound.inStack (locks.rx _ _ inside) owns
      · obtain rfl := Owner.app.inj mine
        rw [pc]
        exact Nat.one_lt_two
      · cases impossible
  | writer inside writes =>
      rw [locks.writerPc inside writes]
      simp
  | post uses inside writes =>
      rw [locks.writerPc inside writes]
      simp

theorem holds_tcpip (sound : l.Sound) {lock : Lock} (holds : l.Holds .tcpip lock) :
    lock.rank < l.world.poll.bound := by
  have locks := sound.world.locks
  cases holds with
  | core owns => exact Poll.bound_pos (sound.core.tcpip owns)
  | callback inside owns =>
      obtain ⟨same, impossible, -⟩ | ⟨-, handle, array, poll⟩ := sound.inStack (locks.rx _ _ inside) owns
      · cases impossible
      · rw [poll]
        exact Nat.one_lt_two
  | poll inside =>
      rw [show l.world.poll = .popping _ from locks.tx _ _ inside]
      simp
  | fetch uses =>
      rw [sound.fetch uses]
      simp

/-- A thread that comes to the mailbox holds nothing but its tx mutex. -/
theorem post_ordered (sound : l.Sound) {handle : Hid} {thread : Tid} {size : Nat} {held : Lock}
    (inside : (l.world.handles handle).txMutex = some (.appended thread size)) (outside : l.mbox ≠ some (.writer handle))
    (holds : l.Holds (.app thread) held) : held.rank < 3 := by
  have locks := sound.world.locks
  have pc := locks.writerPc inside rfl
  cases holds with
  | post uses other writes =>
      have again := locks.writerPc other writes
      rw [pc, Pc.writing.injEq] at again
      exact absurd (again ▸ uses) outside
  | core => simp
  | reader | closer | callback | writer => simp

/-- The idle tcpip thread holds nothing. -/
theorem fetch_ordered (sound : l.Sound) (idle : l.world.poll = .idle) (outside : l.mbox ≠ some .tcpip) {held : Lock} :
    ¬ l.Holds .tcpip held := by
  intro holds
  have core : l.world.core ≠ some .tcpip := by
    intro owns
    have inside := sound.core.tcpip owns
    rw [idle] at inside
    cases inside
  cases holds with
  | core owns => exact core owns
  | callback _ owns => exact core owns
  | poll inside =>
      have popping := sound.world.locks.tx _ _ inside
      rw [TxSection.Held, idle] at popping
      cases popping
  | fetch uses => exact outside uses

/-- A callback that goes for its rx mutex holds nothing but the core lock. -/
theorem callback_ordered (sound : l.Sound) {called : Callback} {owner : Owner} {held : Lock}
    (inside : l.world.callback = some called)
    (outside : (l.world.handles called.handle).rxMutex ≠ some (.deliver called.packet))
    (owns : l.world.core = some owner) (holds : l.Holds owner held) : held = .core := by
  have locks := sound.world.locks
  have stands := sound.inStack inside owns
  cases holds with
  | core => rfl
  | reader section' =>
      obtain ⟨thread, mine, pc⟩ | ⟨impossible, -⟩ := stands
      · obtain rfl := Owner.app.inj mine
        rw [locks.readerPc section'] at pc
        cases pc
      · cases impossible
  | closer section' =>
      obtain ⟨thread, mine, pc⟩ | ⟨impossible, -⟩ := stands
      · obtain rfl := Owner.app.inj mine
        rw [locks.closerPc section'] at pc
        cases pc
      · cases impossible
  | callback section' _ =>
      have same := locks.rx _ _ section'
      rw [RxSection.Held, inside, Option.some.injEq] at same
      subst same
      exact absurd section' outside
  | writer section' writes | post _ section' writes =>
      obtain ⟨thread, mine, pc⟩ | ⟨impossible, -⟩ := stands
      · obtain rfl := Owner.app.inj mine
        rw [locks.writerPc section' writes] at pc
        cases pc
      · cases impossible
  | poll section' =>
      obtain ⟨thread, impossible, -⟩ | ⟨-, handle, array, poll⟩ := stands
      · cases impossible
      · have popping := locks.tx _ _ section'
        rw [TxSection.Held, poll] at popping
        cases popping
  | fetch uses =>
      obtain ⟨thread, impossible, -⟩ | ⟨-, handle, array, poll⟩ := stands
      · cases impossible
      · rw [sound.fetch uses] at poll
        cases poll

/-- All paths take the core lock first, then an rx mutex, then a tx mutex and last the mailbox. -/
theorem ordered (sound : l.Sound) : l.lockState.Ordered Lock.rank := by
  intro owner held wanted holds waits
  cases waits with
  | attach pc | listen pc | close pc | stack pc | write pc | read pc | relock pc | closing pc | closingLocked pc =>
      have below := sound.holds_app holds
      rw [pc] at below
      exact Nat.lt_of_lt_of_le below (by simp)
  | post inside _ outside => exact sound.post_ordered inside outside holds
  | fetch idle outside => exact absurd holds (sound.fetch_ordered idle outside)
  | fetched poll | locking poll =>
      have below := sound.holds_tcpip holds
      rw [poll] at below
      exact Nat.lt_of_lt_of_le below (by simp)
  | callback inside outside owns =>
      rw [sound.callback_ordered inside outside owns holds]
      exact Nat.zero_lt_one

end Sound

/-- No reachable state has a cycle of threads that wait for each other. -/
theorem never_deadlocked (reached : machine.Reachable Machine.anyStep l) : ¬ l.lockState.Deadlocked :=
  (Sound.reachable reached).ordered.not_deadlocked

section Runs

/-- A close waits for a writer, and the writer waits for the tcpip thread. -/
def closeWhileWriting : List LockAct :=
  [.native (.call 0 (.linkAttach 1500)), .native (.lockCore 0), .native (.coreStep 0),
    .native (.call 1 (.linkWrite 0 [1, 2, 3])), .native (.lockTx 1), .native (.txStep 0 true),
    .native (.call 2 (.linkClose 0)), .native (.lockCore 2), .native (.lockRx 2), .lockMbox .tcpip]

def chained (l : LockWorld) : Bool :=
  (match (l.world.handles 0).txMutex, l.world.pcs 2 with
    | some (.appended thread _), .closingLocked handle => thread = 1 && handle = 0
    | _, _ => false) && (l.world.handles 0).txPolling = 0 && l.mbox = some .tcpip

/-- Threads that wait in a chain do not wait in a cycle. -/
theorem waiting_chain_is_no_deadlock : ∃ l, machine.Reachable Machine.anyStep l ∧
    l.lockState.WaitsFor (.app 2) (.app 1) ∧ l.lockState.WaitsFor (.app 1) .tcpip ∧ ¬ l.lockState.Deadlocked := by
  have executed : (machine.execute (fun _ _ => true) ⟨.init, none⟩ closeWhileWriting).any chained = true := by
    decide +kernel
  obtain ⟨l, reached, state⟩ := Machine.execute_reaches _ chained rfl executed
  have free : machine.Reachable Machine.anyStep l := reached.weaken fun _ _ _ => trivial
  simp only [chained, Bool.and_eq_true, decide_eq_true_eq] at state
  obtain ⟨⟨stands, unposted⟩, uses⟩ := state
  split at stands
  · rename_i thread size handle inside pc
    simp only [Bool.and_eq_true, decide_eq_true_eq] at stands
    obtain ⟨rfl, rfl⟩ := stands
    refine ⟨l, free, ⟨.tx 0, .closingLocked pc, .writer inside rfl⟩, ⟨.mbox, .post inside unposted ?_, .fetch uses⟩,
      never_deadlocked free⟩
    simp [uses]
  · cases stands

end Runs

end LockWorld

end Tun2Socket.Native
