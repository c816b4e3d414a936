import Tun2Socket.Native.Attachment

namespace Tun2Socket.Native
open Lwip Library

namespace World

variable {w next : World} {act : Act}

/-- A link is unclosed from its attach until a link_close of it holds the core lock. -/
structure Unclosed (w : World) (handle : Hid) : Prop where
  known : handle < w.nextHandle
  link : (w.handles handle).isLink = true
  opened : (w.handles handle).isClosed = false
  free : ∀ thread, (w.pcs thread).closes ≠ some handle

/-- A link_close that comes again, for a closed link, finds no unclosed link. -/
def closesOwn (w : World) (act : Act) : Prop :=
  ∀ thread handle thenFree, act = .lockCore thread → w.pcs thread = .close handle thenFree →
    (w.handles handle).isLink = true → (w.handles handle).isClosed = true → ∀ other, ¬w.Unclosed other

/-- The interface belongs to the unclosed link, an attach works when there is none, and only its own close takes it. -/
structure Owned (w : World) : Prop where
  pair : ∃ link, w.interface.Names link ∧ ∀ handle, w.Unclosed handle ↔ link = some handle
  attaches : ∀ thread mtu next, w.pcs thread = .attaching mtu → machine.step w (.coreStep thread) = some next →
    (next.returns = w.returns ++ [(thread, .attached (some w.nextHandle))] ↔ ∀ handle, ¬w.Unclosed handle)
  keeps : ∀ act next handle, closesOwn w act → machine.step w act = some next → w.Unclosed handle →
    next.interface = w.interface ∨
      ∃ thread thenFree, act = .lockCore thread ∧ w.pcs thread = .close handle thenFree

/-- A close stays in its section until it marks the handle. -/
theorem closing_ends (sound : w.Sound) (moved : Transition w act next) {thread : Tid} {handle : Hid}
    (closing : (w.pcs thread).closes = some handle) :
    (next.pcs thread).closes = some handle ∨ (next.handles handle).isClosed = true := by
  have other : ∀ {mover : Tid} {pc : Pc}, (w.pcs mover).closes = none →
      (Function.update w.pcs mover pc thread).closes = some handle := by
    intro mover pc outside
    have apart : thread ≠ mover := by
      rintro rfl
      rw [outside] at closing
      cases closing
    rwa [Function.update_of_ne apart]
  have stands : ∀ {mover : Tid} {pc : Pc}, w.pcs mover = pc → pc.closes = none → (w.pcs mover).closes = none :=
    fun same none => by rw [same, none]
  cases moved
  case enter idle _ | startWrite idle _ _ _ | refuseCall idle | linkFree idle _ _ | finishFree idle =>
    exact Or.inl (other (stands idle rfl))
  case lockAttach pc | lockListen pc | lockClose pc | lockStack pc | attachFail pc _ | attach pc _ | listenFail pc _ |
      listen pc _ | leaveStack pc _ | lockTx pc _ | lockRead pc _ | relock pc _ _ =>
    exact Or.inl (other (stands pc rfl))
  case refuse inside _ | postNone inside _ | setPolling inside =>
    exact Or.inl (other (stands (sound.locks.writerPc inside rfl) rfl))
  case readClosed inside _ _ | wait inside _ _ | take inside _ =>
    exact Or.inl (other (stands (sound.locks.readerPc inside) rfl))
  case lockClosing mover at' thenFree pc _ =>
    by_cases same : thread = mover
    · subst same
      rw [pc] at closing
      obtain rfl := Option.some.inj closing
      exact Or.inl (by simp [setPc, Pc.closes])
    · exact Or.inl (by simpa [setPc, setHandle, Function.update_of_ne same] using closing)
  case closeReturn mover at' thenFree woken inside _ =>
    have pc := sound.locks.closerPc inside
    by_cases same : thread = mover
    · subst same
      rw [pc] at closing
      obtain rfl := Option.some.inj closing
      refine Or.inr ?_
      simp only [closeReturn, unlockCore, setPc, setHandle, Function.update_self]
      exact isClosed_closedEndpoint _
    · exact Or.inl (by simpa [closeReturn, unlockCore, setPc, setHandle, removePcb, Function.update_of_ne same]
        using closing)
  case append | post | pollPop | deliver | spuriousWake | fetch | pollLockCore | pollLockTx | injectLink | injectUdp |
      pollDone | outputNone | output | receiveNone | receive | callbackLockRx => exact Or.inl closing

/-- A link is unclosed before a step, or the step attaches it. -/
theorem unclosed_from (sound : w.Sound) (moved : Transition w act next) {handle : Hid}
    (unclosed : next.Unclosed handle) : w.Unclosed handle ∨ next.interface.Names (some handle) := by
  by_cases known : handle < w.nextHandle
  · refine Or.inl ⟨known, ?_, ?_, ?_⟩
    · rw [← isLink_step moved known, unclosed.link]
    · by_contra closed
      have marked := closed_step moved known (by simpa using closed)
      rw [unclosed.opened] at marked
      cases marked
    · intro thread closing
      rcases closing_ends sound moved closing with still | closed
      · exact unclosed.free thread still
      · rw [unclosed.opened] at closed
        cases closed
  · have new := unclosed.known
    have link := unclosed.link
    cases moved
    case attach =>
      obtain rfl : handle = w.nextHandle := Nat.le_antisymm (Nat.le_of_lt_succ new) (Nat.le_of_not_lt known)
      exact Or.inr ⟨rfl, rfl⟩
    case listen =>
      obtain rfl : handle = w.nextHandle := Nat.le_antisymm (Nat.le_of_lt_succ new) (Nat.le_of_not_lt known)
      simp [finish, setPc, unlockCore, setHandle, Handle.create, Handle.isLink] at link
    all_goals exact absurd new known

theorem Live.unclosed (live : w.Live) (scope : w.Scoped) {handle : Hid}
    (attached : w.interface.outputContext = some handle) : w.Unclosed handle := by
  obtain ⟨link, opened⟩ := live.output handle attached
  refine ⟨scope.output handle attached, link, opened, ?_⟩
  intro thread closing
  rw [live.closing thread handle closing link] at attached
  cases attached

/-- The invariant of the runs in which no link is closed again while another one is attached. -/
structure Owner (w : World) : Prop where
  sound : w.Sound
  live : w.Live
  attached : ∀ handle, w.Unclosed handle → w.interface.outputContext = some handle

theorem Owner.unattached (owner : w.Owner) (detached : w.interface.globalInterfaceIsAttached = false) (handle : Hid) :
    ¬w.Unclosed handle := by
  intro unclosed
  rw [Interface.isAttached_iff owner.live.pair, owner.attached handle unclosed] at detached
  cases detached

/-- A link_close of another link does not come between. -/
theorem Owner.own_close (owner : w.Owner) (own : closesOwn w act) {thread : Tid} {handle closer : Hid} {thenFree : Bool}
    (unclosed : w.Unclosed handle) (core : w.core = none) (call : act = .lockCore thread)
    (pc : w.pcs thread = .close closer thenFree) (link : (w.handles closer).isLink = true) : closer = handle := by
  cases closed : (w.handles closer).isClosed with
  | true => exact absurd unclosed (own thread closer thenFree call pc link closed handle)
  | false =>
      have mine : w.Unclosed closer := by
        refine ⟨owner.sound.scope.pcs thread closer (by rw [pc]; rfl), link, closed, ?_⟩
        intro other closing
        have held := owner.sound.locks.app other (closing_holdsCore closing).1
        rw [core] at held
        cases held
      have first := owner.attached closer mine
      rw [owner.attached handle unclosed] at first
      exact (Option.some.inj first).symm

/-- Only the close of an unclosed link takes the interface from it. -/
theorem Owner.keeps (owner : w.Owner) (own : closesOwn w act) (moved : Transition w act next) {handle : Hid}
    (unclosed : w.Unclosed handle) :
    next.interface = w.interface ∨
      ∃ thread thenFree, act = .lockCore thread ∧ w.pcs thread = .close handle thenFree ∧
        (next.pcs thread).closes = some handle := by
  rcases Live.interface_step moved with same | ⟨detached, _⟩ | ⟨core, _, _, thread, closer, thenFree, call, pc, link, pcs⟩
  · exact Or.inl same
  · exact absurd unclosed (owner.unattached detached handle)
  · obtain rfl := owner.own_close own unclosed core call pc link
    exact Or.inr ⟨thread, thenFree, call, pc, by rw [pcs, Function.update_self]; rfl⟩

theorem Owner.step (owner : w.Owner) (own : closesOwn w act) (moved : Transition w act next) : next.Owner where
  sound := owner.sound.step moved
  live := owner.live.step owner.sound moved
  attached handle unclosed := by
    rcases unclosed_from owner.sound moved unclosed with before | names
    · rcases owner.keeps own moved before with same | ⟨thread, _, _, _, closing⟩
      · rw [same, owner.attached handle before]
      · exact absurd closing (unclosed.free thread)
    · exact names.2

theorem Owner.reachable (reached : machine.Reachable closesOwn w) : w.Owner := by
  refine reached.invariant Owner ?_ ?_
  · rintro _ rfl
    exact ⟨init_sound, init_live, fun handle unclosed => absurd unclosed.known (Nat.not_lt_zero handle)⟩
  · exact fun _ _ _ owner own stepped => owner.step own (step_transition stepped)

/-- While no link is closed again beside an unclosed one, the interface belongs to the unclosed link. -/
theorem owned_reachable (reached : machine.Reachable closesOwn w) : w.Owned := by
  have owner := Owner.reachable reached
  have unclosed_iff : ∀ handle, w.Unclosed handle ↔ w.interface.outputContext = some handle :=
    fun handle => ⟨owner.attached handle, owner.live.unclosed owner.sound.scope⟩
  refine ⟨⟨_, owner.live.pair, unclosed_iff⟩, ?_, ?_⟩
  · intro thread mtu next pc stepped
    obtain rfl : w.linkAttach thread mtu = next := by simpa [machine, step, coreStep, pc] using stepped
    have attached_iff := Interface.isAttached_iff owner.live.pair
    simp only [unclosed_iff, linkAttach, attached_iff]
    cases context : w.interface.outputContext with
    | none => simp [finish, setPc, unlockCore, setHandle]
    | some handle => simp [finish, setPc, unlockCore]
  · intro act next handle own stepped unclosed
    rcases owner.keeps own (step_transition stepped) unclosed with same | ⟨thread, thenFree, call, pc, _⟩
    · exact Or.inl same
    · exact Or.inr ⟨thread, thenFree, call, pc⟩

/-- A link is closed, the next one is attached, and the first one is closed again. -/
def lateClose : List Act :=
  [.call 1 (.linkAttach 1500), .lockCore 1, .coreStep 1,
    .call 1 (.linkClose 0), .lockCore 1, .lockRx 1, .rxStep 0 [],
    .call 1 (.linkAttach 1400), .lockCore 1, .coreStep 1,
    .call 1 (.linkClose 0), .lockCore 1, .lockRx 1, .rxStep 0 []]

/-- The test finds an open link that is not attached, with nobody inside a close. -/
def detachedAt (handle : Hid) (w : World) : Bool :=
  decide (handle < w.nextHandle) && (w.handles handle).isLink && !(w.handles handle).isClosed && w.core.isNone &&
    w.interface.outputContext.isNone

theorem detachedAt_refutes {handle : Hid} (sound : w.Sound) (found : detachedAt handle w = true) : ¬w.Owned := by
  simp only [detachedAt, Bool.and_eq_true, decide_eq_true_eq, Bool.not_eq_true', Option.isNone_iff_eq_none] at found
  obtain ⟨⟨⟨⟨known, link⟩, opened⟩, core⟩, context⟩ := found
  intro owned
  obtain ⟨named, names, unclosed_iff⟩ := owned.pair
  have unclosed : w.Unclosed handle := by
    refine ⟨known, link, opened, ?_⟩
    intro thread closing
    have held := sound.locks.app thread (closing_holdsCore closing).1
    rw [core] at held
    cases held
  rw [names.2.symm.trans context] at unclosed_iff
  cases (unclosed_iff handle).mp unclosed

/-- A late close detaches the link of somebody else. -/
theorem late_close_detaches : ∃ w, machine.Reachable Machine.anyStep w ∧ ¬w.Owned := by
  have executed : (machine.execute (fun _ _ => true) init lateClose).any (detachedAt 1) = true := by decide +kernel
  obtain ⟨w, reached, found⟩ := Machine.execute_reaches _ (detachedAt 1) rfl executed
  exact ⟨w, reached.weaken fun _ _ _ => trivial, detachedAt_refutes (Sound.reachable reached) found⟩

/-- A link is closed twice before the next one is attached. -/
def closedTwice : List Act :=
  [.call 1 (.linkAttach 1500), .lockCore 1, .coreStep 1,
    .call 1 (.linkClose 0), .lockCore 1, .lockRx 1, .rxStep 0 [],
    .call 1 (.linkClose 0), .lockCore 1, .lockRx 1, .rxStep 0 [],
    .call 1 (.linkAttach 1400), .lockCore 1, .coreStep 1]

/-- The test of a run that closes a link again only while all links are closed. -/
def closesAgain (w : World) : Act → Bool
  | .lockCore thread => match w.pcs thread with
    | .close handle _ => !(w.handles handle).isClosed ||
        (List.range w.nextHandle).all fun other => !(w.handles other).isLink || (w.handles other).isClosed
    | _ => true
  | _ => true

/-- A link that is attached after the second close of another one owns the interface. -/
theorem attached_link_owns : ∃ w : World, w.interface.outputContext = some 1 ∧ w.Owned := by
  have executed : (machine.execute closesAgain init closedTwice).any
      (fun w => w.interface.outputContext = some 1) = true := by decide +kernel
  obtain ⟨w, reached, attached⟩ := Machine.execute_reaches closesAgain _ rfl executed
  refine ⟨w, of_decide_eq_true attached, owned_reachable (reached.weaken ?_)⟩
  rintro before _ passed thread handle thenFree rfl pc _ closed other unclosed
  simp only [closesAgain, pc, closed, Bool.not_true, Bool.false_or, List.all_eq_true, List.mem_range] at passed
  have shut := passed other unclosed.known
  rw [unclosed.link, unclosed.opened] at shut
  cases shut

end World

end Tun2Socket.Native
