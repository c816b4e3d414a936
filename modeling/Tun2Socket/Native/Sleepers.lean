import Tun2Socket.Native.Receive

namespace Tun2Socket.Native
open Lwip Library

/-- The handle whose condition variable a thread sleeps on. -/
def Pc.asleep : Pc → Option Hid
  | .sleeping handle _ => some handle
  | _ => none

/-- The list names each thread that sleeps on the handle once. -/
structure Sleepers (pcs : Tid → Pc) (handle : Hid) (threads : List Tid) : Prop where
  once : threads.Nodup
  named : ∀ thread, thread ∈ threads ↔ (pcs thread).asleep = some handle

namespace Sleepers

variable {pcs : Tid → Pc} {handle : Hid} {threads : List Tid}

theorem perm (sleepers : Sleepers pcs handle threads) {others : List Tid} (same : others.Perm threads) :
    Sleepers pcs handle others where
  once := same.nodup_iff.mpr sleepers.once
  named thread := by rw [same.mem_iff, sleepers.named]

/-- A thread that does not sleep on the handle may move without falling asleep on it. -/
theorem quiet (sleepers : Sleepers pcs handle threads) {thread : Tid} {pc : Pc}
    (awake : (pcs thread).asleep ≠ some handle) (stays : pc.asleep ≠ some handle) :
    Sleepers (Function.update pcs thread pc) handle threads where
  once := sleepers.once
  named other := by
    rw [sleepers.named]
    by_cases same : other = thread
    · subst same
      rw [Function.update_self]
      exact ⟨fun before => absurd before awake, fun after => absurd after stays⟩
    · rw [Function.update_of_ne same]

/-- A thread that falls asleep joins the list. -/
theorem sleep (sleepers : Sleepers pcs handle threads) {thread : Tid} (awake : (pcs thread).asleep ≠ some handle)
    (size : Int) : Sleepers (Function.update pcs thread (.sleeping handle size)) handle (thread :: threads) where
  once := by
    refine List.nodup_cons.mpr ⟨?_, sleepers.once⟩
    rw [sleepers.named]
    exact awake
  named other := by
    rw [List.mem_cons, sleepers.named]
    by_cases same : other = thread
    · subst same
      simp [Pc.asleep]
    · rw [Function.update_of_ne same]
      exact or_iff_right same

/-- A thread that wakes up leaves the list. -/
theorem wake (sleepers : Sleepers pcs handle threads) {thread : Tid} {pc : Pc} (stays : pc.asleep ≠ some handle) :
    Sleepers (Function.update pcs thread pc) handle (threads.erase thread) where
  once := sleepers.once.erase thread
  named other := by
    rw [sleepers.once.mem_erase_iff, sleepers.named]
    by_cases same : other = thread
    · subst same
      rw [Function.update_self]
      exact ⟨fun both => absurd rfl both.1, fun after => absurd after stays⟩
    · rw [Function.update_of_ne same]
      exact and_iff_right same

end Sleepers

namespace World

variable {w next : World} {act : Act}

/-- The waiting and the notified readers of a handle. -/
def sleepers (w : World) (handle : Hid) : List Tid := (w.handles handle).rxWaiting ++ (w.handles handle).rxNotified

def AllAsleep (w : World) : Prop := ∀ handle, Sleepers w.pcs handle (w.sleepers handle)

theorem init_allAsleep : init.AllAsleep := by
  intro handle
  exact ⟨List.nodup_nil, fun thread => ⟨(fun member => by cases member), (fun asleep => by cases asleep)⟩⟩

theorem sleepers_update {at' : Hid} {value : Handle}
    (kept : (value.rxWaiting ++ value.rxNotified).Perm (w.sleepers at')) (handle : Hid) :
    ((Function.update w.handles at' value handle).rxWaiting ++
      (Function.update w.handles at' value handle).rxNotified).Perm (w.sleepers handle) := by
  by_cases same : handle = at'
  · subst same
    rwa [Function.update_self]
  · rw [Function.update_of_ne same]
    exact List.Perm.refl _

/-- The sleepers of each handle stay asleep while a thread that is awake takes a step without sleep. -/
theorem AllAsleep.quiet (asleep : w.AllAsleep) {thread : Tid} {pc : Pc}
    (pcs : next.pcs = Function.update w.pcs thread pc) (awake : (w.pcs thread).asleep = none)
    (stays : pc.asleep = none) (kept : ∀ handle, (next.sleepers handle).Perm (w.sleepers handle)) :
    next.AllAsleep := by
  intro handle
  rw [pcs]
  exact ((asleep handle).quiet (by rw [awake]; simp) (by rw [stays]; simp)).perm (kept handle)

theorem AllAsleep.still (asleep : w.AllAsleep) (pcs : next.pcs = w.pcs)
    (kept : ∀ handle, (next.sleepers handle).Perm (w.sleepers handle)) : next.AllAsleep := by
  intro handle
  rw [pcs]
  exact (asleep handle).perm (kept handle)

theorem Entry.awake {pc : Pc} (entry : w.Entry pc) : pc.asleep = none := by
  cases entry <;> rfl

theorem deliver_perm (value : Handle) (packet : Packet) (woken : List Tid) :
    ((value.deliverRx packet woken).rxWaiting ++ (value.deliverRx packet woken).rxNotified).Perm
      (value.rxWaiting ++ value.rxNotified) := by
  have parts : (value.rxWaiting.filter (· ∈ woken) ++ value.rxWaiting.filter (· ∉ woken)).Perm value.rxWaiting := by
    simpa using List.filter_append_perm (· ∈ woken) value.rxWaiting
  calc List.Perm (value.rxWaiting.filter (· ∉ woken) ++ (value.rxNotified ++ value.rxWaiting.filter (· ∈ woken)))
        ((value.rxNotified ++ value.rxWaiting.filter (· ∈ woken)) ++ value.rxWaiting.filter (· ∉ woken)) :=
          List.perm_append_comm
    _ = value.rxNotified ++ (value.rxWaiting.filter (· ∈ woken) ++ value.rxWaiting.filter (· ∉ woken)) :=
          List.append_assoc _ _ _
    List.Perm _ (value.rxNotified ++ value.rxWaiting) := parts.append_left _
    List.Perm _ (value.rxWaiting ++ value.rxNotified) := List.perm_append_comm

/-- Every step keeps the lists of sleepers in line with the threads. -/
theorem AllAsleep.step (asleep : w.AllAsleep) (sound : w.Sound) (moved : Transition w act next) : next.AllAsleep := by
  have same : ∀ handle, (w.sleepers handle).Perm (w.sleepers handle) := fun handle => .refl _
  have ofPc : ∀ {thread : Tid} {pc : Pc}, w.pcs thread = pc → pc.asleep = none → (w.pcs thread).asleep = none :=
    fun stands awake => by rw [stands, awake]
  have blank := sound.scope.blank w.nextHandle (Nat.le_refl _)
  cases moved
  case enter idle entry => exact asleep.quiet rfl (ofPc idle rfl) entry.awake same
  case startWrite idle _ _ _ | refuseCall idle => exact asleep.quiet rfl (ofPc idle rfl) rfl same
  case lockAttach pc | lockListen pc | lockClose pc | lockStack pc | attachFail pc _ | listenFail pc _ |
      leaveStack pc _ =>
    exact asleep.quiet rfl (ofPc pc rfl) rfl same
  case attach pc _ | listen pc _ =>
    refine asleep.quiet rfl (ofPc pc rfl) rfl (sleepers_update ?_)
    rw [sleepers, blank]
    exact .refl _
  case linkFree idle _ _ | lockTx idle _ | lockRead idle _ | lockClosing idle _ | finishFree idle =>
    exact asleep.quiet rfl (ofPc idle rfl) rfl (sleepers_update (.refl _))
  case refuse inside _ | postNone inside _ | setPolling inside =>
    exact asleep.quiet rfl (ofPc (sound.locks.writerPc inside rfl) rfl) rfl (sleepers_update (.refl _))
  case readClosed inside _ _ | take inside _ =>
    exact asleep.quiet rfl (ofPc (sound.locks.readerPc inside) rfl) rfl (sleepers_update (.refl _))
  case closeReturn inside _ =>
    refine asleep.quiet rfl (ofPc (sound.locks.closerPc inside) rfl) (by split <;> rfl) (sleepers_update ?_)
    change List.Perm ((w.handles _).rxNotified ++ (w.handles _).rxWaiting)
      ((w.handles _).rxWaiting ++ (w.handles _).rxNotified)
    exact List.perm_append_comm
  case append | post | pollPop | pollLockTx | injectLink | injectUdp | callbackLockRx =>
    exact asleep.still rfl (sleepers_update (.refl _))
  case fetch | pollLockCore | pollDone | outputNone | output | receiveNone | receive => exact asleep.still rfl same
  case deliver => exact asleep.still rfl (sleepers_update (deliver_perm _ _ _))
  case spuriousWake thread waiting =>
    refine asleep.still rfl (sleepers_update ?_)
    calc List.Perm _ ([thread] ++ ((w.handles _).rxWaiting.erase thread ++ (w.handles _).rxNotified)) := by
          rw [← List.append_assoc]
          exact List.perm_append_comm
      List.Perm _ (w.sleepers _) := ((List.perm_cons_erase waiting).append_right _).symm
  case relock thread handle size pc _ notified =>
    intro other
    change Sleepers (Function.update w.pcs thread (.reading handle)) other
      ((Function.update w.handles handle _ other).rxWaiting ++ (Function.update w.handles handle _ other).rxNotified)
    by_cases here : other = handle
    · subst here
      have apart : thread ∉ (w.handles other).rxWaiting := fun waits =>
        List.disjoint_of_nodup_append (asleep other).once waits notified
      rw [Function.update_self, ← List.erase_append_right _ apart]
      exact (asleep other).wake (by simp [Pc.asleep])
    · rw [Function.update_of_ne here]
      exact (asleep other).quiet (by simp [pc, Pc.asleep, Ne.symm here]) (by simp [Pc.asleep])
  case wait thread handle size _ inside _ _ =>
    have pc := sound.locks.readerPc inside
    intro other
    change Sleepers (Function.update w.pcs thread (.sleeping handle size)) other
      ((Function.update w.handles handle _ other).rxWaiting ++ (Function.update w.handles handle _ other).rxNotified)
    by_cases here : other = handle
    · subst here
      rw [Function.update_self]
      refine ((asleep other).sleep (by simp [pc, Pc.asleep]) size).perm ?_
      simp only [Handle.waitRx, List.append_assoc, List.singleton_append]
      exact List.perm_middle
    · rw [Function.update_of_ne here]
      exact (asleep other).quiet (by simp [pc, Pc.asleep]) (by simp [Pc.asleep, Ne.symm here])

end World

end Tun2Socket.Native
