import Tun2Socket.Native.Attachment

namespace Tun2Socket.Native
open Lwip Library

namespace World

variable {w next : World} {act : Act}

/-- The thread and the handle of a step that frees one. -/
def frees (w : World) : Act → Option (Tid × Hid)
  | .call thread (.linkFree handle) => some (thread, handle)
  | .finishFree thread =>
      match w.pcs thread with
      | .freeing handle => some (thread, handle)
      | _ => none
  | _ => none

/-- The callers free a handle once, and no call uses it at or after its free. -/
structure Disciplined (w : World) (act : Act) : Prop where
  calls : ∀ thread call handle, act = .call thread call → call.handle = some handle →
    (w.handles handle).freed = false
  frees : ∀ thread handle, w.frees act = some (thread, handle) →
    (w.handles handle).freed = false ∧ ∀ other, other ≠ thread → (w.pcs other).handle ≠ some handle

/-- No poll callback uses the handle. It may be in the mailbox, fetched from it, or past its tx section, after which the
callback of a link needs the link no more and that of a UDP handle still reads its pcb. -/
structure Unpolled (w : World) (handle : Hid) : Prop where
  pending : w.pendingPolls handle = 0
  sending : ∀ array, w.poll = .injecting handle array → (w.handles handle).isLink = true

/-- A free finds no callback that uses the handle and no output pair with it. -/
def freesRetired (w : World) (act : Act) : Prop :=
  ∀ thread handle, w.frees act = some (thread, handle) →
    w.Unpolled handle ∧ w.interface.outputContext ≠ some handle

/-- No posted or running callback, no output pair and no pcb refers to a freed handle. -/
def NoDangling (w : World) : Prop :=
  ∀ handle, (w.handles handle).freed = true →
    w.Unpolled handle ∧ w.interface.outputContext ≠ some handle ∧ ∀ pcb ∈ w.udpPcbs, pcb.recvArg ≠ handle

/-- A freed handle is retired when nothing can refer to it any more. -/
structure Retired (w : World) (handle : Hid) : Prop where
  known : handle < w.nextHandle
  quiet : ∀ thread, (w.pcs thread).handle ≠ some handle
  unpolled : w.Unpolled handle
  output : w.interface.outputContext ≠ some handle
  unbound : (w.handles handle).isLink = true ∨ (w.handles handle).isClosed = true

/-- A thread comes to a handle only by a call that names it. -/
theorem handle_from (sound : w.Sound) (moved : Transition w act next) {thread : Tid} {handle : Hid}
    (stands : (next.pcs thread).handle = some handle) :
    (w.pcs thread).handle = some handle ∨ ∃ call, act = .call thread call ∧ call.handle = some handle := by
  have other : ∀ {mover : Tid} {pc : Pc}, (pc.handle = some handle → (w.pcs mover).handle = some handle) →
      (Function.update w.pcs mover pc thread).handle = some handle → (w.pcs thread).handle = some handle := by
    intro mover pc came now
    by_cases same : thread = mover
    · subst same
      rw [Function.update_self] at now
      exact came now
    · rwa [Function.update_of_ne same] at now
  cases moved
  case enter mover call pc names _ _ =>
    by_cases same : thread = mover
    · subst same
      simp only [setPc, Function.update_self] at stands
      exact Or.inr ⟨call, rfl, names ▸ stands⟩
    · simp only [setPc, Function.update_of_ne same] at stands
      exact Or.inl stands
  case startWrite mover call at' write names _ _ _ _ =>
    by_cases same : thread = mover
    · subst same
      simp only [setPc, Function.update_self, Pc.handle, Option.some.injEq] at stands
      exact Or.inr ⟨call, rfl, stands ▸ names⟩
    · simp only [setPc, Function.update_of_ne same] at stands
      exact Or.inl stands
  case lockClose pc => exact Or.inl (other (by rw [pc]; exact id) stands)
  case lockTx pc _ | lockRead pc _ | relock pc _ _ | lockClosing pc _ =>
    exact Or.inl (other (by rw [pc]; exact id) stands)
  case wait inside _ _ => exact Or.inl (other (by rw [sound.locks.readerPc inside]; exact id) stands)
  case closeReturn thenFree _ inside _ =>
    refine Or.inl (other ?_ stands)
    rw [sound.locks.closerPc inside]
    cases thenFree with
    | true => exact id
    | false => exact fun now => by cases now
  case append | post | pollPop | deliver | spuriousWake | fetch | pollLockCore | pollLockTx | injectLink | injectUdp |
      pollDone | outputNone | output | receiveNone | receive | callbackLockRx => exact Or.inl stands
  all_goals exact Or.inl (other (fun now => by cases now) stands)

/-- Only a writer inside its section posts a callback. -/
theorem pending_from (sound : w.Sound) (moved : Transition w act next) {handle : Hid}
    (quiet : ∀ thread, (w.pcs thread).handle ≠ some handle) : next.pendingPolls handle ≤ w.pendingPolls handle := by
  cases moved
  case post thread at' size inside _ =>
    have other : at' ≠ handle := by
      rintro rfl
      exact quiet thread (by rw [sound.locks.writerPc inside rfl]; rfl)
    change (w.mailbox ++ [at']).count handle + w.poll.pending handle ≤ _
    rw [List.count_append, List.count_singleton, if_neg (by simpa using other)]
    exact Nat.le_refl _
  case fetch at' rest idle mailbox =>
    change rest.count handle + (Poll.fetched at').pending handle ≤ w.mailbox.count handle + w.poll.pending handle
    rw [idle, mailbox, List.count_cons]
    simp only [Poll.pending, beq_iff_eq]
    omega
  case pollLockCore poll _ | pollLockTx poll _ =>
    rw [pendingPolls, pendingPolls, poll]
    exact Nat.le_refl _
  case pollPop | injectLink | injectUdp | pollDone => exact Nat.le_add_right _ _
  all_goals exact Nat.le_refl _

/-- A poll comes past its tx section from inside it. -/
theorem injecting_from (sound : w.Sound) (moved : Transition w act next) {handle : Hid} {array : List (Option Packet)}
    (injects : next.poll = .injecting handle array) : (∃ array, w.poll = .injecting handle array) ∨ w.poll = .popping handle := by
  cases moved
  case pollPop at' _ inside =>
    obtain ⟨rfl, -⟩ := Poll.injecting.inj injects
    exact .inr (sound.locks.tx _ _ inside)
  case injectLink poll _ _ | injectUdp poll _ _ =>
    obtain ⟨rfl, -⟩ := Poll.injecting.inj injects
    exact .inl ⟨_, poll⟩
  case fetch | pollLockCore | pollLockTx | pollDone => cases injects
  all_goals exact .inl ⟨_, injects⟩

/-- A handle that no poll uses stays so while no call is about it. -/
theorem Unpolled.step {handle : Hid} (unpolled : w.Unpolled handle) (sound : w.Sound) (moved : Transition w act next)
    (known : handle < w.nextHandle) (quiet : ∀ thread, (w.pcs thread).handle ≠ some handle) : next.Unpolled handle where
  pending := Nat.le_zero.mp (unpolled.pending ▸ pending_from sound moved quiet)
  sending array injects := by
    rw [isLink_step moved known]
    rcases injecting_from sound moved injects with ⟨array, before⟩ | before
    · exact unpolled.sending array before
    · have pending := unpolled.pending
      simp [pendingPolls, before, Poll.pending] at pending

/-- A handle that is freed was freed before or is freed by the step. -/
theorem freed_from (sound : w.Sound) (moved : Transition w act next) {handle : Hid} (freed : (next.handles handle).freed = true) :
    (w.handles handle).freed = true ∨ ∃ thread, w.frees act = some (thread, handle) ∧
      ((w.handles handle).isLink = true ∨ w.pcs thread = .freeing handle) ∧ handle < w.nextHandle ∧
      (next.pcs thread).handle = none ∧ next.mailbox = w.mailbox ∧ next.poll = w.poll ∧
      next.interface = w.interface := by
  have other : ∀ {at' : Hid} {value : Handle}, (value.freed = true → (w.handles at').freed = true) →
      (Function.update w.handles at' value handle).freed = true → (w.handles handle).freed = true := by
    intro at' value kept now
    by_cases same : handle = at'
    · subst same
      rw [Function.update_self] at now
      exact kept now
    · rwa [Function.update_of_ne same] at now
  cases moved
  case linkFree thread at' idle known link =>
    by_cases same : handle = at'
    · subst same
      exact Or.inr ⟨thread, rfl, Or.inl link, known, by simp [finish, setPc, Pc.handle], rfl, rfl, rfl⟩
    · exact Or.inl (by simpa [finish, setPc, setHandle, Function.update_of_ne same] using freed)
  case finishFree thread at' pc =>
    by_cases same : handle = at'
    · subst same
      have known := sound.scope.pcs thread handle (by rw [pc]; rfl)
      exact Or.inr ⟨thread, by simp [frees, pc], Or.inr pc, known, by simp [finish, setPc, Pc.handle], rfl, rfl, rfl⟩
    · exact Or.inl (by simpa [finish, setPc, setHandle, Function.update_of_ne same] using freed)
  case attach | listen => exact Or.inl (other (fun now => by cases now) freed)
  case enter | startWrite | refuseCall | lockAttach | lockListen | lockClose | lockStack | attachFail | listenFail |
      leaveStack | fetch | pollLockCore | pollDone | outputNone | output | receiveNone | receive => exact Or.inl freed
  all_goals exact Or.inl (other (fun now => by exact now) freed)

/-- A call comes to the second half of udp_conn_free when it has closed the handle. -/
theorem freeing_from (moved : Transition w act next) {thread : Tid} {handle : Hid}
    (stands : next.pcs thread = .freeing handle) :
    w.pcs thread = .freeing handle ∨ (next.handles handle).isClosed = true := by
  have other : ∀ {mover : Tid} {pc : Pc}, pc ≠ .freeing handle →
      Function.update w.pcs mover pc thread = .freeing handle → w.pcs thread = .freeing handle := by
    intro mover pc apart now
    by_cases same : thread = mover
    · subst same
      rw [Function.update_self] at now
      exact absurd now apart
    · rwa [Function.update_of_ne same] at now
  cases moved
  case enter entry => exact Or.inl (other (by cases entry <;> simp) stands)
  case closeReturn mover at' thenFree _ _ _ =>
    by_cases same : handle = at'
    · subst same
      refine Or.inr ?_
      simp only [closeReturn, unlockCore, setPc, setHandle, Function.update_self]
      exact isClosed_closedEndpoint _
    · refine Or.inl (other ?_ stands)
      split
      · exact fun equal => same (Pc.freeing.inj equal).symm
      · simp
  case append | post | pollPop | deliver | spuriousWake | fetch | pollLockCore | pollLockTx | injectLink | injectUdp |
      pollDone | outputNone | output | receiveNone | receive | callbackLockRx => exact Or.inl stands
  all_goals exact Or.inl (other (by simp) stands)

/-- The invariant of the runs in which every free finds its handle retired. -/
structure Lifetimes (w : World) : Prop where
  sound : w.Sound
  live : w.Live
  freeing : ∀ thread handle, w.pcs thread = .freeing handle → (w.handles handle).isClosed = true
  retired : ∀ handle, (w.handles handle).freed = true → w.Retired handle

theorem output_from (moved : Transition w act next) {handle : Hid} (known : handle < w.nextHandle)
    (apart : w.interface.outputContext ≠ some handle) : next.interface.outputContext ≠ some handle := by
  rcases Live.interface_step moved with same | ⟨_, names, _⟩ | ⟨_, names, _⟩
  · rwa [same]
  · rw [names.2]
    exact fun equal => Nat.ne_of_lt known (Option.some.inj equal).symm
  · rw [names.2]
    exact fun equal => by cases equal

/-- A retired handle stays retired while no call names it. -/
theorem Retired.step {handle : Hid} (retired : w.Retired handle) (sound : w.Sound) (moved : Transition w act next)
    (unnamed : ∀ thread call, act = .call thread call → call.handle ≠ some handle) : next.Retired handle where
  known := Nat.lt_of_lt_of_le retired.known (Scoped.nextHandle_mono moved)
  quiet thread stands := by
    rcases handle_from sound moved stands with before | ⟨call, called, names⟩
    · exact retired.quiet thread before
    · exact unnamed thread call called names
  unpolled := retired.unpolled.step sound moved retired.known retired.quiet
  output := output_from moved retired.known retired.output
  unbound := by
    rcases retired.unbound with link | closed
    · exact Or.inl (by rw [isLink_step moved retired.known, link])
    · exact Or.inr (closed_step moved retired.known closed)

theorem Lifetimes.step (lifetimes : w.Lifetimes) (disciplined : w.Disciplined act) (meets : freesRetired w act)
    (moved : Transition w act next) : next.Lifetimes where
  sound := lifetimes.sound.step moved
  live := lifetimes.live.step lifetimes.sound moved
  freeing thread handle stands := by
    rcases freeing_from moved stands with before | closed
    · have known := lifetimes.sound.scope.pcs thread handle (by rw [before]; rfl)
      exact closed_step moved known (lifetimes.freeing thread handle before)
    · exact closed
  retired handle freed := by
    rcases freed_from lifetimes.sound moved freed with
      before | ⟨thread, call, unbound, known, away, mailbox, poll, interface⟩
    · refine (lifetimes.retired handle before).step lifetimes.sound moved ?_
      intro thread call called names
      rw [disciplined.calls thread call handle called names] at before
      cases before
    · obtain ⟨unpolled, attached⟩ := meets thread handle call
      obtain ⟨_, others⟩ := disciplined.frees thread handle call
      have still : next.Unpolled handle := by
        refine ⟨?_, fun array injects => ?_⟩
        · rw [pendingPolls, mailbox, poll]
          exact unpolled.pending
        · rw [isLink_step moved known]
          exact unpolled.sending array (poll ▸ injects)
      refine ⟨Nat.lt_of_lt_of_le known (Scoped.nextHandle_mono moved), ?_, still, interface ▸ attached, ?_⟩
      · intro other stands
        by_cases same : other = thread
        · subst same
          rw [away] at stands
          cases stands
        · rcases handle_from lifetimes.sound moved stands with before | ⟨named, rfl, names⟩
          · exact others other same before
          · cases named <;> cases call
            exact same rfl
      · rcases unbound with link | pc
        · exact Or.inl (by rw [isLink_step moved known, link])
        · exact Or.inr (closed_step moved known (lifetimes.freeing thread handle pc))

theorem Lifetimes.reachable (reached : machine.Reachable (fun w act => w.Disciplined act ∧ freesRetired w act) w) :
    w.Lifetimes := by
  refine reached.invariant Lifetimes ?_ ?_
  · rintro _ rfl
    refine ⟨init_sound, init_live, ?_, ?_⟩
    · intro thread handle stands
      cases stands
    · intro handle freed
      cases freed
  · exact fun _ _ _ lifetimes meets stepped => lifetimes.step meets.1 meets.2 (step_transition stepped)

/-- While every free finds its handle retired, nothing refers to a freed handle. -/
theorem no_dangling (reached : machine.Reachable (fun w act => w.Disciplined act ∧ freesRetired w act) w) :
    w.NoDangling := by
  have lifetimes := Lifetimes.reachable reached
  intro handle freed
  have retired := lifetimes.retired handle freed
  refine ⟨retired.unpolled, retired.output, ?_⟩
  rintro pcb member rfl
  have endpoint := lifetimes.live.pcbs pcb member
  rcases retired.unbound with link | closed
  · rw [Handle.isLink, endpoint] at link
    cases link
  · rw [Handle.isClosed, endpoint] at closed
    cases closed

/-- The first thread makes all calls, and none of them names a freed handle. -/
def soloCalls (w : World) : Act → Bool
  | .call thread call => thread == 1 && call.handle.all fun handle => !(w.handles handle).freed
  | .finishFree thread =>
      match w.pcs thread with
      | .freeing handle => !(w.handles handle).freed
      | _ => true
  | _ => true

/-- A single thread that never names a freed handle is disciplined. -/
theorem solo_disciplined {allowed : World → Act → Prop}
    (reached : machine.Reachable (fun w act => soloCalls w act = true ∧ allowed w act) w) :
    machine.Reachable (fun w act => w.Disciplined act ∧ allowed w act) w := by
  refine reached.weaken_with (fun w => w.Sound ∧ ∀ thread, thread ≠ 1 → (w.pcs thread).handle = none) ?_ ?_ ?_
  · rintro _ rfl
    exact ⟨init_sound, fun _ _ => rfl⟩
  · intro before act after ⟨sound, alone⟩ ⟨solo, _⟩ stepped
    have moved := step_transition stepped
    refine ⟨sound.step moved, ?_⟩
    intro thread other
    cases stands : (after.pcs thread).handle with
    | none => rfl
    | some handle =>
        rcases handle_from sound moved stands with old | ⟨call, rfl, _⟩
        · rw [alone thread other] at old
          cases old
        · simp [soloCalls, other] at solo
  · intro before act ⟨_, alone⟩ ⟨solo, meets⟩
    refine ⟨⟨?_, ?_⟩, meets⟩
    · rintro thread call handle rfl names
      simp only [soloCalls, names, Option.all_some, Bool.and_eq_true, Bool.not_eq_true'] at solo
      exact solo.2
    · intro thread handle frees
      have first : thread = 1 ∧ (before.handles handle).freed = false := by
        cases act with
        | call caller call =>
            cases call with
            | linkFree freed =>
                obtain ⟨rfl, rfl⟩ := Prod.mk.inj (Option.some.inj frees)
                simpa [soloCalls, Call.handle] using solo
            | _ => cases frees
        | finishFree caller =>
            simp only [World.frees] at frees
            split at frees
            · rename_i freed pc
              obtain ⟨rfl, rfl⟩ := Prod.mk.inj (Option.some.inj frees)
              refine ⟨?_, by simpa [soloCalls, pc] using solo⟩
              by_contra other
              have none := alone caller other
              rw [pc] at none
              cases none
            · cases frees
        | _ => cases frees
      refine ⟨first.2, ?_⟩
      intro other apart
      rw [alone other (first.1 ▸ apart)]
      simp

/-- A link is freed without a close while it is attached. -/
def freeAttached : List Act :=
  [.call 1 (.linkAttach 1500), .lockCore 1, .coreStep 1, .call 1 (.linkFree 0)]

/-- The interface keeps the context of a link that is freed without a close. -/
theorem free_attached_dangles : ∃ w, machine.Reachable Disciplined w ∧ ¬w.NoDangling := by
  have executed : (machine.execute soloCalls init freeAttached).any
      (fun w => (w.handles 0).freed && w.interface.outputContext == some 0) = true := by decide +kernel
  obtain ⟨w, reached, found⟩ := Machine.execute_reaches soloCalls _ rfl executed
  rw [Bool.and_eq_true, beq_iff_eq] at found
  have disciplined := solo_disciplined (reached.weaken fun _ _ solo => ⟨solo, trivial⟩)
  exact ⟨w, disciplined.weaken fun _ _ both => both.1, fun holds => (holds 0 found.1).2.1 found.2⟩

/-- A UDP handle is freed without a close before it, after a poll has sent its datagram. -/
def freeListening : List Act :=
  [.call 1 .udpConnListen, .lockCore 1, .coreStep 1, .call 1 (.udpConnSendto 0 ⟨.any, .any, 5, 6⟩ [1] true), .lockTx 1,
    .txStep 0 true, .txStep 0 true, .txStep 0 true, .fetch, .pollLockCore, .pollLockTx, .txStep 0 true, .inject, .inject,
    .call 1 (.udpConnFree 0), .lockCore 1, .lockRx 1, .rxStep 0 [], .finishFree 1]

/-- The test of a run of one thread whose frees find no callback in the mailbox, no running poll and no attachment. -/
def retiresFreed (w : World) (act : Act) : Bool :=
  soloCalls w act && (w.frees act).all fun freed =>
    !w.mailbox.contains freed.2 && w.poll matches .idle && w.interface.outputContext != some freed.2

/-- The second half of udp_conn_free leaves nothing that refers to the handle. -/
theorem freed_conn_does_not_dangle : ∃ w : World, (w.handles 0).freed = true ∧ (w.handles 0).log.sent ≠ [] ∧
    w.NoDangling := by
  have executed : (machine.execute retiresFreed init freeListening).any
      (fun w => (w.handles 0).freed && !(w.handles 0).log.sent.isEmpty) = true := by decide +kernel
  obtain ⟨w, reached, found⟩ := Machine.execute_reaches retiresFreed _ rfl executed
  rw [Bool.and_eq_true, Bool.not_eq_true', List.isEmpty_eq_false_iff] at found
  refine ⟨w, found.1, found.2, no_dangling (solo_disciplined (reached.weaken ?_))⟩
  intro before act passed
  obtain ⟨solo, retires⟩ := Bool.and_eq_true_iff.mp passed
  refine ⟨solo, ?_⟩
  intro thread handle frees
  simp only [frees, Option.all_some, Bool.and_eq_true, bne_iff_ne, Bool.not_eq_true', List.contains_eq_mem,
    decide_eq_false_iff_not] at retires
  obtain ⟨⟨unposted, quiet⟩, apart⟩ := retires
  cases poll : before.poll with
  | idle =>
      refine ⟨⟨?_, fun array injects => by rw [poll] at injects; cases injects⟩, apart⟩
      rw [pendingPolls, poll, List.count_eq_zero_of_not_mem unposted]
      rfl
  | _ =>
      rw [poll] at quiet
      cases quiet

end World

end Tun2Socket.Native
