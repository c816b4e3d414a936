import Tun2Socket.Native.Transmit

namespace Tun2Socket.Native
open Lwip Library

/-- A post fails only when the flag is clear and the mailbox takes no message. -/
def postsSucceed (w : World) : Act → Bool
  | .txStep handle false =>
      match (w.handles handle).txMutex with
      | some (.appended _ _) => decide ((w.handles handle).txPolling ≠ 0)
      | _ => true
  | _ => true

/-- A poll takes its whole queue when it finds at most 32 packets. -/
def pollsEmpty (w : World) : Act → Bool
  | .txStep handle _ =>
      match (w.handles handle).txMutex with
      | some .poll => decide ((w.handles handle).tx.packets.length ≤ 32)
      | _ => true
  | _ => true

/-- A failed post comes from a writer that found the flag clear. -/
theorem TxStep.fail_from {view next : TxView} (moved : TxStep view .fail next) :
    ∃ thread size, view.holder = some (.appended thread size) ∧ view.polling = 0 := by
  cases moved with
  | fail inside polling => exact ⟨_, _, inside, polling⟩

namespace TxView

/-- The flag counts the pending polls, but for the moment between a post and the flag. -/
def Flagged (view : TxView) : Prop :=
  match view.holder with
  | some (.posted _ _) => view.polling = 0 ∧ view.pending = 1
  | _ => view.polling ≤ 1 ∧ view.pending = view.polling

theorem flagged_of_unposted {view : TxView} (flag : view.polling ≤ 1) (exact' : view.pending = view.polling)
    (unposted : ∀ thread size, view.holder ≠ some (.posted thread size)) : view.Flagged := by
  unfold Flagged
  split
  · exact absurd ‹_› (unposted _ _)
  · exact ⟨flag, exact'⟩

theorem Flagged.unposted {view : TxView} (flagged : view.Flagged)
    (unposted : ∀ thread size, view.holder ≠ some (.posted thread size)) :
    view.polling ≤ 1 ∧ view.pending = view.polling := by
  unfold Flagged at flagged
  split at flagged
  · exact absurd ‹_› (unposted _ _)
  · exact flagged

/-- A flag that counts the pending polls leaves at most one of them. -/
theorem Flagged.pending_le {view : TxView} (flagged : view.Flagged) : view.pending ≤ 1 := by
  unfold Flagged at flagged
  split at flagged
  · omega
  · omega

/-- Every transmit step keeps the flag equal to the number of pending polls. -/
theorem Flagged.step {view next : TxView} {event : TxEvent} (flagged : view.Flagged)
    (moved : TxStep view event next) : next.Flagged := by
  cases moved with
  | create endpoint => exact ⟨Nat.zero_le _, rfl⟩
  | lock unlocked _ =>
      have before := flagged.unposted (by simp [unlocked])
      exact flagged_of_unposted before.1 before.2 (by simp)
  | refuse inside _ =>
      have before := flagged.unposted (by simp [inside])
      exact flagged_of_unposted before.1 before.2 (by simp)
  | append inside _ =>
      have before := flagged.unposted (by simp [inside])
      exact flagged_of_unposted before.1 before.2 (by simp)
  | post inside polling =>
      have before := flagged.unposted (by simp [inside])
      exact ⟨polling, by simp [before.2, polling]⟩
  | skip inside _ =>
      have before := flagged.unposted (by simp [inside])
      exact flagged_of_unposted before.1 before.2 (by simp)
  | fail inside _ =>
      have before := flagged.unposted (by simp [inside])
      exact flagged_of_unposted before.1 before.2 (by simp)
  | setPolling inside =>
      unfold Flagged at flagged
      simp only [inside] at flagged
      exact flagged_of_unposted (Nat.le_refl _) flagged.2 (by simp)
  | lockPoll unlocked =>
      have before := flagged.unposted (by simp [unlocked])
      exact flagged_of_unposted before.1 before.2 (by simp)
  | pop inside posted _ =>
      have before := flagged.unposted (by simp [inside])
      exact flagged_of_unposted (Nat.zero_le _) (by simp only; omega) (by simp)
  | inject _ _ => exact flagged
  | send _ _ => exact flagged
  | close _ _ => exact flagged

/-- A filled queue has its flag set, or a writer that is about to set it. -/
def Covered (view : TxView) : Prop :=
  view.queue ≠ [] → view.polling = 1 ∨ (∃ thread size, view.holder = some (.appended thread size)) ∨
    ∃ thread size, view.holder = some (.posted thread size)

theorem Covered.flag {view : TxView} (covered : view.Covered) (filled : view.queue ≠ [])
    (idle : ∀ thread size, view.holder ≠ some (.appended thread size) ∧ view.holder ≠ some (.posted thread size)) :
    view.polling = 1 := by
  rcases covered filled with flag | ⟨thread, size, appended⟩ | ⟨thread, size, posted⟩
  · exact flag
  · exact absurd appended (idle thread size).1
  · exact absurd posted (idle thread size).2

/-- A transmit step keeps a filled queue covered, unless a post fails or a poll leaves packets behind. -/
theorem Covered.step {view next : TxView} {event : TxEvent} (covered : view.Covered) (flagged : view.Flagged)
    (moved : TxStep view event next) (succeeds : event ≠ .fail)
    (empties : event = .pop → view.queue.length ≤ 32) : next.Covered := by
  intro filled
  cases moved with
  | create endpoint => exact absurd rfl filled
  | lock unlocked _ => exact Or.inl (covered.flag filled (by simp [unlocked]))
  | refuse inside _ => exact Or.inl (covered.flag filled (by simp [inside]))
  | append _ _ => exact Or.inr (Or.inl ⟨_, _, rfl⟩)
  | post _ _ => exact Or.inr (Or.inr ⟨_, _, rfl⟩)
  | skip inside polling =>
      have before := flagged.unposted (by simp [inside])
      exact Or.inl (by simp only; omega)
  | fail _ _ => exact absurd rfl succeeds
  | setPolling _ => exact Or.inl rfl
  | lockPoll unlocked => exact Or.inl (covered.flag filled (by simp [unlocked]))
  | pop _ _ _ => exact absurd (List.drop_eq_nil_of_le (empties rfl)) filled
  | inject _ _ => exact covered filled
  | send _ _ => exact covered filled
  | close _ _ => exact covered filled

end TxView

namespace World

variable {w next : World} {act : Act}

/-- The transmit side of a handle runs as its own machine, of which a run may permit only some events. -/
def txSimulation {allowed : World → Act → Prop} (handle : Hid) (permits : TxView → TxEvent → Prop)
    (permitted : ∀ w act next event, allowed w act → TxStep (w.tx handle) event next → w.TxEventFrom handle act event →
      permits (w.tx handle) event) :
    machine.Simulation allowed (·.tx handle) fun before after => ∃ event, TxStep before event after ∧ permits before event where
  keep := Sound
  start := by
    rintro _ rfl
    exact init_sound
  keeps := fun _ _ _ sound _ stepped => sound.step (step_transition stepped)
  simulates := by
    intro w act next sound meets stepped
    rcases tx_step sound (step_transition stepped) handle with same | ⟨event, step, origin⟩
    · exact Or.inl same
    · exact Or.inr ⟨event, step, permitted w act _ event meets step origin⟩

/-- In every reachable world the flag of each handle counts its pending polls. -/
theorem flagged_reachable {allowed : World → Act → Prop} (reached : machine.Reachable allowed w) (handle : Hid) :
    (w.tx handle).Flagged := by
  refine (txSimulation handle (fun _ _ => True) fun _ _ _ _ _ _ _ => trivial).invariant ?_ ?_ reached
  · rintro _ rfl
    exact ⟨Nat.zero_le _, rfl⟩
  · rintro before after flagged ⟨event, step, -⟩
    exact flagged.step step

/-- Outside its tx section the flag of a handle counts the polls that have not run theirs, and at most one is posted. -/
def PollFlagExact (w : World) : Prop :=
  ∀ handle, ((w.handles handle).txMutex = none →
    (w.handles handle).txPolling ≤ 1 ∧ w.pendingPolls handle = (w.handles handle).txPolling) ∧
      w.mailbox.count handle ≤ 1

/-- Every interleaving of writers, polls and posts keeps the flag exact. -/
theorem poll_flag_exact (reached : machine.Reachable Machine.anyStep w) : w.PollFlagExact := by
  intro handle
  have flagged := flagged_reachable reached handle
  constructor
  · intro outside
    refine flagged.unposted ?_
    intro _ _ inside
    cases outside.symm.trans inside
  · have counted : w.pendingPolls handle ≤ 1 := flagged.pending_le
    exact Nat.le_trans (Nat.le_add_right _ _) counted

/-- A link with a posted poll, which the flag shows. -/
theorem posted_poll_is_flagged :
    ∃ w : World, w.mailbox = [0] ∧ (w.handles 0).txPolling = 1 ∧ w.PollFlagExact := by
  have executed : (machine.execute (fun _ _ => true) init
      [.call 1 (.linkAttach 1500), .lockCore 1, .coreStep 1, .call 1 (.linkWrite 0 []), .lockTx 1, .txStep 0 true,
        .txStep 0 true, .txStep 0 true]).any (fun w => w.mailbox == [0] && (w.handles 0).txPolling == 1) = true := by
    decide +kernel
  obtain ⟨w, reached, found⟩ := Machine.execute_reaches _ _ rfl executed
  obtain ⟨posted, flag⟩ := Bool.and_eq_true_iff.mp found
  exact ⟨w, beq_iff_eq.mp posted, beq_iff_eq.mp flag, poll_flag_exact (reached.weaken fun _ _ _ => trivial)⟩

/-- A run whose posts succeed and whose polls empty their queues keeps every filled queue covered. -/
theorem covered_reachable
    (reached : machine.Reachable (fun w act => postsSucceed w act = true ∧ pollsEmpty w act = true) w)
    (handle : Hid) : (w.tx handle).Covered := by
  have simulation := @txSimulation (fun w act => postsSucceed w act = true ∧ pollsEmpty w act = true) handle
    (fun view event => event ≠ .fail ∧ (event = .pop → view.queue.length ≤ 32)) ?_
  · have start : ∀ first, machine.initial first → (first.tx handle).Flagged ∧ (first.tx handle).Covered := by
      rintro _ rfl
      exact ⟨⟨Nat.zero_le _, rfl⟩, fun filled => absurd rfl filled⟩
    have both := @Machine.Simulation.invariant _ _ _ _ _ _ _ simulation (fun view => view.Flagged ∧ view.Covered) start
    refine (both ?_ reached).2
    rintro before after ⟨flagged, covered⟩ ⟨event, step, succeeds, empties⟩
    exact ⟨flagged.step step, covered.step flagged step succeeds empties⟩
  · intro w act next event ⟨succeed, empty⟩ step origin
    constructor
    · rintro rfl
      obtain rfl : act = .txStep handle false := origin
      obtain ⟨thread, size, inside, polling⟩ := step.fail_from
      rw [postsSucceed, show (w.handles handle).txMutex = _ from inside] at succeed
      exact absurd polling (of_decide_eq_true succeed)
    · rintro rfl
      obtain ⟨inside, posts, rfl⟩ := origin
      rw [pollsEmpty, inside] at empty
      exact of_decide_eq_true empty

/-- No accepted packet of an open handle waits without a pending poll. -/
def NoStranded (w : World) : Prop :=
  ∀ handle, (w.handles handle).txMutex = none → (w.handles handle).isClosed = false →
    (w.handles handle).tx.packets ≠ [] → 0 < w.pendingPolls handle

/-- A run whose polls find at most 32 packets strands no packet. -/
theorem bounded_polls_strand_nothing
    (reached : machine.Reachable (fun w act => postsSucceed w act = true ∧ pollsEmpty w act = true) w) :
    w.NoStranded := by
  intro handle unlocked _ filled
  have flagged := flagged_reachable reached handle
  have count := flagged.unposted (by intro _ _ inside; cases unlocked.symm.trans inside)
  rcases covered_reachable reached handle filled with flag | ⟨_, _, inside⟩ | ⟨_, _, inside⟩
  · change 0 < (w.tx handle).pending
    omega
  · cases unlocked.symm.trans inside
  · cases unlocked.symm.trans inside

/-- A poll that finds more than 32 packets leaves some of them without a pending poll. -/
theorem long_poll_strands {allowed : World → Act → Prop} (reached : machine.Reachable allowed w) {handle : Hid}
    {posts : Bool} (inside : (w.handles handle).txMutex = some .poll)
    (long : 32 < (w.handles handle).tx.packets.length) (opened : (w.handles handle).isClosed = false)
    (stepped : w.step (.txStep handle posts) = some next) : ¬next.NoStranded := by
  intro holds
  obtain rfl : { w.setHandle handle (w.handles handle).pollTx with
      poll := .injecting handle (w.handles handle).pollArray } = next := by
    simpa [step, txStep, inside] using stepped
  have flagged := (flagged_reachable reached handle).unposted (by
    intro _ _ other
    cases inside.symm.trans other)
  have polling : w.poll = .popping handle := (Sound.reachable reached).locks.tx _ _ inside
  have count : w.mailbox.count handle = 0 := by
    have pending : w.mailbox.count handle + 1 = (w.handles handle).txPolling := by
      have counted : w.pendingPolls handle = (w.handles handle).txPolling := flagged.2
      simpa [pendingPolls, polling, Poll.pending] using counted
    have bound : (w.handles handle).txPolling ≤ 1 := flagged.1
    omega
  have left := holds handle (by simp [setHandle, Handle.pollTx])
    (by simpa [setHandle, Handle.pollTx, Handle.isClosed] using opened)
    (by simpa [setHandle, Handle.pollTx] using long)
  simp [pendingPolls, setHandle, Poll.pending, count] at left

/-- One writer attaches a link and writes 33 empty packets before the poll posted by the first of them runs. -/
def burst : List Act :=
  [.call 1 (.linkAttach 1500), .lockCore 1, .coreStep 1] ++
    [.call 1 (.linkWrite 0 []), .lockTx 1, .txStep 0 true, .txStep 0 true, .txStep 0 true] ++
    (List.replicate 32 [.call 1 (.linkWrite 0 []), .lockTx 1, .txStep 0 true, .txStep 0 true]).flatten ++
    [.fetch, .pollLockCore, .pollLockTx, .txStep 0 true]

/-- The test finds an open handle with a free tx mutex, a packet in its queue and no pending poll. -/
def strandsAt (handle : Hid) (w : World) : Bool :=
  (w.handles handle).txMutex.isNone && !(w.handles handle).isClosed && !(w.handles handle).tx.packets.isEmpty &&
    w.pendingPolls handle == 0

theorem strandsAt_refutes {handle : Hid} (strands : strandsAt handle w = true) : ¬w.NoStranded := by
  simp only [strandsAt, Bool.and_eq_true, Option.isNone_iff_eq_none, Bool.not_eq_true', List.isEmpty_eq_false_iff,
    beq_iff_eq] at strands
  obtain ⟨⟨⟨unlocked, opened⟩, filled⟩, pending⟩ := strands
  intro holds
  have posted := holds handle unlocked opened filled
  omega

/-- The burst strands a packet although every post succeeds. -/
theorem burst_strands :
    ∃ w, machine.Reachable (fun w act => postsSucceed w act = true) w ∧ ¬w.NoStranded := by
  have executed : (machine.execute postsSucceed init burst).any (strandsAt 0) = true := by decide +kernel
  obtain ⟨w, reached, strands⟩ := Machine.execute_reaches postsSucceed (strandsAt 0) rfl executed
  exact ⟨w, reached, strandsAt_refutes strands⟩

/-- A poll injects a packet, and another packet is written after it. -/
def polledWrites : List Act :=
  burst.take 8 ++ [.fetch, .pollLockCore, .pollLockTx, .txStep 0 true, .inject, .inject] ++ (burst.take 8).drop 3

/-- A packet that is written after a poll is covered by the poll that its own write posted. -/
theorem single_write_not_stranded : ∃ w : World, (w.handles 0).log.injected.length = 1 ∧
    (w.handles 0).tx.packets.length = 1 ∧ w.NoStranded := by
  have executed : (machine.execute (fun w act => postsSucceed w act && pollsEmpty w act) init polledWrites).any
      (fun w => (w.handles 0).log.injected.length == 1 && (w.handles 0).tx.packets.length == 1) = true := by
    decide +kernel
  obtain ⟨w, reached, found⟩ := Machine.execute_reaches _ _ rfl executed
  rw [Bool.and_eq_true, beq_iff_eq, beq_iff_eq] at found
  exact ⟨w, found.1, found.2,
    bounded_polls_strand_nothing (reached.weaken fun _ _ passed => Bool.and_eq_true_iff.mp passed)⟩

end World

end Tun2Socket.Native
