import Tun2Socket.Native.Conduit

namespace Tun2Socket.Native
open Lwip Library

/-- A link with its packets, whether it is the attached device and what its readers got. -/
structure LinkLife where
  conduit : Conduit
  closed : Bool
  attached : Bool
  results : List (Int × Bytes)

/-- The steps of calls and callbacks between the locks they take. Calls of one kind may run at the same time. -/
inductive LinkAct where
  | write (buffer : Bytes) (size : Int)
  /-- A write call in its critical section. -/
  | writeLocked (index : Nat) (posts : Bool)
  | globalIfOutput (p : Pbuf)
  | ifOutput
  /-- A reader in its critical section. -/
  | readLocked
  | readCopy (index : Nat) (size : Int)
  /-- The critical section of a posted poll_tx. -/
  | pollTx
  /-- One turn of its loop, with the answer of the input function. -/
  | injectPacket (taken : Bool)
  | close
  | free
  deriving DecidableEq

/-- The steps that touch the memory of the link. -/
def LinkAct.uses : LinkAct → Bool
  | .write .. | .globalIfOutput _ | .readCopy .. | .injectPacket _ => false
  | .writeLocked .. | .ifOutput | .readLocked | .pollTx | .close | .free => true

namespace LinkLife

def attachedLink : LinkLife := ⟨.opened, false, true, []⟩

/-- A step on a link that is not freed. The core lock keeps outputs, polls and closes apart. -/
def act (life : LinkLife) : LinkAct → Option LinkLife
  | .write buffer size =>
      (linkWriteTarget .bits64 buffer size).map fun target => { life with conduit := life.conduit.startWrite target }
  | .writeLocked index posts =>
      life.conduit.writing[index]?.map fun parcel =>
        { life with
          conduit :=
            if life.closed then life.conduit.refuseWrite index parcel else life.conduit.queueWrite index parcel posts }
  | .globalIfOutput p =>
      if life.attached && life.conduit.delivering.isNone then some { life with conduit := life.conduit.startOutput p }
      else none
  | .ifOutput => life.conduit.delivering.map fun parcel => { life with conduit := life.conduit.queueRx parcel }
  | .readLocked =>
      if life.conduit.rx.length = 0 then if life.closed then some life else none
      else some { life with conduit := life.conduit.takeRx }
  | .readCopy index size =>
      life.conduit.reading[index]?.map fun parcel =>
        { life with
          conduit := life.conduit.finishRead index parcel
          results := life.results ++ [linkReadCopy (some parcel.pbuf) size] }
  | .pollTx =>
      if life.conduit.posted ≠ 0 && life.conduit.delivering.isNone && life.conduit.polling.isEmpty then
        some { life with conduit := life.conduit.takeTx }
      else none
  | .injectPacket taken =>
      life.conduit.polling.head?.map fun parcel =>
        { life with conduit := if taken then life.conduit.handOn parcel else life.conduit.finishPoll parcel }
  | .close =>
      if life.conduit.delivering.isNone && life.conduit.polling.isEmpty then some { life with closed := true, attached := false }
      else none
  | .free => some { life with conduit := life.conduit.drop }

/-- A step that touches a freed link forfeits what is on its way. -/
def step (life : LinkLife) (act : LinkAct) : Option LinkLife :=
  (life.act act).map fun next =>
    if life.conduit.freed && act.uses then { life with conduit := life.conduit.forfeit } else next

def machine : Machine LinkLife LinkAct := ⟨fun life => life = attachedLink, step⟩

/-- No step touches a freed link, and the free finds both queues empty. -/
structure Careful (life : LinkLife) (act : LinkAct) : Prop where
  live : act.uses = true → life.conduit.freed = false
  drained : act = .free → life.conduit.rx.packets = [] ∧ life.conduit.tx.packets = []

instance (life : LinkLife) (act : LinkAct) : Decidable (life.Careful act) :=
  decidable_of_iff ((act.uses = true → life.conduit.freed = false) ∧
      (act = .free → life.conduit.rx.packets.isEmpty = true ∧ life.conduit.tx.packets.isEmpty = true)) <| by
    simp only [List.isEmpty_iff]
    exact ⟨fun both => ⟨both.1, both.2⟩, fun careful => ⟨careful.live, careful.drained⟩⟩

variable {life next : LinkLife} {act : LinkAct}

/-- Every step but the free passes packets on. -/
theorem act_moves (done : life.act act = some next) (live : act.uses = true → life.conduit.freed = false)
    (keeps : act ≠ .free) : life.conduit.Moves next.conduit := by
  cases act with
  | write buffer size =>
      rw [LinkLife.act] at done
      obtain ⟨target, -, rfl⟩ := Option.map_eq_some_iff.mp done
      exact .startWrite target
  | writeLocked index posts =>
      obtain ⟨parcel, present, rfl⟩ := Option.map_eq_some_iff.mp done
      simp only
      split
      · exact .refuseWrite present
      · exact .queueWrite (live rfl) present posts
  | globalIfOutput p =>
      obtain ⟨idle, same⟩ := Option.ite_none_right_eq_some.mp done
      obtain rfl := Option.some.inj same
      rw [Bool.and_eq_true, Option.isNone_iff_eq_none] at idle
      exact .startOutput idle.2 p
  | ifOutput =>
      obtain ⟨parcel, present, rfl⟩ := Option.map_eq_some_iff.mp done
      exact .queueRx (live rfl) present
  | readLocked =>
      simp only [LinkLife.act] at done
      split at done
      · obtain ⟨-, same⟩ := Option.ite_none_right_eq_some.mp done
        obtain rfl := Option.some.inj same
        exact .idle
      · obtain rfl := Option.some.inj done
        exact .takeRx (live rfl)
  | readCopy index size =>
      obtain ⟨parcel, present, rfl⟩ := Option.map_eq_some_iff.mp done
      exact .finishRead present
  | pollTx =>
      obtain ⟨-, same⟩ := Option.ite_none_right_eq_some.mp done
      obtain rfl := Option.some.inj same
      exact .takeTx (live rfl)
  | injectPacket taken =>
      obtain ⟨parcel, first, rfl⟩ := Option.map_eq_some_iff.mp done
      obtain ⟨rest, present⟩ := List.head?_eq_some_iff.mp first
      simp only
      split
      · exact .handOn present
      · exact .finishPoll present
  | close =>
      obtain ⟨-, same⟩ := Option.ite_none_right_eq_some.mp done
      obtain rfl := Option.some.inj same
      exact .idle
  | free => exact absurd rfl keeps

theorem step_outcome (done : life.step act = some next) : life.conduit.Outcome (life.Careful act) next.conduit := by
  obtain ⟨after, acted, rfl⟩ := Option.map_eq_some_iff.mp done
  rw [apply_ite LinkLife.conduit]
  refine .orForfeit (fun careful => careful.live) fun live => ?_
  by_cases free : act = .free
  · subst free
    obtain rfl := Option.some.inj acted
    exact .dropped ⟨fun careful => careful.drained rfl, fun drained => ⟨live, fun _ => drained⟩⟩
  · exact .moved ⟨live, fun frees => absurd frees free⟩ (act_moves acted live free)

/-- At the end of its life a link has given back every reference once, exactly when each step of the life was careful. -/
theorem link_conserves_iff {actions : List LinkAct} (run : machine.Runs Machine.anyStep attachedLink actions life)
    (ended : life.conduit.Ended) : life.conduit.Conserved ↔ machine.Runs Careful attachedLink actions life :=
  Conduit.conserved_iff_careful conduit (fun _ _ _ done => step_outcome done) run rfl ended

/-- A packet goes through in each direction before the link is freed. -/
theorem drained_link_conserves : ∃ life, machine.Reachable Machine.anyStep life ∧ life.conduit.Ended ∧
    life.conduit.issued = 2 ∧ life.conduit.Conserved := by
  have executed : (machine.execute (fun life act => decide (life.Careful act)) attachedLink
      [.write [1] 1, .writeLocked 0 true, .pollTx, .injectPacket true, .globalIfOutput ⟨⟨[], [2]⟩, []⟩, .ifOutput, .readLocked,
        .readCopy 0 1, .close, .free]).any (fun life => decide (life.conduit.Ended ∧ life.conduit.issued = 2)) = true := by
    decide +kernel
  obtain ⟨life, result, passed⟩ := (Option.any_eq_true _ _).mp executed
  obtain ⟨ended, issued⟩ := of_decide_eq_true passed
  have run := (Machine.execute_runs result).weaken fun life act check => of_decide_eq_true check
  have free := run.weaken fun _ _ _ => trivial
  exact ⟨life, ⟨attachedLink, _, rfl, free⟩, ended, issued, (link_conserves_iff free ended).mpr run⟩

/-- A packet that nobody has read is lost with its link, although the link was closed first. -/
theorem unread_packet_lost : ∃ life, machine.Reachable Machine.anyStep life ∧ life.conduit.Ended ∧
    life.conduit.issued = 1 ∧ life.conduit.released ++ life.conduit.handed = [] ∧ ¬ life.conduit.Conserved := by
  have executed : (machine.execute (fun _ _ => true) attachedLink
      [.globalIfOutput ⟨⟨[], [2]⟩, []⟩, .ifOutput, .close, .free]).any (fun life => decide (life.conduit.Ended ∧
        life.conduit.issued = 1 ∧ life.conduit.released ++ life.conduit.handed = [] ∧ ¬ life.conduit.Conserved)) = true := by
    decide +kernel
  obtain ⟨life, reached, passed⟩ := Machine.execute_reaches _ _ rfl executed
  exact ⟨life, reached.weaken fun _ _ _ => trivial, of_decide_eq_true passed⟩

end LinkLife

end Tun2Socket.Native
