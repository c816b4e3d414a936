import Tun2Socket.Native.Conduit
import Tun2Socket.Native.UdpEcho

namespace Tun2Socket.Native
open Lwip Library

/-- A UDP handle with its packets, the packets that its polls gave to the interface and the results of its readers. -/
structure UdpLife where
  conduit : Conduit
  pcb : Option UdpPcb
  ipId : Nat
  sent : List Pbuf
  results : List (Int × Option (UdpMetadata × Bytes))

/-- The steps of calls and callbacks between the locks they take. Calls of one kind may run at the same time. -/
inductive UdpAct where
  /-- udp_on_received until its lock, with the success of its allocation. -/
  | udpOnReceived (metadata : UdpMetadata) (p : Pbuf) (memory : Bool)
  | receivedLocked
  | recvLocked
  | recvCopy (index : Nat) (size : Int)
  /-- udp_conn_sendto until its lock, with the success of its allocation. -/
  | sendto (metadata : UdpMetadata) (buffer : Bytes) (size : Int) (memory : Bool)
  | sendtoLocked (index : Nat) (posts : Bool)
  /-- The critical section of a posted udp_poll_tx. -/
  | pollTx
  /-- One turn of its loop. -/
  | pollOne
  /-- The close call, and the first part of udp_conn_free. -/
  | close
  /-- The rest of udp_conn_free. -/
  | free
  deriving DecidableEq

/-- The steps that touch the memory of the handle. -/
def UdpAct.uses : UdpAct → Bool
  | .recvCopy .. => false
  | _ => true

namespace UdpLife

def listening : UdpLife := ⟨.opened, some (udpNew 0), 0, [], []⟩

/-- A step on a handle that is not freed. The core lock keeps datagrams, polls and closes apart. -/
def act (life : UdpLife) : UdpAct → Option UdpLife
  | .udpOnReceived metadata p memory =>
      if life.pcb.isSome && life.conduit.delivering.isNone then
        match if memory then udpOnReceivedBuffer metadata p else none with
        | none => some { life with conduit := life.conduit.loseReceived }
        | some buffer => some { life with conduit := life.conduit.startReceive buffer }
      else none
  | .receivedLocked => life.conduit.delivering.map fun parcel => { life with conduit := life.conduit.queueRx parcel }
  | .recvLocked =>
      if life.conduit.rx.length = 0 then if life.pcb.isNone then some life else none
      else some { life with conduit := life.conduit.takeRx }
  | .recvCopy index size =>
      life.conduit.reading[index]?.map fun parcel =>
        { life with
          conduit := life.conduit.finishRead index parcel
          results := life.results ++ [udpConnRecvCopy (some parcel.pbuf) size] }
  | .sendto metadata buffer size memory =>
      if life.pcb.isNone then some life
      else
        match if memory then pbufAlloc .bits64 .PBUF_TRANSPORT (toU16 size) .PBUF_RAM else none with
        | none => some life
        | some buf =>
            match pbufAddHeader (pbufTake buf buffer (toU16 size)) SIZEOF_UDP_METADATA with
            | none => some { life with conduit := life.conduit.discardWrite }
            | some buf =>
                some { life with conduit := life.conduit.startWrite (pbufTake buf metadata.toBytes SIZEOF_UDP_METADATA) }
  | .sendtoLocked index posts =>
      life.conduit.writing[index]?.map fun parcel => { life with conduit := life.conduit.queueWrite index parcel posts }
  | .pollTx =>
      if life.conduit.posted ≠ 0 && life.conduit.delivering.isNone && life.conduit.polling.isEmpty then
        some { life with conduit := life.conduit.takeTx }
      else none
  | .pollOne =>
      life.conduit.polling.head?.map fun parcel =>
        -- a packet without a record, a closed handle and a sent datagram all end in the same pbuf_free
        let turn := UdpConn.udpPollOne ⟨life.pcb, .zeroed, .zeroed⟩ parcel.pbuf life.ipId
        { life with conduit := life.conduit.finishPoll parcel, ipId := turn.2, sent := life.sent ++ turn.1.toList }
  | .close =>
      if life.conduit.delivering.isNone && life.conduit.polling.isEmpty then some { life with pcb := none } else none
  | .free => if life.pcb.isNone then some { life with conduit := life.conduit.drop } else none

/-- A step that touches a freed handle forfeits what is on its way. -/
def step (life : UdpLife) (act : UdpAct) : Option UdpLife :=
  (life.act act).map fun next =>
    if life.conduit.freed && act.uses then { life with conduit := life.conduit.forfeit } else next

def machine : Machine UdpLife UdpAct := ⟨fun life => life = listening, step⟩

/-- The receive callback of the act finds no memory for its record. -/
def UdpAct.starved : UdpAct → Bool
  | .udpOnReceived _ _ memory => !memory
  | _ => false

/-- No step touches a freed handle, the free finds both queues empty and every datagram gets its record. -/
structure Careful (life : UdpLife) (act : UdpAct) : Prop where
  live : act.uses = true → life.conduit.freed = false
  drained : act = .free → life.conduit.rx.packets = [] ∧ life.conduit.tx.packets = []
  fed : UdpAct.starved act = false

instance (life : UdpLife) (act : UdpAct) : Decidable (life.Careful act) :=
  decidable_of_iff ((act.uses = true → life.conduit.freed = false) ∧
      (act = .free → life.conduit.rx.packets.isEmpty = true ∧ life.conduit.tx.packets.isEmpty = true) ∧
      UdpAct.starved act = false) <| by
    simp only [List.isEmpty_iff]
    exact ⟨fun all => ⟨all.1, all.2.1, all.2.2⟩, fun careful => ⟨careful.live, careful.drained, careful.fed⟩⟩

variable {life next : UdpLife} {act : UdpAct}

/-- Every step but the free passes packets on, unless a datagram gets no record. -/
theorem act_moves (done : life.act act = some next) (live : act.uses = true → life.conduit.freed = false)
    (keeps : act ≠ .free) :
    (UdpAct.starved act = true ∧ next.conduit = life.conduit.loseReceived) ∨
      (UdpAct.starved act = false ∧ life.conduit.Moves next.conduit) := by
  cases act with
  | udpOnReceived metadata p memory =>
      obtain ⟨idle, made⟩ := Option.ite_none_right_eq_some.mp done
      rw [Bool.and_eq_true, Option.isNone_iff_eq_none] at idle
      cases memory with
      | false =>
          obtain rfl := Option.some.inj made
          exact .inl ⟨rfl, rfl⟩
      | true =>
          obtain ⟨buffer, built, -⟩ := udpOnReceivedBuffer_bytes metadata p
          rw [if_pos rfl, built] at made
          obtain rfl := Option.some.inj made
          exact .inr ⟨rfl, .startReceive idle.2 buffer⟩
  | receivedLocked =>
      obtain ⟨parcel, present, rfl⟩ := Option.map_eq_some_iff.mp done
      exact .inr ⟨rfl, .queueRx (live rfl) present⟩
  | recvLocked =>
      simp only [UdpLife.act] at done
      split at done
      · obtain ⟨-, same⟩ := Option.ite_none_right_eq_some.mp done
        obtain rfl := Option.some.inj same
        exact .inr ⟨rfl, .idle⟩
      · obtain rfl := Option.some.inj done
        exact .inr ⟨rfl, .takeRx (live rfl)⟩
  | recvCopy index size =>
      obtain ⟨parcel, present, rfl⟩ := Option.map_eq_some_iff.mp done
      exact .inr ⟨rfl, .finishRead present⟩
  | sendto metadata buffer size memory =>
      simp only [UdpLife.act] at done
      refine .inr ⟨rfl, ?_⟩
      split at done
      · obtain rfl := Option.some.inj done
        exact .idle
      · split at done
        · obtain rfl := Option.some.inj done
          exact .idle
        · split at done
          · obtain rfl := Option.some.inj done
            exact .discardWrite
          · obtain rfl := Option.some.inj done
            exact .startWrite _
  | sendtoLocked index posts =>
      obtain ⟨parcel, present, rfl⟩ := Option.map_eq_some_iff.mp done
      exact .inr ⟨rfl, .queueWrite (live rfl) present posts⟩
  | pollTx =>
      obtain ⟨-, same⟩ := Option.ite_none_right_eq_some.mp done
      obtain rfl := Option.some.inj same
      exact .inr ⟨rfl, .takeTx (live rfl)⟩
  | pollOne =>
      obtain ⟨parcel, first, rfl⟩ := Option.map_eq_some_iff.mp done
      obtain ⟨rest, present⟩ := List.head?_eq_some_iff.mp first
      exact .inr ⟨rfl, .finishPoll present⟩
  | close =>
      obtain ⟨-, same⟩ := Option.ite_none_right_eq_some.mp done
      obtain rfl := Option.some.inj same
      exact .inr ⟨rfl, .idle⟩
  | free => exact absurd rfl keeps

theorem step_outcome (done : life.step act = some next) : life.conduit.Outcome (life.Careful act) next.conduit := by
  obtain ⟨after, acted, rfl⟩ := Option.map_eq_some_iff.mp done
  rw [apply_ite UdpLife.conduit]
  refine .orForfeit (fun careful => careful.live) fun live => ?_
  by_cases free : act = .free
  · subst free
    obtain ⟨-, same⟩ := Option.ite_none_right_eq_some.mp acted
    obtain rfl := Option.some.inj same
    exact .dropped ⟨fun careful => careful.drained rfl, fun drained => ⟨live, fun _ => drained, rfl⟩⟩
  · rcases act_moves acted live free with ⟨starved, lost⟩ | ⟨fed, moves⟩
    · rw [lost]
      exact .starved fun careful => absurd (careful.fed.symm.trans starved) Bool.false_ne_true
    · exact .moved ⟨live, fun frees => absurd frees free, fed⟩ moves

/-- At the end of its life a handle has released every pbuf once, exactly when each step of the life was careful. -/
theorem udp_conserves_iff {actions : List UdpAct} (run : machine.Runs Machine.anyStep listening actions life)
    (ended : life.conduit.Ended) : life.conduit.Conserved ↔ machine.Runs Careful listening actions life :=
  Conduit.conserved_iff_careful conduit (fun _ _ _ done => step_outcome done) run rfl ended

/-- A datagram goes through in each direction before the handle is freed. -/
theorem drained_handle_conserves : ∃ life, machine.Reachable Machine.anyStep life ∧ life.conduit.Ended ∧
    life.conduit.issued = 3 ∧ life.conduit.Conserved := by
  have executed : (machine.execute (fun life act => decide (life.Careful act)) listening
      [.udpOnReceived ⟨.any, .any, 5, 6⟩ ⟨⟨[], [2]⟩, []⟩ true, .receivedLocked, .recvLocked, .recvCopy 0 1,
        .sendto ⟨.any, .any, 6, 5⟩ [1] 1 true, .sendtoLocked 0 true, .pollTx, .pollOne, .close, .free]).any
      (fun life => decide (life.conduit.Ended ∧ life.conduit.issued = 3)) = true := by
    decide +kernel
  obtain ⟨life, result, passed⟩ := (Option.any_eq_true _ _).mp executed
  obtain ⟨ended, issued⟩ := of_decide_eq_true passed
  have run := (Machine.execute_runs result).weaken fun life act check => of_decide_eq_true check
  have free := run.weaken fun _ _ _ => trivial
  exact ⟨life, ⟨listening, _, rfl, free⟩, ended, issued, (udp_conserves_iff free ended).mpr run⟩

/-- A datagram without a record is lost at once, and one that nobody has read is lost with its handle. -/
theorem datagrams_lost :
    (∃ life, machine.Reachable Machine.anyStep life ∧ life.conduit.Ended ∧ life.conduit.issued = 1 ∧
      life.conduit.lost = [0] ∧ ¬ life.conduit.Conserved) ∧
    ∃ life, machine.Reachable Machine.anyStep life ∧ life.conduit.Ended ∧ life.conduit.issued = 2 ∧
      life.conduit.lost = [1, 0] ∧ ¬ life.conduit.Conserved := by
  have starved : (machine.execute (fun _ _ => true) listening
      [.udpOnReceived ⟨.any, .any, 5, 6⟩ ⟨⟨[], [2]⟩, []⟩ false, .close, .free]).any (fun life => decide (life.conduit.Ended ∧
        life.conduit.issued = 1 ∧ life.conduit.lost = [0] ∧ ¬ life.conduit.Conserved)) = true := by
    decide +kernel
  have unread : (machine.execute (fun _ _ => true) listening
      [.udpOnReceived ⟨.any, .any, 5, 6⟩ ⟨⟨[], [2]⟩, []⟩ true, .receivedLocked, .close, .free]).any (fun life =>
        decide (life.conduit.Ended ∧ life.conduit.issued = 2 ∧ life.conduit.lost = [1, 0] ∧ ¬ life.conduit.Conserved)) =
          true := by
    decide +kernel
  obtain ⟨first, reached, passed⟩ := Machine.execute_reaches _ _ rfl starved
  obtain ⟨second, also, tested⟩ := Machine.execute_reaches _ _ rfl unread
  exact ⟨⟨first, reached.weaken fun _ _ _ => trivial, of_decide_eq_true passed⟩,
    second, also.weaken fun _ _ _ => trivial, of_decide_eq_true tested⟩

end UdpLife

end Tun2Socket.Native
