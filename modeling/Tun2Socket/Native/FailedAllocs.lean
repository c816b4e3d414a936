import Tun2Socket.Native.Restart
import Tun2Socket.Native.WriteCalls

namespace Tun2Socket.Native
open Lwip Library

/-- The calls that allocate, each with the success of its allocations. -/
inductive AllocatingCall where
  | linkAttach (memory : Bool) (mtu : Int)
  | linkWrite (chance : WriteChance) (buffer : Bytes) (size : Int)
  | udpConnListen (pcbMemory connMemory : Bool)
  | udpConnSendto (chance : WriteChance) (metadata : UdpMetadata) (buffer : Bytes) (size : Int)
  | tcpListenerListen (memory : ListenMemory)

/-- netconn_new gives up without its block, its mailbox or its pcb. -/
def ListenMemory.netconnNew (memory : ListenMemory) : Bool := memory.netconn && memory.pcb.found

namespace Globals

/-- The malloc of tcp_listener_listen comes after the bind and the listen. -/
def reachesMalloc (g : Globals) (memory : ListenMemory) : Bool :=
  !(g.grown memory.pcb).portTaken && memory.lpcb && memory.acceptmbox

/-- A failed call gives back what it allocated, and its addresses are all that is used up. -/
structure Unharmed (g left : Globals) : Prop where
  interface : left.interface = g.interface
  demux : left.demux = g.demux
  bound : left.bound = g.bound
  udp : left.udp = g.udp

/-- The call returned its error value and left the globals unharmed. -/
def Survives (g : Globals) (outcome : Checked (Bool × Globals)) : Prop :=
  ∃ left, outcome = .ok (false, left) ∧ g.Unharmed left

end Globals

/-- The call returned -1 and left its handle alone. -/
def TxSide.Survives (side : TxSide) (outcome : Checked WriteDone) : Prop :=
  ∃ done, outcome = .ok done ∧ done.value = -1 ∧ side.LeavesAlone done

namespace AllocatingCall

variable {platform : Platform} {g : Globals} {side : TxSide} {call : AllocatingCall}

/-- An allocation that the call comes to returns a null pointer. -/
def Starves (platform : Platform) (g : Globals) (side : TxSide) : AllocatingCall → Prop
  | linkAttach memory _ => g.interface.globalInterfaceIsAttached = false ∧ memory = false
  | linkWrite chance _ _ => chance.memory = false
  | udpConnListen pcbMemory connMemory => pcbMemory = false ∨ (g.udpPortTaken = false ∧ connMemory = false)
  | udpConnSendto chance _ _ size =>
      side.closed = false ∧ (chance.memory = false ∨ pbufAlloc platform .PBUF_TRANSPORT (toU16 size) .PBUF_RAM = none)
  | tcpListenerListen memory =>
      memory.netconnNew = false ∨ (g.reachesMalloc memory = true ∧ memory.listener = false)

/-- The call reports the error, does not stop the program and changes nothing. -/
def Reports (platform : Platform) (g : Globals) (side : TxSide) : AllocatingCall → Prop
  | linkAttach memory mtu => g.Survives (g.linkAttach memory mtu)
  | linkWrite chance buffer size => side.Survives (side.linkWrite platform chance buffer size)
  | udpConnListen pcbMemory connMemory => g.Survives (g.udpConnListen pcbMemory connMemory)
  | udpConnSendto chance metadata buffer size => side.Survives (side.udpConnSendto platform chance metadata buffer size)
  | tcpListenerListen memory => g.Survives (g.tcpListenerListen memory)

def isSendto : AllocatingCall → Bool
  | udpConnSendto .. => true
  | _ => false

/-- Without a netconn the bind stops the program, and without a listener the store does. -/
theorem tcpListenerListen_starves (unbound : g.bound = []) {memory : ListenMemory}
    (starves : (tcpListenerListen memory).Starves platform g side) : ∃ message, g.tcpListenerListen memory = .error message := by
  rw [Globals.tcpListenerListen]
  split
  case isFalse => exact ⟨_, rfl⟩
  case isTrue found =>
      have grown : (g.grown memory.pcb).bound = [] := unbound
      obtain missing | ⟨reaches, missing⟩ := starves
      · exact absurd (found.symm.trans missing) Bool.false_ne_true.symm
      · simp only [Globals.reachesMalloc, Bool.and_eq_true, Bool.not_eq_true'] at reaches
        rw [Globals.bindAndListen_eq grown, reaches.1.1, reaches.1.2, reaches.2, missing]
        exact ⟨_, rfl⟩

/-- udp_bind stops the program without a pcb, and the memset does without a handle. -/
theorem udpConnListen_starves (earlier : ∀ pcb ∈ g.udp, pcb.id < g.nextAddr) {pcbMemory connMemory : Bool}
    (starves : (udpConnListen pcbMemory connMemory).Starves platform g side) :
    ∃ message, g.udpConnListen pcbMemory connMemory = .error message := by
  rw [Globals.udpConnListen_eq earlier]
  obtain missing | ⟨free, missing⟩ := starves
  · rw [missing]
    exact ⟨_, rfl⟩
  · rw [free, missing]
    cases pcbMemory <;> exact ⟨_, rfl⟩

/-- A datagram without memory is refused before anything changes. -/
theorem udpConnSendto_starves {chance : WriteChance} {metadata : UdpMetadata} {buffer : Bytes} {size : Int}
    (starves : (udpConnSendto chance metadata buffer size).Starves platform g side) :
    side.Survives (side.udpConnSendto platform chance metadata buffer size) := by
  obtain ⟨opened, missing⟩ := starves
  have none : (if chance.memory then pbufAlloc platform .PBUF_TRANSPORT (toU16 size) .PBUF_RAM else none) = none := by
    rcases missing with missing | missing
    · rw [missing]
      rfl
    · rw [missing, ite_self]
  refine ⟨⟨-1, side, false, [], []⟩, ?_, rfl, rfl, rfl, rfl⟩
  rw [TxSide.udpConnSendto, opened, none]
  rfl

/-- Of the five calls only udp_conn_sendto looks at every result of its allocations. -/
theorem starved_reports_iff (reached : Globals.machine.Reachable Machine.anyStep g) (platform : Platform) (side : TxSide)
    (call : AllocatingCall) : (call.Starves platform g side → call.Reports platform g side) ↔
      call.isSendto = true ∨ ¬ call.Starves platform g side := by
  have settled := Globals.Settled.reachable reached
  have stops : ∀ {outcome : Checked (Bool × Globals)}, (∃ message, outcome = .error message) → ¬ g.Survives outcome := by
    rintro outcome ⟨message, failed⟩ ⟨left, done, -⟩
    exact absurd (failed.symm.trans done) (by simp)
  cases call with
  | linkAttach memory mtu =>
      simp only [isSendto, Bool.false_eq_true, false_or]
      refine ⟨fun reports starves => ?_, fun fed starves => absurd starves fed⟩
      refine stops ⟨"memset of a null pointer", ?_⟩ (reports starves)
      rw [Globals.linkAttach, starves.1, starves.2]
      rfl
  | linkWrite chance buffer size =>
      simp only [isSendto, Bool.false_eq_true, false_or]
      refine ⟨fun reports starves => ?_, fun fed starves => absurd starves fed⟩
      obtain ⟨done, returned, -⟩ := reports starves
      have missing : chance.memory = false := starves
      rw [TxSide.linkWrite, missing] at returned
      simp at returned
  | udpConnListen pcbMemory connMemory =>
      simp only [isSendto, Bool.false_eq_true, false_or]
      exact ⟨fun reports starves => stops (udpConnListen_starves settled.addresses starves) (reports starves),
        fun fed starves => absurd starves fed⟩
  | udpConnSendto chance metadata buffer size => exact iff_of_true udpConnSendto_starves (.inl rfl)
  | tcpListenerListen memory =>
      simp only [isSendto, Bool.false_eq_true, false_or]
      exact ⟨fun reports starves => stops (tcpListenerListen_starves settled.unbound starves) (reports starves),
        fun fed starves => absurd starves fed⟩

/-- A datagram without memory on the first handle is reported. -/
theorem starved_sendto_reports : (udpConnSendto ⟨0, false, true⟩ ⟨.any, .any, 5, 6⟩ [1] 1).Reports .bits32 .initial .fresh :=
  (starved_reports_iff (.start rfl) .bits32 .fresh _).mpr (.inl rfl) ⟨rfl, .inl rfl⟩

/-- A link write without memory stops the program in pbuf_take. -/
theorem starved_write_stops : Globals.machine.Reachable Machine.anyStep .initial ∧
    (linkWrite ⟨0, false, true⟩ [1] 1).Starves .bits64 .initial .fresh ∧
      TxSide.fresh.linkWrite .bits64 ⟨0, false, true⟩ [1] 1 = .error "pbuf_take: invalid buf" ∧
      ¬ (linkWrite ⟨0, false, true⟩ [1] 1).Reports .bits64 .initial .fresh := by
  refine ⟨.start rfl, rfl, rfl, ?_⟩
  rintro ⟨done, returned, -⟩
  cases returned

end AllocatingCall

end Tun2Socket.Native
