import Tun2Socket.Lwip.TcpIn
import Tun2Socket.Lwip.Teardown

namespace Tun2Socket.Lwip

/-- A pcb in the state CLOSED. Its port is 0 until it is bound. -/
structure ClosedPcb where
  id : Nat
  localIp : Ip4Addr
  localPort : UInt16
  netifIdx : Nat

/-- The pcb lists of TCP. The connections and the listeners are those of the stack. -/
structure TcpTable where
  stack : Stack
  bound : List ClosedPcb

/-- A bind to the same port collides when one of the addresses is the wildcard or both agree. -/
def bindCollides (ipaddr : Ip4Addr) (port : UInt16) (used : Ip4Addr × UInt16) : Bool :=
  used.2 = port && (used.1.isAny || ipaddr.isAny || used.1 = ipaddr)

/-- The wildcard address collides with every use of its port. -/
theorem bindCollides_any (port : UInt16) (used : Ip4Addr × UInt16) :
    bindCollides .any port used = true ↔ used.2 = port := by
  simp [bindCollides, Ip4Addr.isAny]

/-- How often the allocation of a pcb fails, which pending FINs then find memory and which pcbs are the oldest ones. -/
structure PcbMemory where
  failures : Nat
  finQueued : Nat → Bool
  oldestTimeWait : Nat
  oldestLastAck : Nat
  oldestClosing : Nat

/-- The first attempt succeeds. -/
def PcbMemory.enough : PcbMemory := ⟨0, fun _ => true, 0, 0, 0⟩

def PcbMemory.found (memory : PcbMemory) : Bool := memory.failures < 5

/-- A pending FIN is tried once more. -/
def retryClose (finQueued : Bool) (pcb : Pcb) : Pcb :=
  if pcb.tcp.closePend then
    { pcb with tcp := ({ pcb.tcp with closePend := false } : TcpPcb).tcpCloseShutdownFin finQueued }
  else pcb

/-- The FIN keeps the ends and leads away from the handshake. -/
theorem tcpCloseShutdownFin_left (pcb : TcpPcb) (finQueued : Bool) :
    (pcb.tcpCloseShutdownFin finQueued).ends = pcb.ends ∧
      (pcb.state ≠ .SYN_RCVD → (pcb.tcpCloseShutdownFin finQueued).state ≠ .SYN_RCVD) := by
  unfold TcpPcb.tcpCloseShutdownFin
  cases finQueued <;> split <;> grind

/-- A change inside a pcb that its lists and its netconn do not notice. -/
structure Pcb.Same (pcb now : Pcb) : Prop where
  key : now.key = pcb.key
  hasConn : now.hasConn = pcb.hasConn
  consistent : pcb.Consistent → now.Consistent

theorem Pcb.Same.refl (pcb : Pcb) : pcb.Same pcb := ⟨rfl, rfl, fun consistent => consistent⟩

theorem retryClose_same (finQueued : Bool) (pcb : Pcb) : pcb.Same (retryClose finQueued pcb) := by
  unfold retryClose
  split
  · rename_i pends
    obtain ⟨ends, beyond⟩ := tcpCloseShutdownFin_left { pcb.tcp with closePend := false } finQueued
    refine ⟨congrArg (fun ends => (pcb.id, ends, pcb.netifIdx)) ends, rfl, fun consistent => ?_⟩
    obtain ⟨silent, left⟩ := consistent.pending pends
    refine ⟨fun has => ?_, fun _ => ⟨silent, beyond left⟩⟩
    simp [silent] at has
  · exact .refl pcb

namespace Stack

/-- A change of that kind may happen to all active pcbs. -/
theorem mapActive_keeps {s : Stack} {change : Pcb → Pcb} (same : ∀ pcb : Pcb, pcb.Same (change pcb)) :
    Shrinks s { s with active := s.active.map change } ∧
      (s.Linked → Linked { s with active := s.active.map change }) := by
  refine ⟨⟨?_, rfl, rfl, fun _ member => member⟩, fun linked => ⟨fun id has => ?_, fun pcb member => ?_⟩⟩
  · have keys : (Stack.keys { s with active := s.active.map change }) = s.keys := by
      simp only [Stack.keys, List.map_append, List.map_map, List.append_cancel_right_eq]
      exact List.map_congr_left fun pcb _ => (same pcb).key
    rw [keys]
  · obtain ⟨pcb, member, named, conn⟩ := linked.attached id has
    exact ⟨_, List.mem_map_of_mem member, (congrArg Prod.fst (same pcb).key).trans named,
      (same pcb).hasConn.trans conn⟩
  · obtain ⟨before, inside, rfl⟩ := List.mem_map.mp member
    exact (same before).consistent (linked.consistent before inside)

def tcpHandleClosepend (s : Stack) (finQueued : Nat → Bool) : Stack :=
  { s with active := s.active.map fun pcb => retryClose (finQueued pcb.id) pcb }

def tcpKillTimewait (s : Stack) (oldest : Nat) : Stack :=
  if s.timeWait.any fun pcb => pcb.id = oldest then s.tcpAbandon oldest else s

def tcpKillState (s : Stack) (state : TcpState) (oldest : Nat) : Stack :=
  if s.active.any fun pcb => pcb.id = oldest && pcb.tcp.state = state then s.tcpAbandon oldest else s

/-- What the allocation of a pcb does to the other pcbs between its attempts. -/
def tcpAlloc (s : Stack) (memory : PcbMemory) : Stack :=
  if memory.failures = 0 then s
  else
    let retried := (s.tcpHandleClosepend memory.finQueued).tcpKillTimewait memory.oldestTimeWait
    if memory.failures = 1 then retried
    else
      let killed := retried.tcpKillState .LAST_ACK memory.oldestLastAck
      -- all pcbs have the same priority, so the last search for a victim finds none
      if memory.failures = 2 then killed else killed.tcpKillState .CLOSING memory.oldestClosing

/-- A pcb that an allocation may change or kill. -/
def Dying (pcb : Pcb) : Prop := pcb.tcp.closePend = true ∨ pcb.tcp.state = .LAST_ACK ∨ pcb.tcp.state = .CLOSING

/-- An allocation leaves the pcbs alone that are neither dying nor in TIME_WAIT, and creates none. -/
structure Reclaims (s next : Stack) : Prop where
  shrinks : Shrinks s next
  sound : next.Sound
  listen : next.listen = s.listen
  spared : ∀ pcb ∈ s.active, ¬ Dying pcb → pcb ∈ next.active
  active : ∀ now ∈ next.active, ∃ pcb ∈ s.active, now = pcb ∨ (Dying pcb ∧ ∃ finQueued, now = retryClose finQueued pcb)
  timeWait : next.timeWait.Sublist s.timeWait

namespace Reclaims

variable {s next : Stack}

theorem refl (sound : s.Sound) : Reclaims s s where
  shrinks := .refl s
  sound := sound
  listen := rfl
  spared := fun _ member _ => member
  active := fun now member => ⟨now, member, .inl rfl⟩
  timeWait := .refl _

theorem retried (sound : s.Sound) (finQueued : Nat → Bool) : Reclaims s (s.tcpHandleClosepend finQueued) := by
  obtain ⟨shrinks, linked⟩ := @mapActive_keeps s _ fun pcb => retryClose_same (finQueued pcb.id) pcb
  refine ⟨shrinks, sound.shrinks shrinks (linked sound.linked), rfl, fun pcb member alive => ?_, fun now member => ?_,
    .refl _⟩
  · have same : retryClose (finQueued pcb.id) pcb = pcb := if_neg fun pends => alive (.inl pends)
    exact List.mem_map.mpr ⟨pcb, member, same⟩
  · obtain ⟨pcb, inside, rfl⟩ := List.mem_map.mp member
    refine ⟨pcb, inside, ?_⟩
    by_cases pends : pcb.tcp.closePend = true
    · exact .inr ⟨.inl pends, finQueued pcb.id, rfl⟩
    · exact .inl (if_neg pends)

/-- The kill of a pcb takes no other pcb along. -/
theorem killed (step : Reclaims s next) {id : Nat} (victim : ∀ pcb ∈ next.active, ¬ Dying pcb → pcb.id ≠ id) :
    Reclaims s (next.tcpAbandon id) where
  shrinks := step.shrinks.trans (tcpAbandon_shrinks next id)
  sound := step.sound.shrinks (tcpAbandon_shrinks next id) (tcpAbandon_linked step.sound.linked id)
  listen := step.listen
  spared := fun pcb member alive =>
    List.mem_filter.mpr ⟨step.spared pcb member alive, by simpa using victim pcb (step.spared pcb member alive) alive⟩
  active := fun now member => step.active now (List.mem_filter.mp member).1
  timeWait := List.filter_sublist.trans step.timeWait

theorem killTimewait (step : Reclaims s next) (oldest : Nat) : Reclaims s (next.tcpKillTimewait oldest) := by
  unfold tcpKillTimewait
  split
  · rename_i found
    obtain ⟨waiting, member, named⟩ := List.any_eq_true.mp found
    refine step.killed fun pcb inside _ same => ?_
    -- one name in both lists would be one pcb with its ends twice
    have one := step.sound.name_unique (List.mem_append_left _ inside) (List.mem_append_right _ member)
      (same.trans (of_decide_eq_true named).symm)
    have distinct := step.sound.ends_distinct
    rw [List.map_append] at distinct
    exact (List.nodup_append'.mp distinct).2.2 (List.mem_map_of_mem inside) (one ▸ List.mem_map_of_mem member)
  · exact step

theorem killState (step : Reclaims s next) {state : TcpState} (closing : state = .LAST_ACK ∨ state = .CLOSING)
    (oldest : Nat) : Reclaims s (next.tcpKillState state oldest) := by
  unfold tcpKillState
  split
  · rename_i found
    obtain ⟨victim, member, named⟩ := List.any_eq_true.mp found
    simp only [Bool.and_eq_true, decide_eq_true_eq] at named
    refine step.killed fun pcb inside alive same => alive (.inr ?_)
    obtain rfl := step.sound.name_unique (List.mem_append_left _ inside) (List.mem_append_left _ member)
      (same.trans named.1.symm)
    exact named.2 ▸ closing
  · exact step

/-- The attempts to find memory only reclaim. -/
theorem alloc (sound : s.Sound) (memory : PcbMemory) : Reclaims s (s.tcpAlloc memory) := by
  have again := (retried sound memory.finQueued).killTimewait memory.oldestTimeWait
  have last := again.killState (.inl rfl) memory.oldestLastAck
  unfold tcpAlloc
  split
  · exact refl sound
  · simp only
    split
    · exact again
    · split
      · exact last
      · exact last.killState (.inr rfl) memory.oldestClosing

end Reclaims

end Stack

namespace TcpTable

/-- The local ends in use, in the order of tcp_pcb_lists. -/
def localEnds (table : TcpTable) : List (Ip4Addr × UInt16) :=
  table.stack.listen.map (fun lpcb => (lpcb.localIp, lpcb.localPort)) ++
    (table.bound.map (fun pcb => (pcb.localIp, pcb.localPort)) ++
      (table.stack.active ++ table.stack.timeWait).map fun pcb => (pcb.tcp.ends.localIp, pcb.tcp.ends.localPort))

/-- The bind of a closed pcb to a given port fails with ERR_USE, or registers the pcb. -/
def tcpBind (table : TcpTable) (pcb : ClosedPcb) (ipaddr : Ip4Addr) (port : UInt16) : Option (ClosedPcb × TcpTable) :=
  if table.localEnds.any (bindCollides ipaddr port) then none
  else
    let bound := { pcb with localIp := if ipaddr.isAny then pcb.localIp else ipaddr, localPort := port }
    some (bound, { table with bound := bound :: table.bound })

/-- The binding to an interface changes the pcb in its list. -/
def tcpBindNetif (table : TcpTable) (pcb : ClosedPcb) (netifIdx : Nat) : ClosedPcb × TcpTable :=
  ({ pcb with netifIdx := netifIdx },
    { table with bound := table.bound.map fun other => if other.id = pcb.id then { other with netifIdx := netifIdx } else other })

/-- A bound pcb leaves its list. -/
def tcpRmvBound (table : TcpTable) (pcb : ClosedPcb) : TcpTable :=
  if pcb.localPort ≠ 0 then { table with bound := table.bound.filter (·.id ≠ pcb.id) } else table

/-- The listening pcb replaces the bound one and belongs to no interface. Without memory nothing changes. -/
def tcpListenWithBacklog (table : TcpTable) (pcb : ClosedPcb) (memory : Bool) : Option (ListenPcb × TcpTable) :=
  if memory then
    let lpcb : ListenPcb := ⟨pcb.localIp, pcb.localPort, NETIF_NO_INDEX⟩
    let left := table.tcpRmvBound pcb
    some (lpcb, { left with stack := { left.stack with listen := lpcb :: left.stack.listen } })
  else none

end TcpTable

end Tun2Socket.Lwip
