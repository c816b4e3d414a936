import Tun2Socket.Lwip.Udp
import Tun2Socket.Native.Interface
import Tun2Socket.Native.TcpAccept

namespace Tun2Socket.Native
open Lwip Library

/-- Which allocations of tcp_listener_listen succeed. -/
structure ListenMemory where
  netconn : Bool
  pcb : PcbMemory
  lpcb : Bool
  acceptmbox : Bool
  listener : Bool

/-- Which allocations of NewStack succeed. -/
structure StackMemory where
  link : Bool
  tcp : ListenMemory
  udpPcb : Bool
  udpConn : Bool

/-- No allocation fails. -/
def StackMemory.enough : StackMemory := ⟨true, ⟨true, .enough, true, true, true⟩, true, true⟩

/-- The global interface and the pcb lists. A block gets the next address. -/
structure Globals where
  interface : Interface Nat
  demux : DemuxWorld
  bound : List ClosedPcb
  udp : List UdpPcb
  nextAddr : Nat

/-- The netconn that tcp_listener_listen allocates, while its pcb does not listen. -/
def newListener (addr : Nat) : Listener :=
  { (Netconn.netconnAlloc addr : Listener) with
    pcb := some { TcpPcb.established ⟨.any, 0, .any, 0⟩ with state := .CLOSED, recv := false } }

/-- The netconn after its listening pcb got no accept mailbox. -/
def brokenListener (addr : Nat) : Listener := { (Netconn.netconnAlloc addr : Listener) with recvmbox := none }

namespace Globals

def table (g : Globals) : TcpTable := ⟨g.demux.stack, g.bound⟩

def setTable (g : Globals) (table : TcpTable) : Globals :=
  { g with demux := { g.demux with stack := table.stack }, bound := table.bound }

/-- An attached device refuses the link. -/
def linkAttach (g : Globals) (memory : Bool) (mtu : Int) : Checked (Bool × Globals) :=
  if g.interface.globalInterfaceIsAttached then .ok (false, g)
  else if memory then
    .ok (true, { g with
      interface := g.interface.globalInterfaceAttachDevice (some .ifOutput) (some g.nextAddr) mtu
      nextAddr := g.nextAddr + 1 })
  else .error "memset of a null pointer"

def linkClose (g : Globals) : Globals :=
  { g with interface := g.interface.globalInterfaceAttachDevice none none DEFAULT_MTU }

/-- A failed listen deletes its netconn. -/
def abortListen (g : Globals) (conn : Listener) : Checked (Bool × Globals) := do
  let _ ← Listener.delete conn true
  return (false, g)

/-- The netconn listens and its mailbox is the one that the accept callback fills. -/
def listenOn (g : Globals) (memory : ListenMemory) (addr : Nat) (table : TcpTable) : Checked (Bool × Globals) :=
  if memory.acceptmbox then
    if memory.listener then
      .ok (true, g.setTable { table with stack := { table.stack with acceptmbox := [], mboxInvalid := false } })
    else .error "store through a null pointer"
  else
    -- the old pcb is freed already, so the listening pcb is closed at once
    (g.setTable { table with stack := { table.stack with listen := table.stack.listen.tail } }).abortListen (brokenListener addr)

/-- The lists after the allocation of the pcb, whose address is used up. -/
def grown (g : Globals) (memory : PcbMemory) : Globals :=
  { g with demux := { g.demux with stack := g.demux.stack.tcpAlloc memory }, nextAddr := g.nextAddr + 1 }

/-- The bind, the binding to the interface and the listen of a fresh pcb. -/
def bindAndListen (g : Globals) (memory : ListenMemory) (addr : Nat) : Checked (Bool × Globals) :=
  match g.table.tcpBind ⟨addr, .any, 0, NETIF_NO_INDEX⟩ .any TCP_ACCEPT_ANY_PORT with
  | none => g.abortListen (newListener addr)
  | some (pcb, bound) =>
      let (pcb, bound) := bound.tcpBindNetif pcb GLOBAL_NETIF_INDEX
      match bound.tcpListenWithBacklog pcb memory.lpcb with
      | none => (g.setTable (bound.tcpRmvBound pcb)).abortListen (newListener addr)
      | some (_, table) => g.listenOn memory addr table

def tcpListenerListen (g : Globals) (memory : ListenMemory) : Checked (Bool × Globals) :=
  if memory.netconn && memory.pcb.found then (g.grown memory.pcb).bindAndListen memory g.nextAddr
  else .error "netconn_bind: invalid conn"

/-- The close of the open listener. Its netconn stays allocated. -/
def tcpListenerClose (g : Globals) : Globals :=
  { g with demux := { g.demux with stack := closeListener g.demux.stack } }

def udpConnListen (g : Globals) (pcbMemory connMemory : Bool) : Checked (Bool × Globals) :=
  if pcbMemory then
    let addr := g.nextAddr
    let grown := { g with nextAddr := addr + 2 }
    match udpBind g.udp (udpNew addr) .any UDP_ACCEPT_ANY_PORT with
    | none => .ok (false, { grown with udp := udpRemove g.udp addr })
    | some (_, pcbs) =>
        if connMemory then
          .ok (true, { grown with
            udp := udpUpdate pcbs addr fun pcb => { pcb with netifIdx := GLOBAL_NETIF_INDEX, recvArg := some (addr + 1) } })
        else .error "memset of a null pointer"
  else .error "udp_bind: invalid pcb"

def udpConnClose (g : Globals) (id : Nat) : Globals := { g with udp := udpRemove g.udp id }

/-- The last stage of NewStack. -/
def withUdp (g : Globals) (memory : StackMemory) : Checked (Bool × Globals) := do
  match ← g.udpConnListen memory.udpPcb memory.udpConn with
  | (true, made) => return (true, made)
  | (false, left) => return (false, left.linkClose.tcpListenerClose)

def withTcp (g : Globals) (memory : StackMemory) : Checked (Bool × Globals) := do
  match ← g.tcpListenerListen memory.tcp with
  | (true, made) => made.withUdp memory
  | (false, left) => return (false, left.linkClose)

/-- NewStack goes through its three stages, and a failed stage undoes the ones before it. -/
def newStack (g : Globals) (mtu : Int) (memory : StackMemory) : Checked (Bool × Globals) := do
  match ← g.linkAttach memory.link mtu with
  | (true, made) => made.withTcp memory
  | (false, left) => return (false, left)

/-- A pcb of some list uses the reserved port. -/
def portTaken (g : Globals) : Bool := g.table.localEnds.any fun used => used.2 = TCP_ACCEPT_ANY_PORT

/-- The stack with a new listener. -/
def listening (g : Globals) : Globals :=
  { g with demux := { g.demux with stack := { g.demux.stack with
    listen := DemuxWorld.anyPortListener :: g.demux.stack.listen
    acceptmbox := []
    mboxInvalid := false } } }

theorem abortListen_newListener (g : Globals) (addr : Nat) : g.abortListen (newListener addr) = .ok (false, g) := rfl

theorem abortListen_brokenListener (g : Globals) (addr : Nat) : g.abortListen (brokenListener addr) = .ok (false, g) := rfl

/-- The bind of a fresh pcb fails exactly when the reserved port is in use. -/
theorem tcpBind_fresh (g : Globals) (addr : Nat) :
    g.table.tcpBind ⟨addr, .any, 0, NETIF_NO_INDEX⟩ .any TCP_ACCEPT_ANY_PORT =
      if g.portTaken then none
      else
        some (⟨addr, .any, TCP_ACCEPT_ANY_PORT, NETIF_NO_INDEX⟩,
          { g.table with bound := ⟨addr, .any, TCP_ACCEPT_ANY_PORT, NETIF_NO_INDEX⟩ :: g.bound }) := by
  have collides : g.table.localEnds.any (bindCollides .any TCP_ACCEPT_ANY_PORT) = g.portTaken := by
    refine List.any_congr rfl fun used => ?_
    rw [Bool.eq_iff_iff, bindCollides_any, decide_eq_true_eq]
  rw [TcpTable.tcpBind, collides]
  rfl

/-- While no pcb is bound, a listen only adds its listener, and a failed one leaves nothing behind. -/
theorem bindAndListen_eq {g : Globals} (unbound : g.bound = []) (memory : ListenMemory) (addr : Nat) :
    g.bindAndListen memory addr =
      if g.portTaken || !memory.lpcb || !memory.acceptmbox then .ok (false, g)
      else if memory.listener then .ok (true, g.listening)
      else .error "store through a null pointer" := by
  obtain ⟨interface, demux, bound, udp, nextAddr⟩ := g
  obtain rfl : bound = [] := unbound
  unfold bindAndListen
  rw [tcpBind_fresh]
  by_cases taken : Globals.portTaken ⟨interface, demux, [], udp, nextAddr⟩ = true
  · rw [if_pos taken, taken]
    exact abortListen_newListener _ addr
  · rw [if_neg taken, eq_false_of_ne_true taken]
    obtain ⟨netconn, pcb, lpcb, acceptmbox, listener⟩ := memory
    cases lpcb with
    | false => simp [TcpTable.tcpBindNetif, TcpTable.tcpListenWithBacklog, TcpTable.tcpRmvBound, table, setTable,
        abortListen_newListener, TCP_ACCEPT_ANY_PORT]
    | true =>
        cases acceptmbox with
        | false => 
          simp [TcpTable.tcpBindNetif, TcpTable.tcpListenWithBacklog, TcpTable.tcpRmvBound, table, setTable, listenOn,
            abortListen_brokenListener, TCP_ACCEPT_ANY_PORT]
        | true =>
          simp [TcpTable.tcpBindNetif, TcpTable.tcpListenWithBacklog, TcpTable.tcpRmvBound, table, setTable, listenOn,
            TCP_ACCEPT_ANY_PORT, listening, DemuxWorld.anyPortListener]

/-- The pcb of a new handle. -/
def servedPcb (addr : Nat) : UdpPcb :=
  ⟨addr, .any, UDP_ACCEPT_ANY_PORT, .any, 0, false, GLOBAL_NETIF_INDEX, some (addr + 1)⟩

/-- A handle owns the reserved port. -/
def udpPortTaken (g : Globals) : Bool := g.udp.any fun pcb => pcb.localPort = UDP_ACCEPT_ANY_PORT

/-- A listen adds its pcb in front, and a failed one leaves the list alone. -/
theorem udpConnListen_eq {g : Globals} (earlier : ∀ pcb ∈ g.udp, pcb.id < g.nextAddr) (pcbMemory connMemory : Bool) :
    g.udpConnListen pcbMemory connMemory =
      if pcbMemory then
        if g.udpPortTaken then .ok (false, { g with nextAddr := g.nextAddr + 2 })
        else if connMemory then
          .ok (true, { g with nextAddr := g.nextAddr + 2, udp := servedPcb g.nextAddr :: g.udp })
        else .error "memset of a null pointer"
      else .error "udp_bind: invalid pcb" := by
  have fresh : ∀ pcb ∈ g.udp, pcb.id ≠ g.nextAddr := fun pcb member => Nat.ne_of_lt (earlier pcb member)
  have collides : (g.udp.any fun used => bindCollides .any UDP_ACCEPT_ANY_PORT (used.localIp, used.localPort)) =
      g.udpPortTaken := by
    refine List.any_congr rfl fun used => ?_
    rw [Bool.eq_iff_iff, bindCollides_any, decide_eq_true_eq]
  unfold udpConnListen udpBind
  rw [collides]
  split
  · by_cases taken : g.udpPortTaken = true
    · simp only [taken, if_true, udpRemove_fresh fresh]
    · have updated := @udpUpdate_fresh g.udp g.nextAddr fresh
      simp only [udpUpdate] at updated
      simp [taken, udpUpdate, updated, udpNew, servedPcb]
  · rfl

end Globals

end Tun2Socket.Native
