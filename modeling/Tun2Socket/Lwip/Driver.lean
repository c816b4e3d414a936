import Tun2Socket.Lwip.TcpOutput

namespace Tun2Socket.Lwip
open Library

variable {Device : Type}

/-- A packet that a driver holds back, with what it was at its output. -/
structure Queued where
  p : Nat
  asOutput : Pbuf
  deriving DecidableEq

def TxState.Frozen (waits : List Queued) (heap : Memory Pbuf) : Prop :=
  ∀ entry ∈ waits, heap.value entry.p = some entry.asOutput

/-- How a driver is seen: the packets that it holds back, and a property of its own. -/
structure DriverView (Device : Type) where
  waits : Device → List Queued
  fine : Device → Prop

namespace DriverView

variable {view : DriverView Device} {s next last : TxState Device} {mine after final others : Multiset Nat} {addr : Nat}

def held (view : DriverView Device) (device : Device) : Multiset Nat := (view.waits device).map Queued.p

/-- The owners and the driver share all memory, and the packets of the driver are unchanged. -/
structure Holds (view : DriverView Device) (s : TxState Device) (owners : Multiset Nat) : Prop where
  balanced : s.heap.Balanced (owners + view.held s.device)
  frozen : TxState.Frozen (view.waits s.device) s.heap
  fine : view.fine s.device

/-- An action of some owners with the driver leaves the memory of all other owners alone. -/
def Acts (view : DriverView Device) (s : TxState Device) (mine : Multiset Nat) (next : TxState Device)
    (after : Multiset Nat) : Prop :=
  ∀ others, view.Holds s (mine + others) →
    view.Holds next (after + others) ∧ ∀ addr ∈ others, s.heap.Keeps next.heap addr

theorem mem_held {device : Device} {entry : Queued} (member : entry ∈ view.waits device) :
    entry.p ∈ view.held device :=
  Multiset.mem_coe.mpr (List.mem_map_of_mem member)

namespace Acts

theorem refl (s : TxState Device) (mine : Multiset Nat) : view.Acts s mine s mine :=
  fun _ holds => ⟨holds, fun addr _ => .refl _ addr⟩

theorem trans (first : view.Acts s mine next after) (second : view.Acts next after last final) :
    view.Acts s mine last final := by
  intro others holds
  obtain ⟨middle, kept⟩ := first others holds
  obtain ⟨done, later⟩ := second others middle
  exact ⟨done, fun addr member => (kept addr member).trans (later addr member)⟩

/-- An action on the memory alone keeps the packets of the driver. -/
theorem ofFrames {heap : Memory Pbuf} (frames : s.heap.Frames mine heap after) (ipId : Nat) :
    view.Acts s mine { s with heap, ipId } after := by
  intro others holds
  have balanced := holds.balanced
  rw [add_assoc] at balanced
  obtain ⟨done, kept⟩ := frames _ balanced
  rw [← add_assoc] at done
  refine ⟨⟨done, fun entry member => ?_, holds.fine⟩, fun addr member => kept addr (Multiset.mem_add.mpr (.inl member))⟩
  rw [(kept entry.p (Multiset.mem_add.mpr (.inr (mem_held member)))).value]
  exact holds.frozen entry member

end Acts

end DriverView

/-- A driver with an interface, which accepts the packets that fit. It does not change a packet, and it may keep a
reference to one of which the stack has the only one. -/
structure Driver (Device : Type) extends DriverView Device where
  netif : Netif Device
  fits : Pbuf → Prop
  outputs : ∀ {s : TxState Device} {mine : Multiset Nat} {addr : Nat} {p : Pbuf}, addr ∈ mine → s.heap.refs addr = 1 →
    s.heap.value addr = some p → fits p → toDriverView.Acts s mine (s.output netif addr) mine
  unchanged : ∀ (s : TxState Device) (addr : Nat), s.heap.refs addr = 1 →
    (s.output netif addr).heap.value addr = s.heap.value addr

namespace Driver

variable {driver : Driver Device} {s : TxState Device} {mine : Multiset Nat} {addr : Nat} {p q : Pbuf}

/-- The output over IP is an action of the holder of the only reference. -/
theorem ipOutputIf_acts (held : addr ∈ mine) (one : s.heap.refs addr = 1) (src dest : Ip4Addr) (ttl tos proto : UInt8)
    (fits : ∀ p q, s.heap.value addr = some p → ip4OutputIfOptSrc p src dest ttl tos proto s.ipId = some q → driver.fits q) :
    driver.Acts s mine (s.ipOutputIf driver.netif addr src dest ttl tos proto).2 mine := by
  unfold TxState.ipOutputIf
  cases packet : (s.heap.value addr).bind fun p => ip4OutputIfOptSrc p src dest ttl tos proto s.ipId with
  | none => exact .refl s mine
  | some q =>
      obtain ⟨p, found, written⟩ := Option.bind_eq_some_iff.mp packet
      have edited : driver.Acts s mine _ mine :=
        .ofFrames (.modify held one fun _ => q) ((s.ipId + 1) % 65536)
      refine edited.trans (driver.outputs held ?_ ?_ (fits p q found written))
      · change (s.heap.modify addr fun _ => q).refs addr = 1
        rw [Memory.refs_modify, one]
      · simp [found]

/-- A packet that went out stays as it was written, and one that did not is as before. -/
theorem ipOutputIf_value (one : s.heap.refs addr = 1) (found : s.heap.value addr = some p) (src dest : Ip4Addr)
    (ttl tos proto : UInt8) :
    (s.ipOutputIf driver.netif addr src dest ttl tos proto = (false, s)) ∨
      ∃ q, ip4OutputIfOptSrc p src dest ttl tos proto s.ipId = some q ∧
        (s.ipOutputIf driver.netif addr src dest ttl tos proto).1 = true ∧
        (s.ipOutputIf driver.netif addr src dest ttl tos proto).2.heap.value addr = some q := by
  unfold TxState.ipOutputIf
  rw [found, Option.bind_some]
  cases written : ip4OutputIfOptSrc p src dest ttl tos proto s.ipId with
  | none => exact .inl rfl
  | some q =>
      refine .inr ⟨q, rfl, rfl, ?_⟩
      rw [driver.unchanged]
      · simp [found]
      · change (s.heap.modify addr fun _ => q).refs addr = 1
        rw [Memory.refs_modify, one]

/-- A packet of its own is allocated, output and freed. -/
theorem outputOnce_acts (free : s.heap addr = none) (src dest : Ip4Addr) (ttl tos proto : UInt8)
    (fits : ∀ q, ip4OutputIfOptSrc p src dest ttl tos proto s.ipId = some q → driver.fits q) :
    driver.Acts s mine (s.outputOnce driver.netif addr p src dest ttl tos proto).2 mine := by
  have made : driver.Acts s mine _ (addr ::ₘ mine) := .ofFrames (.alloc free p mine) s.ipId
  have sent := @ipOutputIf_acts _ driver { s with heap := s.heap.alloc addr p } (addr ::ₘ mine) addr
    (Multiset.mem_cons_self _ _) (Memory.refs_alloc p) src dest ttl tos proto (fun p' q found written => by
      rw [Memory.value_alloc, Option.some.injEq] at found
      exact fits q (found ▸ written))
  exact (made.trans sent).trans (.ofFrames (.release addr mine) _)

end Driver

end Tun2Socket.Lwip
