import Tun2Socket.Native.Output

namespace Tun2Socket.Native
open Lwip Library

/-- The longest packet that a link may get. Only an mtu of an IPv4 link counts, and only where it is checked. -/
def ceiling (checked : Bool) (mtu : Int) : Nat := if checked ∧ 576 ≤ mtu ∧ mtu ≤ 65535 then mtu.toNat else 65535

theorem ceiling_le (checked : Bool) (mtu : Int) : 576 ≤ ceiling checked mtu ∧ ceiling checked mtu ≤ 65535 := by
  unfold ceiling
  split_ifs <;> omega

/-- The packets of a link fit, and each one that waits or was read is among them. -/
structure OutLink.Fine (checked : Bool) (link : OutLink) : Prop where
  fits : ∀ p ∈ link.passed, p.bytes.length ≤ ceiling checked link.mtu
  known : ∀ entry ∈ link.waiting, entry.asOutput ∈ link.passed
  read : ∀ read ∈ link.reads, read.entry.asOutput ∈ link.passed ∧
    read.result = linkReadCopy (some read.entry.asOutput) read.size

/-- What the stack knows of its device: the interface, and the mtu of the attached link. -/
structure OutSetup where
  interface : Interface Nat
  mtu : Option Int

/-- Nothing bounds a packet that no link gets. -/
def OutSetup.limit (setup : OutSetup) (checked : Bool) : Nat := setup.mtu.elim 65535 (ceiling checked)

def OutDevice.setup (device : OutDevice) : OutSetup := ⟨device.interface, device.attached.map OutLink.mtu⟩

def OutLink.held (link : OutLink) : Multiset Nat := link.waiting.map Queued.p

namespace OutDevice

variable {checked : Bool} {setup : OutSetup} {s : TxState OutDevice} {mine others : Multiset Nat} {addr : Nat}
  {packet : Pbuf} {link : OutLink} {device : OutDevice}

structure Fine (checked : Bool) (setup : OutSetup) (device : OutDevice) : Prop where
  links : ∀ link ∈ device.links, link.Fine checked
  setup : device.setup = setup

/-- The driver holds back what waits on any link. -/
def view (checked : Bool) (setup : OutSetup) : DriverView OutDevice :=
  ⟨fun device => device.links.flatMap OutLink.waiting, Fine checked setup⟩

theorem held_eq (device : OutDevice) : (view checked setup).held device = ownersOf OutLink.held device.links := by
  change ((device.links.flatMap OutLink.waiting).map Queued.p : Multiset Nat) = _
  induction device.links with
  | nil => rfl
  | cons link rest ih =>
      rw [ownersOf_cons, ← ih, List.flatMap_cons, List.map_append, ← Multiset.coe_add]
      rfl

/-- The output reaches a link, or nothing. -/
theorem globalIfOutput_cases (heap : Memory Pbuf) (device : OutDevice) (p : Nat) :
    (device.attached = none ∧ globalIfOutput heap device p = (heap, device)) ∨
      ∃ id link, device.attached = some link ∧ device.interface.globalIfOutput = some id ∧ device.links[id]? = some link ∧
        globalIfOutput heap device p = ((ifOutput (heap.retain p) link p).1,
          { device with links := device.links.set id (ifOutput (heap.retain p) link p).2 }) := by
  unfold attached globalIfOutput
  cases context : device.interface.globalIfOutput with
  | none => exact .inl ⟨rfl, rfl⟩
  | some id =>
      cases found : device.links[id]? with
      | none => exact .inl ⟨found, by simp only [found]⟩
      | some link => exact .inr ⟨id, link, found, rfl, found, by simp only [found]⟩

/-- The queue takes over a reference, and gives back those of the evicted packets. -/
theorem append_held (link : OutLink) (entry : Queued) :
    ((link.rx.evicted entry).map Queued.p : Multiset Nat) + { link with rx := link.rx.append entry }.held =
      entry.p ::ₘ link.held := by
  have split := congrArg (fun entries => ((entries.map Queued.p : List Nat) : Multiset Nat)) (link.rx.evicted_append entry)
  simp only [List.map_append, ← Multiset.coe_add, List.map_singleton, Multiset.coe_singleton] at split
  simp only [OutLink.held, OutLink.waiting, List.map_append, ← Multiset.coe_add]
  rw [← add_assoc, split, add_right_comm, add_comm _ ({entry.p} : Multiset Nat), Multiset.singleton_add]

theorem ifOutput_eq {heap : Memory Pbuf} (found : heap.value addr = some packet) (link : OutLink) :
    ifOutput heap link addr = (heap.releases ((link.rx.evicted ⟨addr, packet⟩).map Queued.p),
      { link with rx := link.rx.append ⟨addr, packet⟩, passed := link.passed ++ [packet] }) := by
  unfold ifOutput
  rw [found]

/-- At most one packet is evicted, so a shared one survives. -/
theorem ifOutput_value {heap : Memory Pbuf} (link : OutLink) (shared : 1 < heap.refs addr) :
    (ifOutput heap link addr).1.value addr = heap.value addr := by
  unfold ifOutput
  split
  · rfl
  · rename_i packet found
    rw [PacketQueue.evicted_packets, evictedItems_push _ _ link.rx.bounded (by decide)]
    have survives (evicted : Nat) : (heap.release evicted).value addr = heap.value addr := by
      by_cases same : addr = evicted
      · subst same
        exact Memory.value_release shared
      · exact Memory.value_update_ne same _
    split_ifs
    · cases link.rx.packets with
      | nil => rfl
      | cons oldest rest => exact survives oldest.p
    · rfl

/-- A queued packet that fits is known. -/
theorem fine_output (fine : link.Fine checked) (fits : packet.bytes.length ≤ ceiling checked link.mtu) (p : Nat) :
    { link with rx := link.rx.append ⟨p, packet⟩, passed := link.passed ++ [packet] }.Fine checked := by
  refine ⟨fun other member => ?_, fun entry waits => ?_, fun read member => ?_⟩
  · rcases List.mem_append.mp member with old | new
    · exact fine.fits other old
    · rw [List.mem_singleton.mp new]
      exact fits
  · rcases List.mem_append.mp waits with queued | taken
    · rcases PacketQueue.mem_append queued with old | rfl
      · exact List.mem_append_left _ (fine.known entry (List.mem_append_left _ old))
      · exact List.mem_append_right _ (List.mem_singleton_self _)
    · exact List.mem_append_left _ (fine.known entry (List.mem_append_right _ taken))
  · obtain ⟨known, result⟩ := fine.read read member
    exact ⟨List.mem_append_left _ known, result⟩

theorem output_eq (s : TxState OutDevice) (addr : Nat) : s.output globalIf addr =
    { s with heap := (globalIfOutput s.heap s.device addr).1, device := (globalIfOutput s.heap s.device addr).2 } := rfl

/-- The output of a packet that fits is an action of the holder of its only reference. -/
theorem output_acts (held : addr ∈ mine) (one : s.heap.refs addr = 1) (found : s.heap.value addr = some packet)
    (fits : packet.bytes.length ≤ setup.limit checked) : (view checked setup).Acts s mine (s.output globalIf addr) mine := by
  intro others holds
  rw [output_eq]
  rcases globalIfOutput_cases s.heap s.device addr with ⟨-, none⟩ | ⟨id, link, attached, context, member, output⟩
  · rw [none]
    exact ⟨holds, fun other _ => .refl _ other⟩
  have retained : (s.heap.retain addr).value addr = some packet := by rw [Memory.value_retain, found]
  rw [ifOutput_eq retained] at output
  rw [output]
  obtain ⟨rest, owners, links, updated⟩ := @exists_others _ OutLink.held _ _ _ member
  obtain ⟨nextOwners, nextLinks⟩ := updated
    { link with rx := link.rx.append ⟨addr, packet⟩, passed := link.passed ++ [packet] }
  let evicted : List Nat := (link.rx.evicted ⟨addr, packet⟩).map Queued.p
  let next : OutLink := { link with rx := link.rx.append ⟨addr, packet⟩, passed := link.passed ++ [packet] }
  have swap : evicted + next.held = addr ::ₘ link.held := append_held link ⟨addr, packet⟩
  have balanced := holds.balanced
  rw [held_eq, owners, add_add_add_comm] at balanced
  obtain ⟨done, kept⟩ := Memory.Frames.exchange held one swap _ balanced
  have value {other : Nat} (owned : other ∈ mine + next.held + (others + ownersOf OutLink.held rest)) :
      ((s.heap.retain addr).releases evicted).value other = s.heap.value other :=
    Memory.Frames.exchange_value held one swap balanced owned
  have waits {entry : Queued} {here : OutLink} (inside : here = next ∨ here ∈ rest) (queued : entry ∈ here.waiting) :
      entry.p ∈ mine + next.held + (others + ownersOf OutLink.held rest) := by
    have owned : entry.p ∈ here.held := Multiset.mem_coe.mpr (List.mem_map_of_mem queued)
    rcases inside with rfl | other
    · simp [owned]
    · simp [Multiset.mem_of_le (owns_le_ownersOf other) owned]
  refine ⟨⟨?_, fun entry member => ?_, ⟨fun here member => ?_, ?_⟩⟩, fun other member => kept other (by simp [member])⟩
  · rw [held_eq, nextOwners, add_add_add_comm]
    exact done
  · obtain ⟨here, inside, queued⟩ := List.mem_flatMap.mp member
    have among := (nextLinks here).mp inside
    refine (value (waits among queued)).trans ?_
    have old {here : OutLink} (before : here = link ∨ here ∈ rest) (queued : entry ∈ here.waiting) :
        s.heap.value entry.p = some entry.asOutput :=
      holds.frozen entry (List.mem_flatMap.mpr ⟨here, (links here).mpr before, queued⟩)
    rcases among with rfl | other
    · rcases List.mem_append.mp queued with inQueue | taken
      · rcases PacketQueue.mem_append inQueue with before | rfl
        · exact old (.inl rfl) (List.mem_append_left _ before)
        · exact found
      · exact old (.inl rfl) (List.mem_append_right _ taken)
    · exact old (.inr other) queued
  · rcases (nextLinks here).mp member with rfl | other
    · refine fine_output (holds.fine.links link ((links link).mpr (.inl rfl))) ?_ addr
      rwa [← holds.fine.setup, OutSetup.limit, OutDevice.setup, attached] at fits
    · exact holds.fine.links here ((links here).mpr (.inr other))
  · obtain ⟨inside, -⟩ := List.getElem?_eq_some_iff.mp member
    rw [← holds.fine.setup, OutDevice.setup, OutDevice.setup, attached]
    simp only [OutDevice.attached, context, Option.bind_some, List.getElem?_set_self inside, Option.map_some]

/-- The output of a packet does not change it. -/
theorem output_value (s : TxState OutDevice) (one : s.heap.refs addr = 1) :
    (s.output globalIf addr).heap.value addr = s.heap.value addr := by
  rw [output_eq]
  rcases globalIfOutput_cases s.heap s.device addr with ⟨-, none⟩ | ⟨id, link, -, -, -, output⟩
  · rw [none]
  · rw [output]
    have shared : 1 < (s.heap.retain addr).refs addr := by
      rw [Memory.refs_retain (by omega)]
      omega
    exact (ifOutput_value link shared).trans (Memory.value_retain addr addr)

/-- The links are a driver for packets up to the limit. -/
def driver (checked : Bool) (setup : OutSetup) : Driver OutDevice where
  toDriverView := view checked setup
  netif := globalIf
  fits p := p.bytes.length ≤ setup.limit checked
  outputs := output_acts
  unchanged s _ := output_value s

end OutDevice

end Tun2Socket.Native
