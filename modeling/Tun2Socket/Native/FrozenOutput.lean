import Tun2Socket.Native.OutputSound

namespace Tun2Socket.Native
open Lwip Library

namespace OutWorld

variable {w next : OutWorld}

/-- The waiting packets are as they were output, and the reads returned such packets. -/
structure FrozenPackets (w : OutWorld) : Prop where
  unshared : ∀ pcb ∈ w.pcbs, ∀ seg ∈ pcb.unsent, ∀ link ∈ w.device.links, ∀ entry ∈ link.waiting, entry.p ≠ seg.p
  unchanged : ∀ link ∈ w.device.links, ∀ entry ∈ link.waiting,
    w.tx.heap.value entry.p = some entry.asOutput ∧ entry.asOutput ∈ link.passed
  read : ∀ link ∈ w.device.links, ∀ read ∈ link.reads, read.entry.asOutput ∈ link.passed ∧
    read.result = if read.size ≥ read.entry.asOutput.totLen
      then ((read.entry.asOutput.totLen : Int), read.entry.asOutput.bytes) else (0, [])

/-- A packet that waits before and after a step is the same. -/
def KeepsWaiting (w next : OutWorld) : Prop :=
  ∀ link ∈ w.device.links, ∀ entry ∈ link.waiting, ∀ link' ∈ next.device.links, entry ∈ link'.waiting →
    next.tx.heap.value entry.p = w.tx.heap.value entry.p

theorem Sound.frozenPackets {checked : Bool} (sound : w.Sound checked) : w.FrozenPackets := by
  refine ⟨fun pcb member seg queued link inside entry waits same => ?_, fun link inside entry waits => ?_,
    fun link inside read finished => ?_⟩
  · have alone := (sound.pcbs pcb member).alone seg queued
    have owned : seg.p ∈ w.owners := Multiset.mem_add.mpr (.inl (Multiset.mem_of_le (owns_le_ownersOf member)
      (Multiset.mem_add.mpr (.inl (Multiset.mem_map_of_mem _ (Multiset.mem_coe.mpr queued))))))
    have held := @DriverView.mem_held _ (OutDevice.view checked w.device.setup) w.tx.device entry
      (List.mem_flatMap.mpr ⟨link, inside, waits⟩)
    rw [same] at held
    exact sound.holds.balanced.sole owned alone held
  · exact ⟨sound.holds.frozen entry (List.mem_flatMap.mpr ⟨link, inside, waits⟩),
      (sound.holds.fine.links link inside).known entry waits⟩
  · have fine := sound.holds.fine.links link inside
    obtain ⟨known, result⟩ := fine.read read finished
    have fits := fine.fits _ known
    have ceiling := (ceiling_le checked link.mtu).2
    have total := @Pbuf.totLen_of_fits read.entry.asOutput (by omega)
    refine ⟨known, ?_⟩
    rw [result, linkReadCopy, pbufCopyPartial_bytes, List.drop_zero, total, List.take_length]

theorem sound_reachable (reached : machine.Reachable Machine.anyStep w) : w.Sound false := by
  refine reached.invariant (Sound false) ?_ fun before act after sound _ step => sound.step (sound.meets act) step
  rintro first ⟨platform, rfl⟩
  exact start_sound platform false

/-- Packets are frozen while they wait for a reader, whatever the stack does. -/
theorem output_frozen (reached : machine.Reachable Machine.anyStep w) :
    w.FrozenPackets ∧ ∀ act next, machine.step w act = some next → w.KeepsWaiting next := by
  have sound := sound_reachable reached
  refine ⟨sound.frozenPackets, fun act next step link inside entry waits link' inside' waits' => ?_⟩
  have after := (sound.step (sound.meets act) step).frozenPackets
  rw [(after.unchanged link' inside' entry waits').1, (sound.frozenPackets.unchanged link inside entry waits).1]

/-- A connection with open windows. -/
def openControl : SendControl where
  state := .ESTABLISHED
  noDelay := false
  nagleMemErr := false
  fin := false
  ackNow := false
  infr := false
  wndScale := false
  sack := false
  sndWnd := 60000
  sndWndMax := 60000
  cwnd := 60000
  sndBuf := 60000
  lastack := 100
  sndNxt := 100
  rcvNxt := 7
  rcvAnnWnd := 5000
  rcvScale := 0
  rcvSacks := []
  ttl := 64
  tos := 0

def openEnds : FourTuple := ⟨⟨10, 0, 0, 1⟩, 80, ⟨10, 0, 0, 2⟩, 4000⟩

/-- A reader has taken a segment, which may not be sent again, and the next segment is still unsent. -/
def takenSegment : List OutAct :=
  [.linkAttach 1500, .listenInput openControl openEnds none, .tcp 0 (.write [1, 2, 3] false ⟨false, [1]⟩),
    .tcp 0 (.output none), .tcp 0 (.write [4, 5] false ⟨false, [2]⟩), .readTake 0, .tcp 0 .rexmit]

theorem taken_segment_frozen : ∃ w, machine.Reachable Machine.anyStep w ∧
    w.pcbs.map (fun pcb => (pcb.unsent.map TcpSeg.p, pcb.unacked.map TcpSeg.p)) = [([2], [1])] ∧
    w.device.links.map (fun link => link.waiting.map Queued.p) = [[1]] ∧ w.FrozenPackets ∧
    ∀ act next, machine.step w act = some next → w.KeepsWaiting next := by
  have executed : (machine.execute (fun _ _ => true) (start .bits64) takenSegment).any
      (fun w => w.pcbs.map (fun pcb => (pcb.unsent.map TcpSeg.p, pcb.unacked.map TcpSeg.p)) = [([2], [1])] ∧
        w.device.links.map (fun link => link.waiting.map Queued.p) = [[1]]) = true := by decide +kernel
  obtain ⟨w, reached, seen⟩ := Machine.execute_reaches (fun _ _ => true) _ (start_initial _) executed
  have anyhow : machine.Reachable Machine.anyStep w := reached.weaken fun _ _ _ => trivial
  obtain ⟨frozen, keeps⟩ := output_frozen anyhow
  exact ⟨w, anyhow, (of_decide_eq_true seen).1, (of_decide_eq_true seen).2, frozen, keeps⟩

end OutWorld

end Tun2Socket.Native
