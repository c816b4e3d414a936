import Tun2Socket.Native.FrozenOutput

namespace Tun2Socket.Native
open Lwip Library

namespace OutWorld

variable {w : OutWorld}

/-- No link got more than its mtu, and a reader with a buffer of that size gets every waiting packet. -/
structure WithinMtu (w : OutWorld) : Prop where
  passed : ∀ link ∈ w.device.links, 576 ≤ link.mtu → link.mtu ≤ 65535 → ∀ p ∈ link.passed, (p.totLen : Int) ≤ link.mtu
  read : ∀ link ∈ w.device.links, 576 ≤ link.mtu → link.mtu ≤ 65535 → ∀ entry ∈ link.waiting,
    linkReadCopy (w.tx.heap.value entry.p) link.mtu = ((entry.asOutput.totLen : Int), entry.asOutput.bytes)

instance (checked : Bool) (w : OutWorld) : (act : OutAct) → Decidable (w.Meets checked act)
  | .linkAttach _ => inferInstanceAs (Decidable (_ → _))
  | .parseOpt _ _ => inferInstanceAs (Decidable (∀ _ ∈ _, _))
  | .udpPollOne _ => inferInstanceAs (Decidable (∀ _ ∈ _, _))
  | .echo _ _ _ => inferInstanceAs (Decidable (_ → _))
  | .linkClose _ | .readTake _ | .readFinish _ _ _ | .listenInput _ _ _ | .tcp _ _ | .rst _ _ _ _ | .udpListen _ | .udpClose _
  | .udpSendto _ _ _ _ | .udpPollTake _ | .unreachable _ _ _ => isTrue trivial

theorem Sound.withinMtu (sound : w.Sound true) : w.WithinMtu := by
  have within {link : OutLink} (inside : link ∈ w.device.links) (low : 576 ≤ link.mtu) (high : link.mtu ≤ 65535)
      {p : Pbuf} (passed : p ∈ link.passed) : p.totLen = p.bytes.length ∧ (p.totLen : Int) ≤ link.mtu := by
    have fits := (sound.holds.fine.links link inside).fits p passed
    rw [ceiling, if_pos ⟨rfl, low, high⟩] at fits
    have total := @Pbuf.totLen_of_fits p (by omega)
    exact ⟨total, by omega⟩
  refine ⟨fun link inside low high p passed => (within inside low high passed).2,
    fun link inside low high entry waits => ?_⟩
  obtain ⟨value, known⟩ := sound.frozenPackets.unchanged link inside entry waits
  obtain ⟨total, least⟩ := within inside low high known
  rw [value, linkReadCopy, if_pos least, pbufCopyPartial_bytes, List.drop_zero, total, List.take_length]

/-- Nothing larger than the mtu leaves the stack, as long as every step leaves its packets and its segments to the mtu. -/
theorem output_within_mtu (reached : machine.Reachable (Meets true) w) : w.WithinMtu := by
  refine Sound.withinMtu (reached.invariant (Sound true) ?_ fun before act after sound meets step => sound.step meets step)
  rintro first ⟨platform, rfl⟩
  exact start_sound platform true

/-- A full segment and a datagram reach a link. The larger segment for a loopback address, and the larger datagram of a
handle that is closed before its poll, do not. -/
def fittingPackets : List OutAct :=
  [.linkAttach 576, .listenInput openControl openEnds (some 1460), .tcp 0 (.write (List.replicate 600 7) false ⟨false, [1, 2]⟩),
    .tcp 0 (.output none), .udpListen (Globals.servedPcb 0),
    .udpSendto 0 ⟨⟨10, 0, 0, 1⟩, ⟨10, 0, 0, 2⟩, 53, 4000⟩ [1, 2, 3] 3, .udpPollTake 0, .udpPollOne 0,
    .listenInput openControl ⟨⟨10, 0, 0, 1⟩, 80, ⟨127, 0, 0, 1⟩, 4000⟩ (some 1460),
    .tcp 1 (.write (List.replicate 600 7) false ⟨false, [4]⟩), .tcp 1 (.output none),
    .udpSendto 0 ⟨⟨10, 0, 0, 1⟩, ⟨10, 0, 0, 2⟩, 53, 4000⟩ (List.replicate 600 7) 5, .udpPollTake 0, .udpClose 0, .udpPollOne 0]

theorem fitting_packets_within : ∃ w, machine.Reachable (Meets true) w ∧
    w.device.links.map (fun link => link.passed.map Pbuf.totLen) = [[576, 31]] ∧
    w.pcbs.map (fun pcb => pcb.unsent.map TcpSeg.len) = [[64], [600]] ∧ w.WithinMtu := by
  have executed : (machine.execute (fun w act => decide (w.Meets true act)) (start .bits32) fittingPackets).any
      (fun w => w.device.links.map (fun link => link.passed.map Pbuf.totLen) = [[576, 31]] ∧
        w.pcbs.map (fun pcb => pcb.unsent.map TcpSeg.len) = [[64], [600]]) = true := by decide +kernel
  obtain ⟨w, reached, seen⟩ := Machine.execute_reaches _ _ (start_initial _) executed
  have meeting : machine.Reachable (Meets true) w := reached.weaken fun _ _ => of_decide_eq_true
  exact ⟨w, meeting, (of_decide_eq_true seen).1, (of_decide_eq_true seen).2, output_within_mtu meeting⟩

/-- A datagram of 600 bytes is accepted for a link with an mtu of 576. -/
def largeDatagram : List OutAct :=
  [.linkAttach 576, .udpListen (Globals.servedPcb 0),
    .udpSendto 0 ⟨⟨10, 0, 0, 1⟩, ⟨10, 0, 0, 2⟩, 53, 4000⟩ (List.replicate 600 7) 1, .udpPollTake 0, .udpPollOne 0]

/-- The packet of 628 bytes reaches the link, whose reader discards it. -/
theorem large_datagram_discarded : ∃ w, machine.Reachable Machine.anyStep w ∧
    w.device.links.map (fun link => (link.mtu, link.passed.map Pbuf.totLen,
      link.waiting.map fun entry => linkReadCopy (w.tx.heap.value entry.p) link.mtu)) = [(576, [628], [(0, [])])] ∧
    ¬ w.WithinMtu := by
  have executed : (machine.execute (fun _ _ => true) (start .bits64) largeDatagram).any
      (fun w => w.device.links.map (fun link => (link.mtu, link.passed.map Pbuf.totLen,
        link.waiting.map fun entry => linkReadCopy (w.tx.heap.value entry.p) link.mtu)) = [(576, [628], [(0, [])])]) = true := by
    decide +kernel
  obtain ⟨w, reached, seen⟩ := Machine.execute_reaches _ _ (start_initial _) executed
  have shape := of_decide_eq_true seen
  refine ⟨w, reached.weaken fun _ _ _ => trivial, shape, fun within => ?_⟩
  obtain ⟨link, single, same⟩ := List.map_eq_singleton_iff.mp shape
  obtain ⟨mtu, rest⟩ := Prod.mk.inj same
  obtain ⟨passed, -⟩ := Prod.mk.inj rest
  obtain ⟨p, only, total⟩ := List.map_eq_singleton_iff.mp passed
  have bound := within.passed link (by simp [single]) (by omega) (by omega) p (by simp [only])
  omega

end OutWorld

end Tun2Socket.Native
