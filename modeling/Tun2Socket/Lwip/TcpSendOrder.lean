import Tun2Socket.Lwip.TcpSenderRuns

namespace Tun2Socket.Lwip
open Library

variable {Device : Type} {driver : Driver Device} {bound : Nat} {iss : UInt32} {good : Bytes → Prop} {data : Bytes}
  {closed : Bool} {una : Nat} {pcb pcb' : SendPcb} {s : TxState (Device × List Bytes)} {others : Multiset Nat}

/-- Two segments that overlap leave no place for one of them in the stream. -/
theorem torn {heap : Memory Pbuf} {unacked unsent : List TcpSeg} (shaped : ∀ seg ∈ unsent ++ unacked, Shaped bound heap seg)
    (room : ((unacked ++ unsent).map TcpSeg.len).sum ≤ TCP_SND_BUF) {x y : TcpSeg} (first : x ∈ unsent ++ unacked)
    (second : y ∈ unsent ++ unacked) {image : SegImage} (found : imageAt heap x = some image) (syn : image.syn = false)
    {distance : Nat} (positive : 0 < distance) (close : distance < 2 ^ 31)
    (behind : tcphSeqno heap y = image.seqno + UInt32.ofNat distance) (inside : distance < image.octets.length) :
    ¬∃ low, Tiled heap iss (streamOf data closed) unacked unsent low := by
  rintro ⟨low, tiled⟩
  have sum := tiled.sum shaped
  unfold TCP_SND_BUF at room
  obtain ⟨seqno, tcplen⟩ := imageAt_fields found (shaped x first)
  have apart := tiled.apart shaped (by omega) first second positive close (by rw [behind, seqno])
  rw [tcplen syn] at apart
  omega

section Write

variable {written : Bytes} {more : Bool} {tail : WriteTail} {last : TcpSeg}

/-- Data goes to a last unsent segment with some data and some room. -/
theorem tcpWriteTail_progress {memory : Bool} (found : pcb.unsent.getLast? = some last) (small : mssLocal pcb ≤ TCP_MSS)
    (filled : 0 < last.len) (room : last.len + tcpOptLength last.opts < mssLocal pcb) (some_data : written ≠ [])
    (done : tcpWriteTail pcb written more memory = .ok (some tail)) : 0 < tail.oversizeUsed + tail.concatLen := by
  simp only [tcpWriteTail, found] at done
  obtain ⟨-, done⟩ := assert_ok done
  obtain ⟨-, done⟩ := assert_ok done
  obtain ⟨-, done⟩ := assert_ok done
  have long := List.length_pos_of_ne_nil some_data
  obtain ⟨used, -, -, chained⟩ := tcpWriteConcat_bytes (by omega) (by omega) (Except.ok.inj done)
  rcases Nat.eq_zero_or_pos tail.oversizeUsed with zero | positive
  · exact Nat.add_pos_right _ (chained ⟨by omega, by omega, filled⟩)
  · exact Nat.add_pos_left positive _

/-- A call that takes no data leaves the queue. -/
theorem tcpWrite_unsent {memory : WriteMemory} {err : Err} {heap heap' : Memory Pbuf}
    (done : tcpWrite heap pcb written more memory = .ok (err, pcb', heap')) (small : mssLocal pcb ≤ TCP_MSS) :
    err = .ERR_OK ∧ written ≠ [] ∨ pcb'.unsent = pcb.unsent := by
  obtain ⟨checked, -, done⟩ := bind_ok done
  cases checked with
  | ERR_OK =>
      obtain ⟨tail, tailDone, done⟩ := bind_ok done
      cases tail with
      | none =>
          obtain ⟨-, rfl, -⟩ := Prod.mk.inj (Except.ok.inj done)
          exact .inr rfl
      | some tail =>
          obtain ⟨queue, queueDone, done⟩ := bind_ok done
          cases queue with
          | none =>
              obtain ⟨-, rfl, -⟩ := Prod.mk.inj (Except.ok.inj done)
              exact .inr rfl
          | some queue =>
              obtain ⟨rfl, committed⟩ := Prod.mk.inj (Except.ok.inj done)
              cases written with
              | cons byte rest => exact .inl ⟨rfl, List.cons_ne_nil _ _⟩
              | nil =>
                  right
                  obtain ⟨taken, -⟩ := tcpWriteExtend_sum small tailDone
                  have nothing : tail.oversizeUsed + tail.concatLen = 0 := Nat.eq_zero_of_le_zero taken
                  have still : tail.grow = id := funext fun last => by
                    rw [WriteTail.grow, Nat.add_assoc, nothing, Nat.add_zero]
                    rfl
                  rw [List.drop_nil, tcpWriteSegs, pure_eq_ok, Except.ok.injEq, Option.some.injEq] at queueDone
                  subst queueDone
                  have unsent : (tcpWriteCommit heap pcb [] more tail ⟨[], pcb.sndQueuelen + tail.concat.isSome.toNat,
                      tail.oversize⟩).1.unsent = updateLast pcb.unsent tail.grow ++ [] := by
                    unfold tcpWriteCommit
                    split <;> rfl
                  rw [committed, still, List.append_nil] at unsent
                  rw [show pcb'.unsent = _ from unsent, updateLast]
                  split
                  · rename_i empty
                    exact (List.getLast?_eq_none_iff.mp empty).symm
                  · rename_i last found
                    exact List.dropLast_append_getLast? last found
  | ERR_MEM =>
      obtain ⟨-, rfl, -⟩ := Prod.mk.inj (Except.ok.inj done)
      exact .inr rfl
  | _ =>
      obtain ⟨-, rfl, -⟩ := Prod.mk.inj (Except.ok.inj done)
      exact .inr rfl

end Write

namespace Sound

theorem front_mem {last next : TcpSeg} (found : pcb.unsent.getLast? = some last)
    (among : next ∈ pcb.unsent.dropLast ++ pcb.unacked) : next ∈ pcb.unsent ++ pcb.unacked := by
  rw [← List.dropLast_append_getLast? last found]
  simp only [List.mem_append] at among ⊢
  tauto

/-- A last unsent segment without a FIN that another one follows. -/
theorem broken_last {last : TcpSeg} (sound : Sound driver bound iss good data false una pcb s)
    (found : pcb.unsent.getLast? = some last) (broken : pcb.endsStream s.heap = false) :
    ∃ image next, imageAt s.heap last = some image ∧ image.syn = false ∧ image.fin = false ∧ image.data.length = last.len ∧
      0 < last.len ∧ last.len < 2 ^ 31 ∧ next ∈ pcb.unsent.dropLast ++ pcb.unacked ∧
      tcphSeqno s.heap next = image.seqno + UInt32.ofNat last.len := by
  obtain ⟨others, owns⟩ := sound.owns
  obtain ⟨low, -, tiled, -⟩ := sound.queue
  have near := sound.near tiled
  have whole := shaped owns
  have member := List.mem_of_getLast? found
  obtain ⟨late, sent, after⟩ : ∃ late ∈ pcb.unacked, ¬seqBefore s.heap last late = true := by
    rw [SendPcb.endsStream, found, Option.all_some, List.all_eq_false] at broken
    exact broken
  have other : late ≠ last := by
    rintro rfl
    obtain ⟨rest, split⟩ := Multiset.exists_cons_of_mem (Multiset.mem_coe.mpr member)
    rw [split] at owns
    exact owns.apart late (Multiset.mem_add.mpr (.inr (Multiset.mem_coe.mpr sent))) rfl
  obtain ⟨next, among, distinct, behind⟩ := tiled.follower whole (by omega) member sent other (Bool.eq_false_iff.mpr after)
  obtain ⟨a, b, above, longer, below, spans⟩ := tiled.span member
  have tcplen := spans.tcplen (whole last (List.mem_append_left _ member))
  obtain ⟨p, value, shape, tells, -⟩ := spans.chain (whole last (List.mem_append_left _ member))
  have plain := streamOf_plain tells.octets
  have size := shape.data_length
  have span := tells.size
  rw [SegImage.octets, plain, if_neg Bool.false_ne_true, List.append_nil, List.length_map, size] at span
  refine ⟨last.image p, next, by rw [imageAt, value, Option.map_some], tells.syn, plain, size, by omega, by omega, ?_, ?_⟩
  · have split := List.dropLast_append_getLast? last found
    rw [← split] at among
    simp only [List.mem_append, List.mem_singleton] at among ⊢
    tauto
  · rw [behind, shape.tcphSeqno_eq value, show tcpTcplen s.heap last = last.len by omega]

/-- Data that goes to a last unsent segment which another one follows tears the stream. -/
theorem write_torn {written : Bytes} {more : Bool} {memory : WriteMemory} {heap : Memory Pbuf} (small : bound ≤ TCP_MSS)
    (sound : Sound driver bound iss good data false una pcb s) (distinct : memory.segs.Nodup)
    (free : ∀ addr ∈ memory.segs, s.heap addr = none) (some_data : written ≠ []) (broken : pcb.appends s.heap = false)
    (done : tcpWrite s.heap pcb written more memory = .ok (.ERR_OK, pcb', heap)) :
    ¬∃ low, Tiled heap iss (streamOf (data ++ written) false) pcb'.unacked pcb'.unsent low := by
  have moves := @tcpWrite_moves _ driver.logged.toDriverView bound s pcb pcb' _ _ _ _ _ sound.mss small distinct free done
  have bounded := (mssLocal_le pcb).trans sound.mss
  obtain ⟨others, owns⟩ := sound.owns
  have owned := (moves.turns others owns).1
  obtain ⟨late, short⟩ := Bool.or_eq_false_iff.mp broken
  cases found : pcb.unsent.getLast? with
  | none =>
      rw [found] at short
      cases short
  | some last =>
      rw [found, Option.all_some, decide_eq_false_iff_not] at short
      obtain ⟨image, next, said, syn, fin, size, filled, close, among, behind⟩ := sound.broken_last found late
      have octets : image.octets.length = last.len := by
        rw [SegImage.octets, fin, if_neg Bool.false_ne_true, List.append_nil, List.length_map, size]
      obtain ⟨checked, checks, done⟩ := bind_ok done
      cases checked with
      | ERR_OK =>
          obtain ⟨tail, tailDone, done⟩ := bind_ok done
          cases tail with
          | none => cases done
          | some tail =>
              obtain ⟨queue, queueDone, done⟩ := bind_ok done
              cases queue with
              | none => cases done
              | some queue =>
                  have committed := (Prod.mk.inj (Except.ok.inj done)).2
                  obtain ⟨-, enough⟩ := tcpWriteChecks_ok checks sound.state.1 sound.state.2.1
                  have progress := tcpWriteTail_progress found (bounded.trans small) filled (by omega) some_data tailDone
                  have sum := @tcpWriteCommit_sum _ bound pcb s _ _ _ _ _ _ _ _ bounded small tailDone queueDone
                  obtain ⟨old, -⟩ := tcpWriteCommit_images bounded small owns distinct free tailDone queueDone
                  obtain ⟨taken, bytes⟩ := tcpWriteTail_bytes found (bounded.trans small) tailDone
                  have grown : updateLast pcb.unsent tail.grow = pcb.unsent.dropLast ++ [tail.grow last] := by
                    rw [updateLast, found]
                  have unsent : (tcpWriteCommit s.heap pcb written more tail queue).1.unsent =
                      updateLast pcb.unsent tail.grow ++ queue.segs.map Prod.fst := by
                    unfold tcpWriteCommit
                    split <;> rfl
                  obtain ⟨-, unacked, -⟩ := @tcpWriteCommit_fields pcb written more tail s.heap queue
                  obtain ⟨p, value, shape⟩ := shaped owns last (List.mem_append_left _ (List.mem_of_getLast? found))
                  rw [imageAt, value, Option.map_some, Option.some.injEq] at said
                  subst said
                  have extended := tcpWriteExtend_image found value shape bytes
                  rw [committed] at sum old unsent unacked
                  dsimp only at sum old unsent unacked
                  have lastImage := (old (tail.grow last) (by rw [grown]; simp)).trans extended
                  have nextImage : imageAt heap next = imageAt s.heap next := by
                    refine (old next ?_).trans
                      (@tcpWriteExtend_same _ bound pcb others written tail last driver.logged.toDriverView s owns found next among)
                    rw [grown]
                    simp only [List.mem_append] at among ⊢
                    tauto
                  have nextIn : next ∈ pcb'.unsent ++ pcb'.unacked := by
                    rw [unacked, unsent, grown]
                    simp only [List.mem_append] at among ⊢
                    tauto
                  have shaped_ := shaped owned
                  have nextNumber := tcphSeqno_of_image nextImage (shaped owns next (front_mem found among)) (shaped_ next nextIn)
                  rw [behind] at nextNumber
                  have room := sound.room
                  refine torn shaped_ ?_ ?_ nextIn lastImage syn filled close nextNumber ?_
                  · rw [unacked, List.map_append, List.sum_append, sum]
                    rw [List.map_append, List.sum_append] at room
                    omega
                  · rw [unsent, grown]
                    simp
                  · have longer : ({ last.image p with
                        data := (last.image p).data ++ written.take (tail.oversizeUsed + tail.concatLen) } : SegImage).octets.length =
                        last.len + (tail.oversizeUsed + tail.concatLen) := by
                      simp [SegImage.octets, fin, size, List.length_take, Nat.min_eq_left taken]
                    rw [longer]
                    omega
      | _ => cases done

/-- A FIN on a last unsent segment which another one follows tears the stream. -/
theorem setFin_torn {last : TcpSeg} (sound : Sound driver bound iss good data false una pcb s)
    (found : pcb.unsent.getLast? = some last) (broken : pcb.endsStream s.heap = false) :
    ¬∃ low, Tiled (tcphSetFlag s.heap last TCP_FIN) iss (streamOf data true) pcb.unacked pcb.unsent low := by
  obtain ⟨others, owns⟩ := sound.owns
  have owned := (Turns.setFlag (Multiset.mem_coe.mpr (List.mem_of_getLast? found)) TCP_FIN others owns).1
  obtain ⟨image, next, said, syn, fin, size, filled, close, among, behind⟩ := sound.broken_last found broken
  have member := List.mem_append_left pcb.unacked (List.mem_of_getLast? found)
  have finImage := setFin_image (shaped owns last member) said
  have nextIn := front_mem found among
  have same : imageAt (tcphSetFlag s.heap last TCP_FIN) next = imageAt s.heap next := owns.images_last found _ next among
  have nextNumber := tcphSeqno_of_image same (shaped owns next nextIn) (shaped owned next nextIn)
  rw [behind] at nextNumber
  refine torn (shaped owned) ?_ member nextIn finImage syn filled close nextNumber ?_
  · have room := sound.room
    omega
  · simp [SegImage.octets, size]

/-- A split of a segment with a FIN leaves its first part with the FIN, and tears the stream. -/
theorem split_torn {split : Nat} {memory : Option Nat} {segMemory : Bool} {err : Err} {heap : Memory Pbuf} {head : TcpSeg}
    (small : bound ≤ TCP_MSS) (sound : Sound driver bound iss good data closed una pcb s) (free : ∀ addr ∈ memory, s.heap addr = none)
    (first : pcb.unsent.head? = some head) (fin : tcphFlags s.heap head &&& TCP_FIN ≠ 0) (changed : pcb'.unsent ≠ pcb.unsent)
    (done : tcpSplitUnsentSeg s.heap pcb split memory segMemory = .ok (err, pcb', heap)) :
    ¬∃ low, Tiled heap iss (streamOf data closed) pcb'.unacked pcb'.unsent low := by
  obtain ⟨others, owns⟩ := sound.owns
  have shapedUnsent : ∀ seg ∈ pcb.unsent, Shaped bound s.heap seg := fun seg member =>
    shaped owns seg (List.mem_append_left _ member)
  have moves := @tcpSplitUnsentSeg_moves _ driver.logged.toDriverView bound s pcb pcb' split memory segMemory err heap small
    shapedUnsent free done
  have owned := (moves.turns others owns).1
  obtain ⟨rfl, -, -⟩ | ⟨other, rest, addr, u, filled, oversize, queuelen, queue, rfl, positive, inside, found, shape, rfl, rfl,
    image⟩ := tcpSplitUnsentSeg_cases small shapedUnsent done
  · exact absurd rfl changed
  rw [queue, List.head?_cons, Option.some.injEq] at first
  subst first
  obtain ⟨low, -, tiled, -⟩ := sound.queue
  have syn : (other.image u).syn = false := by
    obtain ⟨_, _, -, -, -, said, shown, tells, -⟩ := tiled.span (queue ▸ List.mem_cons_self)
    rw [imageAt, found, Option.map_some, Option.some.injEq] at shown
    exact shown ▸ tells.syn
  have room := sound.room
  have bounded := shape.bounded
  unfold TCP_MSS at small
  rw [queue, ← Multiset.cons_coe] at owns
  obtain ⟨cut, made, -⟩ := splitHeap_images small owns (free addr rfl) found shape inside.le image syn
  have shaped_ := shaped owned
  have number := (imageAt_fields made (shaped_ (splitRest other split addr) (by simp))).1
  dsimp only at number
  rw [shape.tcphSeqno_eq found] at number
  refine torn shaped_ ?_ (by simp) (by simp) cut syn positive (by omega) number ?_
  · rw [queue] at room
    simp only [List.map_append, List.map_cons, List.sum_append, List.sum_cons, splitRest] at room ⊢
    omega
  · have last := (tcphFlags_fin shape found).mp fin
    have size := shape.data_length
    simp only [SegImage.octets, last, if_true, List.length_append, List.length_map, List.length_take, List.length_singleton]
    omega

end Sound

namespace Sender

variable {s t : Sender Device} {una : Nat}

/-- The two queues hold the octets of the stream from some position on, each once and at its number. -/
def QueuesHold (iss : UInt32) (s : Sender Device) : Prop :=
  ∃ low, Tiled s.tx.heap iss s.stream s.pcb.unacked s.pcb.unsent low

theorem write_ordered {written : Bytes} {more : Bool} {memory : WriteMemory} (small : bound ≤ TCP_MSS)
    (sound : s.Sound driver bound iss good una) (sane : s.Sane driver (.write written more memory))
    (done : s.act driver.netif (.write written more memory) = .ok t) (changed : t.stream ≠ s.stream ∨ t.pcb.unsent ≠ s.pcb.unsent)
    (holds : t.QueuesHold iss) : s.pcb.appends s.tx.heap = true := by
  obtain ⟨⟨distinct, free⟩, -⟩ := sane
  obtain ⟨⟨err, pcb, heap⟩, wrote, done⟩ := bind_ok done
  obtain rfl := Except.ok.inj done
  have local_ : mssLocal s.pcb ≤ TCP_MSS := ((mssLocal_le s.pcb).trans sound.mss).trans small
  by_contra broken
  have failed : ¬(err = .ERR_OK ∧ written ≠ []) := by
    rintro ⟨rfl, some_data⟩
    have opened : s.closed = false := Lwip.Sound.takes sound wrote
    have sound_ := sound
    rw [Sound, opened] at sound_
    refine sound_.write_torn small distinct free some_data (Bool.eq_false_iff.mpr broken) wrote ?_
    have stream : streamOf (s.data ++ written) s.closed = streamOf (s.data ++ written) false := by rw [opened]
    rw [← stream]
    exact holds
  have unsent := (tcpWrite_unsent wrote local_).resolve_left failed
  refine changed.elim (fun differs => differs ?_) fun differs => differs unsent
  rw [stream, stream]
  dsimp only
  split_ifs with fine
  · have empty : written = [] := of_not_not fun some_data => failed ⟨fine, some_data⟩
    rw [empty, List.append_nil]
  · rfl

theorem close_ordered {memory : Option Nat} (sound : s.Sound driver bound iss good una)
    (done : s.act driver.netif (.close memory) = .ok t) (changed : t.stream ≠ s.stream ∨ t.pcb.unsent ≠ s.pcb.unsent)
    (holds : t.QueuesHold iss) : s.pcb.finEnds s.tx.heap = true := by
  rw [act, tcpCloseShutdownFin] at done
  split_ifs at done with sends
  · by_contra broken
    obtain ⟨late, flags⟩ := Bool.or_eq_false_iff.mp (Bool.eq_false_iff.mpr broken)
    have opened : s.closed = false := Lwip.Sound.plain_of_sends sound sends
    have sound_ := sound
    rw [Sound, opened] at sound_
    cases found : s.pcb.unsent.getLast? with
    | none =>
        rw [SendPcb.endsStream, found] at late
        cases late
    | some last =>
        rw [found, Option.any_some, decide_eq_false_iff_not, not_not] at flags
        simp only [tcpSendFin, found, if_pos flags, pure_eq_ok, ok_bind, if_true] at done
        obtain rfl := Except.ok.inj done
        exact sound_.setFin_torn found late holds
  · obtain rfl := Except.ok.inj done
    exact absurd rfl (changed.resolve_left fun differs => differs rfl)

theorem rexmitRto_ordered (sound : s.Sound driver bound iss good una) (done : s.act driver.netif .rexmitRto = .ok t)
    (changed : t.stream ≠ s.stream ∨ t.pcb.unsent ≠ s.pcb.unsent) (holds : t.QueuesHold iss) :
    ∀ a ∈ s.pcb.unacked, ∀ b ∈ s.pcb.unsent, seqBefore s.tx.heap b a = true := by
  obtain rfl := Except.ok.inj done
  obtain ⟨others, owns⟩ := sound.owns
  have shaped_ := Lwip.Sound.shaped owns
  have room := sound.room
  unfold TCP_SND_BUF at room
  unfold tcpRexmitRtoPrepare QueuesHold at holds
  unfold tcpRexmitRtoPrepare at changed
  split_ifs at holds changed with empty busy
  · exact absurd rfl (changed.resolve_left fun differs => differs rfl)
  · exact absurd rfl (changed.resolve_left fun differs => differs rfl)
  · obtain ⟨low, queued⟩ := holds
    have tiled : Tiled s.tx.heap iss (streamOf s.data s.closed) [] (s.pcb.unacked ++ s.pcb.unsent) low := queued
    have whole : ∀ seg ∈ s.pcb.unacked ++ s.pcb.unsent ++ [], Shaped bound s.tx.heap seg := fun seg member =>
      shaped_ seg (by
        rw [List.append_nil] at member
        rwa [List.mem_append, or_comm, ← List.mem_append])
    have sum := tiled.sum whole
    rw [List.nil_append] at sum
    obtain ⟨merged, both, tiles⟩ := tiled
    have order := Tiled.ordered whole both tiles (by omega)
    rw [both.swap.eq_of_left] at order
    exact fun a first b second => ((List.pairwise_append.mp order).2.2 a first b second).1

/-- A step that changes the stream or the unsent queue leaves the stream in the queues exactly when it goes in order: data and
a FIN behind all other segments, a full retransmission with no later segment in front of an earlier one, and no split of a
segment with a FIN. -/
theorem queues_hold_iff (small : bound ≤ TCP_MSS) (room : 12 ≤ bound)
    (reached : (machine driver bound iss).Reachable (Careful driver) s) {action : SenderAction Device}
    (sane : s.Sane driver action) (done : s.act driver.netif action = .ok t)
    (changed : t.stream ≠ s.stream ∨ t.pcb.unsent ≠ s.pcb.unsent) : t.QueuesHold iss ↔ s.InOrder action := by
  obtain ⟨una, sound⟩ := reachable_sound small room reached
  constructor
  · intro holds
    cases action with
    | write written more memory => exact write_ordered small sound sane done changed holds
    | close memory => exact close_ordered sound done changed holds
    | rexmitRto => exact rexmitRto_ordered sound done changed holds
    | split split memory segMemory =>
        obtain ⟨⟨err, pcb, heap⟩, cut, done⟩ := bind_ok done
        obtain rfl := Except.ok.inj done
        intro head first
        by_contra fin
        exact sound.split_torn small (fun addr member => sane.1.2 addr (Option.mem_toList.mpr member)) first fin
          (changed.resolve_left fun differs => differs rfl) cut holds
    | _ => trivial
  · intro ordered
    obtain ⟨una', sound', -⟩ := step small room sound (fun packet => Recent.told) sane ordered done
    obtain ⟨low, -, tiled, -⟩ := sound'.queue
    exact ⟨low, tiled⟩

/-- Two segments are sent, and a fast retransmission puts the first one back into the unsent queue. -/
def putBack : List (SenderAction Unit) :=
  [.write [1, 2] false ⟨false, [1]⟩, .output none, .write [3] false ⟨false, [2]⟩, .output none, .rexmit]

/-- Data that is written then goes into the first segment, in front of data that was written before. -/
theorem put_back_torn : ∃ s t : Sender Unit, s.act (Driver.discard 1500).netif (.write [4] false ⟨true, [3]⟩) = .ok t ∧
    ¬t.QueuesHold 100 ∧ (t.QueuesHold 100 ↔ s.InOrder (.write [4] false ⟨true, [3]⟩)) := by
  have executed : ((machine (.discard 1500) 1460 100).execute check (fresh 100) putBack).any
      (fun s => (s.tx.heap 3).isNone && !s.pcb.appends s.tx.heap &&
        (s.act (Driver.discard 1500).netif (.write [4] false ⟨true, [3]⟩)).toOption.any
          (fun t => t.stream.length ≠ s.stream.length)) = true := by decide +kernel
  obtain ⟨s, reached, seen⟩ := execute_reaches (fresh_established 100) _ executed
  simp only [Bool.and_eq_true, Option.isNone_iff_eq_none, Bool.not_eq_true'] at seen
  obtain ⟨⟨free, broken⟩, written⟩ := seen
  obtain ⟨t, done, longer⟩ := (Option.any_eq_true _ _).mp written
  have done : s.act (Driver.discard 1500).netif (.write [4] false ⟨true, [3]⟩) = .ok t :=
    machine_step (show (machine (.discard 1500) 1460 100).step s _ = some t from done)
  have iff := queues_hold_iff (by decide) (by decide) reached ⟨⟨by decide, by simpa [SenderAction.memory] using free⟩, trivial⟩ done
    (.inl fun same => of_decide_eq_true longer (congrArg List.length same))
  exact ⟨s, t, done, fun holds => by rw [InOrder, broken] at iff; exact absurd (iff.mp holds) (by decide), iff⟩

end Sender

end Tun2Socket.Lwip
