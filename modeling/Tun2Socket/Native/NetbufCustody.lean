import Tun2Socket.Library.Custody
import Tun2Socket.Native.TcpRead

namespace Tun2Socket.Native
open Lwip Library

/-- A netbuf structure, whose chain is gone after a netbuf_free. -/
structure NetbufBlock where
  serial : Nat
  p : Option Pbuf

/-- The structures that memp_free took back and the chains that pbuf_free took back, by the numbers of their netbufs. -/
structure Releases where
  blocks : List Nat
  chains : List Nat

namespace Releases

/-- A structure frees its chain only while it has one. -/
def pbufFree (r : Releases) (block : NetbufBlock) : Releases :=
  if block.p.isSome then { r with chains := r.chains ++ [block.serial] } else r

/-- The structure stays allocated. -/
def netbufFree (r : Releases) (block : NetbufBlock) : Releases × NetbufBlock :=
  (r.pbufFree block, { block with p := none })

def netbufDelete (r : Releases) (block : NetbufBlock) : Releases :=
  let freed := r.pbufFree block
  { freed with blocks := freed.blocks ++ [block.serial] }

/-- A read that ends a netbuf calls netbuf_free and then netbuf_delete. -/
def retire (r : Releases) (buf : Netbuf) : Releases :=
  let emptied := r.netbufFree ⟨buf.serial, some buf.p⟩
  emptied.1.netbufDelete emptied.2

@[simp] theorem retire_blocks (r : Releases) (buf : Netbuf) : (r.retire buf).blocks = r.blocks ++ [buf.serial] := rfl

@[simp] theorem retire_chains (r : Releases) (buf : Netbuf) : (r.retire buf).chains = r.chains ++ [buf.serial] := rfl

end Releases

/-- A connection with the netbufs that netconn_recv has given to its reader so far. -/
structure NetbufLife where
  cursor : Cursor
  received : Nat
  releases : Releases

/-- A call of tcp_conn_read with what netconn_recv returns, a chain or an error. -/
structure NetbufRead where
  length : Int
  recv : Option Pbuf

namespace NetbufLife

def tcpConnRead (life : NetbufLife) (act : NetbufRead) : NetbufLife :=
  match life.cursor.pending, act.recv with
  | some pending, _ =>
      let part := life.cursor.readPending pending act.length
      { life with cursor := part.cursor, releases := part.deleted.foldl Releases.retire life.releases }
  | none, some p =>
      let part := life.cursor.readFresh ⟨life.received, p⟩ act.length
      { cursor := part.cursor
        received := life.received + 1
        releases := part.deleted.foldl Releases.retire life.releases }
  | none, none => life

/-- The free of a connection only calls netbuf_free. -/
def tcpConnFree (life : NetbufLife) : NetbufLife :=
  match life.cursor.pending with
  | some pending => { life with releases := (life.releases.netbufFree ⟨pending.serial, some pending.p⟩).1 }
  | none => life

def machine : Machine NetbufLife NetbufRead :=
  ⟨fun life => life = ⟨.start, 0, [], []⟩, fun life act => some (life.tcpConnRead act)⟩

/-- Every structure and every chain was released, and nothing was released twice. -/
structure AllReleased (life : NetbufLife) : Prop where
  blocks : ∀ serial < life.received, life.releases.blocks.count serial = 1
  chains : ∀ serial < life.received, life.releases.chains.count serial = 1
  blocksOnce : life.releases.blocks.Nodup
  chainsOnce : life.releases.chains.Nodup

/-- The netbuf that the reader has not finished. -/
def held (life : NetbufLife) : Multiset Nat := (life.cursor.pending.toList.map Netbuf.serial : List Nat)

/-- A netbuf is held with its chain, or both are released. -/
structure Kept (life : NetbufLife) : Prop where
  blocks : Balanced life.received life.held life.releases.blocks
  chains : Balanced life.received life.held life.releases.chains

variable {life : NetbufLife}

theorem held_of_pending {buf : Netbuf} (pending : life.cursor.pending = some buf) : life.held = {buf.serial} := by
  rw [held, pending]
  rfl

theorem held_of_idle (idle : life.cursor.pending = none) : life.held = 0 := by
  rw [held, idle]
  rfl

/-- A part of a netbuf leaves it pending or frees it. -/
theorem readPending_keeps {c : Cursor} {buf : Netbuf} (pending : c.pending = some buf) (length : Int) :
    ((c.readPending buf length).deleted = [] ∧ (c.readPending buf length).cursor.pending = some buf) ∨
      ((c.readPending buf length).deleted = [buf] ∧ (c.readPending buf length).cursor.pending = none) := by
  unfold Cursor.readPending
  simp only
  split
  · exact .inr ⟨rfl, rfl⟩
  · exact .inl ⟨rfl, pending⟩

theorem readFresh_keeps {c : Cursor} (idle : c.pending = none) (buf : Netbuf) (length : Int) :
    ((c.readFresh buf length).deleted = [] ∧ (c.readFresh buf length).cursor.pending = some buf) ∨
      ((c.readFresh buf length).deleted = [buf] ∧ (c.readFresh buf length).cursor.pending = none) := by
  unfold Cursor.readFresh
  simp only
  split
  · exact .inl ⟨rfl, rfl⟩
  · exact .inr ⟨rfl, idle⟩

/-- A read that ends in one of the two ways keeps the books of its netbuf. -/
theorem Kept.part {received : Nat} {releases : Releases} {buf : Netbuf} {part : Part}
    (blocks : Balanced received {buf.serial} releases.blocks) (chains : Balanced received {buf.serial} releases.chains)
    (ends : (part.deleted = [] ∧ part.cursor.pending = some buf) ∨ (part.deleted = [buf] ∧ part.cursor.pending = none)) :
    Kept ⟨part.cursor, received, part.deleted.foldl Releases.retire releases⟩ := by
  rcases ends with ⟨kept, pending⟩ | ⟨freed, idle⟩
  · rw [kept]
    have serials := @held_of_pending ⟨part.cursor, received, releases⟩ buf pending
    exact ⟨serials ▸ blocks, serials ▸ chains⟩
  · rw [freed]
    have serials := @held_of_idle ⟨part.cursor, received, [buf].foldl Releases.retire releases⟩ idle
    refine ⟨?_, ?_⟩
    · rw [serials]
      apply blocks.move
      rw [zero_add, List.foldl_cons, List.foldl_nil, Releases.retire_blocks, ← Multiset.coe_add, add_comm]
      rfl
    · rw [serials]
      apply chains.move
      rw [zero_add, List.foldl_cons, List.foldl_nil, Releases.retire_chains, ← Multiset.coe_add, add_comm]
      rfl

theorem Kept.step (kept : life.Kept) (act : NetbufRead) : (life.tcpConnRead act).Kept := by
  unfold tcpConnRead
  split
  · rename_i pending current
    have serials := held_of_pending current
    exact .part (serials ▸ kept.blocks) (serials ▸ kept.chains) (readPending_keeps current act.length)
  · rename_i p idle given
    have blocks := kept.blocks.issue
    have chains := kept.chains.issue
    rw [held_of_idle idle] at blocks chains
    exact @Kept.part (life.received + 1) life.releases ⟨life.received, p⟩ _ blocks chains
      (readFresh_keeps idle ⟨life.received, p⟩ act.length)
  · exact kept

theorem Kept.reachable (reached : machine.Reachable Machine.anyStep life) : life.Kept := by
  refine reached.invariant Kept ?_ ?_
  · rintro first rfl
    exact ⟨.start, .start⟩
  · intro before act after kept _ done
    obtain rfl := Option.some.inj done
    exact kept.step act

/-- The free releases everything exactly when no netbuf is pending. -/
theorem tcpConnFree_releases_iff (reached : machine.Reachable Machine.anyStep life) :
    life.tcpConnFree.AllReleased ↔ life.cursor.pending = none := by
  have kept := Kept.reachable reached
  unfold tcpConnFree
  split
  · rename_i pending current
    refine iff_of_false (fun released => ?_) (by simp [current])
    have blocks := kept.blocks
    rw [held_of_pending current] at blocks
    have empty := blocks.settled_iff.mp (by simpa [Releases.netbufFree, Releases.pbufFree] using released.blocks)
    exact Multiset.singleton_ne_zero _ empty
  · rename_i idle
    have empty := held_of_idle idle
    refine iff_of_true ⟨?_, ?_, ?_, ?_⟩ idle
    · simpa using kept.blocks.settled_iff.mpr empty
    · simpa using kept.chains.settled_iff.mpr empty
    · simpa using kept.blocks.nodup
    · simpa using kept.chains.nodup

def opened : NetbufLife := ⟨.start, 0, [], []⟩

/-- Two bytes in one chain. -/
def twoBytes : Pbuf := ⟨⟨[], [7, 8]⟩, []⟩

/-- A connection whose reader finished its netbuf releases it. -/
theorem finished_reader_releases : ((opened.tcpConnRead ⟨1, some twoBytes⟩).tcpConnRead ⟨1, none⟩).tcpConnFree.AllReleased := by
  have read : machine.Reachable Machine.anyStep (opened.tcpConnRead ⟨1, some twoBytes⟩) :=
    Machine.Reachable.step (.start rfl) trivial rfl
  have finished : machine.Reachable Machine.anyStep ((opened.tcpConnRead ⟨1, some twoBytes⟩).tcpConnRead ⟨1, none⟩) :=
    read.step trivial rfl
  exact (tcpConnFree_releases_iff finished).mpr (by decide)

/-- A connection that is freed after the first of two bytes never releases the structure of their netbuf. -/
theorem half_read_netbuf_leaks : ∃ life, machine.Reachable Machine.anyStep life ∧ life.received = 1 ∧
    life.tcpConnFree.releases = ⟨[], [0]⟩ ∧ ¬ life.tcpConnFree.AllReleased := by
  refine ⟨opened.tcpConnRead ⟨1, some twoBytes⟩, Machine.Reachable.step (.start rfl) trivial rfl, rfl, rfl, ?_⟩
  intro released
  exact absurd (released.blocks 0 Nat.one_pos) (by decide)

end NetbufLife

end Tun2Socket.Native
