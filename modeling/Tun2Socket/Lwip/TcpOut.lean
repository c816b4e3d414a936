import Tun2Socket.Library.RefCount
import Tun2Socket.Lwip.TcpIn
import Tun2Socket.Lwip.Ip4

namespace Tun2Socket.Lwip
open Library

def TCP_MSS : Nat := 9000

/-- The room that tcp_write may allocate ahead of time. -/
def TCP_OVERSIZE : Nat := TCP_MSS

def TCP_SND_QUEUELEN : Nat := 64

def TCP_HLEN : Nat := 20

def TCP_FIN : UInt8 := 0x01

def TCP_SYN : UInt8 := 0x02

def TCP_RST : UInt8 := 0x04

def TCP_PSH : UInt8 := 0x08

def TCP_ACK : UInt8 := 0x10

def TCP_FLAGS : UInt8 := 0x3f

/-- The difference of two sequence numbers is negative as a signed number. -/
def seqLt (a b : UInt32) : Bool := (a - b).toNat ≥ 2 ^ 31

def seqLeq (a b : UInt32) : Bool := a = b || seqLt a b

/-- A 32-bit value in network order. -/
def htonlBytes (value : UInt32) : Bytes :=
  htonsBytes (value.toNat / 65536) ++ htonsBytes (value.toNat % 65536)

def be32 (data : Bytes) (index : Nat) : UInt32 := UInt32.ofNat (65536 * be16 data index + be16 data (index + 2))

/-- The bytes of one block up to the end of its payload. -/
def Segment.block (segment : Segment) : Bytes := segment.headroom ++ segment.payload

namespace Pbuf

/-- The bytes at a position of the first block are overwritten, and the payload pointer stays. -/
def poke (p : Pbuf) (position : Nat) (data : Bytes) : Pbuf :=
  let block := p.first.block.take position ++ data ++ p.first.block.drop (position + data.length)
  { p with first := ⟨block.take p.first.headroom.length, block.drop p.first.headroom.length⟩ }

/-- The payload pointer of the first pbuf moves to a position of its block. -/
def pointTo (p : Pbuf) (position : Nat) : Pbuf :=
  { p with first := ⟨p.first.block.take position, p.first.block.drop position⟩ }

/-- The pbuf_clen of a chain counts its pbufs. -/
def clen (p : Pbuf) : Nat := p.segments.length

/-- The used room of an oversized last pbuf grows. -/
def extendLast (p : Pbuf) (data : Bytes) : Pbuf :=
  match p.next.getLast? with
  | none => { p with first := { p.first with payload := p.first.payload ++ data } }
  | some last => { p with next := p.next.dropLast ++ [{ last with payload := last.payload ++ data }] }

end Pbuf

/-- The options that a segment asks for. -/
structure SegOpts where
  mss : Bool
  wndScale : Bool
  sackPerm : Bool
  deriving DecidableEq

def SegOpts.none : SegOpts := ⟨false, false, false⟩

/-- Each option takes four bytes with its padding. -/
def tcpOptLength (opts : SegOpts) : Nat := 4 * opts.mss.toNat + 4 * opts.wndScale.toNat + 4 * opts.sackPerm.toNat

/-- A queued segment names its pbuf chain and the position of its header in the first block. -/
structure TcpSeg where
  p : Nat
  len : Nat
  opts : SegOpts
  tcphdr : Nat
  deriving DecidableEq

/-- The fields of a pcb that its input, its timers and its owner set. -/
structure SendControl where
  state : TcpState
  noDelay : Bool
  nagleMemErr : Bool
  fin : Bool
  ackNow : Bool
  /-- The flag TF_INFR. -/
  infr : Bool
  wndScale : Bool
  sack : Bool
  sndWnd : Nat
  sndWndMax : Nat
  cwnd : Nat
  sndBuf : Nat
  lastack : UInt32
  sndNxt : UInt32
  rcvNxt : UInt32
  rcvAnnWnd : Nat
  rcvScale : Nat
  rcvSacks : List (UInt32 × UInt32)
  ttl : UInt8
  tos : UInt8
  deriving DecidableEq

/-- The part of a pcb that its output works on. -/
structure SendPcb extends SendControl where
  ends : FourTuple
  netifIdx : Nat
  mss : Nat
  sndQueuelen : Nat
  sndLbb : UInt32
  unsentOversize : Nat
  unsent : List TcpSeg
  unacked : List TcpSeg
  deriving DecidableEq

section Header

variable (heap : Memory Pbuf) (seg : TcpSeg)

/-- The first block of a segment, as its header pointer sees it. -/
def tcphdr : Bytes := (heap.value seg.p).elim [] fun p => p.first.block.drop seg.tcphdr

def tcphSeqno : UInt32 := be32 (tcphdr heap seg) 4

def tcphFlags : UInt8 := byteAt (tcphdr heap seg) 13 &&& TCP_FLAGS

/-- The sequence numbers that a segment takes up. -/
def tcpTcplen : Nat := seg.len + if tcphFlags heap seg &&& (TCP_FIN ||| TCP_SYN) ≠ 0 then 1 else 0

def tcphSetFlag (flags : UInt8) : Memory Pbuf :=
  heap.modify seg.p fun p => p.poke (seg.tcphdr + 13) [byteAt p.first.block (seg.tcphdr + 13) ||| flags]

/-- A driver may still hold the first pbuf of a segment. -/
def tcpOutputSegmentBusy : Bool := heap.refs seg.p ≠ 1

end Header

/-- A new segment gets its header, up to the fields that its output fills in. -/
def tcpCreateSegment (pcb : SendPcb) (addr : Nat) (p : Pbuf) (hdrflags : UInt8) (seqno : UInt32) (opts : SegOpts) :
    Checked (Option (TcpSeg × Pbuf)) := do
  let optlen := tcpOptLength opts
  lwipAssert "p->tot_len >= optlen" (p.totLen ≥ optlen)
  match pbufAddHeader p TCP_HLEN with
  | none => return none
  | some q =>
      let hdr := q.first.headroom.length
      let ports := htonsBytes pcb.ends.localPort.toNat ++ htonsBytes pcb.ends.remotePort.toNat
      let filled := ((q.poke hdr (ports ++ htonlBytes seqno)).poke (hdr + 12)
        [UInt8.ofNat ((5 + optlen / 4) * 16), hdrflags]).poke (hdr + 18) (htonsBytes 0)
      return some (⟨addr, p.totLen - optlen, opts, hdr⟩, filled)

/-- The block may be longer than the data when more data is likely to follow. -/
def tcpPbufPrealloc (layer : PbufLayer) (length maxLength : Nat) (pcb : SendPcb) (more firstSeg : Bool) :
    Option (Pbuf × Nat) :=
  let alloc :=
    if length < maxLength ∧ (more ∨ ¬pcb.noDelay ∧ (¬firstSeg ∨ pcb.unsent ≠ [] ∨ pcb.unacked ≠ [])) then
      min maxLength (LWIP_MEM_ALIGN_SIZE .bits64 (length + TCP_OVERSIZE))
    else length
  (pbufAlloc .bits64 layer alloc .PBUF_RAM).map fun p =>
    ({ p with first := { p.first with payload := p.first.payload.take length } }, alloc - length)

def tcpWriteChecks (pcb : SendPcb) (len : Nat) : Checked Err := do
  if pcb.state ≠ .ESTABLISHED ∧ pcb.state ≠ .CLOSE_WAIT ∧ pcb.state ≠ .SYN_SENT ∧ pcb.state ≠ .SYN_RCVD then
    return .ERR_CONN
  else if len = 0 then return .ERR_OK
  else if len > pcb.sndBuf then return .ERR_MEM
  else if pcb.sndQueuelen ≥ TCP_SND_QUEUELEN then return .ERR_MEM
  else if pcb.sndQueuelen ≠ 0 then
    lwipAssert "tcp_write: pbufs on queue => at least one queue non-empty" (pcb.unacked ≠ [] || pcb.unsent ≠ [])
    return .ERR_OK
  else
    lwipAssert "tcp_write: no pbufs on queue => both queues empty" (pcb.unacked = [] && pcb.unsent = [])
    return .ERR_OK

/-- A new segment is not larger than half the maximum window. -/
def mssLocal (pcb : SendPcb) : Nat :=
  let mss := min pcb.mss (min (pcb.sndWndMax / 2) 0xFFFF)
  if mss = 0 then pcb.mss else mss

/-- What the first two phases of tcp_write add to the last unsent segment. -/
structure WriteTail where
  oversizeUsed : Nat
  concat : Option Pbuf
  oversize : Nat

def WriteTail.concatLen (tail : WriteTail) : Nat := (tail.concat.map Pbuf.totLen).getD 0

/-- The second phase chains a new pbuf to a segment with data. -/
def tcpWriteConcat (pcb : SendPcb) (data : Bytes) (more : Bool) (last : TcpSeg) (space used oversize : Nat)
    (memory : Bool) : Option WriteTail :=
  if used < data.length ∧ space > 0 ∧ last.len > 0 then
    let seglen := min space (data.length - used)
    if memory then
      (tcpPbufPrealloc .PBUF_RAW seglen space pcb more true).map fun (p, oversize) =>
        ⟨used, some (p.write ((data.drop used).take seglen)), oversize⟩
    else none
  else some ⟨used, none, oversize⟩

/-- The first phase fills the room that is left in the last unsent segment. -/
def tcpWriteTail (pcb : SendPcb) (data : Bytes) (more memory : Bool) : Checked (Option WriteTail) := do
  match pcb.unsent.getLast? with
  | none =>
      lwipAssert "unsent_oversize mismatch (pcb->unsent is NULL)" (pcb.unsentOversize = 0)
      return some ⟨0, none, 0⟩
  | some last =>
      let unsentLen := last.len + tcpOptLength last.opts
      lwipAssert "mss_local is too small" (mssLocal pcb ≥ unsentLen)
      let space := mssLocal pcb - unsentLen
      lwipAssert "inconsistent oversize vs. space" (pcb.unsentOversize ≤ space)
      let used := min space (min pcb.unsentOversize data.length)
      let oversize := pcb.unsentOversize - used
      lwipAssert "inconsistent oversize vs. len" (oversize = 0 || used = data.length)
      return tcpWriteConcat pcb data more last (space - used) used oversize memory

/-- The new segments of the third phase, with the length of the queue and the room in the last one. -/
structure WriteQueue where
  segs : List (TcpSeg × Pbuf)
  queuelen : Nat
  oversize : Nat

/-- The loop of the third phase takes an address for each new segment. -/
def tcpWriteSegs (pcb : SendPcb) (more firstSeg : Bool) (queuelen oversize : Nat) (seqno : UInt32) :
    Bytes → List Nat → Checked (Option WriteQueue)
  | [], _ => return some ⟨[], queuelen, oversize⟩
  | _ :: _, [] => return none
  | byte :: data, addr :: memory => do
      let left := byte :: data
      let seglen := min left.length (mssLocal pcb)
      match tcpPbufPrealloc .PBUF_TRANSPORT seglen (mssLocal pcb) pcb more firstSeg with
      | none => return none
      | some (p, oversize) =>
          if queuelen + 1 > TCP_SND_QUEUELEN then return none
          match ← tcpCreateSegment pcb addr (p.write (left.take seglen)) 0 seqno .none with
          | none => return none
          | some (seg, filled) =>
              let rest ← tcpWriteSegs pcb more false (queuelen + 1) oversize (seqno + UInt32.ofNat seglen)
                (left.drop seglen) memory
              return rest.map fun queue => { queue with segs := (seg, filled) :: queue.segs }

/-- The memory that tcp_write gets: for a pbuf of the second phase, and for the new segments. -/
structure WriteMemory where
  concat : Bool
  segs : List Nat

/-- The last segment of a list is changed. -/
def updateLast (segs : List TcpSeg) (change : TcpSeg → TcpSeg) : List TcpSeg :=
  match segs.getLast? with
  | none => []
  | some last => segs.dropLast ++ [change last]

/-- The bytes of the first two phases go to the last unsent segment. -/
def tcpWriteExtend (heap : Memory Pbuf) (pcb : SendPcb) (data : Bytes) (tail : WriteTail) : Memory Pbuf :=
  match pcb.unsent.getLast? with
  | none => heap
  | some last => heap.modify last.p fun p =>
      let p := if tail.oversizeUsed > 0 then p.extendLast (data.take tail.oversizeUsed) else p
      tail.concat.elim p (pbufCat p)

/-- The segment that the call worked on last. -/
def tcpWriteSeg (pcb : SendPcb) (tail : WriteTail) (queue : WriteQueue) : Option TcpSeg :=
  match queue.segs.getLast? with
  | some (seg, _) => some seg
  | none => if pcb.unsentOversize > 0 ∨ tail.concat.isSome then pcb.unsent.getLast? else none

/-- All phases were successful, and their results are committed. -/
def tcpWriteCommit (heap : Memory Pbuf) (pcb : SendPcb) (data : Bytes) (more : Bool) (tail : WriteTail)
    (queue : WriteQueue) : SendPcb × Memory Pbuf :=
  let heap := Memory.allocs (tcpWriteExtend heap pcb data tail) (queue.segs.map fun block => (block.1.p, block.2))
  let grown := updateLast pcb.unsent fun last => { last with len := last.len + tail.oversizeUsed + tail.concatLen }
  let next := { pcb with
    unsent := grown ++ queue.segs.map Prod.fst
    unsentOversize := queue.oversize
    sndLbb := pcb.sndLbb + UInt32.ofNat data.length
    sndBuf := pcb.sndBuf - data.length
    sndQueuelen := queue.queuelen }
  match tcpWriteSeg pcb tail queue with
  | some seg => (next, if more then heap else tcphSetFlag heap seg TCP_PSH)
  | none => (next, heap)

/-- The copying tcp_write. Without memory nothing changes but a flag. -/
def tcpWrite (heap : Memory Pbuf) (pcb : SendPcb) (data : Bytes) (more : Bool) (memory : WriteMemory) :
    Checked (Err × SendPcb × Memory Pbuf) := do
  let memerr : Err × SendPcb × Memory Pbuf := (.ERR_MEM, { pcb with nagleMemErr := true }, heap)
  match ← tcpWriteChecks pcb data.length with
  | .ERR_OK =>
      match ← tcpWriteTail pcb data more memory.concat with
      | none => return memerr
      | some tail =>
          let pos := tail.oversizeUsed + tail.concatLen
          match ← tcpWriteSegs pcb more true (pcb.sndQueuelen + tail.concat.isSome.toNat) tail.oversize
              (pcb.sndLbb + UInt32.ofNat pos) (data.drop pos) memory.segs with
          | none => return memerr
          | some queue => return (.ERR_OK, tcpWriteCommit heap pcb data more tail queue)
  | .ERR_MEM => return memerr
  | err => return (err, pcb, heap)

/-- The head of the unsent list is cut, and a new segment takes over the rest of its data. -/
def tcpSplitUnsentSeg (heap : Memory Pbuf) (pcb : SendPcb) (split : Nat) (memory : Option Nat) (segMemory : Bool) :
    Checked (Err × SendPcb × Memory Pbuf) := do
  match pcb.unsent with
  | [] => return (.ERR_MEM, pcb, heap)
  | useg :: rest =>
      lwipAssert "Can't split segment into length 0" (split ≠ 0)
      if useg.len ≤ split then return (.ERR_OK, pcb, heap)
      lwipAssert "split <= mss" (split ≤ pcb.mss)
      let optlen := tcpOptLength useg.opts
      let remainder := useg.len - split
      match memory, heap.value useg.p with
      | some addr, some u =>
          match pbufAlloc .bits64 .PBUF_TRANSPORT (remainder + optlen) .PBUF_RAM with
          | none => return (.ERR_MEM, pcb, heap)
          | some p =>
              let copied := pbufCopyPartial u remainder (u.totLen - useg.len + split)
              if copied.length ≠ remainder then return (.ERR_MEM, pcb, heap)
              -- a failed segment allocation frees the pbuf, and then it is freed again
              lwipAssert "pbuf_free: p->ref > 0" segMemory
              let flags := tcphFlags heap useg
              match ← tcpCreateSegment pcb addr (p.poke (p.first.headroom.length + optlen) copied)
                  (flags &&& (TCP_PSH ||| TCP_FIN)) (tcphSeqno heap useg + UInt32.ofNat split) useg.opts with
              | none => .error "pbuf_free: p->ref > 0"
              | some (seg, filled) =>
                  let trimmed := pbufRealloc u (u.totLen - remainder)
                  let cut := tcphSetFlag (heap.modify useg.p fun _ => trimmed) useg (flags &&& ~~~(TCP_PSH ||| TCP_FIN))
                  let next := { pcb with
                    unsent := { useg with len := useg.len - remainder } :: seg :: rest
                    unsentOversize := if rest = [] then 0 else pcb.unsentOversize
                    sndQueuelen := pcb.sndQueuelen - u.clen + trimmed.clen + filled.clen }
                  return (.ERR_OK, next, cut.alloc addr filled)
      | _, _ => return (.ERR_MEM, pcb, heap)

def tcpEnqueueOpts (pcb : SendPcb) (flags : UInt8) : SegOpts :=
  if flags &&& TCP_SYN ≠ 0 then
    ⟨true, pcb.state ≠ .SYN_RCVD || pcb.wndScale, pcb.state ≠ .SYN_RCVD || pcb.sack⟩
  else .none

/-- A segment without data carries a SYN or a FIN. -/
def tcpEnqueueFlags (heap : Memory Pbuf) (pcb : SendPcb) (flags : UInt8) (memory : Option Nat) :
    Checked (Err × SendPcb × Memory Pbuf) := do
  lwipAssert "tcp_enqueue_flags: need either TCP_SYN or TCP_FIN in flags (programmer violates API)"
    (flags &&& (TCP_SYN ||| TCP_FIN) ≠ 0)
  let opts := tcpEnqueueOpts pcb flags
  let memerr : Err × SendPcb × Memory Pbuf := (.ERR_MEM, { pcb with nagleMemErr := true }, heap)
  match memory, pbufAlloc .bits64 .PBUF_TRANSPORT (tcpOptLength opts) .PBUF_RAM with
  | some addr, some p =>
      match ← tcpCreateSegment pcb addr p flags pcb.sndLbb opts with
      | none => return memerr
      | some (seg, filled) =>
          lwipAssert "tcp_enqueue_flags: invalid segment length" (seg.len = 0)
          let next := { pcb with
            unsent := pcb.unsent ++ [seg]
            unsentOversize := 0
            sndLbb := pcb.sndLbb + 1
            fin := pcb.fin || flags &&& TCP_FIN ≠ 0
            sndQueuelen := pcb.sndQueuelen + filled.clen }
          return (.ERR_OK, next, heap.alloc addr filled)
  | _, _ => return memerr

/-- The FIN goes to the last unsent segment, or into one of its own. -/
def tcpSendFin (heap : Memory Pbuf) (pcb : SendPcb) (memory : Option Nat) : Checked (Err × SendPcb × Memory Pbuf) :=
  match pcb.unsent.getLast? with
  | some last =>
      if tcphFlags heap last &&& (TCP_SYN ||| TCP_FIN ||| TCP_RST) = 0 then
        return (.ERR_OK, { pcb with fin := true }, tcphSetFlag heap last TCP_FIN)
      else tcpEnqueueFlags heap pcb TCP_FIN memory
  | none => tcpEnqueueFlags heap pcb TCP_FIN memory

/-- All unacked segments go back in front of the unsent ones, unless a driver still holds one of them. -/
def tcpRexmitRtoPrepare (heap : Memory Pbuf) (pcb : SendPcb) : Err × SendPcb :=
  if pcb.unacked = [] then (.ERR_VAL, pcb)
  else if pcb.unacked.any (tcpOutputSegmentBusy heap) then (.ERR_VAL, pcb)
  else (.ERR_OK, { pcb with unsent := pcb.unacked ++ pcb.unsent, unacked := [] })

def seqBefore (heap : Memory Pbuf) (seg cur : TcpSeg) : Bool := seqLt (tcphSeqno heap cur) (tcphSeqno heap seg)

/-- A list that is sorted by sequence numbers stays sorted. -/
def insertSorted (heap : Memory Pbuf) (seg : TcpSeg) (segs : List TcpSeg) : List TcpSeg :=
  segs.takeWhile (seqBefore heap seg) ++ seg :: segs.dropWhile (seqBefore heap seg)

/-- The first unacked segment goes back to the unsent ones, unless a driver still holds it. -/
def tcpRexmit (heap : Memory Pbuf) (pcb : SendPcb) : Err × SendPcb :=
  match pcb.unacked with
  | [] => (.ERR_VAL, pcb)
  | seg :: rest =>
      if tcpOutputSegmentBusy heap seg then (.ERR_VAL, pcb)
      else
        (.ERR_OK, { pcb with
          unacked := rest
          unsent := insertSorted heap seg pcb.unsent
          unsentOversize := if pcb.unsent.dropWhile (seqBefore heap seg) = [] then 0 else pcb.unsentOversize })

/-- What the removal of acknowledged segments changes. -/
structure AckProgress where
  queuelen : Nat
  recvAcked : Nat
  heap : Memory Pbuf

/-- The acknowledged segments at the front of a list are freed. -/
def tcpFreeAckedSegments (ackno : UInt32) (other : List TcpSeg) :
    List TcpSeg → AckProgress → Checked (List TcpSeg × AckProgress)
  | [], ack => return ([], ack)
  | seg :: rest, ack => do
      if seqLeq (tcphSeqno ack.heap seg + UInt32.ofNat (tcpTcplen ack.heap seg)) ackno then
        let clen := (ack.heap.value seg.p).elim 0 Pbuf.clen
        lwipAssert "pcb->snd_queuelen >= pbuf_clen(next->p)" (ack.queuelen ≥ clen)
        let queuelen := ack.queuelen - clen
        lwipAssert "tcp_receive: valid queue length" (queuelen = 0 || rest ≠ [] || other ≠ [])
        tcpFreeAckedSegments ackno other rest ⟨queuelen, ack.recvAcked + seg.len, ack.heap.release seg.p⟩
      else return (seg :: rest, ack)

/-- An acknowledgement of new data looks at both lists. -/
def tcpReceiveAck (heap : Memory Pbuf) (pcb : SendPcb) (ackno : UInt32) : Checked (SendPcb × Memory Pbuf) := do
  let (unacked, ack) ← tcpFreeAckedSegments ackno pcb.unsent pcb.unacked ⟨pcb.sndQueuelen, 0, heap⟩
  let (unsent, ack) ← tcpFreeAckedSegments ackno unacked pcb.unsent ack
  let next := { pcb with
    unacked
    unsent
    unsentOversize := if unsent = [] then 0 else pcb.unsentOversize
    sndQueuelen := ack.queuelen
    sndBuf := pcb.sndBuf + ack.recvAcked }
  return (next, ack.heap)

/-- All segments of a pcb are freed. -/
def tcpPcbPurge (heap : Memory Pbuf) (pcb : SendPcb) : SendPcb × Memory Pbuf :=
  if pcb.state ≠ .CLOSED ∧ pcb.state ≠ .TIME_WAIT ∧ pcb.state ≠ .LISTEN then
    ({ pcb with unsent := [], unacked := [], unsentOversize := 0 },
      heap.releases ((pcb.unsent ++ pcb.unacked).map TcpSeg.p))
  else (pcb, heap)

end Tun2Socket.Lwip
