import Mathlib.Data.List.Basic
import Mathlib.Tactic.Common

namespace Tun2Socket.Lwip

abbrev Bytes := List UInt8

/-- The conversion of a C int to an unsigned 16-bit value. -/
def toU16 (value : Int) : Nat := (value % 65536).toNat

theorem toU16_lt (value : Int) : toU16 value < 65536 := by
  unfold toU16
  omega

theorem toU16_of_fits {value : Int} (positive : 0 ≤ value) (fits : value ≤ 65535) :
    toU16 value = value.toNat := by
  unfold toU16
  omega

/-- The libraries are built for pointers of 32 and of 64 bits. -/
inductive Platform where
  | bits32
  | bits64
  deriving DecidableEq

/-- The pointers of a platform set the alignment of its heap blocks. -/
def MEM_ALIGNMENT : Platform → Nat
  | .bits32 => 4
  | .bits64 => 8

def PBUF_POOL_BUFSIZE : Nat := 1024

def PBUF_LINK_HLEN : Nat := 14

def PBUF_IP_HLEN : Nat := 20

def PBUF_TRANSPORT_HLEN : Nat := 20

/-- A layer leaves room for the headers of the layers below it. -/
inductive PbufLayer where
  | PBUF_TRANSPORT
  | PBUF_IP
  | PBUF_LINK
  | PBUF_RAW

def PbufLayer.offset : PbufLayer → Nat
  | .PBUF_TRANSPORT => PBUF_LINK_HLEN + PBUF_IP_HLEN + PBUF_TRANSPORT_HLEN
  | .PBUF_IP => PBUF_LINK_HLEN + PBUF_IP_HLEN
  | .PBUF_LINK => PBUF_LINK_HLEN
  | .PBUF_RAW => 0

inductive PbufType where
  | PBUF_RAM
  | PBUF_POOL

/-- One pbuf of a chain owns the bytes before its payload pointer and its payload. -/
structure Segment where
  headroom : Bytes
  payload : Bytes
  deriving DecidableEq

/-- The len field of one pbuf. -/
def Segment.len (segment : Segment) : Nat := segment.payload.length

/-- A pbuf pointer names the first pbuf of a chain. -/
structure Pbuf where
  first : Segment
  next : List Segment
  deriving DecidableEq

namespace Pbuf

def segments (p : Pbuf) : List Segment := p.first :: p.next

/-- The payload bytes of the whole chain. -/
def bytes (p : Pbuf) : Bytes := p.segments.flatMap Segment.payload

/-- The tot_len field counts the bytes of the chain in 16 bits. -/
def totLen (p : Pbuf) : Nat := p.bytes.length % 65536

theorem bytes_eq (p : Pbuf) : p.bytes = p.first.payload ++ p.next.flatMap Segment.payload := rfl

theorem totLen_of_fits {p : Pbuf} (fits : p.bytes.length ≤ 65535) : p.totLen = p.bytes.length :=
  Nat.mod_eq_of_lt (by omega)

end Pbuf

def LWIP_MEM_ALIGN_SIZE (platform : Platform) (size : Nat) : Nat :=
  (size + MEM_ALIGNMENT platform - 1) / MEM_ALIGNMENT platform * MEM_ALIGNMENT platform

/-- Fresh memory has arbitrary contents, shown here as zero bytes. -/
def freshSegment (platform : Platform) (offset length : Nat) : Segment :=
  ⟨List.replicate (LWIP_MEM_ALIGN_SIZE platform offset) 0, List.replicate length 0⟩

/-- The pool loop takes pbufs until the remaining length is used up. -/
def pbufAllocPool (platform : Platform) (offset : Nat) : Nat → Nat → List Segment
  | 0, _ => []
  | turns + 1, remLen =>
      let qlen := min remLen (PBUF_POOL_BUFSIZE - LWIP_MEM_ALIGN_SIZE platform offset)
      freshSegment platform offset qlen ::
        (if remLen - qlen > 0 then pbufAllocPool platform 0 turns (remLen - qlen) else [])

/-- The allocation gives a chain for a pool pbuf and one block for a RAM pbuf, or nothing on an overflow. -/
def pbufAlloc (platform : Platform) (layer : PbufLayer) (length : Nat) : PbufType → Option Pbuf
  | .PBUF_POOL =>
      match pbufAllocPool platform layer.offset (length + 1) length with
      | [] => none
      | first :: next => some ⟨first, next⟩
  | .PBUF_RAM =>
      let payloadLen := (LWIP_MEM_ALIGN_SIZE platform layer.offset + LWIP_MEM_ALIGN_SIZE platform length) % 65536
      if payloadLen < LWIP_MEM_ALIGN_SIZE platform length then none
      else some ⟨freshSegment platform layer.offset length, []⟩

/-- The copy loop fills each pbuf with the next part of the data. -/
def pbufTakeSegments : List Segment → Bytes → List Segment
  | [], _ => []
  | segment :: rest, data =>
      let bufCopyLen := min data.length segment.len
      { segment with payload := data.take bufCopyLen ++ segment.payload.drop bufCopyLen } ::
        pbufTakeSegments rest (data.drop bufCopyLen)

/-- The take copies the first bytes of the data into the chain, and changes nothing when the chain is too short. -/
def pbufTake (buf : Pbuf) (dataptr : Bytes) (len : Nat) : Pbuf :=
  if buf.totLen < len then buf
  else
    match pbufTakeSegments buf.segments (dataptr.take len) with
    | [] => buf
    | first :: next => ⟨first, next⟩

/-- The payload pointer moves back over headroom when the new length and the block allow it. -/
def pbufAddHeader (p : Pbuf) (increment : Nat) : Option Pbuf :=
  if increment > 0xFFFF then none
  else if increment = 0 then some p
  else if (increment + p.totLen) % 65536 < increment then none
  else if p.first.headroom.length < increment then none
  else
    let room := p.first.headroom.length - increment
    some { p with
      first := ⟨p.first.headroom.take room, p.first.headroom.drop room ++ p.first.payload⟩ }

/-- The payload pointer moves forward inside the first pbuf. -/
def pbufRemoveHeader (p : Pbuf) (decrement : Nat) : Option Pbuf :=
  if decrement > 0xFFFF then none
  else if decrement = 0 then some p
  else if p.first.len < decrement then none
  else
    some { p with
      first := ⟨p.first.headroom ++ p.first.payload.take decrement, p.first.payload.drop decrement⟩ }

/-- The tail chain follows the head chain. -/
def pbufCat (h t : Pbuf) : Pbuf := ⟨h.first, h.next ++ t.segments⟩

/-- The copy loop skips whole pbufs by offset and then copies at most the given length. -/
def pbufCopyPartialSegments : List Segment → Nat → Nat → Bytes
  | [], _, _ => []
  | segment :: rest, len, offset =>
      if len = 0 then []
      else if offset ≠ 0 ∧ offset ≥ segment.len then pbufCopyPartialSegments rest len (offset - segment.len)
      else
        let bufCopyLen := min (segment.len - offset) len
        (segment.payload.drop offset).take bufCopyLen ++ pbufCopyPartialSegments rest (len - bufCopyLen) 0

def pbufCopyPartial (buf : Pbuf) (len offset : Nat) : Bytes :=
  pbufCopyPartialSegments buf.segments len offset

/-- The shrink loop keeps whole pbufs while more is left and cuts the last one. -/
def pbufReallocSegments : List Segment → Nat → List Segment
  | [], _ => []
  | segment :: rest, remLen =>
      if remLen > segment.len then segment :: pbufReallocSegments rest (remLen - segment.len)
      else [{ segment with payload := segment.payload.take remLen }]

/-- The chain shrinks to the new length and never grows. -/
def pbufRealloc (p : Pbuf) (newLen : Nat) : Pbuf :=
  if newLen ≥ p.totLen then p
  else
    match pbufReallocSegments p.segments newLen with
    | [] => p
    | first :: next => ⟨first, next⟩

section Specifications

variable {platform : Platform}

theorem pbufAllocPool_length (offset turns remLen : Nat) (enough : remLen < turns)
    (room : LWIP_MEM_ALIGN_SIZE platform offset < PBUF_POOL_BUFSIZE) :
    ((pbufAllocPool platform offset turns remLen).flatMap Segment.payload).length = remLen := by
  induction turns generalizing offset remLen with
  | zero => omega
  | succ turns ih =>
      rw [pbufAllocPool]
      split_ifs with more
      · have rest := ih 0 (remLen - min remLen (PBUF_POOL_BUFSIZE - LWIP_MEM_ALIGN_SIZE platform offset))
          (by omega) (by cases platform <;> decide)
        simp only [List.flatMap_cons, List.length_append, rest, freshSegment, List.length_replicate]
        omega
      · simp only [List.flatMap_cons, List.flatMap_nil, List.append_nil, freshSegment, List.length_replicate]
        omega

/-- Each layer leaves room in a pool pbuf. -/
theorem PbufLayer.offset_room (layer : PbufLayer) : LWIP_MEM_ALIGN_SIZE platform layer.offset < PBUF_POOL_BUFSIZE := by
  cases platform <;> cases layer <;> decide

/-- A pool allocation never fails on its arithmetic and has the requested length. -/
theorem pbufAlloc_pool (layer : PbufLayer) (length : Nat) :
    ∃ p, pbufAlloc platform layer length .PBUF_POOL = some p ∧ p.bytes.length = length := by
  have size := @pbufAllocPool_length platform layer.offset (length + 1) length (by omega) layer.offset_room
  have shape : ∃ first next, pbufAllocPool platform layer.offset (length + 1) length = first :: next := ⟨_, _, rfl⟩
  obtain ⟨first, next, chain⟩ := shape
  refine ⟨⟨first, next⟩, by simp only [pbufAlloc, chain], ?_⟩
  rwa [chain] at size

/-- A RAM allocation is one block with the requested length and the headroom of its layer. -/
theorem pbufAlloc_ram {layer : PbufLayer} {length : Nat} {p : Pbuf}
    (allocated : pbufAlloc platform layer length .PBUF_RAM = some p) :
    p = ⟨freshSegment platform layer.offset length, []⟩ := by
  simp only [pbufAlloc, Option.ite_none_left_eq_some, Option.some.injEq] at allocated
  exact allocated.2.symm

/-- The largest length of a RAM block whose size, with the headroom of its layer, fits 16 bits. -/
def ramMax (platform : Platform) (layer : PbufLayer) : Nat :=
  65536 - LWIP_MEM_ALIGN_SIZE platform layer.offset - MEM_ALIGNMENT platform

example : ramMax .bits32 .PBUF_TRANSPORT = 65476 ∧ ramMax .bits64 .PBUF_TRANSPORT = 65472 := by decide

/-- A RAM allocation fails on its arithmetic for larger lengths only. -/
theorem pbufAlloc_ram_isSome {layer : PbufLayer} {length : Nat} (fits : length ≤ 65535) :
    (pbufAlloc platform layer length .PBUF_RAM).isSome = true ↔ length ≤ ramMax platform layer := by
  have wraps : (LWIP_MEM_ALIGN_SIZE platform layer.offset + LWIP_MEM_ALIGN_SIZE platform length) % 65536 <
      LWIP_MEM_ALIGN_SIZE platform length ↔ ¬length ≤ ramMax platform layer := by
    unfold ramMax LWIP_MEM_ALIGN_SIZE
    cases platform <;> cases layer <;>
      simp only [MEM_ALIGNMENT, PbufLayer.offset, PBUF_LINK_HLEN, PBUF_IP_HLEN, PBUF_TRANSPORT_HLEN] <;> omega
  simp only [pbufAlloc]
  split_ifs with large
  · exact iff_of_false Bool.false_ne_true (wraps.mp large)
  · exact iff_of_true rfl (not_not.mp (mt wraps.mpr large))

/-- The copied chain holds the data and then its old bytes. -/
theorem pbufTakeSegments_bytes (chain : List Segment) (data : Bytes)
    (fits : data.length ≤ (chain.flatMap Segment.payload).length) :
    (pbufTakeSegments chain data).flatMap Segment.payload =
      data ++ (chain.flatMap Segment.payload).drop data.length := by
  induction chain generalizing data with
  | nil =>
      have none : data = [] := by simpa using fits
      simp [pbufTakeSegments, none]
  | cons segment rest ih =>
      simp only [List.flatMap_cons, List.length_append] at fits
      have size : segment.len = segment.payload.length := rfl
      have later := ih (data.drop (min data.length segment.len)) (by simp only [List.length_drop]; omega)
      simp only [pbufTakeSegments, List.flatMap_cons, later, List.length_drop]
      by_cases whole : data.length ≤ segment.len
      · simp [Nat.min_eq_left whole, List.drop_append_of_le_length (size ▸ whole)]
      · have beyond : segment.len ≤ data.length := by omega
        have past : segment.payload.drop data.length = [] := List.drop_eq_nil_of_le (size ▸ beyond)
        rw [Nat.min_eq_right beyond, size, List.drop_length, List.append_nil, List.drop_append, past,
          List.nil_append, ← List.append_assoc, List.take_append_drop]

theorem pbufTakeSegments_cons {chain : List Segment} (data : Bytes) (filled : chain ≠ []) :
    pbufTakeSegments chain data ≠ [] := by
  cases chain with
  | nil => exact absurd rfl filled
  | cons segment rest => simp [pbufTakeSegments]

/-- The take replaces the first bytes of a chain that is long enough. -/
theorem pbufTake_bytes {buf : Pbuf} {dataptr : Bytes} {len : Nat} (fits : len ≤ buf.totLen)
    (available : len ≤ dataptr.length) :
    (pbufTake buf dataptr len).bytes = dataptr.take len ++ buf.bytes.drop len := by
  have inside : (dataptr.take len).length ≤ (buf.segments.flatMap Segment.payload).length := by
    have bound : buf.totLen ≤ buf.bytes.length := Nat.mod_le _ _
    rw [List.length_take]
    change min len dataptr.length ≤ buf.bytes.length
    omega
  have copied := pbufTakeSegments_bytes buf.segments (dataptr.take len) inside
  rw [List.length_take, Nat.min_eq_left available] at copied
  unfold pbufTake
  rw [if_neg (by omega)]
  have filled := @pbufTakeSegments_cons buf.segments (dataptr.take len) (by simp [Pbuf.segments])
  obtain ⟨first, next, chain⟩ := List.exists_cons_of_ne_nil filled
  rw [chain] at copied ⊢
  exact copied

/-- A header that fits the headroom and the length field shows old headroom bytes in front. -/
theorem pbufAddHeader_bytes {p : Pbuf} {increment : Nat} (room : increment ≤ p.first.headroom.length)
    (fits : increment + p.bytes.length ≤ 65535) :
    ∃ shown q, pbufAddHeader p increment = some q ∧ shown.length = increment ∧ q.bytes = shown ++ p.bytes ∧
      q.first.headroom.length = p.first.headroom.length - increment ∧ q.first.payload = shown ++ p.first.payload ∧
      q.next = p.next := by
  by_cases zero : increment = 0
  · exact ⟨[], p, by simp [pbufAddHeader, zero], zero.symm, rfl, by simp [zero], rfl, rfl⟩
  · have total := Pbuf.totLen_of_fits (p := p) (by omega)
    let shown := p.first.headroom.drop (p.first.headroom.length - increment)
    refine ⟨shown, ⟨⟨p.first.headroom.take (p.first.headroom.length - increment), shown ++ p.first.payload⟩,
      p.next⟩, ?_, ?_, ?_, ?_, rfl, rfl⟩
    · have noWrap : ¬(increment + p.totLen) % 65536 < increment := by
        rw [total, Nat.mod_eq_of_lt (by omega)]
        omega
      rw [pbufAddHeader, if_neg (by omega), if_neg zero, if_neg noWrap, if_neg (by omega)]
    · simp only [shown, List.length_drop]
      omega
    · simp [Pbuf.bytes_eq, List.append_assoc]
    · simp only [List.length_take]
      omega

/-- Removing a header that lies in the first pbuf hides exactly that many bytes. -/
theorem pbufRemoveHeader_bytes {p : Pbuf} {decrement : Nat} (inside : decrement ≤ p.first.len)
    (fits : decrement ≤ 0xFFFF) :
    ∃ q, pbufRemoveHeader p decrement = some q ∧ q.bytes = p.bytes.drop decrement ∧
      q.first.headroom.length = p.first.headroom.length + decrement ∧
      q.first.payload = p.first.payload.drop decrement ∧ q.next = p.next := by
  change decrement ≤ p.first.payload.length at inside
  by_cases zero : decrement = 0
  · exact ⟨p, by simp [pbufRemoveHeader, zero], by simp [zero], by simp [zero], by simp [zero], rfl⟩
  · refine ⟨⟨⟨p.first.headroom ++ p.first.payload.take decrement, p.first.payload.drop decrement⟩, p.next⟩,
      ?_, ?_, ?_, rfl, rfl⟩
    · rw [pbufRemoveHeader, if_neg (by omega), if_neg zero,
        if_neg (show ¬p.first.len < decrement from Nat.not_lt.mpr inside)]
    · simp [Pbuf.bytes_eq, List.drop_append_of_le_length inside]
    · simp [Nat.min_eq_left inside]

theorem pbufCat_bytes (h t : Pbuf) : (pbufCat h t).bytes = h.bytes ++ t.bytes := by
  simp [pbufCat, Pbuf.bytes, Pbuf.segments, List.flatMap_append]

theorem pbufCopyPartialSegments_bytes (chain : List Segment) (len offset : Nat) :
    pbufCopyPartialSegments chain len offset = ((chain.flatMap Segment.payload).drop offset).take len := by
  induction chain generalizing len offset with
  | nil => simp [pbufCopyPartialSegments]
  | cons segment rest ih =>
      have size : segment.len = segment.payload.length := rfl
      rw [pbufCopyPartialSegments, List.flatMap_cons]
      split_ifs with done skip
      · simp [done]
      · have past : segment.payload.drop offset = [] := List.drop_eq_nil_of_le (size ▸ skip.2)
        rw [ih, List.drop_append, past, List.nil_append, size]
      · have inside : offset ≤ segment.payload.length := by omega
        simp only [ih]
        rw [List.drop_append_of_le_length inside, List.take_append, List.length_drop, List.drop_zero, size]
        congr 1
        · by_cases short : segment.payload.length - offset ≤ len
          · rw [Nat.min_eq_left short, List.take_of_length_le (by simp), List.take_of_length_le (by simpa using short)]
          · rw [Nat.min_eq_right (by omega)]
        · congr 1
          omega

/-- The partial copy reads the requested window of the chain. -/
theorem pbufCopyPartial_bytes (buf : Pbuf) (len offset : Nat) :
    pbufCopyPartial buf len offset = (buf.bytes.drop offset).take len :=
  pbufCopyPartialSegments_bytes _ _ _

theorem pbufReallocSegments_bytes (chain : List Segment) (newLen : Nat) :
    (pbufReallocSegments chain newLen).flatMap Segment.payload = (chain.flatMap Segment.payload).take newLen := by
  induction chain generalizing newLen with
  | nil => simp [pbufReallocSegments]
  | cons segment rest ih =>
      have size : segment.len = segment.payload.length := rfl
      rw [pbufReallocSegments, List.flatMap_cons, List.take_append]
      split_ifs with more
      · have whole : segment.payload.take newLen = segment.payload := List.take_of_length_le (by omega)
        rw [List.flatMap_cons, ih, whole, size]
      · have cut : newLen - segment.payload.length = 0 := by omega
        simp [cut]

/-- A shorter chain is not cut. -/
theorem ite_pbufRealloc (p : Pbuf) (newLen : Nat) :
    (if newLen < p.totLen then pbufRealloc p newLen else p) = pbufRealloc p newLen := by
  split_ifs with longer
  · rfl
  · rw [pbufRealloc, if_pos (Nat.not_lt.mp longer)]

/-- The shrunk chain holds the first bytes of the old chain. -/
theorem pbufRealloc_bytes {p : Pbuf} {newLen : Nat} (fits : p.bytes.length ≤ 65535) :
    (pbufRealloc p newLen).bytes = p.bytes.take newLen := by
  have total := Pbuf.totLen_of_fits fits
  unfold pbufRealloc
  split_ifs with grow
  · rw [List.take_of_length_le (by omega)]
  · have filled : pbufReallocSegments p.segments newLen ≠ [] := by
      rw [Pbuf.segments, pbufReallocSegments]
      split_ifs <;> simp
    obtain ⟨first, next, chain⟩ := List.exists_cons_of_ne_nil filled
    have shrunk := pbufReallocSegments_bytes p.segments newLen
    rw [chain] at shrunk ⊢
    exact shrunk

end Specifications

end Tun2Socket.Lwip
