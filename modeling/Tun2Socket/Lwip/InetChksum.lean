import Tun2Socket.Library.InetChecksum
import Tun2Socket.Lwip.Ip4Addr
import Tun2Socket.Lwip.Pbuf

namespace Tun2Socket.Lwip
open Library

/-- The default algorithm sums the words in host order. Data at an odd address is summed one byte off. -/
def lwipStandardChksum (odd : Bool) (data : Bytes) : Nat :=
  match odd, data with
  | false, data => foldWord (foldWord (wordSum data))
  | true, [] => swapWord (foldWord (foldWord 0))
  | true, first :: rest => swapWord (foldWord (foldWord (wordSum rest + 256 * first.toNat)))

/-- Memory blocks start at even addresses. -/
def Segment.odd (segment : Segment) : Bool := segment.headroom.length % 2 = 1

def inetChksum (odd : Bool) (data : Bytes) : Nat := 65535 - lwipStandardChksum odd data

/-- A pbuf of odd length changes the byte order of the words after it. -/
def inetCksumPseudoLoop : List Segment → Nat → Bool → Nat
  | [], acc, swapped => if swapped then swapWord acc else acc
  | q :: rest, acc, swapped =>
      let acc := foldWord (acc + lwipStandardChksum q.odd q.payload)
      if q.len % 2 ≠ 0 then inetCksumPseudoLoop rest (swapWord acc) (!swapped)
      else inetCksumPseudoLoop rest acc swapped

/-- A 16-bit value in network order, as the host reads it. -/
def lwipHtons (value : Nat) : Nat := swapWord value

def inetCksumPseudoBase (p : Pbuf) (proto protoLen acc : Nat) : Nat :=
  let acc := inetCksumPseudoLoop p.segments acc false + lwipHtons proto + lwipHtons protoLen
  65535 - foldWord (foldWord acc)

/-- The 32 bits of an address in network order, as the host reads them, in two words. -/
def Ip4Addr.words (addr : Ip4Addr) : Nat × Nat :=
  (addr.byte0.toNat + 256 * addr.byte1.toNat, addr.byte2.toNat + 256 * addr.byte3.toNat)

def inetChksumPseudo (p : Pbuf) (proto protoLen : Nat) (src dest : Ip4Addr) : Nat :=
  let acc := src.words.1 + src.words.2 + dest.words.1 + dest.words.2
  inetCksumPseudoBase p proto protoLen (foldWord (foldWord acc))

/-- A 16-bit value in network order. -/
def htonsBytes (value : Nat) : Bytes := [UInt8.ofNat (value / 256), UInt8.ofNat (value % 256)]

/-- The header in front of the summed data. -/
def pseudoHeader (src dest : Ip4Addr) (proto protoLen : Nat) : Bytes :=
  src.toBytes ++ dest.toBytes ++ htonsBytes proto ++ htonsBytes protoLen

theorem wordSum_htonsBytes (value : Nat) : wordSum (htonsBytes value) = lwipHtons value := by
  simp only [htonsBytes, wordSum, lwipHtons, swapWord, UInt8.toNat_ofNat']
  omega

/-- The words of a pbuf stand for its bytes at an even or odd address. -/
theorem lwipStandardChksum_stands (odd : Bool) {data : Bytes} (fits : data.length ≤ 65535) :
    Stands (lwipStandardChksum odd data) (wordSum data) := by
  have bound := wordSum_le data
  cases odd with
  | false => exact .fold_fold (by omega)
  | true =>
      cases data with
      | nil => exact .zeros
      | cons first rest =>
          have lowBound := first.toNat_lt
          have restBound := wordSum_le rest
          rw [List.length_cons] at fits
          have shifted : Stands (lwipStandardChksum true (first :: rest)) (256 * (wordSum rest + 256 * first.toNat)) :=
            (Stands.fold_fold (by omega)).swap
          have same := wordSum_cons first rest
          have zero := wordSum_zero_cons first rest
          exact shifted.congr (by omega) (by omega)

/-- The loop sums a chain as if it were one block, whatever its split. -/
theorem inetCksumPseudoLoop_stands {chain : List Segment} {acc sum : Nat} {swapped : Bool}
    (stands : Stands acc (256 ^ swapped.toNat * sum)) (fits : (chain.flatMap Segment.payload).length ≤ 65535) :
    Stands (inetCksumPseudoLoop chain acc swapped)
      (sum + 256 ^ swapped.toNat * wordSum (chain.flatMap Segment.payload)) := by
  induction chain generalizing acc sum swapped with
  | nil =>
      cases swapped with
      | false => simpa [inetCksumPseudoLoop, wordSum] using stands
      | true =>
          simp only [Bool.toNat_true, pow_one] at stands
          have once := stands.swap
          simp only [inetCksumPseudoLoop, if_true, List.flatMap_nil, wordSum, Nat.mul_zero, Nat.add_zero]
          exact once.unswap
  | cons q rest ih =>
      rw [List.flatMap_cons, List.length_append] at fits
      have part := @lwipStandardChksum_stands q.odd q.payload (by omega)
      have added := stands.fold_add part
      have same := wordSum_append q.payload (rest.flatMap Segment.payload)
      have zero := wordSum_append_zero q.payload (rest.flatMap Segment.payload)
      have size : q.len = q.payload.length := rfl
      rw [inetCksumPseudoLoop, List.flatMap_cons]
      -- the swapped sum is off by one byte until the next pbuf of odd length
      rcases Nat.mod_two_eq_zero_or_one q.payload.length with even | odd
      · rw [size, even, if_neg (by omega)]
        rw [even, pow_zero, one_mul] at same
        cases swapped with
        | false =>
            simp only [Bool.toNat_false, pow_zero, one_mul] at added ⊢
            have next := @ih _ (sum + wordSum q.payload) false (by simpa using added) (by omega)
            simp only [Bool.toNat_false, pow_zero, one_mul] at next
            exact next.congr (by omega) (by omega)
        | true =>
            simp only [Bool.toNat_true, pow_one] at added ⊢
            have next := @ih _ (sum + 256 * wordSum q.payload) true
              (by simpa using added.congr (by omega) (by omega)) (by omega)
            simp only [Bool.toNat_true, pow_one] at next
            exact next.congr (by omega) (by omega)
      · rw [size, odd, if_pos (by omega)]
        rw [odd, pow_one] at same
        cases swapped with
        | false =>
            simp only [Bool.toNat_false, pow_zero, one_mul] at added ⊢
            have next := @ih _ (sum + wordSum q.payload) true (by simpa using added.swap) (by omega)
            simp only [Bool.toNat_true, pow_one] at next
            exact next.congr (by omega) (by omega)
        | true =>
            simp only [Bool.toNat_true, pow_one] at added ⊢
            have next := @ih _ (sum + 256 * wordSum q.payload) false
              (by simpa using added.swap.congr (by omega) (by omega)) (by omega)
            simp only [Bool.toNat_false, pow_zero, one_mul] at next
            exact next.congr (by omega) (by omega)

theorem swapWord_le (word : Nat) : swapWord word ≤ 65535 := by
  unfold swapWord
  omega

theorem Ip4Addr.words_le (addr : Ip4Addr) : addr.words.1 ≤ 65535 ∧ addr.words.2 ≤ 65535 := by
  have first := addr.byte0.toNat_lt
  have second := addr.byte1.toNat_lt
  have third := addr.byte2.toNat_lt
  have fourth := addr.byte3.toNat_lt
  simp only [words]
  omega

theorem wordSum_toBytes (addr : Ip4Addr) : wordSum addr.toBytes = addr.words.1 + addr.words.2 := by
  simp only [Ip4Addr.toBytes, wordSum, Ip4Addr.words, Nat.add_zero]

theorem wordSum_pseudoHeader (src dest : Ip4Addr) (proto protoLen : Nat) :
    wordSum (pseudoHeader src dest proto protoLen) =
      src.words.1 + src.words.2 + dest.words.1 + dest.words.2 + lwipHtons proto + lwipHtons protoLen := by
  rw [pseudoHeader, wordSum_append_even _ _ (by simp [htonsBytes]), wordSum_append_even _ _ (by simp),
    wordSum_append_even _ _ (by simp), wordSum_toBytes, wordSum_toBytes, wordSum_htonsBytes, wordSum_htonsBytes]
  omega

/-- The checksum is the complement of a word that stands for the data and its pseudo header. -/
theorem inetChksumPseudo_stands {p : Pbuf} (fits : p.bytes.length ≤ 65535) (proto protoLen : Nat) (src dest : Ip4Addr) :
    ∃ word, inetChksumPseudo p proto protoLen src dest = 65535 - word ∧
      Stands word (wordSum (pseudoHeader src dest proto protoLen ++ p.bytes)) := by
  have sources := src.words_le
  have targets := dest.words_le
  have kind := swapWord_le proto
  have length := swapWord_le protoLen
  have even : (pseudoHeader src dest proto protoLen).length % 2 = 0 := by simp [pseudoHeader, htonsBytes]
  let acc := foldWord (foldWord (src.words.1 + src.words.2 + dest.words.1 + dest.words.2))
  let summed := inetCksumPseudoLoop p.segments acc false
  have addresses : Stands acc (256 ^ false.toNat * (src.words.1 + src.words.2 + dest.words.1 + dest.words.2)) := by
    simpa using Stands.fold_fold (show src.words.1 + src.words.2 + dest.words.1 + dest.words.2 < 2 ^ 32 by omega)
  have data : Stands summed (src.words.1 + src.words.2 + dest.words.1 + dest.words.2 + wordSum p.bytes) := by
    have looped := inetCksumPseudoLoop_stands addresses fits
    rw [Bool.toNat_false, pow_zero, one_mul] at looped
    exact looped
  have loopFits := data.fits
  have whole : Stands (foldWord (foldWord (summed + lwipHtons proto + lwipHtons protoLen)))
      (summed + lwipHtons proto + lwipHtons protoLen) := .fold_fold (by unfold lwipHtons; omega)
  refine ⟨_, rfl, whole.congr ?_ ?_⟩
  · rw [wordSum_append_even _ _ even, wordSum_pseudoHeader]
    have same := ((show _ ≡ _ [MOD 65535] from data.same).add_right (lwipHtons proto)).add_right (lwipHtons protoLen)
    refine same.trans (congrArg (· % 65535) ?_)
    ring
  · rw [wordSum_append_even _ _ even, wordSum_pseudoHeader]
    have zero := data.zero
    omega

/-- The data with its pseudo header verifies exactly when the checksum over it is zero. -/
theorem inetChksumPseudo_eq_zero {p : Pbuf} (fits : p.bytes.length ≤ 65535) (proto protoLen : Nat) (src dest : Ip4Addr) :
    inetChksumPseudo p proto protoLen src dest = 0 ↔ Verifies (pseudoHeader src dest proto protoLen ++ p.bytes) := by
  obtain ⟨word, checksum, stands⟩ := inetChksumPseudo_stands fits proto protoLen src dest
  have bound := stands.fits
  rw [checksum, Verifies, ← stands.ones_iff]
  omega

end Tun2Socket.Lwip
