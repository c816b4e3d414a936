import Tun2Socket.Lwip.TcpParse
import Tun2Socket.Lwip.TcpSenderRuns

namespace Tun2Socket.Lwip
open Library

def LWIP_TCP_OPT_EOL : UInt8 := 0

def LWIP_TCP_OPT_NOP : UInt8 := 1

def LWIP_TCP_OPT_MSS : UInt8 := 2

def LWIP_TCP_OPT_WS : UInt8 := 3

def LWIP_TCP_OPT_SACK_PERM : UInt8 := 4

def LWIP_TCP_OPT_LEN_MSS : Nat := 4

def LWIP_TCP_OPT_LEN_WS : Nat := 3

def LWIP_TCP_OPT_LEN_SACK_PERM : Nat := 2

/-- The fields of a pcb that the options of a segment set. -/
structure OptPcb where
  mss : Nat
  sndScale : Nat
  rcvScale : Nat
  wndScale : Bool
  sack : Bool
  rcvWnd : Nat
  rcvAnnWnd : Nat
  deriving DecidableEq

/-- The memory of the options in one or two blocks. A read behind a block finds any byte. -/
structure OptBlocks where
  tcphdrOpts : Bytes
  tcphdrOpt1len : Nat
  tcphdrOpt2 : Option Bytes
  behind : Nat → UInt8

def OptBlocks.tcpGetNextOptbyte (blocks : OptBlocks) (optidx : Nat) : UInt8 :=
  match blocks.tcphdrOpt2 with
  | none => blocks.tcphdrOpts.getD optidx (blocks.behind optidx)
  | some opt2 =>
      if optidx < blocks.tcphdrOpt1len then blocks.tcphdrOpts.getD optidx (blocks.behind optidx)
      else opt2.getD ((optidx - blocks.tcphdrOpt1len) % 256) (blocks.behind optidx)

namespace OptPcb

/-- The mss is limited to the configured one, and is never zero. -/
def takeMss (pcb : OptPcb) (mss : Nat) : OptPcb :=
  { pcb with mss := if mss > TCP_MSS ∨ mss = 0 then TCP_MSS else mss }

/-- The first window scale option of a SYN lets both sides scale. -/
def takeWndScale (pcb : OptPcb) (syn : Bool) (data : UInt8) : Checked OptPcb :=
  if syn && !pcb.wndScale then do
    lwipAssert "window not at default value" (pcb.rcvWnd = min TCP_WND 0xFFFF)
    lwipAssert "window not at default value" (pcb.rcvAnnWnd = min TCP_WND 0xFFFF)
    return { pcb with
      sndScale := if data.toNat > 14 then 14 else data.toNat
      rcvScale := TCP_RCV_SCALE.toNat
      wndScale := true
      rcvWnd := TCP_WND
      rcvAnnWnd := TCP_WND }
  else return pcb

end OptPcb

/-- Each turn reads an option. A bad length and the end of the list end the loop. -/
def tcpParseoptLoop (blocks : OptBlocks) (optlen : Nat) (syn : Bool) : Nat → Nat → OptPcb → Checked OptPcb
  | 0, _, pcb => return pcb
  | turns + 1, optidx, pcb =>
      if optidx ≥ optlen then return pcb
      else
        let opt := blocks.tcpGetNextOptbyte optidx
        let data := (blocks.tcpGetNextOptbyte (optidx + 1)).toNat
        if opt = LWIP_TCP_OPT_EOL then return pcb
        else if opt = LWIP_TCP_OPT_NOP then tcpParseoptLoop blocks optlen syn turns (optidx + 1) pcb
        else if opt = LWIP_TCP_OPT_MSS then
          if data ≠ LWIP_TCP_OPT_LEN_MSS ∨ optidx + LWIP_TCP_OPT_LEN_MSS > optlen then return pcb
          else
            let high := (blocks.tcpGetNextOptbyte (optidx + 2)).toNat
            let mss := 256 * high + (blocks.tcpGetNextOptbyte (optidx + 3)).toNat
            tcpParseoptLoop blocks optlen syn turns (optidx + 4) (pcb.takeMss mss)
        else if opt = LWIP_TCP_OPT_WS then
          if data ≠ LWIP_TCP_OPT_LEN_WS ∨ optidx + LWIP_TCP_OPT_LEN_WS > optlen then return pcb
          else do
            let pcb ← pcb.takeWndScale syn (blocks.tcpGetNextOptbyte (optidx + 2))
            tcpParseoptLoop blocks optlen syn turns (optidx + 3) pcb
        else if opt = LWIP_TCP_OPT_SACK_PERM then
          if data ≠ LWIP_TCP_OPT_LEN_SACK_PERM ∨ optidx + LWIP_TCP_OPT_LEN_SACK_PERM > optlen then return pcb
          else tcpParseoptLoop blocks optlen syn turns (optidx + 2) { pcb with sack := pcb.sack || syn }
        else if data < 2 then return pcb
        else tcpParseoptLoop blocks optlen syn turns (optidx + data) pcb

/-- The index grows in each turn, so that there are at most as many turns as bytes. -/
def tcpParseopt (blocks : OptBlocks) (optlen : Nat) (syn : Bool) (pcb : OptPcb) : Checked OptPcb :=
  tcpParseoptLoop blocks optlen syn optlen 0 pcb

/-- An option that the list may hold. -/
inductive TcpOption where
  | nop
  | mss (value : UInt16)
  | wndScale (shift : UInt8)
  | sackPerm
  | other (kind : UInt8) (data : Bytes) (unknown : LWIP_TCP_OPT_SACK_PERM < kind) (short : data.length ≤ 253)

namespace TcpOption

def bytes : TcpOption → Bytes
  | .nop => [LWIP_TCP_OPT_NOP]
  | .mss value => [LWIP_TCP_OPT_MSS, 4] ++ htonsBytes value.toNat
  | .wndScale shift => [LWIP_TCP_OPT_WS, 3, shift]
  | .sackPerm => [LWIP_TCP_OPT_SACK_PERM, 2]
  | .other kind data _ _ => kind :: UInt8.ofNat (data.length + 2) :: data

/-- What an option says to a connection. -/
def apply (syn : Bool) (pcb : OptPcb) : TcpOption → OptPcb
  | .nop | .other _ _ _ _ => pcb
  | .mss value => pcb.takeMss value.toNat
  | .wndScale shift =>
      if syn && !pcb.wndScale then
        { pcb with
          sndScale := min shift.toNat 14
          rcvScale := TCP_RCV_SCALE.toNat
          wndScale := true
          rcvWnd := TCP_WND
          rcvAnnWnd := TCP_WND }
      else pcb
  | .sackPerm => { pcb with sack := pcb.sack || syn }

end TcpOption

/-- No option starts here: the list ends, or it goes on with a bad length. -/
def Stops (rest : Bytes) : Prop := ∀ (option : TcpOption) (tail : Bytes), rest ≠ option.bytes ++ tail

theorem stops_nil : Stops [] := by
  intro option tail same
  cases option <;> cases same

/-- The window of a pcb that does not scale yet is the default one. -/
def OptPcb.Fresh (pcb : OptPcb) : Prop := pcb.wndScale = false → pcb.rcvWnd = TCP_WND ∧ pcb.rcvAnnWnd = TCP_WND

/-- The blocks hold the bytes of the options. -/
def OptBlocks.Holds (blocks : OptBlocks) (opts : Bytes) : Prop :=
  ∀ index < opts.length, blocks.tcpGetNextOptbyte index = byteAt opts index

section Parseopt

variable {blocks : OptBlocks} {opts before tail rest : Bytes} {syn : Bool} {pcb : OptPcb} {turns : Nat}

theorem OptPcb.Fresh.apply (fresh : pcb.Fresh) (option : TcpOption) : (option.apply syn pcb).Fresh := by
  cases option with
  | wndScale shift =>
      rw [TcpOption.apply]
      split_ifs with first
      · exact fun _ => ⟨rfl, rfl⟩
      · exact fresh
  | _ => exact fresh

theorem OptPcb.Fresh.takeWndScale (fresh : pcb.Fresh) (shift : UInt8) :
    pcb.takeWndScale syn shift = .ok ((TcpOption.wndScale shift).apply syn pcb) := by
  rw [OptPcb.takeWndScale, TcpOption.apply]
  by_cases first : (syn && !pcb.wndScale) = true
  · have plain : pcb.wndScale = false := by
      rw [Bool.and_eq_true, Bool.not_eq_true'] at first
      exact first.2
    obtain ⟨window, announced⟩ := fresh plain
    have limit : (if shift.toNat > 14 then 14 else shift.toNat) = min shift.toNat 14 := by
      split_ifs <;> omega
    rw [if_pos first, if_pos first, window, announced, limit]
    rfl
  · rw [if_neg first, if_neg first]
    rfl

theorem OptBlocks.Holds.byte (holds : blocks.Holds (before ++ rest)) {index : Nat} (inside : index < rest.length) :
    blocks.tcpGetNextOptbyte (before.length + index) = byteAt rest index := by
  rw [holds _ (by rw [List.length_append]; omega), byteAt, byteAt, List.getD_append_right _ _ _ _ (Nat.le_add_right _ _),
    Nat.add_sub_cancel_left]

theorem unknown_ne {kind : UInt8} (unknown : LWIP_TCP_OPT_SACK_PERM < kind) : kind ≠ LWIP_TCP_OPT_EOL ∧
    kind ≠ LWIP_TCP_OPT_NOP ∧ kind ≠ LWIP_TCP_OPT_MSS ∧ kind ≠ LWIP_TCP_OPT_WS ∧ kind ≠ LWIP_TCP_OPT_SACK_PERM := by
  refine ⟨?_, ?_, ?_, ?_, ?_⟩ <;> rintro rfl <;> exact absurd unknown (by decide)

/-- One turn of the loop takes the option that starts at the index. -/
theorem tcpParseoptLoop_step (option : TcpOption) (holds : blocks.Holds (before ++ (option.bytes ++ tail)))
    (fresh : pcb.Fresh) :
    tcpParseoptLoop blocks (before ++ (option.bytes ++ tail)).length syn (turns + 1) before.length pcb =
      tcpParseoptLoop blocks (before ++ (option.bytes ++ tail)).length syn turns (before.length + option.bytes.length)
        (option.apply syn pcb) := by
  have size : (before ++ (option.bytes ++ tail)).length = before.length + (option.bytes.length + tail.length) := by
    rw [List.length_append, List.length_append]
  have field (index : Nat) (inside : index < option.bytes.length) :
      blocks.tcpGetNextOptbyte (before.length + index) = byteAt option.bytes index := by
    rw [holds.byte (by rw [List.length_append]; omega), byteAt_append _ inside]
  have kind (some_ : 0 < option.bytes.length) : blocks.tcpGetNextOptbyte before.length = byteAt option.bytes 0 := field 0 some_
  rw [tcpParseoptLoop]
  generalize (before ++ (option.bytes ++ tail)).length = optlen at *
  cases option with
  | nop =>
      have length : TcpOption.nop.bytes.length = 1 := rfl
      rw [if_neg (by omega), kind (by decide), length]
      rfl
  | mss value =>
      have length : (TcpOption.mss value).bytes.length = 4 := rfl
      have bound := value.toNat_lt
      have mss := @be16_htons value.toNat (by omega)
      have room : ¬(LWIP_TCP_OPT_LEN_MSS ≠ LWIP_TCP_OPT_LEN_MSS ∨ before.length + LWIP_TCP_OPT_LEN_MSS > optlen) := by
        unfold LWIP_TCP_OPT_LEN_MSS
        omega
      rw [if_neg (by omega), kind (by omega), field 1 (by omega), field 2 (by omega), field 3 (by omega), length]
      change (if LWIP_TCP_OPT_LEN_MSS ≠ LWIP_TCP_OPT_LEN_MSS ∨ before.length + LWIP_TCP_OPT_LEN_MSS > optlen then _
        else tcpParseoptLoop blocks optlen syn turns _ (pcb.takeMss (256 * (UInt8.ofNat (value.toNat / 256)).toNat +
          (UInt8.ofNat (value.toNat % 256)).toNat))) = _
      rw [if_neg room, mss]
      rfl
  | wndScale shift =>
      have length : (TcpOption.wndScale shift).bytes.length = 3 := rfl
      have room : ¬(LWIP_TCP_OPT_LEN_WS ≠ LWIP_TCP_OPT_LEN_WS ∨ before.length + LWIP_TCP_OPT_LEN_WS > optlen) := by
        unfold LWIP_TCP_OPT_LEN_WS
        omega
      rw [if_neg (by omega), kind (by omega), field 1 (by omega), field 2 (by omega), length]
      change (if LWIP_TCP_OPT_LEN_WS ≠ LWIP_TCP_OPT_LEN_WS ∨ before.length + LWIP_TCP_OPT_LEN_WS > optlen then _
        else pcb.takeWndScale syn shift >>= _) = _
      rw [if_neg room, fresh.takeWndScale]
      rfl
  | sackPerm =>
      have length : TcpOption.sackPerm.bytes.length = 2 := rfl
      have room : ¬(LWIP_TCP_OPT_LEN_SACK_PERM ≠ LWIP_TCP_OPT_LEN_SACK_PERM ∨
          before.length + LWIP_TCP_OPT_LEN_SACK_PERM > optlen) := by
        unfold LWIP_TCP_OPT_LEN_SACK_PERM
        omega
      rw [if_neg (by omega), kind (by omega), field 1 (by omega), length]
      change (if LWIP_TCP_OPT_LEN_SACK_PERM ≠ LWIP_TCP_OPT_LEN_SACK_PERM ∨
        before.length + LWIP_TCP_OPT_LEN_SACK_PERM > optlen then _ else _) = _
      rw [if_neg room]
      rfl
  | other kind_ data unknown short =>
      have length : (TcpOption.other kind_ data unknown short).bytes.length = data.length + 2 := rfl
      have count : (byteAt (TcpOption.other kind_ data unknown short).bytes 1).toNat = data.length + 2 := by
        change (UInt8.ofNat (data.length + 2)).toNat = _
        rw [UInt8.toNat_ofNat']
        omega
      have name : byteAt (TcpOption.other kind_ data unknown short).bytes 0 = kind_ := rfl
      obtain ⟨eol, nop, mss, ws, sack⟩ := unknown_ne unknown
      rw [if_neg (by omega), kind (by omega), field 1 (by omega), length]
      simp only [name, count, eol, nop, mss, ws, sack, if_false]
      rw [if_neg (by omega)]
      rfl

theorem tcpParseoptLoop_end {optlen optidx : Nat} (done : optlen ≤ optidx) :
    tcpParseoptLoop blocks optlen syn turns optidx pcb = .ok pcb := by
  cases turns with
  | zero => rfl
  | succ turns =>
      rw [tcpParseoptLoop, if_pos done]
      rfl

/-- The loop ends where no option starts. The byte behind the last one may be read, but it decides nothing. -/
theorem tcpParseoptLoop_stops (stops : Stops rest) (holds : blocks.Holds (before ++ rest)) :
    tcpParseoptLoop blocks (before ++ rest).length syn turns before.length pcb = .ok pcb := by
  have size : (before ++ rest).length = before.length + rest.length := List.length_append
  cases turns with
  | zero => rfl
  | succ turns =>
  by_cases done : (before ++ rest).length ≤ before.length
  · exact tcpParseoptLoop_end done
  rw [tcpParseoptLoop, if_neg done]
  cases rest with
  | nil => simp at done
  | cons kind more =>
  have name : blocks.tcpGetNextOptbyte before.length = kind := @OptBlocks.Holds.byte _ _ _ holds 0 (Nat.succ_pos _)
  have second {length : UInt8} {tail : Bytes} (same : more = length :: tail) :
      blocks.tcpGetNextOptbyte (before.length + 1) = length := by
    subst same
    exact @OptBlocks.Holds.byte _ _ _ holds 1 (by simp)
  rw [List.length_cons] at size
  generalize (before ++ kind :: more).length = optlen at *
  simp only [name]
  split_ifs with eol nop mss badMss ws badWs sack badSack small
  · rfl
  · subst nop
    exact absurd rfl (stops .nop more)
  · rfl
  · rw [not_or, not_not] at badMss
    unfold LWIP_TCP_OPT_LEN_MSS at badMss
    obtain ⟨length, more, rfl⟩ := List.exists_cons_of_length_pos (show 0 < more.length by omega)
    rw [List.length_cons] at size
    obtain ⟨high, more, rfl⟩ := List.exists_cons_of_length_pos (show 0 < more.length by omega)
    rw [List.length_cons] at size
    obtain ⟨low, tail, rfl⟩ := List.exists_cons_of_length_pos (show 0 < more.length by omega)
    rw [second rfl] at badMss
    refine absurd ?_ (stops (.mss (UInt16.ofNat (256 * high.toNat + low.toNat))) tail)
    have highBound := high.toNat_lt
    have lowBound := low.toNat_lt
    have value : (UInt16.ofNat (256 * high.toNat + low.toNat)).toNat = 256 * high.toNat + low.toNat :=
      UInt16.toNat_ofNat_of_lt (show _ < 65536 by omega)
    rw [TcpOption.bytes, htonsBytes, value, show (256 * high.toNat + low.toNat) / 256 = high.toNat by omega,
      show (256 * high.toNat + low.toNat) % 256 = low.toNat by omega, UInt8.ofNat_toNat, UInt8.ofNat_toNat, mss,
      show length = 4 from UInt8.toNat_inj.mp badMss.1]
    rfl
  · rfl
  · rw [not_or, not_not] at badWs
    unfold LWIP_TCP_OPT_LEN_WS at badWs
    obtain ⟨length, more, rfl⟩ := List.exists_cons_of_length_pos (show 0 < more.length by omega)
    rw [List.length_cons] at size
    obtain ⟨shift, tail, rfl⟩ := List.exists_cons_of_length_pos (show 0 < more.length by omega)
    rw [second rfl] at badWs
    refine absurd ?_ (stops (.wndScale shift) tail)
    rw [ws, show length = 3 from UInt8.toNat_inj.mp badWs.1]
    rfl
  · rfl
  · rw [not_or, not_not] at badSack
    unfold LWIP_TCP_OPT_LEN_SACK_PERM at badSack
    obtain ⟨length, tail, rfl⟩ := List.exists_cons_of_length_pos (show 0 < more.length by omega)
    rw [second rfl] at badSack
    refine absurd ?_ (stops .sackPerm tail)
    rw [sack, show length = 2 from UInt8.toNat_inj.mp badSack.1]
    rfl
  · rfl
  · -- an option that ends inside would be a whole one
    refine tcpParseoptLoop_end ?_
    by_contra inside
    obtain ⟨length, tail, rfl⟩ := List.exists_cons_of_length_pos (show 0 < more.length by omega)
    rw [second rfl] at inside small
    rw [List.length_cons] at size
    have bound := length.toNat_lt
    have taken : (tail.take (length.toNat - 2)).length = length.toNat - 2 := List.length_take_of_le (by omega)
    have unknown : LWIP_TCP_OPT_SACK_PERM < kind := by
      rw [UInt8.lt_iff_toNat_lt]
      by_contra known
      have known : kind.toNat ≤ 4 := Nat.le_of_not_lt known
      have name (value : UInt8) (differs : kind ≠ value) : kind.toNat ≠ value.toNat :=
        fun same => differs (UInt8.toNat_inj.mp same)
      have zero : kind.toNat ≠ 0 := name 0 eol
      have one : kind.toNat ≠ 1 := name 1 nop
      have two : kind.toNat ≠ 2 := name 2 mss
      have three : kind.toNat ≠ 3 := name 3 ws
      have four : kind.toNat ≠ 4 := name 4 sack
      omega
    refine absurd ?_ (stops (.other kind (tail.take (length.toNat - 2)) unknown (by omega)) (tail.drop (length.toNat - 2)))
    rw [TcpOption.bytes, taken, show length.toNat - 2 + 2 = length.toNat by omega, UInt8.ofNat_toNat, List.cons_append,
      List.cons_append, List.take_append_drop]

/-- A list of whole options is read to its end, whatever stands in it and wherever its bytes lie. -/
theorem tcpParseoptLoop_options (options : List TcpOption) (stops : Stops rest)
    (holds : blocks.Holds (before ++ (options.flatMap TcpOption.bytes ++ rest))) (fresh : pcb.Fresh)
    (enough : (options.flatMap TcpOption.bytes).length ≤ turns) :
    tcpParseoptLoop blocks (before ++ (options.flatMap TcpOption.bytes ++ rest)).length syn turns before.length pcb =
      .ok (options.foldl (TcpOption.apply syn) pcb) := by
  induction options generalizing before pcb turns with
  | nil => exact tcpParseoptLoop_stops stops holds
  | cons option options ih =>
      rw [List.flatMap_cons, List.append_assoc] at holds ⊢
      rw [List.flatMap_cons, List.length_append] at enough
      have some_ : 0 < option.bytes.length := by cases option <;> simp [TcpOption.bytes]
      obtain ⟨more, rfl⟩ : ∃ more, turns = more + 1 := ⟨turns - 1, by omega⟩
      rw [tcpParseoptLoop_step option holds fresh, ← List.append_assoc, ← List.length_append, List.foldl_cons]
      rw [← List.append_assoc] at holds
      exact ih holds (fresh.apply option) (by omega)

end Parseopt

/-- Each list of bytes starts with options as long as whole ones follow each other. -/
theorem exists_options (opts : Bytes) : ∃ (options : List TcpOption) (rest : Bytes),
    opts = options.flatMap TcpOption.bytes ++ rest ∧ Stops rest := by
  induction size : opts.length using Nat.strong_induction_on generalizing opts with
  | _ size ih =>
      by_cases stops : Stops opts
      · exact ⟨[], opts, rfl, stops⟩
      · obtain ⟨option, tail, rfl⟩ : ∃ (option : TcpOption) (tail : Bytes), opts = option.bytes ++ tail := by
          by_contra no
          exact stops fun option tail same => no ⟨option, tail, same⟩
        have some_ : 0 < option.bytes.length := by cases option <;> simp [TcpOption.bytes]
        obtain ⟨options, rest, rfl, ended⟩ := ih tail.length (by rw [← size, List.length_append]; omega) tail rfl
        exact ⟨option :: options, rest, by rw [List.flatMap_cons, List.append_assoc], ended⟩

/-- Where the input leaves the options of a segment, whose header it removes. -/
def optBlocks (p : Pbuf) (hdrlenBytes : Nat) (behind : Nat → UInt8) : OptBlocks :=
  if p.first.len ≥ hdrlenBytes then ⟨p.first.payload.drop TCP_HLEN, hdrlenBytes - TCP_HLEN, none, behind⟩
  else ⟨p.first.payload.drop TCP_HLEN, p.first.len - TCP_HLEN, p.next.head?.map Segment.payload, behind⟩

theorem optBlocks_holds {p q : Pbuf} {opts : Bytes} {hdrlenBytes : Nat} {behind : Nat → UInt8} (most : hdrlenBytes ≤ 60)
    (removed : tcpInputRemoveHeader p hdrlenBytes = .ok (some (opts, q))) : (optBlocks p hdrlenBytes behind).Holds opts := by
  have size : p.first.len = p.first.payload.length := rfl
  intro index inside
  unfold tcpInputRemoveHeader at removed
  rw [optBlocks]
  by_cases fits : p.first.len ≥ hdrlenBytes
  · rw [if_pos fits] at removed ⊢
    obtain ⟨rfl, -⟩ := Prod.mk.inj (Option.some.inj (Except.ok.inj removed))
    rw [List.length_drop, List.length_take] at inside
    simp only [OptBlocks.tcpGetNextOptbyte, byteAt]
    rw [List.getD_eq_getElem _ _ (by rw [List.length_drop]; omega),
      List.getD_eq_getElem _ _ (by rw [List.length_drop, List.length_take]; omega)]
    simp
  · rw [if_neg fits] at removed ⊢
    cases next : p.next with
    | nil =>
        rw [next] at removed
        cases removed
    | cons second rest =>
        rw [next] at removed
        have taken : (p.first.payload.drop TCP_HLEN).length = p.first.len - TCP_HLEN := List.length_drop
        dsimp only at removed
        split_ifs at removed with past
        · cases removed
        · obtain ⟨-, -, removed⟩ := bind_ok removed
          obtain ⟨-, -, removed⟩ := bind_ok removed
          obtain ⟨rfl, -⟩ := Prod.mk.inj (Option.some.inj (Except.ok.inj removed))
          rw [List.length_append, List.length_take, taken] at inside
          rw [taken] at past
          have size : second.len = second.payload.length := rfl
          simp only [OptBlocks.tcpGetNextOptbyte, List.head?_cons, Option.map_some, byteAt]
          by_cases front : index < p.first.len - TCP_HLEN
          · rw [if_pos front, List.getD_append _ _ _ _ (by rw [taken]; exact front),
              List.getD_eq_getElem _ _ (by rw [taken]; exact front), List.getD_eq_getElem _ _ (by rw [taken]; exact front)]
          · rw [if_neg front, List.getD_append_right _ _ _ _ (by rw [taken]; omega), taken, Nat.mod_eq_of_lt (by omega),
              List.getD_eq_getElem _ _ (by omega), List.getD_eq_getElem _ _ (by rw [List.length_take]; omega),
              List.getElem_take]

section Parsed

variable {data : IpData} {p : Pbuf} {seg : ParsedSegment} {pcb : OptPcb} {options : List TcpOption} {rest : Bytes}

theorem tcpParseopt_options (parsed : tcpInputParse data p = .ok (some seg))
    (split : seg.opts = options.flatMap TcpOption.bytes ++ rest) (stops : Stops rest) (fresh : pcb.Fresh) (syn : Bool)
    (behind : Nat → UInt8) :
    tcpParseopt (optBlocks p (TCPH_HDRLEN_BYTES p.first.payload) behind) seg.opts.length syn pcb =
      .ok (options.foldl (TcpOption.apply syn) pcb) := by
  have most : TCPH_HDRLEN_BYTES p.first.payload ≤ 60 := by
    have bound := (byteAt p.first.payload 12).toNat_lt
    unfold TCPH_HDRLEN_BYTES
    omega
  obtain ⟨q, removed⟩ : ∃ q, tcpInputRemoveHeader p (TCPH_HDRLEN_BYTES p.first.payload) = .ok (some (seg.opts, q)) := by
    unfold tcpInputParse at parsed
    dsimp only at parsed
    split_ifs at parsed
    · cases parsed
    · cases parsed
    · cases parsed
    · obtain ⟨removed, done, same⟩ := bind_ok parsed
      obtain ⟨⟨opts, q⟩, rfl, rfl⟩ := Option.map_eq_some_iff.mp (Except.ok.inj same)
      exact ⟨q, done⟩
  have holds := @optBlocks_holds _ _ _ _ behind most removed
  rw [split] at holds ⊢
  exact @tcpParseoptLoop_options _ [] _ syn pcb _ options stops holds fresh (by rw [List.length_append]; omega)

/-- The options of a segment are read up to the first place where none starts, whatever lies behind them and however they are
spread over two pbufs. -/
theorem options_parsed (parsed : tcpInputParse data p = .ok (some seg)) (fresh : pcb.Fresh) (syn : Bool) :
    ∃ (options : List TcpOption) (rest : Bytes), seg.opts = options.flatMap TcpOption.bytes ++ rest ∧ Stops rest ∧
      ∀ behind, tcpParseopt (optBlocks p (TCPH_HDRLEN_BYTES p.first.payload) behind) seg.opts.length syn pcb =
        .ok (options.foldl (TcpOption.apply syn) pcb) := by
  obtain ⟨options, rest, split, stops⟩ := exists_options seg.opts
  exact ⟨options, rest, split, stops, tcpParseopt_options parsed split stops fresh syn⟩

def betweenHosts : IpData := ⟨⟨10, 0, 0, 1⟩, ⟨10, 0, 0, 2⟩, IP_PROTO_TCP, 20⟩

def unheard : OptPcb := ⟨536, 0, 0, false, false, TCP_WND, TCP_WND⟩

/-- An unknown option lies in two pbufs, and the last option is cut off. -/
def tornOptions : Pbuf :=
  ⟨⟨[], [0, 80, 15, 160, 0, 0, 0, 100, 0, 0, 0, 7, 0x80, 2, 0, 9, 0, 0, 0, 0, 2, 4, 5, 0x78, 1, 200, 4]⟩,
    [⟨[], [9, 9, 1, 3, 3, 42]⟩]⟩

theorem torn_options_parsed : ∃ seg, tcpInputParse betweenHosts tornOptions = .ok (some seg) ∧
    ∃ (options : List TcpOption) (rest : Bytes), seg.opts = options.flatMap TcpOption.bytes ++ rest ∧ Stops rest ∧
      ∀ behind, tcpParseopt (optBlocks tornOptions (TCPH_HDRLEN_BYTES tornOptions.first.payload) behind) seg.opts.length true
        unheard = .ok (options.foldl (TcpOption.apply true) unheard) := by
  obtain ⟨seg, parsed⟩ : ∃ seg, tcpInputParse betweenHosts tornOptions = .ok (some seg) := ⟨_, rfl⟩
  exact ⟨seg, parsed, options_parsed parsed (fun _ => ⟨rfl, rfl⟩) true⟩

example : tcpParseopt (optBlocks tornOptions 32 fun _ => 3) 12 true unheard = .ok { unheard with mss := 1400 } := by decide

end Parsed

/-- The options of a SYN, as the sender means them. -/
def segOptions (opts : SegOpts) (mtu : Nat) : List TcpOption :=
  (if opts.mss then [.mss (UInt16.ofNat (tcpEffSendMssNetif TCP_MSS mtu))] else []) ++
    (if opts.wndScale then [.nop, .wndScale TCP_RCV_SCALE] else []) ++
    (if opts.sackPerm then [.nop, .nop, .sackPerm] else [])

theorem tcpEffSendMssNetif_most (mtu : Nat) : tcpEffSendMssNetif TCP_MSS mtu ≤ TCP_MSS := by
  unfold tcpEffSendMssNetif
  split_ifs <;> omega

theorem tcpEffSendMssNetif_value (mtu : Nat) :
    (UInt16.ofNat (tcpEffSendMssNetif TCP_MSS mtu)).toNat = tcpEffSendMssNetif TCP_MSS mtu :=
  UInt16.toNat_ofNat_of_lt (Nat.lt_of_le_of_lt (tcpEffSendMssNetif_most mtu) (by decide))

theorem tcpSegOptions_eq (opts : SegOpts) (mtu : Nat) :
    tcpSegOptions opts mtu = (segOptions opts mtu).flatMap TcpOption.bytes := by
  have value := tcpEffSendMssNetif_value mtu
  obtain ⟨mss, wndScale, sackPerm⟩ := opts
  cases mss <;> cases wndScale <;> cases sackPerm <;>
    simp [tcpSegOptions, segOptions, TcpOption.bytes, value, LWIP_TCP_OPT_NOP, LWIP_TCP_OPT_MSS, LWIP_TCP_OPT_WS,
      LWIP_TCP_OPT_SACK_PERM]

/-- What a pcb knows of its peer after a SYN with these options. -/
def OptPcb.afterSyn (pcb : OptPcb) (opts : SegOpts) (mtu : Nat) : OptPcb where
  mss := if opts.mss then if tcpEffSendMssNetif TCP_MSS mtu = 0 then TCP_MSS else tcpEffSendMssNetif TCP_MSS mtu else pcb.mss
  sndScale := if opts.wndScale then TCP_RCV_SCALE.toNat else pcb.sndScale
  rcvScale := if opts.wndScale then TCP_RCV_SCALE.toNat else pcb.rcvScale
  wndScale := opts.wndScale
  sack := pcb.sack || opts.sackPerm
  rcvWnd := TCP_WND
  rcvAnnWnd := TCP_WND

section Syn

variable {bound mtu : Nat} {sent p : Pbuf} {seg : TcpSeg} {opts : SegOpts} {pcb : OptPcb}

theorem segOptions_afterSyn (fresh : pcb.Fresh) (plain : pcb.wndScale = false) :
    (segOptions opts mtu).foldl (TcpOption.apply true) pcb = pcb.afterSyn opts mtu := by
  obtain ⟨window, announced⟩ := fresh plain
  have most := tcpEffSendMssNetif_most mtu
  have value := tcpEffSendMssNetif_value mtu
  obtain ⟨mss, wndScale, sackPerm⟩ := opts
  obtain ⟨mss_, sndScale, rcvScale, wndScale_, sack, rcvWnd, rcvAnnWnd⟩ := pcb
  dsimp only at window announced plain
  subst window announced plain
  have limit : (if tcpEffSendMssNetif TCP_MSS mtu > TCP_MSS ∨ tcpEffSendMssNetif TCP_MSS mtu = 0 then TCP_MSS
      else tcpEffSendMssNetif TCP_MSS mtu) =
      if tcpEffSendMssNetif TCP_MSS mtu = 0 then TCP_MSS else tcpEffSendMssNetif TCP_MSS mtu :=
    if_congr (or_iff_right (Nat.not_lt.mpr most)) rfl rfl
  cases mss <;> cases wndScale <;> cases sackPerm <;>
    simp [segOptions, OptPcb.afterSyn, TcpOption.apply, OptPcb.takeMss, value, limit, TCP_RCV_SCALE]

/-- The output writes the options behind the header that the chain shows. -/
theorem tcpFillSegment_options (shape : Shape bound sent seg) (sender : SendPcb) (mtu : Nat) :
    ((tcpFillSegment sender seg mtu sent).bytes.drop TCP_HLEN).take (tcpOptLength seg.opts) = tcpSegOptions seg.opts mtu := by
  obtain ⟨-, place⟩ := tcpFillSegment_shape shape sender mtu
  have ackno : (htonlBytes sender.rcvNxt).length = 4 := rfl
  have short (value : Nat) : (htonsBytes value).length = 2 := rfl
  have sum (value : Nat) : (chksumBytes value).length = 2 := rfl
  have options := tcpSegOptions_length seg.opts mtu
  have acked := @Shape.poke _ _ _ shape 8 (htonlBytes sender.rcvNxt) (by unfold TCP_HLEN; omega)
  have windowed := @Shape.poke _ _ _ acked 14 (htonsBytes (tcpWnd sender !seg.opts.wndScale))
    (by rw [short]; unfold TCP_HLEN; omega)
  have filled := @Shape.poke _ _ _ windowed TCP_HLEN (tcpSegOptions seg.opts mtu) (by rw [options])
  have pointed := filled.pointTo
  have blank := @Shape.poke _ _ _ pointed 16 (htonsBytes 0) (by rw [short]; unfold TCP_HLEN; omega)
  have position := shape.position
  have room {p : Pbuf} (shape : Shape bound p seg) {offset size : Nat}
      (inside : offset + size ≤ TCP_HLEN + tcpOptLength seg.opts) :
      seg.tcphdr + offset + size ≤ p.first.block.length ∧ seg.tcphdr + offset + size ≤ p.whole.length := by
    have header := shape.header
    have block := p.block_le_whole
    omega
  have field : 16 + 2 ≤ TCP_HLEN + tcpOptLength seg.opts := by
    unfold TCP_HLEN
    omega
  have behind : seg.tcphdr + TCP_HLEN + 0 ≤ _ := (room windowed (by omega)).2
  rw [Pbuf.bytes_eq_drop, place, List.drop_drop, ← position, tcpFillSegment, Pbuf.poke_whole (room blank field).1,
    drop_splice (room blank field).2 (by rw [sum]; unfold TCP_HLEN; omega),
    Pbuf.poke_whole (room pointed field).1, drop_splice (room pointed field).2 (by rw [short]; unfold TCP_HLEN; omega),
    Pbuf.pointTo_whole, Pbuf.poke_whole (room windowed (by rw [options])).1, splice, List.append_assoc,
    List.drop_left' (List.length_take_of_le (by omega)), List.take_left' options]

/-- A segment that went out comes in with its flag and its options, in whatever chain it arrives. -/
theorem tcpFillSegment_arrives {data : IpData} {got : ParsedSegment} (shape : Shape bound sent seg) (small : bound ≤ TCP_MSS)
    (offset : (seg.image sent).offset = offsetByte seg.opts) (sender : SendPcb) (mtu : Nat)
    (arrived : p.bytes = (tcpFillSegment sender seg mtu sent).bytes) (parsed : tcpInputParse data p = .ok (some got)) :
    got.hdr.syn = (seg.image sent).syn ∧ got.opts = tcpSegOptions seg.opts mtu := by
  obtain ⟨filled, place⟩ := tcpFillSegment_shape shape sender mtu
  have image : segImage p.bytes 0 (tcpOptLength seg.opts) = seg.image sent := by
    rw [← tcpFillSegment_image shape sender mtu, arrived, Pbuf.bytes_eq_drop, place, ← shape.position]
    exact segImage_drop _ _ _ _
  obtain ⟨found, done, -, cut⟩ := @tcpInputParse_cuts data p (arrived ▸ filled.fits small)
  obtain rfl := Except.ok.inj (parsed.symm.trans done)
  obtain ⟨opts, q, rfl, bytes, length⟩ := cut got rfl
  have hdrlen : byteAt p.bytes 12 = offsetByte seg.opts := by
    rw [← offset, ← image]
    rfl
  rw [TCPH_HDRLEN_BYTES, hdrlen, offsetByte_length] at length
  constructor
  · rw [← image]
    change decide (TCPH_FLAGS p.bytes &&& TCP_SYN ≠ 0) = decide (byteAt p.bytes 13 &&& TCP_SYN ≠ 0)
    rw [TCPH_FLAGS, UInt8.and_assoc, show TCP_FLAGS &&& TCP_SYN = TCP_SYN from rfl]
  · have long : (p.bytes.take TCP_HLEN).length = TCP_HLEN := by
      rw [arrived, List.length_take_of_le]
      have length := filled.length
      omega
    change opts = _
    rw [← tcpFillSegment_options shape sender mtu, ← arrived, bytes, List.drop_left' long, ← length, List.take_left]

/-- A queued SYN or FIN has the shape of its options. -/
theorem tcpEnqueueFlags_queued {heap heap' : Memory Pbuf} {sender sender' : SendPcb} {flags : UInt8} {memory : Option Nat}
    (queued : tcpEnqueueFlags heap sender flags memory = .ok (.ERR_OK, sender', heap')) :
    ∃ seg sent, sender'.unsent = sender.unsent ++ [seg] ∧ heap'.value seg.p = some sent ∧ Shape 12 sent seg ∧
      seg.opts = tcpEnqueueOpts sender flags ∧ (seg.image sent).offset = offsetByte seg.opts ∧
      (seg.image sent).syn = decide (flags &&& TCP_SYN ≠ 0) := by
  obtain ⟨-, queued⟩ := assert_ok queued
  cases given : memory with
  | none =>
      simp only [given] at queued
      cases queued
  | some addr =>
      cases allocated : pbufAlloc .bits64 .PBUF_TRANSPORT (tcpOptLength (tcpEnqueueOpts sender flags)) .PBUF_RAM with
      | none =>
          simp only [given, allocated] at queued
          cases queued
      | some p =>
          simp only [given, allocated] at queued
          obtain ⟨created, segment, queued⟩ := bind_ok queued
          cases created with
          | none => cases queued
          | some created =>
              obtain ⟨seg, filled⟩ := created
              obtain ⟨-, queued⟩ := assert_ok queued
              obtain ⟨-, rfl, rfl⟩ := Prod.mk.inj (Except.ok.inj queued)
              obtain ⟨headroom, payload, bytes⟩ := pbufAlloc_transport allocated
              have options := tcpOptLength_le (tcpEnqueueOpts sender flags)
              obtain ⟨rfl, shape⟩ := @tcpCreateSegment_shape 12 _ _ _ _ _ _ _ _ _ segment (by decide) headroom
                (Nat.le_of_eq payload.symm) (by rw [bytes]; rfl) (show _ + 0 ≤ 12 by omega)
              have image := tcpCreateSegment_image segment headroom rfl rfl
              exact ⟨_, filled, rfl, Memory.value_alloc _, shape, rfl, by rw [image]; rfl, by rw [image]⟩

/-- A SYN that the stack queues and sends tells its options to the stack that gets it, in whatever chain it arrives. -/
theorem syn_options_round_trip {heap heap' : Memory Pbuf} {sender sender' later : SendPcb} {flags : UInt8}
    {memory : Option Nat} {data : IpData} {got : ParsedSegment} (syn : flags &&& TCP_SYN ≠ 0)
    (queued : tcpEnqueueFlags heap sender flags memory = .ok (.ERR_OK, sender', heap'))
    (last : sender'.unsent.getLast? = some seg) (held : heap'.value seg.p = some sent)
    (arrived : p.bytes = (tcpFillSegment later seg mtu sent).bytes) (parsed : tcpInputParse data p = .ok (some got))
    (fresh : pcb.Fresh) (plain : pcb.wndScale = false) (behind : Nat → UInt8) : got.hdr.syn = true ∧
      tcpParseopt (optBlocks p (TCPH_HDRLEN_BYTES p.first.payload) behind) got.opts.length got.hdr.syn pcb =
        .ok (pcb.afterSyn (tcpEnqueueOpts sender flags) mtu) := by
  obtain ⟨queuedSeg, queuedPbuf, unsent, found, shape, opts, offset, flagged⟩ := tcpEnqueueFlags_queued queued
  rw [unsent, List.getLast?_concat] at last
  obtain rfl := Option.some.inj last
  obtain rfl := Option.some.inj (found.symm.trans held)
  obtain ⟨told, same⟩ := tcpFillSegment_arrives shape (by decide) offset later mtu arrived parsed
  have heard : got.hdr.syn = true := by rw [told, flagged, decide_eq_true syn]
  have split : got.opts = (segOptions queuedSeg.opts mtu).flatMap TcpOption.bytes ++ [] := by
    rw [same, tcpSegOptions_eq, List.append_nil]
  refine ⟨heard, ?_⟩
  rw [tcpParseopt_options parsed split stops_nil fresh, heard, segOptions_afterSyn fresh plain, opts]

/-- A pcb that asks for a connection. -/
def knocking : SendPcb := { (Sender.fresh 100).pcb with state := .SYN_SENT }

/-- Its SYN arrives in two pbufs. -/
def cutSyn : Pbuf :=
  ⟨⟨[], [0, 80, 15, 160, 0, 0, 0, 100, 0, 0, 0, 7, 0x80, 2, 0x13, 0x88, 55, 43, 0, 0, 2, 4, 5, 0xb4, 1, 3]⟩,
    [⟨[], [3, 8, 1, 1, 4, 2]⟩]⟩

theorem cut_syn_heard : ∃ got, tcpInputParse betweenHosts cutSyn = .ok (some got) ∧
    got.hdr.syn = true ∧
      tcpParseopt (optBlocks cutSyn (TCPH_HDRLEN_BYTES cutSyn.first.payload) fun _ => 0) got.opts.length got.hdr.syn unheard =
        .ok (unheard.afterSyn ⟨true, true, true⟩ 1500) := by
  obtain ⟨got, parsed⟩ : ∃ got, tcpInputParse betweenHosts cutSyn = .ok (some got) := ⟨_, rfl⟩
  exact ⟨got, parsed, @syn_options_round_trip 1500 _ _ _ _ (fun _ => none) _ knocking _ knocking TCP_SYN (some 1) _ _ (by decide)
    rfl rfl rfl (by decide +kernel) parsed (fun _ => ⟨rfl, rfl⟩) rfl _⟩

end Syn

section SynAck

variable {data : IpData} {p : Pbuf} {seg : ParsedSegment} {pcb : OptPcb}

theorem apply_offers (option : TcpOption) (pcb : OptPcb) :
    ((option.apply true pcb).wndScale = true ↔ pcb.wndScale = true ∨ ∃ shift, option = .wndScale shift) ∧
      ((option.apply true pcb).sack = true ↔ pcb.sack = true ∨ option = .sackPerm) := by
  cases option with
  | wndScale shift => cases already : pcb.wndScale <;> simp [TcpOption.apply, already]
  | _ => simp [TcpOption.apply, OptPcb.takeMss]

/-- A connection scales and uses SACK from the first option on that says so. -/
theorem options_offers (options : List TcpOption) (pcb : OptPcb) :
    ((options.foldl (TcpOption.apply true) pcb).wndScale = true ↔
        pcb.wndScale = true ∨ ∃ shift, TcpOption.wndScale shift ∈ options) ∧
      ((options.foldl (TcpOption.apply true) pcb).sack = true ↔ pcb.sack = true ∨ TcpOption.sackPerm ∈ options) := by
  induction options generalizing pcb with
  | nil => simp
  | cons option options ih =>
      obtain ⟨scales, sacks⟩ := ih (option.apply true pcb)
      obtain ⟨first, firstSack⟩ := apply_offers option pcb
      rw [List.foldl_cons, scales, sacks, first, firstSack]
      constructor
      · simp only [List.mem_cons, exists_or, or_assoc, @eq_comm _ option]
      · rw [List.mem_cons, or_assoc, @eq_comm _ option]

/-- A SYN|ACK offers to scale and to use SACK exactly when the SYN that it answers does. -/
theorem syn_ack_offers (parsed : tcpInputParse data p = .ok (some seg)) (fresh : pcb.Fresh) (plain : pcb.wndScale = false)
    (unsacked : pcb.sack = false) (behind : Nat → UInt8) : ∃ (options : List TcpOption) (rest : Bytes) (heard : OptPcb),
      seg.opts = options.flatMap TcpOption.bytes ++ rest ∧ Stops rest ∧
      tcpParseopt (optBlocks p (TCPH_HDRLEN_BYTES p.first.payload) behind) seg.opts.length true pcb = .ok heard ∧
      ∀ (sender : SendPcb) (flags : UInt8), sender.state = .SYN_RCVD → flags &&& TCP_SYN ≠ 0 →
        sender.wndScale = heard.wndScale → sender.sack = heard.sack →
        (tcpEnqueueOpts sender flags).mss = true ∧
          ((tcpEnqueueOpts sender flags).wndScale = true ↔ ∃ shift, TcpOption.wndScale shift ∈ options) ∧
          ((tcpEnqueueOpts sender flags).sackPerm = true ↔ TcpOption.sackPerm ∈ options) := by
  obtain ⟨options, rest, split, stops⟩ := exists_options seg.opts
  have done := tcpParseopt_options parsed split stops fresh true behind
  refine ⟨options, rest, _, split, stops, done, fun sender flags answers syn scaled sacked => ?_⟩
  obtain ⟨scales, sacks⟩ := options_offers options pcb
  simp only [plain, unsacked, Bool.false_eq_true, false_or] at scales sacks
  have offers : tcpEnqueueOpts sender flags = ⟨true, sender.wndScale, sender.sack⟩ := by
    rw [tcpEnqueueOpts, if_pos syn, answers]
    rfl
  rw [offers, scaled, sacked]
  exact ⟨rfl, scales, sacks⟩

theorem torn_options_answered : ∃ seg, tcpInputParse betweenHosts tornOptions = .ok (some seg) ∧
    ∃ (options : List TcpOption) (rest : Bytes) (heard : OptPcb),
      seg.opts = options.flatMap TcpOption.bytes ++ rest ∧ Stops rest ∧
      tcpParseopt (optBlocks tornOptions (TCPH_HDRLEN_BYTES tornOptions.first.payload) fun _ => 0) seg.opts.length true unheard =
        .ok heard ∧
      ∀ (sender : SendPcb) (flags : UInt8), sender.state = .SYN_RCVD → flags &&& TCP_SYN ≠ 0 →
        sender.wndScale = heard.wndScale → sender.sack = heard.sack →
        (tcpEnqueueOpts sender flags).mss = true ∧
          ((tcpEnqueueOpts sender flags).wndScale = true ↔ ∃ shift, TcpOption.wndScale shift ∈ options) ∧
          ((tcpEnqueueOpts sender flags).sackPerm = true ↔ TcpOption.sackPerm ∈ options) := by
  obtain ⟨seg, parsed⟩ : ∃ seg, tcpInputParse betweenHosts tornOptions = .ok (some seg) := ⟨_, rfl⟩
  exact ⟨seg, parsed, syn_ack_offers parsed (fun _ => ⟨rfl, rfl⟩) rfl rfl _⟩

end SynAck

end Tun2Socket.Lwip
