import Tun2Socket.Lwip.Netconn

namespace Tun2Socket.Lwip

/-- What the stack does to a connection of its own accord. -/
inductive PeerEvent where
  /-- A segment in sequence and inside the window, with the data that it completes. -/
  | segment (data : Option Pbuf) (fin : Bool)
  /-- A reset with the expected sequence number. -/
  | reset
  /-- The slow timer or a lack of pcbs gives the connection up. -/
  | timeout
  /-- The fast timer offers refused data again. -/
  | fastTimer

namespace Netconn

variable {A : Type}

/-- The end of the stream gives the sequence number of the FIN back to the window. -/
def recvFin (conn : Netconn A) (pcb : TcpPcb) : Checked (Netconn A) :=
  let widened := if pcb.rcvWnd ≠ TCP_WND then { pcb with rcvWnd := pcb.rcvWnd + 1 } else pcb
  tcpEventClosed { conn with pcb := some widened } widened

/-- Refused data is offered again, and an end of stream that waited behind it follows. -/
def tcpProcessRefusedData (conn : Netconn A) : Checked (Netconn A) :=
  match conn.pcb with
  | none => .ok conn
  | some pcb =>
      match pcb.refusedData with
      | none => .ok conn
      | some refused => do
          let taken := { pcb with refusedData := none, refusedFin := false }
          let (err, told) ← tcpEventRecv { conn with pcb := some taken } taken refused
          if err = .ERR_OK then
            match told.pcb with
            | some left => if pcb.refusedFin then told.recvFin left else return told
            | none => return told
          else return { told with pcb := some pcb }

/-- The delivery of received data. Data after a receive shutdown aborts the connection. -/
def tcpInputData (conn : Netconn A) (pcb : TcpPcb) : Option Pbuf → Checked (Netconn A)
  | none => .ok conn
  | some data => do
      if pcb.rxClosed then
        match ← pcb.tcpAbort true with
        | some err => conn.errTcp err
        | none => return conn
      else
        let (err, told) ← conn.tcpEventRecv pcb data
        if err = .ERR_OK then return told
        else return { told with pcb := told.pcb.map fun left => { left with refusedData := some data } }

def tcpInputFin (conn : Netconn A) : Checked (Netconn A) :=
  match conn.pcb with
  | none => .ok conn
  | some pcb =>
      if pcb.refusedData.isSome then .ok { conn with pcb := some { pcb with refusedFin := true } }
      else conn.recvFin pcb

def tcplen (data : Option Pbuf) (fin : Bool) : Nat := (data.map Pbuf.totLen).getD 0 + fin.toNat

/-- A segment for a connection. Only the states before CLOSE_WAIT take data or a FIN. -/
def tcpInput (conn : Netconn A) (data : Option Pbuf) (fin : Bool) : Checked (Netconn A) := do
  let offered ← conn.tcpProcessRefusedData
  match offered.pcb with
  | none => return offered
  | some pcb =>
      if pcb.refusedData.isSome && tcplen data fin > 0 then return offered
      else if pcb.state = .ESTABLISHED then
        let received := { pcb with
          rcvWnd := pcb.rcvWnd - tcplen data fin
          state := if fin then .CLOSE_WAIT else .ESTABLISHED }
        let told ← tcpInputData { offered with pcb := some received } received data
        if fin then told.tcpInputFin else return told
      else return offered

/-- A reset offers refused data like any segment and then ends the connection. -/
def tcpInputReset (conn : Netconn A) : Checked (Netconn A) := do
  let offered ← conn.tcpProcessRefusedData
  match offered.pcb with
  | none => return offered
  | some _ => offered.errTcp .ERR_RST

def peerEvent (conn : Netconn A) : PeerEvent → Checked (Netconn A)
  | .segment data fin => conn.tcpInput data fin
  | .reset => conn.tcpInputReset
  | .timeout => if conn.pcb.isSome then conn.errTcp .ERR_ABRT else .ok conn
  | .fastTimer => conn.tcpProcessRefusedData

end Netconn

namespace Connection
open Netconn

/-- A connection that the application may hold: idle or in a write, and synchronized while its pcb lives. -/
structure Sound (conn : Connection) : Prop where
  recvmbox : conn.recvmbox.isSome = true
  acceptmbox : conn.acceptmbox = none
  call : (conn.state = .NETCONN_NONE ∧ conn.currentMsg = none) ∨
    (conn.state = .NETCONN_WRITE ∧ conn.currentMsg = some .write ∧ conn.pcb.isSome = true)
  pcb : ∀ pcb, conn.pcb = some pcb → pcb.state = .ESTABLISHED ∨ pcb.state = .CLOSE_WAIT

/-- The stack never touches the name or the deletion mark of a connection, and gives it no new pcb. -/
structure Kept (before after : Connection) : Prop where
  id : after.id = before.id
  mboxInvalid : after.mboxInvalid = before.mboxInvalid
  pcb : after.pcb.isSome = true → before.pcb.isSome = true

theorem Kept.refl (conn : Connection) : Kept conn conn := ⟨rfl, rfl, fun attached => attached⟩

theorem Kept.trans {first second third : Connection} (left : Kept first second) (right : Kept second third) :
    Kept first third :=
  ⟨right.id.trans left.id, right.mboxInvalid.trans left.mboxInvalid, fun attached => left.pcb (right.pcb attached)⟩

theorem Kept.attached {before after : Connection} {pcb : TcpPcb} (has : before.pcb = some pcb)
    (id : after.id = before.id) (mboxInvalid : after.mboxInvalid = before.mboxInvalid) : Kept before after :=
  ⟨id, mboxInvalid, fun _ => by rw [has]; rfl⟩

/-- A new pcb value in a synchronized state keeps a connection sound. -/
theorem Sound.setPcb {conn : Connection} (sound : Sound conn) {pcb : TcpPcb}
    (synchronized : pcb.state = .ESTABLISHED ∨ pcb.state = .CLOSE_WAIT) : Sound { conn with pcb := some pcb } where
  recvmbox := sound.recvmbox
  acceptmbox := sound.acceptmbox
  call := sound.call.imp_right fun write => ⟨write.1, write.2.1, rfl⟩
  pcb := by
    intro other same
    cases same
    exact synchronized

theorem Sound.setRecvmbox {conn : Connection} (sound : Sound conn) (mbox : List (MboxMsg Pbuf)) :
    Sound { conn with recvmbox := some mbox } :=
  ⟨rfl, sound.acceptmbox, sound.call, sound.pcb⟩

theorem Sound.setWaiting {conn : Connection} (sound : Sound conn) (count : Nat) :
    Sound { conn with mboxThreadsWaiting := count } :=
  ⟨sound.recvmbox, sound.acceptmbox, sound.call, sound.pcb⟩

theorem Sound.netconnErr {conn : Connection} (sound : Sound conn) : Sound conn.netconnErr.2 :=
  ⟨sound.recvmbox, sound.acceptmbox, sound.call, sound.pcb⟩

theorem tcpRecved_ok {pcb : TcpPcb} (synchronized : pcb.state = .ESTABLISHED ∨ pcb.state = .CLOSE_WAIT) (len : Nat) :
    pcb.tcpRecved len = .ok { pcb with rcvWnd := min (pcb.rcvWnd + len) TCP_WND } := by
  have connected : pcb.state ≠ .LISTEN := by rcases synchronized with state | state <;> simp [state]
  simp [TcpPcb.tcpRecved, connected]

/-- An outcome of a step of the stack: no assertion fails and the connection stays sound. -/
def Ok (conn : Connection) (result : Checked Connection) : Prop :=
  ∃ next, result = .ok next ∧ Sound next ∧ Kept conn next

theorem doRecv_ok {conn : Connection} (sound : Sound conn) (len : Nat) : Ok conn (conn.doRecv len) := by
  unfold doRecv
  split
  · exact ⟨conn, rfl, sound, Kept.refl conn⟩
  · rename_i pcb has
    have synchronized := sound.pcb pcb has
    rw [tcpRecved_ok synchronized]
    exact ⟨_, rfl, sound.setPcb synchronized, Kept.attached has rfl rfl⟩

/-- The receive callback keeps a sound connection with the pcb that it was called for. -/
theorem recvTcp_ok {conn : Connection} {pcb : TcpPcb} (sound : Sound conn) (has : conn.pcb = some pcb)
    (p : Option Pbuf) :
    ∃ err next left, conn.recvTcp pcb p = .ok (err, next) ∧ Sound next ∧ Kept conn next ∧ next.pcb = some left ∧
      left.state = pcb.state := by
  have synchronized := sound.pcb pcb has
  unfold recvTcp
  split
  · split
    · exact ⟨_, _, pcb, rfl, sound.setRecvmbox _, Kept.attached has rfl rfl, has, rfl⟩
    · exact ⟨_, _, pcb, rfl, sound, Kept.refl conn, has, rfl⟩
  · split
    · rw [tcpRecved_ok synchronized]
      exact ⟨_, _, _, rfl, sound.setPcb synchronized, Kept.attached has rfl rfl, rfl, rfl⟩
    · exact ⟨_, _, pcb, rfl, sound, Kept.refl conn, has, rfl⟩

theorem tcpEventRecv_ok {conn : Connection} {pcb : TcpPcb} (sound : Sound conn) (has : conn.pcb = some pcb)
    (p : Pbuf) :
    ∃ err next left, conn.tcpEventRecv pcb p = .ok (err, next) ∧ Sound next ∧ Kept conn next ∧
      next.pcb = some left ∧ left.state = pcb.state := by
  unfold tcpEventRecv
  split
  · exact recvTcp_ok sound has (some p)
  · have synchronized := sound.pcb pcb has
    rw [tcpRecved_ok synchronized]
    exact ⟨_, _, _, rfl, sound.setPcb synchronized, Kept.attached has rfl rfl, rfl, rfl⟩

theorem tcpEventClosed_ok {conn : Connection} {pcb : TcpPcb} (sound : Sound conn) (has : conn.pcb = some pcb) :
    Ok conn (conn.tcpEventClosed pcb) := by
  unfold tcpEventClosed
  split
  · obtain ⟨err, next, left, result, after, kept, -⟩ := recvTcp_ok sound has none
    rw [result]
    exact ⟨next, rfl, after, kept⟩
  · exact ⟨conn, rfl, sound, Kept.refl conn⟩

theorem recvFin_ok {conn : Connection} {pcb : TcpPcb} (sound : Sound conn) (has : conn.pcb = some pcb) :
    Ok conn (conn.recvFin pcb) := by
  have synchronized := sound.pcb pcb has
  unfold recvFin
  split_ifs
  · obtain ⟨next, result, after, kept⟩ := tcpEventClosed_ok
      (sound.setPcb (show ({ pcb with rcvWnd := pcb.rcvWnd + 1 } : TcpPcb).state = _ ∨ _ from synchronized)) rfl
    exact ⟨next, result, after, Kept.attached has kept.id kept.mboxInvalid⟩
  · obtain ⟨next, result, after, kept⟩ := tcpEventClosed_ok (sound.setPcb synchronized) rfl
    exact ⟨next, result, after, Kept.attached has kept.id kept.mboxInvalid⟩

/-- The error callback leaves an idle connection without a pcb. -/
theorem errTcp_ok {conn : Connection} (sound : Sound conn) {err : Err}
    (reported : err = .ERR_ABRT ∨ err = .ERR_RST ∨ err = .ERR_CLSD) :
    ∃ next, conn.errTcp err = .ok next ∧ Sound next ∧ Kept conn next ∧ next.pcb = none := by
  have translated : ∀ B : Type, ∃ mark : MboxMsg B, netconnErrToMsg err = .ok mark := by
    intro B
    rcases reported with rfl | rfl | rfl
    · exact ⟨.aborted, rfl⟩
    · exact ⟨.reset, rfl⟩
    · exact ⟨.closed, rfl⟩
  obtain ⟨recvMsg, toRecv⟩ := translated Pbuf
  obtain ⟨acceptMsg, toAccept⟩ := translated Empty
  have boxes : (if conn.mboxInvalid then conn.recvmbox
      else conn.recvmbox.map (sysMboxPush · recvMsg)).isSome = true := by
    split <;> simp [sound.recvmbox]
  have noAccept : (if conn.mboxInvalid then conn.acceptmbox
      else conn.acceptmbox.map (sysMboxPush · acceptMsg)) = none := by
    simp [sound.acceptmbox]
  unfold errTcp
  rw [toRecv, toAccept]
  rcases sound.call with ⟨state, msg⟩ | ⟨state, msg, -⟩
  · simp only [ok_bind, state, msg, Option.isNone_none, lwipAssert_true, pure_eq_ok]
    exact ⟨_, rfl, ⟨boxes, noAccept, Or.inl ⟨rfl, rfl⟩, by simp⟩, ⟨rfl, rfl, by simp⟩, rfl⟩
  · simp only [ok_bind, state, msg, Option.isSome_some, lwipAssert_true, pure_eq_ok]
    exact ⟨_, rfl, ⟨boxes, noAccept, Or.inl ⟨rfl, rfl⟩, by simp⟩, ⟨rfl, rfl, by simp⟩, rfl⟩

theorem tcpAbort_ok {pcb : TcpPcb} (synchronized : pcb.state = .ESTABLISHED ∨ pcb.state = .CLOSE_WAIT) :
    pcb.tcpAbort true = .ok (some .ERR_ABRT) := by
  rcases synchronized with state | state <;> simp [TcpPcb.tcpAbort, state]

theorem tcpProcessRefusedData_ok {conn : Connection} (sound : Sound conn) : Ok conn conn.tcpProcessRefusedData := by
  unfold tcpProcessRefusedData
  split
  · exact ⟨conn, rfl, sound, Kept.refl conn⟩
  · rename_i pcb has
    have synchronized := sound.pcb pcb has
    split
    · exact ⟨conn, rfl, sound, Kept.refl conn⟩
    · rename_i refused _
      have current := @Sound.setPcb conn sound { pcb with refusedData := none, refusedFin := false } synchronized
      obtain ⟨err, told, left, result, after, kept, hasLeft, state⟩ := tcpEventRecv_ok current rfl refused
      simp only [result, ok_bind, hasLeft]
      split
      · split
        · obtain ⟨next, finished, final, keptFin⟩ := recvFin_ok after hasLeft
          exact ⟨next, finished, final, Kept.trans (Kept.attached has kept.id kept.mboxInvalid) keptFin⟩
        · exact ⟨told, rfl, after, Kept.attached has kept.id kept.mboxInvalid⟩
      · exact ⟨_, rfl, after.setPcb synchronized, Kept.attached has kept.id kept.mboxInvalid⟩

theorem tcpInputData_ok {conn : Connection} {pcb : TcpPcb} (sound : Sound conn) (has : conn.pcb = some pcb)
    (data : Option Pbuf) : Ok conn (conn.tcpInputData pcb data) := by
  have synchronized := sound.pcb pcb has
  cases data with
  | none => exact ⟨conn, rfl, sound, Kept.refl conn⟩
  | some data =>
  unfold tcpInputData
  simp only
  split
  · obtain ⟨next, result, after, kept, -⟩ := errTcp_ok sound (Or.inl rfl)
    rw [tcpAbort_ok synchronized]
    exact ⟨next, result, after, kept⟩
  · obtain ⟨err, told, left, result, after, kept, hasLeft, state⟩ := tcpEventRecv_ok sound has data
    rw [result]
    simp only [ok_bind, hasLeft]
    split
    · exact ⟨told, rfl, after, kept⟩
    · have stays : left.state = .ESTABLISHED ∨ left.state = .CLOSE_WAIT := by rwa [state]
      exact ⟨_, rfl, after.setPcb (show ({ left with refusedData := some data } : TcpPcb).state = _ ∨ _ from stays),
        Kept.attached has kept.id kept.mboxInvalid⟩

theorem tcpInputFin_ok {conn : Connection} (sound : Sound conn) : Ok conn conn.tcpInputFin := by
  unfold tcpInputFin
  split
  · exact ⟨conn, rfl, sound, Kept.refl conn⟩
  · rename_i pcb has
    split
    · exact ⟨_, rfl, sound.setPcb (sound.pcb pcb has), Kept.attached has rfl rfl⟩
    · exact recvFin_ok sound has

/-- A step that follows a successful one composes with it. -/
theorem Ok.andThen {conn : Connection} {result : Checked Connection} {next : Connection → Checked Connection}
    (ok : Ok conn result) (later : ∀ middle, Sound middle → Ok middle (next middle)) : Ok conn (result >>= next) := by
  obtain ⟨middle, rfl, sound, kept⟩ := ok
  obtain ⟨final, result, after, keptLater⟩ := later middle sound
  exact ⟨final, result, after, kept.trans keptLater⟩

theorem tcpInput_ok {conn : Connection} (sound : Sound conn) (data : Option Pbuf) (fin : Bool) :
    Ok conn (conn.tcpInput data fin) := by
  refine (tcpProcessRefusedData_ok sound).andThen fun offered offeredSound => ?_
  split
  · exact ⟨offered, rfl, offeredSound, Kept.refl offered⟩
  · rename_i pcb has
    split
    · exact ⟨offered, rfl, offeredSound, Kept.refl offered⟩
    split
    · let received := { pcb with
        rcvWnd := pcb.rcvWnd - tcplen data fin
        state := if fin then .CLOSE_WAIT else .ESTABLISHED }
      have synchronized : received.state = .ESTABLISHED ∨ received.state = .CLOSE_WAIT := by
        cases fin <;> simp [received]
      obtain ⟨told, result, toldSound, kept⟩ := tcpInputData_ok (offeredSound.setPcb synchronized) rfl data
      simp only [result, received, ok_bind]
      have keptTold : Kept offered told := Kept.attached has kept.id kept.mboxInvalid
      split
      · obtain ⟨next, finished, after, keptFin⟩ := tcpInputFin_ok toldSound
        exact ⟨next, finished, after, keptTold.trans keptFin⟩
      · exact ⟨told, rfl, toldSound, keptTold⟩
    · exact ⟨offered, rfl, offeredSound, Kept.refl offered⟩

theorem tcpInputReset_ok {conn : Connection} (sound : Sound conn) : Ok conn conn.tcpInputReset := by
  refine (tcpProcessRefusedData_ok sound).andThen fun offered offeredSound => ?_
  split
  · exact ⟨offered, rfl, offeredSound, Kept.refl offered⟩
  · obtain ⟨next, result, after, kept, -⟩ := errTcp_ok offeredSound (Or.inr (Or.inl rfl))
    exact ⟨next, result, after, kept⟩

/-- No event of the stack fails an assertion at a sound connection, and the connection stays sound. -/
theorem peerEvent_ok {conn : Connection} (sound : Sound conn) (event : PeerEvent) : Ok conn (conn.peerEvent event) := by
  cases event with
  | segment data fin => exact tcpInput_ok sound data fin
  | reset => exact tcpInputReset_ok sound
  | timeout =>
      unfold peerEvent
      simp only
      split
      · obtain ⟨next, result, after, kept, -⟩ := errTcp_ok sound (Or.inl rfl)
        exact ⟨next, result, after, kept⟩
      · exact ⟨conn, rfl, sound, Kept.refl conn⟩
  | fastTimer => exact tcpProcessRefusedData_ok sound

end Connection

end Tun2Socket.Lwip
