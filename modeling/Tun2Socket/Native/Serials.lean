import Tun2Socket.Native.Transmit

namespace Tun2Socket.Native
open Lwip Library

def Pc.serial : Pc → Option Nat
  | .write _ written => some written.serial
  | _ => none

def TxSection.serial : TxSection → Option Nat
  | .write _ written => some written.serial
  | _ => none

/-- A numbered packet stands with a writer, in a tx section, in a callback or in one position of a log. -/
inductive Place where
  | thread (thread : Tid)
  | holder (handle : Hid)
  | accepted (handle : Hid) (index : Nat)
  | callback
  | delivered (handle : Hid) (index : Nat)
  deriving DecidableEq

namespace World

/-- The serial of the packet that a place carries. -/
def carried (w : World) : Place → Option Nat
  | .thread thread => (w.pcs thread).serial
  | .holder handle => (w.handles handle).txMutex.bind TxSection.serial
  | .accepted handle index => (w.handles handle).log.accepted[index]?.map Write.serial
  | .callback => w.callback.map (·.packet.serial)
  | .delivered handle index => (w.handles handle).log.delivered[index]?.map Packet.serial

/-- Every serial was handed out once and stands at one place. -/
structure Unique (w : World) : Prop where
  below : ∀ place serial, w.carried place = some serial → serial < w.nextSerial
  once : ∀ first second serial, w.carried first = some serial → w.carried second = some serial → first = second

namespace Unique

variable {w next : World} {act : Act}

/-- A step that takes each packet from a place of its own keeps the serials unique. -/
theorem via (unique : w.Unique) (origin : Place → Place) (mono : w.nextSerial ≤ next.nextSerial)
    (kept : ∀ place serial, next.carried place = some serial → w.carried (origin place) = some serial)
    (apart : ∀ first second serial, next.carried first = some serial → next.carried second = some serial →
      origin first = origin second → first = second) : next.Unique where
  below place serial carried := Nat.lt_of_lt_of_le (unique.below _ _ (kept place serial carried)) mono
  once first second serial left right :=
    apart first second serial left right
      (unique.once _ _ serial (kept first serial left) (kept second serial right))

theorem keep (unique : w.Unique) (same : next.nextSerial = w.nextSerial)
    (kept : ∀ place serial, next.carried place = some serial → w.carried place = some serial) : next.Unique :=
  unique.via id (Nat.le_of_eq same.symm) kept (fun _ _ _ _ _ same => same)

/-- A packet that moves to an empty place keeps the serials unique. -/
theorem move (unique : w.Unique) (source target : Place) (same : next.nextSerial = w.nextSerial)
    (arrived : ∀ serial, next.carried target = some serial → w.carried source = some serial)
    (left : next.carried source = none)
    (kept : ∀ place serial, place ≠ source → place ≠ target → next.carried place = some serial →
      w.carried place = some serial) : next.Unique := by
  refine unique.via (fun place => if place = target then source else place) (Nat.le_of_eq same.symm) ?_ ?_
  · intro place serial carried
    by_cases here : place = target
    · subst here
      rw [if_pos rfl]
      exact arrived serial carried
    · rw [if_neg here]
      refine kept place serial ?_ here carried
      rintro rfl
      rw [left] at carried
      cases carried
  · intro first second serial one two
    have notSource : ∀ place, next.carried place = some serial → place ≠ source := by
      rintro place carried rfl
      rw [left] at carried
      cases carried
    by_cases a : first = target <;> by_cases b : second = target
    · intro _; rw [a, b]
    · rw [if_pos a, if_neg b]
      exact fun equal => absurd equal.symm (notSource second two)
    · rw [if_neg a, if_pos b]
      exact fun equal => absurd equal (notSource first one)
    · rw [if_neg a, if_neg b]
      exact id

/-- A new packet takes the next serial. -/
theorem fresh (unique : w.Unique) (target : Place) (more : next.nextSerial = w.nextSerial + 1)
    (arrived : ∀ serial, next.carried target = some serial → serial = w.nextSerial)
    (kept : ∀ place serial, place ≠ target → next.carried place = some serial → w.carried place = some serial) :
    next.Unique where
  below place serial carried := by
    by_cases here : place = target
    · subst here
      have := arrived serial carried
      omega
    · have := unique.below place serial (kept place serial here carried)
      omega
  once first second serial one two := by
    have old : ∀ place, place ≠ target → next.carried place = some serial → serial < w.nextSerial :=
      fun place away carried => unique.below place serial (kept place serial away carried)
    by_cases a : first = target <;> by_cases b : second = target
    · rw [a, b]
    · have := old second b two
      have := arrived serial (a ▸ one)
      omega
    · have := old first a one
      have := arrived serial (b ▸ two)
      omega
    · exact unique.once first second serial (kept first serial a one) (kept second serial b two)

end Unique

section Steps

variable {w next : World} {act : Act}

theorem thread_quiet {thread : Tid} {pc : Pc} (plain : pc.serial = none) (other : Tid) (serial : Nat)
    (carried : (Function.update w.pcs thread pc other).serial = some serial) : (w.pcs other).serial = some serial := by
  by_cases same : other = thread
  · subst same
    rw [Function.update_self, plain] at carried
    cases carried
  · rwa [Function.update_of_ne same] at carried

/-- An update of one handle that adds nothing to its section and its logs carries nothing new. -/
structure Settled (w : World) (handle : Hid) (value : Handle) : Prop where
  held : ∀ serial, value.txMutex.bind TxSection.serial = some serial →
    (w.handles handle).txMutex.bind TxSection.serial = some serial
  accepted : ∀ serial (index : Nat), value.log.accepted[index]?.map Write.serial = some serial →
    (w.handles handle).log.accepted[index]?.map Write.serial = some serial
  delivered : ∀ serial (index : Nat), value.log.delivered[index]?.map Packet.serial = some serial →
    (w.handles handle).log.delivered[index]?.map Packet.serial = some serial

theorem Settled.refl (w : World) (handle : Hid) : w.Settled handle (w.handles handle) :=
  ⟨fun _ => id, fun _ _ => id, fun _ _ => id⟩

/-- After an update of one handle each place carries what it did, as long as the places of that handle do. -/
theorem carried_update {handle : Hid} {value : Handle} {place : Place} {serial : Nat}
    (handles : next.handles = Function.update w.handles handle value)
    (threads : ∀ thread, place = .thread thread → (next.pcs thread).serial = some serial →
      (w.pcs thread).serial = some serial)
    (callback : place = .callback → next.callback.map (·.packet.serial) = some serial →
      w.callback.map (·.packet.serial) = some serial)
    (held : place = .holder handle → value.txMutex.bind TxSection.serial = some serial →
      (w.handles handle).txMutex.bind TxSection.serial = some serial)
    (accepted : ∀ index : Nat, place = .accepted handle index → value.log.accepted[index]?.map Write.serial = some serial →
      (w.handles handle).log.accepted[index]?.map Write.serial = some serial)
    (delivered : ∀ index : Nat, place = .delivered handle index →
      value.log.delivered[index]?.map Packet.serial = some serial →
      (w.handles handle).log.delivered[index]?.map Packet.serial = some serial)
    (carried : next.carried place = some serial) : w.carried place = some serial := by
  cases place with
  | thread thread => exact threads thread rfl carried
  | callback => exact callback rfl carried
  | holder other =>
      simp only [World.carried, handles] at carried ⊢
      by_cases same : other = handle
      · subst same
        rw [Function.update_self] at carried
        exact held rfl carried
      · rwa [Function.update_of_ne same] at carried
  | accepted other index =>
      simp only [World.carried, handles] at carried ⊢
      by_cases same : other = handle
      · subst same
        rw [Function.update_self] at carried
        exact accepted index rfl carried
      · rwa [Function.update_of_ne same] at carried
  | delivered other index =>
      simp only [World.carried, handles] at carried ⊢
      by_cases same : other = handle
      · subst same
        rw [Function.update_self] at carried
        exact delivered index rfl carried
      · rwa [Function.update_of_ne same] at carried

theorem Unique.settle {handle : Hid} {value : Handle} (unique : w.Unique) (same : next.nextSerial = w.nextSerial)
    (handles : next.handles = Function.update w.handles handle value) (settled : w.Settled handle value)
    (threads : ∀ thread serial, (next.pcs thread).serial = some serial → (w.pcs thread).serial = some serial)
    (callback : ∀ serial, next.callback.map (·.packet.serial) = some serial →
      w.callback.map (·.packet.serial) = some serial) : next.Unique :=
  unique.keep same fun _ serial => carried_update handles (fun thread _ => threads thread serial) (fun _ => callback serial)
    (fun _ => settled.held serial) (fun index _ => settled.accepted serial index) fun index _ => settled.delivered serial index

theorem Settled.of_logs {handle : Hid} {value : Handle} (free : value.txMutex.bind TxSection.serial = none)
    (log : value.log.accepted = (w.handles handle).log.accepted ∧ value.log.delivered = (w.handles handle).log.delivered) :
    w.Settled handle value := by
  refine ⟨?_, ?_, ?_⟩
  · intro serial held
    rw [free] at held
    cases held
  · intro serial index inside
    rwa [log.1] at inside
  · intro serial index inside
    rwa [log.2] at inside

theorem Unique.quiet (unique : w.Unique) (same : next.nextSerial = w.nextSerial) (handles : next.handles = w.handles)
    (threads : ∀ thread serial, (next.pcs thread).serial = some serial → (w.pcs thread).serial = some serial)
    (callback : ∀ serial, next.callback.map (·.packet.serial) = some serial →
      w.callback.map (·.packet.serial) = some serial) : next.Unique := by
  refine unique.settle same ?_ (Settled.refl w 0) threads callback
  rw [handles, Function.update_eq_self]

theorem getElem?_concat_serial {A : Type} (f : A → Nat) (items : List A) (item : A) (index serial : Nat)
    (inside : (items ++ [item])[index]?.map f = some serial) (other : index ≠ items.length) :
    items[index]?.map f = some serial := by
  by_cases before : index < items.length
  · rwa [List.getElem?_append_left before] at inside
  · rw [List.getElem?_eq_none (by simp; omega)] at inside
    cases inside

/-- Every step of the world keeps the serials unique. -/
theorem Unique.step (unique : w.Unique) (sound : w.Sound) (moved : Transition w act next) :
    next.Unique := by
  cases moved
  case enter entry =>
    exact unique.quiet rfl rfl (thread_quiet (by cases entry <;> rfl)) (fun _ => id)
  case refuseCall | lockAttach | lockListen | lockClose | lockStack | attachFail | listenFail | leaveStack =>
    exact unique.quiet rfl rfl (thread_quiet rfl) (fun _ => id)
  case fetch | pollLockCore | pollDone | outputNone | receiveNone =>
    exact unique.quiet rfl rfl (fun _ _ => id) (fun _ => id)
  case startWrite thread _ handle write _ idle _ serial _ =>
    refine unique.fresh (.thread thread) rfl ?_ ?_
    · intro number carried
      simp only [World.carried, setPc, Function.update_self] at carried
      obtain rfl := Option.some.inj carried
      exact serial
    · intro place number apart carried
      cases place with
      | thread other =>
          have away : other ≠ thread := fun same => apart (congrArg Place.thread same)
          simpa [World.carried, setPc, Function.update_of_ne away] using carried
      | _ => exact carried
  case linkFree | lockRead | relock | lockClosing | readClosed | wait | take | finishFree =>
    exact unique.settle rfl rfl ⟨fun _ => id, fun _ _ => id, fun _ _ => id⟩ (thread_quiet rfl) (fun _ => id)
  case attach | listen =>
    exact unique.settle rfl rfl ⟨(fun _ carried => by cases carried), (fun _ _ carried => by cases carried),
      (fun _ _ carried => by cases carried)⟩ (thread_quiet rfl) (fun _ => id)
  case closeReturn =>
    refine unique.settle rfl rfl ⟨fun _ => id, fun _ _ => id, fun _ _ => id⟩ (thread_quiet ?_) (fun _ => id)
    split <;> rfl
  case spuriousWake | injectLink | injectUdp | callbackLockRx =>
    exact unique.settle rfl rfl ⟨fun _ => id, fun _ _ => id, fun _ _ => id⟩ (fun _ _ => id) (fun _ => id)
  case refuse | postNone | setPolling =>
    exact unique.settle rfl rfl (.of_logs rfl ⟨rfl, rfl⟩) (thread_quiet rfl) (fun _ => id)
  case post | pollPop | pollLockTx =>
    exact unique.settle rfl rfl (.of_logs rfl ⟨rfl, rfl⟩) (fun _ _ => id) (fun _ => id)
  case lockTx thread handle write pc unlocked =>
    refine unique.move (.thread thread) (.holder handle) rfl ?_ ?_ ?_
    · intro serial carried
      simp only [World.carried, setPc, setHandle, Function.update_self] at carried
      simp only [World.carried, pc]
      exact carried
    · simp [World.carried, setPc, Pc.serial]
    · intro place serial notSource notTarget
      refine carried_update rfl (fun other here carried => ?_) (fun _ => id) (fun here => absurd here notTarget)
        (fun _ _ => id) fun _ _ => id
      have away : other ≠ thread := fun same => notSource (here.trans (congrArg Place.thread same))
      simpa [setPc, setHandle, Function.update_of_ne away] using carried
  case append thread handle write posts inside _ =>
    refine unique.move (.holder handle) (.accepted handle (w.handles handle).log.accepted.length) rfl ?_ ?_ ?_
    · intro serial carried
      simp only [World.carried, setHandle, free, Function.update_self, Handle.appendTx, List.getElem?_concat_length,
        Option.map_some] at carried
      simp only [World.carried, inside]
      exact carried
    · simp [World.carried, setHandle, Handle.appendTx, TxSection.serial]
    · intro place serial notSource notTarget
      refine carried_update rfl (fun _ _ => id) (fun _ => id) (fun here => absurd here notSource)
        (fun index here carried => ?_) fun _ _ => id
      refine getElem?_concat_serial _ _ write index serial carried ?_
      rintro rfl
      exact notTarget here
  case deliver handle packet woken inside _ =>
    have called : w.callback = some ⟨handle, packet⟩ := sound.locks.rx _ _ inside
    refine unique.move .callback (.delivered handle (w.handles handle).log.delivered.length) rfl ?_ ?_ ?_
    · intro serial carried
      simp only [World.carried, setHandle, free, Function.update_self, Handle.deliverRx, List.getElem?_concat_length,
        Option.map_some] at carried
      simp only [World.carried, called]
      exact carried
    · rfl
    · intro place serial notSource notTarget
      refine carried_update rfl (fun _ _ => id) (fun here => absurd here notSource) (fun _ => id) (fun _ _ => id)
        fun index here carried => ?_
      refine getElem?_concat_serial _ _ packet index serial carried ?_
      rintro rfl
      exact notTarget here
  case output | receive =>
    refine unique.fresh .callback rfl ?_ ?_
    · intro serial carried
      exact (Option.some.inj carried).symm
    · intro place serial apart carried
      cases place with
      | callback => exact absurd rfl apart
      | _ => exact carried

theorem init_unique : init.Unique where
  below place serial carried := by cases place <;> cases carried
  once first second serial carried _ := by cases first <;> cases carried

theorem Unique.reachable {allowed : World → Act → Prop} (reached : machine.Reachable allowed w) : w.Unique := by
  have both : w.Sound ∧ w.Unique := by
    refine reached.invariant (fun w => w.Sound ∧ w.Unique) ?_ ?_
    · rintro _ rfl
      exact ⟨init_sound, init_unique⟩
    · intro before action after ⟨sound, unique⟩ _ stepped
      have moved := step_transition stepped
      exact ⟨sound.step moved, unique.step sound moved⟩
  exact both.2

theorem nodup_of_places {A : Type} (f : A → Nat) (items : List A) (place : Nat → Place)
    (injective : ∀ first second, place first = place second → first = second)
    (unique : w.Unique) (carried : ∀ index, w.carried (place index) = items[index]?.map f) : (items.map f).Nodup := by
  rw [List.nodup_iff_getElem?_ne_getElem?]
  intro first second before inside same
  rw [List.length_map] at inside
  have one : w.carried (place second) = some (f items[second]) := by
    rw [carried, List.getElem?_eq_getElem inside]
    rfl
  have two : w.carried (place first) = some (f items[second]) := by
    rw [carried, ← List.getElem?_map, same, List.getElem?_map, List.getElem?_eq_getElem inside]
    rfl
  have := injective _ _ (unique.once _ _ _ two one)
  omega

/-- No packet is accepted twice. -/
theorem Unique.accepted (unique : w.Unique) (handle : Hid) :
    ((w.handles handle).log.accepted.map Write.serial).Nodup :=
  nodup_of_places Write.serial _ (.accepted handle) (fun _ _ same => (Place.accepted.inj same).2) unique (fun _ => rfl)

/-- No packet is delivered twice. -/
theorem Unique.delivered (unique : w.Unique) (handle : Hid) :
    ((w.handles handle).log.delivered.map Packet.serial).Nodup :=
  nodup_of_places Packet.serial _ (.delivered handle) (fun _ _ same => (Place.delivered.inj same).2) unique
    (fun _ => rfl)

end Steps

end World

end Tun2Socket.Native
