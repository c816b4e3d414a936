import Mathlib.Tactic.Common

namespace Tun2Socket.Native

def DEFAULT_MTU : Int := 1500

/-- The only output function that the repository installs is the one of a link. -/
inductive OutputFunc where
  | ifOutput
  deriving DecidableEq

/-- The global interface keeps its output pair and the mtu of its netif. -/
structure Interface (Context : Type) where
  outputFunc : Option OutputFunc
  outputContext : Option Context
  mtu : UInt16

namespace Interface

variable {Context : Type}

/-- The interface starts without a device. -/
def globalInterfaceInit : Interface Context := ⟨none, none, .ofInt DEFAULT_MTU⟩

/-- The attachment stores the pair and replaces an mtu that is not positive. The netif keeps 16 bits of it. -/
def globalInterfaceAttachDevice (_ : Interface Context) (output : Option OutputFunc) (state : Option Context)
    (mtu : Int) : Interface Context :=
  ⟨output, state, .ofInt (if mtu ≤ 0 then DEFAULT_MTU else mtu)⟩

def globalInterfaceIsAttached (interface : Interface Context) : Bool :=
  interface.outputFunc.isSome || interface.outputContext.isSome

/-- The output goes to the attached context, if there is an output function. -/
def globalIfOutput (interface : Interface Context) : Option Context :=
  match interface.outputFunc with
  | none => none
  | some .ifOutput => interface.outputContext

/-- The pair names the given link, or nothing. -/
def Names (interface : Interface Context) (link : Option Context) : Prop :=
  interface.outputFunc = link.map (fun _ => OutputFunc.ifOutput) ∧ interface.outputContext = link

theorem isAttached_iff {interface : Interface Context} {link : Option Context} (names : interface.Names link) :
    interface.globalInterfaceIsAttached = link.isSome := by
  cases link <;> simp [globalInterfaceIsAttached, names.1, names.2]

theorem output_eq {interface : Interface Context} {link : Option Context} (names : interface.Names link) :
    interface.globalIfOutput = link := by
  cases link <;> simp [globalIfOutput, names.1, names.2]

end Interface

end Tun2Socket.Native
