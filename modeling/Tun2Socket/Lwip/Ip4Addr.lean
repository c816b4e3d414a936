import Mathlib.Tactic.Common

namespace Tun2Socket.Lwip

/-- An IPv4 address is its four bytes in network order. -/
structure Ip4Addr where
  byte0 : UInt8
  byte1 : UInt8
  byte2 : UInt8
  byte3 : UInt8
  deriving DecidableEq

namespace Ip4Addr

def any : Ip4Addr := ⟨0, 0, 0, 0⟩

def broadcast : Ip4Addr := ⟨255, 255, 255, 255⟩

def isAny (addr : Ip4Addr) : Bool := addr = any

/-- An interface without the broadcast flag knows the addresses of all ones and of all zeros. -/
def isBroadcast (addr : Ip4Addr) : Bool := addr = broadcast || addr = any

/-- The class D addresses have the top four bits 1110. -/
def isMulticast (addr : Ip4Addr) : Bool := addr.byte0 &&& 0xf0 = 0xe0

def toBytes (addr : Ip4Addr) : List UInt8 := [addr.byte0, addr.byte1, addr.byte2, addr.byte3]

@[simp] theorem toBytes_length (addr : Ip4Addr) : addr.toBytes.length = 4 := rfl

end Ip4Addr

end Tun2Socket.Lwip
