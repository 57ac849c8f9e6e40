import TcpQuicProxy.Protocol.OpenFrame

/-!
# Socket addresses and their text

The sockets layer of the platform. Address texts are read and printed by the
operating system (`inet_pton`, `inet_ntop`), so these functions are parameters:
`Inet` is any pair of them, and `LawfulInet` one that reads back what it prints
and does not take one family's text for the other's.
-/

namespace TcpQuicProxy.Platform

inductive Family where
  | inet
  | inet6
  deriving DecidableEq

def Family.byteCount : Family → Nat
  | .inet => 4
  | .inet6 => 16

abbrev Ipv4 := Vector UInt8 4

abbrev Ipv6 := Vector UInt8 16

/-- A `sockaddr_storage`; a family other than the two is kept as a number. -/
inductive SockAddr where
  | inet (addr : Ipv4) (port : UInt16)
  | inet6 (addr : Ipv6) (port : UInt16) (flowInfo scopeId : UInt32)
  | other (family : UInt16)
  deriving DecidableEq

/-- The part of a string that a function taking a C string sees. -/
def cString (s : Bytes) : Bytes := s.takeWhile (· ≠ 0)

theorem cString_of_not_mem {s : Bytes} (h : (0 : UInt8) ∉ s) : cString s = s := by
  unfold cString
  induction s with
  | nil => rfl
  | cons b s ih =>
    have hb : b ≠ 0 := fun h0 => h (h0 ▸ List.mem_cons_self)
    rw [List.takeWhile_cons_of_pos (by simpa using hb), ih fun hs => h (List.mem_cons_of_mem b hs)]

/-- The bytes of an ASCII text. -/
def ascii (s : String) : Bytes := s.toList.map fun c => UInt8.ofNat c.toNat

structure Inet where
  pton4 : Bytes → Option Ipv4
  pton6 : Bytes → Option Ipv6
  ntop4 : Ipv4 → Bytes
  ntop6 : Ipv6 → Bytes

structure LawfulInet extends Inet where
  pton4_ntop4 : ∀ a, pton4 (ntop4 a) = some a
  pton6_ntop6 : ∀ a, pton6 (ntop6 a) = some a
  pton4_ntop6 : ∀ a, pton4 (ntop6 a) = none
  zero_not_mem_ntop4 : ∀ a, (0 : UInt8) ∉ ntop4 a
  zero_not_mem_ntop6 : ∀ a, (0 : UInt8) ∉ ntop6 a

end TcpQuicProxy.Platform
