import TcpQuicProxy.Ingress.ProxyAuth

/-!
# The CONNECT requests of the proxy protocols

A SOCKS5 request and an HTTP CONNECT request both end up as a `TunnelRequest`,
whose host is a NUL-terminated text in an array of fixed size. The array is
copied from a string that may have zero bytes of its own.
-/

namespace TcpQuicProxy.Ingress

open Platform Protocol Wire

def hostSize : Nat := 256

structure TunnelRequest where
  addrType : UInt8
  host : Vector UInt8 hostSize
  port : UInt16
  compressFlags : UInt8
  ingressTraceProto : UInt8
  deriving DecidableEq

/-- `TunnelRequest{}`. -/
def TunnelRequest.empty : TunnelRequest := ⟨0, Vector.replicate hostSize 0, 0, 0, 0⟩

/-- The array after `memcpy` of a string and its terminator into a zeroed one. -/
def hostField (host : Bytes) : Vector UInt8 hostSize := Vector.ofFn fun i => host.getD i 0

/-! ### SOCKS5 -/

def socks5Version : UInt8 := 0x05
def socks5CmdConnect : UInt8 := 0x01
def socks5Rsv : UInt8 := 0x00
def socks5AtypIpv4 : UInt8 := 0x01
def socks5AtypDomain : UInt8 := 0x03
def socks5AtypIpv6 : UInt8 := 0x04

/-- The four, or sixteen, bytes at an offset; only read below the length. -/
def bytesAt (data : Bytes) (offset n : Nat) : Vector UInt8 n :=
  Vector.ofFn fun i => byteAt data (offset + i)

/-- The host text, the address type and the offset of the port. -/
def socks5Host (inet : Inet) (request : Bytes) : Option (Bytes × UInt8 × Nat) :=
  if byteAt request 3 = socks5AtypIpv4 then
    if request.length ≠ 10 then none
    else some (inet.ntop4 (bytesAt request 4 4), addrIpv4, 8)
  else if byteAt request 3 = socks5AtypDomain then
    let len := (byteAt request 4).toNat
    if len = 0 || request.length ≠ 7 + len then none
    else some ((request.drop 5).take len, addrDomain, 5 + len)
  else if byteAt request 3 = socks5AtypIpv6 then
    if request.length ≠ 22 then none
    else some (inet.ntop6 (bytesAt request 4 16), addrIpv6, 20)
  else none

def parseSocks5ConnectRequest (inet : Inet) (request : Bytes) : Option TunnelRequest :=
  if request.length < 7 || byteAt request 0 ≠ socks5Version ||
    byteAt request 1 ≠ socks5CmdConnect ||
      byteAt request 2 ≠ socks5Rsv then none
  else
    match socks5Host inet request with
    | none => none
    | some (host, addrType, offset) =>
      if host.isEmpty || hostSize ≤ host.length || offset + 2 ≠ request.length then none
      else if readU16BE request offset = 0 then none
      else some { TunnelRequest.empty with
        addrType := addrType
        host := hostField host
        port := readU16BE request offset }

/-! ### HTTP CONNECT -/

structure HostPort where
  host : Bytes
  port : UInt16
  deriving DecidableEq

/-- The decimal digits of a port; `value` is what the earlier digits gave. -/
def parsePortDigits : Nat → Bytes → Option Nat
  | value, [] => some value
  | value, ch :: rest =>
    if ch < 0x30 || 0x39 < ch then none
    else
      let value' := value * 10 + (ch - 0x30).toNat
      if 65535 < value' then none else parsePortDigits value' rest

def parsePort (text : Bytes) : Option UInt16 :=
  if text.isEmpty then none
  else
    match parsePortDigits 0 text with
    | none => none
    | some value => if value = 0 then none else some (UInt16.ofNat value)

def openBracket : UInt8 := 0x5B
def closeBracket : UInt8 := 0x5D

/-- The host and the port text of a target. -/
def splitHostPort (target : Bytes) : Option (Bytes × Bytes) :=
  if target.head? = some openBracket then
    match find [closeBracket] target with
    | none => none
    | some close =>
      if target.length ≤ close + 1 || byteAt target (close + 1) ≠ colon then none
      else some ((target.drop 1).take (close - 1), target.drop (close + 2))
  else
    match findLast colon target with
    | none => none
    | some i =>
      if i = 0 || target.length ≤ i + 1 then none
      else if (find [colon] (target.take i)).isSome then none
      else some (target.take i, target.drop (i + 1))

def parseHostPort (target : Bytes) : Option HostPort :=
  if target.isEmpty || (find (ascii "://") target).isSome then none
  else
    match splitHostPort target with
    | none => none
    | some (host, portText) =>
      if host.isEmpty then none
      else
        match parsePort portText with
        | none => none
        | some port => some ⟨host, port⟩

/-- `inet_pton` sees the host as a C string. -/
def addrTypeForHost (inet : Inet) (host : Bytes) : UInt8 :=
  if (inet.pton4 (cString host)).isSome then addrIpv4
  else if (inet.pton6 (cString host)).isSome then addrIpv6
  else addrDomain

/-- The target of a request line `CONNECT target HTTP/1.x`. -/
def connectTarget (line : Bytes) : Option Bytes :=
  match find [space] line with
  | none => none
  | some methodEnd =>
    match findFrom [space] (methodEnd + 1) line with
    | none => none
    | some targetEnd =>
      if (findFrom [space] (targetEnd + 1) line).isSome then none
      else
        let method := line.take methodEnd
        let target := (line.drop (methodEnd + 1)).take (targetEnd - methodEnd - 1)
        let version := line.drop (targetEnd + 1)
        if method ≠ ascii "CONNECT" || ¬ascii "HTTP/1." <+: version || version.length ≠ 8 then none
        else some target

def parseHttpConnectRequest (inet : Inet) (request : Bytes) : Option TunnelRequest :=
  match find headerTerminator request with
  | none => none
  | some headerEnd =>
    match find crlf request with
    | none => none
    | some lineEnd =>
      if lineEnd = 0 || headerEnd < lineEnd then none
      else
        match connectTarget (request.take lineEnd) with
        | none => none
        | some target =>
          match parseHostPort target with
          | none => none
          | some hostPort =>
            if hostSize ≤ hostPort.host.length then none
            else some { TunnelRequest.empty with
              addrType := addrTypeForHost inet hostPort.host
              host := hostField hostPort.host
              port := hostPort.port }

/-! ### Fields of a byte string -/

theorem eq_byteAt_cons {b : Bytes} (h : 2 ≤ b.length) :
    b = byteAt b 0 :: byteAt b 1 :: b.drop 2 := by
  match b, h with
  | _ :: _ :: _, _ => rfl

theorem drop_eq_byteAt_cons {b : Bytes} {k : Nat} (h : k < b.length) :
    b.drop k = byteAt b k :: b.drop (k + 1) := by
  rw [List.drop_eq_getElem_cons h, byteAt, List.getD_eq_getElem?_getD, List.getElem?_eq_getElem h,
    Option.getD_some]

/-- The bytes at a position, cut into a field of a given length and the rest. -/
theorem drop_eq_take_append {b : Bytes} (k n : Nat) :
    b.drop k = (b.drop k).take n ++ b.drop (k + n) := by
  rw [← List.drop_drop, List.take_append_drop]

theorem length_field {b : Bytes} {k n : Nat} (h : k + n ≤ b.length) :
    ((b.drop k).take n).length = n := by
  rw [List.length_take, List.length_drop]
  omega

end TcpQuicProxy.Ingress
