import Mathlib.Data.List.Basic

/-!
# The OPEN frames of the control protocol

A client opens a tunnel with an OPEN request, and the server answers with an
OPEN response of fixed size. Both are big-endian and carry the magic number and
the version in front. The length of a request stands in its ninth and tenth
byte, so that a receiver can cut it off the stream.
-/

namespace TcpQuicProxy

abbrev Bytes := List UInt8

namespace Protocol

def magic0 : UInt8 := 0x54
def magic1 : UInt8 := 0x51
def version : UInt8 := 0x01
def cmdOpen : UInt8 := 0x01
def cmdOpenOk : UInt8 := 0x02
def cmdOpenFail : UInt8 := 0x03
def cmdSpeedStart : UInt8 := 0x10
def cmdClientHello : UInt8 := 0x20

def addrIpv4 : UInt8 := 0x01
def addrIpv6 : UInt8 := 0x02
def addrDomain : UInt8 := 0x03

def flagCompress : UInt8 := 0x01
def flagDnsRemote : UInt8 := 0x04

def openResponseSize : Nat := 9

inductive OpenError where
  | ok
  | aclDenied
  | dnsFailed
  | tcpTimeout
  | tcpRefused
  | internal
  deriving DecidableEq

def OpenError.code : OpenError → UInt8
  | .ok => 0x00
  | .aclDenied => 0x01
  | .dnsFailed => 0x02
  | .tcpTimeout => 0x03
  | .tcpRefused => 0x04
  | .internal => 0x05

structure OpenRequest where
  flags : UInt8
  addrType : UInt8
  port : UInt16
  addr : Bytes
  deriving DecidableEq

/-- `Error` may hold any byte after decoding, so it is kept as one. -/
structure OpenResponse where
  ok : Bool
  error : UInt8
  connId : UInt32
  deriving DecidableEq

/-- The byte at an offset; only read below the length. -/
def byteAt (data : Bytes) (i : Nat) : UInt8 := data.getD i 0

def readU16BE (data : Bytes) (i : Nat) : UInt16 :=
  ((byteAt data i).toUInt16 <<< 8) ||| (byteAt data (i + 1)).toUInt16

def readU32BE (data : Bytes) (i : Nat) : UInt32 :=
  ((byteAt data i).toUInt32 <<< 24) ||| ((byteAt data (i + 1)).toUInt32 <<< 16) |||
    ((byteAt data (i + 2)).toUInt32 <<< 8) ||| (byteAt data (i + 3)).toUInt32

def writeU32BE (v : UInt32) : Bytes :=
  [(v >>> 24).toUInt8, (v >>> 16).toUInt8, (v >>> 8).toUInt8, v.toUInt8]

def OpenRequest.validateAddr (req : OpenRequest) : Bool :=
  if req.addrType = addrIpv4 then req.addr.length = 4
  else if req.addrType = addrIpv6 then req.addr.length = 16
  else if req.addrType = addrDomain then
    0 < req.addr.length && req.addr.length ≤ 255 && req.flags &&& flagDnsRemote ≠ 0
  else false

/-- The length that the header of a request announces. -/
def openRequestLength (data : Bytes) : Nat := 11 + (readU16BE data 8).toNat

def decodeOpenRequest (data : Bytes) : Option OpenRequest :=
  if data.length < 11 then none
  else if byteAt data 0 ≠ magic0 || byteAt data 1 ≠ magic1 then none
  else if byteAt data 2 ≠ version then none
  else if byteAt data 3 ≠ cmdOpen then none
  else if data.length ≠ openRequestLength data then none
  else
    let addrLen := (readU16BE data 8).toNat
    let req : OpenRequest := {
      flags := byteAt data 4
      addrType := byteAt data 5
      port := readU16BE data 6
      addr := (data.drop 10).take addrLen }
    if byteAt data (10 + addrLen) ≠ 0 then none
    else if req.validateAddr then some req
    else none

def encodeOpenResponse (resp : OpenResponse) : Option Bytes :=
  if resp.ok && resp.error ≠ OpenError.ok.code then none
  else if !resp.ok && resp.error = OpenError.ok.code then none
  else some ([magic0, magic1, version, if resp.ok then cmdOpenOk else cmdOpenFail, resp.error] ++
    writeU32BE resp.connId)

def decodeOpenResponse (data : Bytes) : Option OpenResponse :=
  if data.length ≠ openResponseSize then none
  else if byteAt data 0 ≠ magic0 || byteAt data 1 ≠ magic1 then none
  else if byteAt data 2 ≠ version then none
  else if byteAt data 3 ≠ cmdOpenOk && byteAt data 3 ≠ cmdOpenFail then none
  else
    let resp : OpenResponse := {
      ok := byteAt data 3 = cmdOpenOk
      error := byteAt data 4
      connId := readU32BE data 5 }
    if resp.ok && resp.error ≠ OpenError.ok.code then none
    else if !resp.ok && resp.error = OpenError.ok.code then none
    else some resp

theorem byteAt_append {data : Bytes} {i : Nat} (h : i < data.length) (rest : Bytes) :
    byteAt (data ++ rest) i = byteAt data i := by
  unfold byteAt
  rw [List.getD_eq_getElem?_getD, List.getD_eq_getElem?_getD, List.getElem?_append_left h]

/-- A request that decodes is as long as its header says. -/
theorem length_of_decodeOpenRequest {data : Bytes} {req : OpenRequest}
    (h : decodeOpenRequest data = some req) :
    data.length = openRequestLength data ∧ 11 ≤ data.length := by
  unfold decodeOpenRequest at h
  split at h
  · cases h
  next hshort =>
    split_ifs at h with _ _ _ hlen
    all_goals exact ⟨not_not.mp hlen, by omega⟩

theorem length_of_decodeOpenResponse {data : Bytes} {resp : OpenResponse}
    (h : decodeOpenResponse data = some resp) :
    data.length = openResponseSize := by
  unfold decodeOpenResponse at h
  split at h
  · cases h
  next hlen => exact not_not.mp hlen

end Protocol
end TcpQuicProxy
