import TcpQuicProxy.Protocol.OpenFrame
import TcpQuicProxy.Wire.BigEndian

/-!
# The other frames of the control protocol

The client hello names a client, and the five speed frames run a speed test over
a control stream of its own. All of them start with the same four bytes, and the
fields follow at fixed offsets; two of them end in a string whose length stands
in front of it. Enumerations travel as bytes and are kept as such, since the
encoders check them.
-/

namespace TcpQuicProxy.Protocol

def cmdSpeedReady : UInt8 := 0x11
def cmdSpeedFinish : UInt8 := 0x12
def cmdSpeedResult : UInt8 := 0x13
def cmdSpeedError : UInt8 := 0x14

def speedStartSize : Nat := 16
def speedReadyMinSize : Nat := 13
def speedFinishSize : Nat := 24
def speedResultSize : Nat := 33
def speedErrorMinSize : Nat := 11
def speedErrorMaxMessageLen : Nat := 1024
def clientHelloMinSize : Nat := 6
def clientHelloMaxNameLen : Nat := 64

inductive SpeedDirection where
  | download
  | upload
  deriving DecidableEq

def SpeedDirection.code : SpeedDirection → UInt8
  | .download => 1
  | .upload => 2

inductive SpeedError where
  | ok
  | invalidRequest
  | bindFailed
  | listenFailed
  | internal
  | timeout
  | unsupported
  deriving DecidableEq

def SpeedError.code : SpeedError → UInt8
  | .ok => 0x00
  | .invalidRequest => 0x01
  | .bindFailed => 0x02
  | .listenFailed => 0x03
  | .internal => 0x04
  | .timeout => 0x05
  | .unsupported => 0x06

structure ClientHello where
  clientName : Bytes
  deriving DecidableEq

structure SpeedStart where
  sessionId : UInt32
  direction : UInt8
  durationSec : UInt32
  parallel : UInt16
  flags : UInt8
  deriving DecidableEq

structure SpeedReady where
  sessionId : UInt32
  addrType : UInt8
  port : UInt16
  addr : Bytes
  deriving DecidableEq

structure SpeedFinish where
  sessionId : UInt32
  clientBytes : UInt64
  clientElapsedUs : UInt64
  deriving DecidableEq

structure SpeedResult where
  sessionId : UInt32
  serverBytes : UInt64
  serverElapsedUs : UInt64
  acceptedConnections : UInt32
  closedConnections : UInt32
  status : UInt8
  deriving DecidableEq

structure SpeedErrorMessage where
  sessionId : UInt32
  error : UInt8
  message : Bytes
  deriving DecidableEq

def writeU16BE (v : UInt16) : Bytes := [(v >>> 8).toUInt8, v.toUInt8]

def writeU64BE (v : UInt64) : Bytes :=
  [(v >>> 56).toUInt8, (v >>> 48).toUInt8, (v >>> 40).toUInt8, (v >>> 32).toUInt8,
    (v >>> 24).toUInt8,
    (v >>> 16).toUInt8, (v >>> 8).toUInt8, v.toUInt8]

def readU64BE (data : Bytes) (i : Nat) : UInt64 :=
  ((byteAt data i).toUInt64 <<< 56) ||| ((byteAt data (i + 1)).toUInt64 <<< 48) |||
    ((byteAt data (i + 2)).toUInt64 <<< 40) ||| ((byteAt data (i + 3)).toUInt64 <<< 32) |||
    ((byteAt data (i + 4)).toUInt64 <<< 24) ||| ((byteAt data (i + 5)).toUInt64 <<< 16) |||
    ((byteAt data (i + 6)).toUInt64 <<< 8) ||| (byteAt data (i + 7)).toUInt64

/-! ### Checks -/

def isValidSpeedDirection (v : UInt8) : Bool :=
  v = SpeedDirection.download.code || v = SpeedDirection.upload.code

def isValidSpeedErrorFrameCode (v : UInt8) : Bool := v ≠ SpeedError.ok.code

def SpeedStart.validate (msg : SpeedStart) : Bool :=
  isValidSpeedDirection msg.direction && 1 ≤ msg.durationSec && msg.durationSec ≤ 86400 &&
    1 ≤ msg.parallel && msg.parallel ≤ 128 && msg.flags = 0

def SpeedReady.validate (msg : SpeedReady) : Bool :=
  if msg.addrType = addrIpv4 then msg.addr.length = 4
  else if msg.addrType = addrIpv6 then msg.addr.length = 16
  else false

def SpeedErrorMessage.validate (msg : SpeedErrorMessage) : Bool :=
  isValidSpeedErrorFrameCode msg.error && msg.message.length ≤ speedErrorMaxMessageLen

/-- Letters, digits and the characters `.`, `_`, `-` and `:`. -/
def isClientNameChar (ch : UInt8) : Bool :=
  (65 ≤ ch && ch ≤ 90) || (97 ≤ ch && ch ≤ 122) || (48 ≤ ch && ch ≤ 57) ||
    ch = 46 || ch = 95 || ch = 45 || ch = 58

def isValidClientName (name : Bytes) : Bool :=
  !(name = [] || clientHelloMaxNameLen < name.length) && name.all isClientNameChar

/-! ### Encoders and decoders -/

def encodeOpenRequest (req : OpenRequest) : Option Bytes :=
  if req.validateAddr then
    some ([magic0, magic1, version, cmdOpen, req.flags, req.addrType] ++ writeU16BE req.port ++
      writeU16BE (UInt16.ofNat req.addr.length) ++ req.addr ++ [0])
  else none

def encodeClientHello (msg : ClientHello) : Option Bytes :=
  if isValidClientName msg.clientName then
    some ([magic0, magic1, version, cmdClientHello] ++
      writeU16BE (UInt16.ofNat msg.clientName.length) ++
      msg.clientName)
  else none

def encodeSpeedStart (msg : SpeedStart) : Option Bytes :=
  if msg.validate then
    some ([magic0, magic1, version, cmdSpeedStart] ++ writeU32BE msg.sessionId ++ [msg.direction] ++
      writeU32BE msg.durationSec ++ writeU16BE msg.parallel ++ [msg.flags])
  else none

def encodeSpeedReady (msg : SpeedReady) : Option Bytes :=
  if msg.validate then
    some ([magic0, magic1, version, cmdSpeedReady] ++ writeU32BE msg.sessionId ++ [msg.addrType] ++
      writeU16BE msg.port ++ writeU16BE (UInt16.ofNat msg.addr.length) ++ msg.addr)
  else none

def encodeSpeedFinish (msg : SpeedFinish) : Option Bytes :=
  some ([magic0, magic1, version, cmdSpeedFinish] ++ writeU32BE msg.sessionId ++
    writeU64BE msg.clientBytes ++
    writeU64BE msg.clientElapsedUs)

def encodeSpeedResult (msg : SpeedResult) : Option Bytes :=
  some ([magic0, magic1, version, cmdSpeedResult] ++ writeU32BE msg.sessionId ++
    writeU64BE msg.serverBytes ++
    writeU64BE msg.serverElapsedUs ++ writeU32BE msg.acceptedConnections ++
      writeU32BE msg.closedConnections ++
    [msg.status])

def encodeSpeedError (msg : SpeedErrorMessage) : Option Bytes :=
  if msg.validate then
    some ([magic0, magic1, version, cmdSpeedError] ++ writeU32BE msg.sessionId ++ [msg.error] ++
      writeU16BE (UInt16.ofNat msg.message.length) ++ msg.message)
  else none

/-- The first four bytes of a frame with this command. -/
def hasHeader (data : Bytes) (cmd : UInt8) : Bool :=
  byteAt data 0 = magic0 && byteAt data 1 = magic1 && byteAt data 2 = version && byteAt data 3 = cmd

def decodeClientHello (data : Bytes) : Option ClientHello :=
  if data.length < clientHelloMinSize then none
  else if !hasHeader data cmdClientHello then none
  else
    let nameLen := (readU16BE data 4).toNat
    if nameLen = 0 || clientHelloMaxNameLen < nameLen then none
    else if data.length ≠ clientHelloMinSize + nameLen then none
    else
      let msg : ClientHello := { clientName := (data.drop clientHelloMinSize).take nameLen }
      if isValidClientName msg.clientName then some msg else none

def decodeSpeedStart (data : Bytes) : Option SpeedStart :=
  if data.length ≠ speedStartSize then none
  else if !hasHeader data cmdSpeedStart then none
  else if !isValidSpeedDirection (byteAt data 8) then none
  else if byteAt data 15 ≠ 0 then none
  else
    let msg : SpeedStart := {
      sessionId := readU32BE data 4
      direction := byteAt data 8
      durationSec := readU32BE data 9
      parallel := readU16BE data 13
      flags := byteAt data 15 }
    if msg.validate then some msg else none

def decodeSpeedReady (data : Bytes) : Option SpeedReady :=
  if data.length < speedReadyMinSize then none
  else if !hasHeader data cmdSpeedReady then none
  else
    let addrLen := (readU16BE data 11).toNat
    if data.length ≠ speedReadyMinSize + addrLen then none
    else
      let msg : SpeedReady := {
        sessionId := readU32BE data 4
        addrType := byteAt data 8
        port := readU16BE data 9
        addr := (data.drop 13).take addrLen }
      if msg.validate then some msg else none

def decodeSpeedFinish (data : Bytes) : Option SpeedFinish :=
  if data.length ≠ speedFinishSize then none
  else if !hasHeader data cmdSpeedFinish then none
  else some {
    sessionId := readU32BE data 4
    clientBytes := readU64BE data 8
    clientElapsedUs := readU64BE data 16 }

def decodeSpeedResult (data : Bytes) : Option SpeedResult :=
  if data.length ≠ speedResultSize then none
  else if !hasHeader data cmdSpeedResult then none
  else some {
    sessionId := readU32BE data 4
    serverBytes := readU64BE data 8
    serverElapsedUs := readU64BE data 16
    acceptedConnections := readU32BE data 24
    closedConnections := readU32BE data 28
    status := byteAt data 32 }

def decodeSpeedError (data : Bytes) : Option SpeedErrorMessage :=
  if data.length < speedErrorMinSize then none
  else if !hasHeader data cmdSpeedError then none
  else
    let messageLen := (readU16BE data 9).toNat
    if data.length ≠ speedErrorMinSize + messageLen || speedErrorMaxMessageLen < messageLen then
      none
    else if !isValidSpeedErrorFrameCode (byteAt data 8) then none
    else some {
      sessionId := readU32BE data 4
      error := byteAt data 8
      message := (data.drop 11).take messageLen }

end TcpQuicProxy.Protocol
