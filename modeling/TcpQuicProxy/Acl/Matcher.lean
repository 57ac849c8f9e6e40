import TcpQuicProxy.Platform.Address

/-!
# The access control list of the server

The CIDR matcher, the filter over resolved addresses and the check of a single
literal. An address is compared with a network byte by byte and under a mask for
the remaining bits; a list of candidates is rejected as a whole when one of them
is denied.
-/

namespace TcpQuicProxy.Acl

open Platform

/-- A parsed CIDR entry; an IPv4 network takes the first four of the sixteen bytes. -/
structure ParsedCidr where
  family : Family
  addr : Vector UInt8 16
  prefixLen : Nat
  prefixLen_le : prefixLen ≤ 8 * family.byteCount
  deriving DecidableEq

def slash : UInt8 := 47

def parsePrefixDigits : Bytes → Nat → Option Nat
  | [], value => some value
  | c :: s, value =>
    if !(48 ≤ c && c ≤ 57) then none
    else
      let value := value * 10 + (c.toNat - 48)
      if 128 < value then none else parsePrefixDigits s value

def parsePrefix (s : Bytes) : Option Nat := if s = [] then none else parsePrefixDigits s 0

/-- Sixteen bytes with an IPv4 address in front. -/
def widen (addr : Ipv4) : Vector UInt8 16 := addr ++ (Vector.replicate 12 0 : Vector UInt8 12)

def parseCidr (inet : Inet) (cidr : Bytes) : Option ParsedCidr :=
  match cidr.findIdx? (· = slash) with
  | none => none
  | some i =>
    let addrStr := cidr.take i
    match parsePrefix (cidr.drop (i + 1)) with
    | none => none
    | some len =>
      match inet.pton4 (cString addrStr) with
      | some v4 => if h : len ≤ 32 then some ⟨.inet, widen v4, len, h⟩ else none
      | none =>
        match inet.pton6 (cString addrStr) with
        | some v6 => if h : len ≤ 128 then some ⟨.inet6, v6, len, h⟩ else none
        | none => none

def parseCidrList (inet : Inet) (cidrs : List Bytes) : List ParsedCidr :=
  cidrs.filterMap (parseCidr inet)

def ipMatchesCidr (family : Family) (addrBytes : Vector UInt8 16) (cidr : ParsedCidr) : Bool :=
  if family ≠ cidr.family then false
  else
    let byteCount := family.byteCount
    let fullBytes := cidr.prefixLen / 8
    let remBits := cidr.prefixLen % 8
    if (List.range fullBytes).any fun i =>
        byteCount ≤ i || addrBytes.toList.getD i 0 ≠ cidr.addr.toList.getD i 0 then false
    else if remBits = 0 then true
    else if byteCount ≤ fullBytes then false
    else
      let mask := UInt8.ofNat (0xFF <<< (8 - remBits))
      addrBytes.toList.getD fullBytes 0 &&& mask = cidr.addr.toList.getD fullBytes 0 &&& mask

def extractIpBytes : SockAddr → Option (Family × Vector UInt8 16)
  | .inet addr _ => some (.inet, widen addr)
  | .inet6 addr _ _ _ => some (.inet6, addr)
  | .other _ => none

def parseIpLiteral (inet : Inet) (host : Bytes) : Option SockAddr :=
  match inet.pton4 (cString host) with
  | some v4 => some (.inet v4 0)
  | none =>
    match inet.pton6 (cString host) with
    | some v6 => some (.inet6 v6 0 0 0)
    | none => none

def setSockaddrPort (port : UInt16) : SockAddr → SockAddr
  | .inet addr _ => .inet addr port
  | .inet6 addr _ flowInfo scopeId => .inet6 addr port flowInfo scopeId
  | .other family => .other family

def ipBytesAllowed (family : Family) (addr : Vector UInt8 16)
    (deny allow : List ParsedCidr) : Bool :=
  if deny.any (ipMatchesCidr family addr) then false
  else if allow.isEmpty then false
  else allow.any (ipMatchesCidr family addr)

/-- A check of the candidate's bytes; a candidate of another family is passed over. -/
def checkCandidate (check : Family → Vector UInt8 16 → Bool) (candidate : SockAddr) : Bool :=
  match extractIpBytes candidate with
  | none => false
  | some (family, addr) => check family addr

/-- The allowed candidates, or nothing when the list is rejected. -/
def evaluateCandidates (deny allow : List ParsedCidr) (candidates : List SockAddr) :
    Option (List SockAddr) :=
  if allow.isEmpty then none
  else if candidates.any
    (checkCandidate fun family addr => deny.any (ipMatchesCidr family addr)) then none
  else
    let outAllowed :=
      candidates.filter (checkCandidate fun family addr => ipBytesAllowed family addr [] allow)
    if outAllowed.isEmpty then none else some outAllowed

/-- The rules as the configuration has them. -/
structure Rules where
  allowCidrs : List Bytes
  denyCidrs : List Bytes
  deriving DecidableEq

inductive CidrError where
  | emptyEntry
  | invalid (cidr : Bytes)
  deriving DecidableEq

def CidrError.text : CidrError → Bytes
  | .emptyEntry => ascii "empty CIDR entry"
  | .invalid cidr => ascii "invalid CIDR: " ++ cidr

def validateCidrList (inet : Inet) : List Bytes → Except Bytes Unit
  | [] => .ok ()
  | cidr :: cidrs =>
    if cidr.isEmpty then .error CidrError.emptyEntry.text
    else if (parseCidr inet cidr).isNone then .error (CidrError.invalid cidr).text
    else validateCidrList inet cidrs

def Rules.isAllowed (inet : Inet) (acl : Rules) (host : Bytes) (_port : UInt16) : Bool :=
  match parseIpLiteral inet host with
  | none => false
  | some ss =>
    match extractIpBytes ss with
    | none => false
    | some (family, addr) =>
      ipBytesAllowed family addr (parseCidrList inet acl.denyCidrs)
        (parseCidrList inet acl.allowCidrs)

def Rules.filterResolvedAddresses (inet : Inet) (acl : Rules) (candidates : List SockAddr)
    (port : UInt16) :
    Option (List SockAddr) :=
  (evaluateCandidates (parseCidrList inet acl.denyCidrs) (parseCidrList inet acl.allowCidrs)
    candidates).map
    (List.map (setSockaddrPort port))

/-- `getaddrinfo` is a parameter; nothing means that the resolution failed. -/
def Rules.resolveAndFilter (inet : Inet) (getaddrinfo : Bytes → Option (List SockAddr))
    (acl : Rules) (host : Bytes) (port : UInt16) : Option (List SockAddr) :=
  match parseIpLiteral inet host with
  | some literal => acl.filterResolvedAddresses inet [setSockaddrPort port literal] port
  | none =>
    match getaddrinfo (cString host) with
    | none => none
    | some candidates =>
      if candidates.isEmpty then none else acl.filterResolvedAddresses inet candidates port

end TcpQuicProxy.Acl
