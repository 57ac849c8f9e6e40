import Mathlib.Data.List.TakeWhile
import TcpQuicProxy.Ingress.Connect
import TcpQuicProxy.Protocol.Codec

/-!
# From a tunnel request to the OPEN frame and back to a host

The client builds the OPEN request from a `TunnelRequest`, reading its host as a
C string, and the server recovers the host text from the decoded frame. `cfg`
holds what decides the compression flag: the configured mode and the mode that
`TqResolveAutoCompress` gives at that moment.
-/

namespace TcpQuicProxy.Tunnel

open Ingress Platform Protocol

structure CompressConfig where
  compress : Bytes
  resolveAutoCompress : Bytes
  deriving DecidableEq

def flagsFromConfig (req : TunnelRequest) (cfg : CompressConfig) : UInt8 :=
  let flags := req.compressFlags &&& ~~~flagCompress
  let compressMode :=
    if cfg.compress = ascii "auto" then cfg.resolveAutoCompress else cString cfg.compress
  let flags := if compressMode = ascii "zstd" then flags ||| flagCompress else flags
  if req.addrType = addrDomain then flags ||| flagDnsRemote else flags

def buildOpenRequest (inet : Inet) (req : TunnelRequest) (cfg : CompressConfig) :
    Option OpenRequest :=
  if req.port = 0 || req.host.toList.head? = some 0 then none
  else
    let host := cString req.host.toList
    let request (addr : Bytes) : OpenRequest :=
      ⟨flagsFromConfig req cfg, req.addrType, req.port, addr⟩
    if req.addrType = addrDomain then
      if host.length = 0 || hostSize ≤ host.length then none else some (request host)
    else if req.addrType = addrIpv4 then (inet.pton4 host).map fun addr => request addr.toList
    else if req.addrType = addrIpv6 then (inet.pton6 host).map fun addr => request addr.toList
    else none

def hostFromOpenRequest (inet : Inet) (req : OpenRequest) : Option Bytes :=
  if req.addrType = addrDomain then if req.addr.isEmpty then none else some req.addr
  else if req.addrType = addrIpv4 && req.addr.length = 4 then
    some (inet.ntop4 (bytesAt req.addr 0 4))
  else if req.addrType = addrIpv6 && req.addr.length = 16 then
    some (inet.ntop6 (bytesAt req.addr 0 16))
  else none

/-- The host and the port that the server dials for a request of the client. -/
def carried (client server : Inet) (cfg : CompressConfig) (req : TunnelRequest) :
    Option (Bytes × UInt16) := do
  let request ← buildOpenRequest client req cfg
  let frame ← encodeOpenRequest request
  let decoded ← decodeOpenRequest frame
  let host ← hostFromOpenRequest server decoded
  some (host, decoded.port)

theorem cString_append_zeros (s : Bytes) (k : Nat) :
    cString (s ++ List.replicate k 0) = cString s := by
  unfold cString
  induction s with
  | nil => cases k <;> simp [List.replicate_succ]
  | cons b s ih =>
    by_cases hb : b = 0
    · simp [hb]
    · rw [List.cons_append, List.takeWhile_cons_of_pos (by simpa using hb),
        List.takeWhile_cons_of_pos (by simpa using hb), ih]

theorem zero_not_mem_cString (s : Bytes) : (0 : UInt8) ∉ cString s :=
  fun h => by simpa using List.mem_takeWhile_imp h

variable {host : Bytes} {request : OpenRequest}

theorem toList_hostField (h : host.length < hostSize) :
    (hostField host).toList = host ++ List.replicate (hostSize - host.length) 0 := by
  refine List.ext_getElem (by simp; omega) fun i hi hi' => ?_
  simp only [hostField, Vector.toList_ofFn, List.getElem_ofFn, List.getD_eq_getElem?_getD]
  by_cases hlt : i < host.length
  · rw [List.getElem_append_left hlt, List.getElem?_eq_getElem hlt, Option.getD_some]
  · rw [List.getElem_append_right (Nat.le_of_not_lt hlt), List.getElem_replicate,
      List.getElem?_eq_none (Nat.le_of_not_lt hlt), Option.getD_none]

/-- The array reads back as the part of the host before its first zero byte. -/
theorem cString_hostField (h : host.length < hostSize) :
    cString (hostField host).toList = cString host := by
  rw [toList_hostField h, cString_append_zeros]

/-! ### What the server recovers -/

theorem bytesAt_toList {n : Nat} (v : Vector UInt8 n) : bytesAt v.toList 0 n = v := by
  ext i hi
  simp [bytesAt, byteAt]

theorem carried_eq {client server : Inet} {cfg : CompressConfig} {req : TunnelRequest}
    (hbuild : buildOpenRequest client req cfg = some request)
    (hvalid : request.validateAddr = true) :
    carried client server cfg req = (hostFromOpenRequest server request).map fun host =>
      (host, request.port) := by
  obtain ⟨frame, hencode⟩ : ∃ frame, encodeOpenRequest request = some frame := by
    rw [encodeOpenRequest, if_pos hvalid]
    exact ⟨_, rfl⟩
  have hdecode := (openRequest_exact request frame).mp hencode
  simp only [carried, hbuild, hencode, hdecode, Option.bind_eq_bind, Option.bind_some]
  cases hostFromOpenRequest server request <;> rfl

variable {client server : LawfulInet} {cfg : CompressConfig} {req : TunnelRequest}

/-- The address of a request built for a name is the name up to its first zero byte. -/
theorem addr_of_buildOpenRequest (h : buildOpenRequest client.toInet req cfg = some request)
    (hdomain : request.addrType = addrDomain) : request.addr = cString req.host.toList := by
  unfold buildOpenRequest at h
  dsimp only at h
  split_ifs at h with _ htype _ hipv4 hipv6
  · cases h
    rfl
  · obtain ⟨addr, -, rfl⟩ := Option.map_eq_some_iff.mp h
    cases hipv4.symm.trans hdomain
  · obtain ⟨addr, -, rfl⟩ := Option.map_eq_some_iff.mp h
    cases hipv6.symm.trans hdomain

/-- A recovered host never has a zero byte. -/
theorem zero_not_mem_of_carried {port : UInt16}
    (h : carried client.toInet server.toInet cfg req = some (host, port)) : (0 : UInt8) ∉ host := by
  simp only [carried, Option.bind_eq_bind, Option.bind_eq_some_iff, Option.some.injEq,
    Prod.mk.injEq] at h
  obtain ⟨request, hbuild, frame, hencode, decoded, hdecode, host', hhost, rfl, -⟩ := h
  obtain rfl : request = decoded := by
    rw [(openRequest_exact request frame).mp hencode] at hdecode
    exact Option.some.inj hdecode
  unfold hostFromOpenRequest at hhost
  split_ifs at hhost with hdomain _ hipv4 hipv6
  · rw [← Option.some.inj hhost, addr_of_buildOpenRequest hbuild hdomain]
    exact zero_not_mem_cString _
  · rw [← Option.some.inj hhost]
    exact server.zero_not_mem_ntop4 _
  · rw [← Option.some.inj hhost]
    exact server.zero_not_mem_ntop6 _

theorem or_and_flagDnsRemote (flags : UInt8) : (flags ||| flagDnsRemote) &&& flagDnsRemote ≠ 0 := by
  have hbits : ∀ v : BitVec 8, (v ||| 4#8) &&& 4#8 ≠ 0#8 := by decide +kernel
  exact fun h => hbits flags.toBitVec (congrArg UInt8.toBitVec h)

section Recover

variable {host : Bytes} {port : UInt16} (hhost : host ≠ []) (hlength : host.length < hostSize)
  (hport : port ≠ 0)
  (hzero : (0 : UInt8) ∉ host) (hfield : req.host = hostField host) (hreq : req.port = port)

include hhost hlength hport hzero hfield hreq

/-- A host without zero bytes passes the first checks and is read back as it was. -/
theorem buildOpenRequest_eq :
    buildOpenRequest client.toInet req cfg =
      let request (addr : Bytes) : OpenRequest :=
  ⟨flagsFromConfig req cfg, req.addrType, port, addr⟩
      if req.addrType = addrDomain then some (request host)
      else if req.addrType = addrIpv4 then (client.pton4 host).map fun addr => request addr.toList
      else if req.addrType = addrIpv6 then (client.pton6 host).map fun addr => request addr.toList
      else none := by
  have hstring : cString req.host.toList = host := by
    rw [hfield, cString_hostField hlength, cString_of_not_mem hzero]
  have hfirst : req.host.toList.head? ≠ some 0 := by
    obtain ⟨b, rest, rfl⟩ := List.exists_cons_of_ne_nil hhost
    rw [hfield, toList_hostField hlength, List.cons_append, List.head?_cons]
    exact fun h => hzero (List.mem_cons.mpr (.inl (Option.some.inj h).symm))
  unfold buildOpenRequest
  simp only [hstring, hreq]
  rw [if_neg (by simp [hport, hfirst]),
    if_neg (c := (decide (host.length = 0) || decide (hostSize ≤ host.length)) = true)
    (by simp [hhost]; omega)]

attribute [local simp] OpenRequest.validateAddr hostFromOpenRequest addrIpv4 addrDomain

theorem carried_domain (htype : req.addrType = addrDomain) :
    carried client.toInet server.toInet cfg req = some (host, port) := by
  have hbuild : buildOpenRequest client.toInet req cfg = _ :=
    buildOpenRequest_eq hhost hlength hport hzero hfield hreq
  dsimp only at hbuild
  rw [if_pos htype] at hbuild
  rw [carried_eq hbuild ?_]
  · simp [htype, hhost]
  · have hflag : flagsFromConfig req cfg &&& flagDnsRemote ≠ 0 := by
      simp only [flagsFromConfig, if_pos htype]
      exact or_and_flagDnsRemote _
    have hmax : host.length ≤ 255 := Nat.le_of_lt_succ hlength
    simp [htype, hflag, hmax, List.length_pos_iff.mpr hhost, addrIpv6]

theorem carried_ipv4 {addr : Ipv4} (htype : req.addrType = addrIpv4)
    (haddr : client.pton4 host = some addr) :
    carried client.toInet server.toInet cfg req = some (server.ntop4 addr, port) := by
  have hbuild : buildOpenRequest client.toInet req cfg = _ :=
    buildOpenRequest_eq hhost hlength hport hzero hfield hreq
  dsimp only at hbuild
  rw [htype, if_neg (by decide), if_pos rfl, haddr, Option.map_some] at hbuild
  rw [carried_eq hbuild (by simp)]
  simp [bytesAt_toList]

theorem carried_ipv6 {addr : Ipv6} (htype : req.addrType = addrIpv6)
    (haddr : client.pton6 host = some addr) :
    carried client.toInet server.toInet cfg req = some (server.ntop6 addr, port) := by
  have hbuild : buildOpenRequest client.toInet req cfg = _ :=
    buildOpenRequest_eq hhost hlength hport hzero hfield hreq
  dsimp only at hbuild
  rw [htype, if_neg (by decide), if_neg (by decide), if_pos rfl, haddr, Option.map_some] at hbuild
  rw [carried_eq hbuild (by simp [addrIpv6])]
  simp [bytesAt_toList, addrIpv6]

end Recover
end TcpQuicProxy.Tunnel
