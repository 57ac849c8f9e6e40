import TcpQuicProxy.Ingress.State
import TcpQuicProxy.Platform.InetText
import TcpQuicProxy.Tunnel.OpenRequest

/-!
# The requested target and the one that is dialled

`Asks` says which host and port a CONNECT request asks for, by the form of its
bytes alone. The host reaches the server through a C string, so it arrives
exactly when it has no zero byte: a name is cut at its first zero byte, and a
request for `a\0b` is dialled as one for `a`.
-/

namespace TcpQuicProxy.Ingress

open Platform Protocol Tunnel Wire List

inductive Host where
  | ipv4 (addr : Ipv4)
  | ipv6 (addr : Ipv6)
  | name (text : Bytes)
  deriving DecidableEq

namespace Host

/-- A host as text, with addresses in their normal form. -/
def text (inet : Inet) : Host → Bytes
  | .ipv4 addr => inet.ntop4 addr
  | .ipv6 addr => inet.ntop6 addr
  | .name text => text

/-- What a host text stands for; a text with a zero byte is no address. -/
def ofText (inet : Inet) (text : Bytes) : Host :=
  if (0 : UInt8) ∈ text then .name text
  else
    match inet.pton4 text with
    | some addr => .ipv4 addr
    | none =>
      match inet.pton6 text with
      | some addr => .ipv6 addr
      | none => .name text

def ZeroFree : Host → Prop
  | .name text => (0 : UInt8) ∉ text
  | _ => True

instance : DecidablePred ZeroFree := fun host =>
  match host with
  | .ipv4 _ => isTrue trivial
  | .ipv6 _ => isTrue trivial
  | .name text => inferInstanceAs (Decidable (0 ∉ text))

end Host

/-- The value of a decimal text. -/
def decimal (digits : Bytes) : Nat :=
  digits.foldl (fun value ch => value * 10 + (ch - 0x30).toNat) 0

/-- A target `host:port` or `[host]:port`. -/
inductive Authority : Bytes → Bytes → UInt16 → Prop
  | plain {host digits : Bytes} {port : UInt16} (colonFree : colon ∉ host)
      (unbracketed : host.head? ≠ some openBracket)
      (decimals : ∀ ch ∈ digits, 0x30 ≤ ch ∧ ch ≤ 0x39) (value : decimal digits = port.toNat) :
      Authority (host ++ colon :: digits) host port
  | bracketed {host digits : Bytes} {port : UInt16} (closed : closeBracket ∉ host)
      (decimals : ∀ ch ∈ digits, 0x30 ≤ ch ∧ ch ≤ 0x39) (value : decimal digits = port.toNat) :
      Authority (openBracket :: host ++ closeBracket :: colon :: digits) host port

/-- The target that a CONNECT request asks for. -/
inductive Asks (inet : Inet) : Proto → Bytes → Host → UInt16 → Prop
  | socks5Ipv4 (addr : Ipv4) (port : UInt16) :
      Asks inet .socks5 ([socks5Version, socks5CmdConnect, socks5Rsv, socks5AtypIpv4] ++
        addr.toList ++ writeU16BE port)
        (.ipv4 addr) port
  | socks5Ipv6 (addr : Ipv6) (port : UInt16) :
      Asks inet .socks5 ([socks5Version, socks5CmdConnect, socks5Rsv, socks5AtypIpv6] ++
        addr.toList ++ writeU16BE port)
        (.ipv6 addr) port
  | socks5Domain (len : UInt8) (name : Bytes) (port : UInt16) (length : name.length = len.toNat) :
      Asks inet .socks5 ([socks5Version, socks5CmdConnect, socks5Rsv, socks5AtypDomain, len] ++
        name ++ writeU16BE port)
        (.name name) port
  | http {request target host rest : Bytes} {minor : UInt8} {port : UInt16}
      (form : request = ascii "CONNECT" ++ space :: target ++ space :: ascii "HTTP/1." ++ [minor] ++
        crlf ++ rest)
      (line : find crlf request = some (target.length + 17)) (spaceFree : space ∉ target)
      (authority : Authority target host port) :
      Asks inet .httpConnect request (.ofText inet host) port

def parseConnect (inet : Inet) : Proto → Bytes → Option TunnelRequest
  | .socks5 => parseSocks5ConnectRequest inet
  | .httpConnect => parseHttpConnectRequest inet

/-! ### What the parsers accept -/

/-- A parsed request holds a host text and a port that passed the checks. -/
structure Holds (req : TunnelRequest) (host : Bytes) (port : UInt16) (addrType : UInt8) : Prop where
  nonempty : host ≠ []
  short : host.length < hostSize
  port_ne : port ≠ 0
  host_eq : req.host = hostField host
  port_eq : req.port = port
  addrType_eq : req.addrType = addrType

variable {data request target : Bytes} {inet : Inet}

theorem toList_bytesAt {offset n : Nat} (h : offset + n ≤ data.length) :
    (bytesAt data offset n).toList = (data.drop offset).take n := by
  refine ext_getElem (by simp; omega) fun i hi hi' => ?_
  have hlt : offset + i < data.length := by
    simp at hi
    omega
  simp [bytesAt, byteAt, hlt]

theorem drop_eq_writeU16BE {k : Nat} (h : data.length = k + 2) :
    data.drop k = writeU16BE (readU16BE data k) := by
  rw [writeU16BE_readU16BE, drop_eq_byteAt_cons (by omega), drop_eq_byteAt_cons (by omega),
    drop_eq_nil_of_le (by omega)]

theorem eq_header_append (k n : Nat) (h : data.length = k + n + 2) :
    data = data.take k ++ (data.drop k).take n ++ writeU16BE (readU16BE data (k + n)) := by
  rw [← drop_eq_writeU16BE h, append_assoc, ← drop_eq_take_append, take_append_drop]

/-- **An accepted SOCKS5 request asks for the host that the parsed request holds.** -/
theorem asks_of_parseSocks5 {req : TunnelRequest}
    (h : parseSocks5ConnectRequest inet request = some req) :
    ∃ host port,
      (∃ addr, Asks inet .socks5 request (.ipv4 addr) port ∧ host = inet.ntop4 addr ∧
        Holds req host port addrIpv4) ∨
      (∃ addr, Asks inet .socks5 request (.ipv6 addr) port ∧ host = inet.ntop6 addr ∧
        Holds req host port addrIpv6) ∨
      (Asks inet .socks5 request (.name host) port ∧ Holds req host port addrDomain) := by
  unfold parseSocks5ConnectRequest at h
  split_ifs at h with hhead
  simp only [Bool.or_eq_true, decide_eq_true_eq, not_or, not_not, Nat.not_lt] at hhead
  obtain ⟨⟨⟨hmin, hversion⟩, hcmd⟩, hrsv⟩ := hhead
  cases hhost : socks5Host inet request with
  | none => simp [hhost] at h
  | some triple =>
    obtain ⟨host, addrType, offset⟩ := triple
    simp only [hhost] at h
    split_ifs at h with hchecks hport
    simp only [Bool.or_eq_true, decide_eq_true_eq, not_or, not_not, Nat.not_le,
      List.isEmpty_iff] at hchecks
    obtain ⟨⟨hempty, hshort⟩, hoffset⟩ := hchecks
    have hholds : Holds req host (readU16BE request offset) addrType := by
      cases h
      exact ⟨hempty, hshort, hport, rfl, rfl, rfl⟩
    refine ⟨host, readU16BE request offset, ?_⟩
    have htake4 :
        request.take 4 = [socks5Version, socks5CmdConnect, socks5Rsv, byteAt request 3] := by
      rw [Wire.take_eq_map_getD 0 (by omega)]
      simp only [range_succ, range_zero, nil_append, map_cons, map_nil,
        cons_append]
      exact congr (congrArg _ hversion) (congr (congrArg _ hcmd) (congr (congrArg _ hrsv) rfl))
    unfold socks5Host at hhost
    dsimp only at hhost
    split_ifs at hhost with hipv4 hlen4 hdomain hlen hipv6 hlen6
    · obtain ⟨rfl, rfl, rfl⟩ :
          inet.ntop4 (bytesAt request 4 4) = host ∧ addrIpv4 = addrType ∧ 8 = offset := by
        simpa using hhost
      refine .inl ⟨bytesAt request 4 4, ?_, rfl, hholds⟩
      have hform : request = _ := eq_header_append 4 4 (by omega)
      rw [htake4, hipv4, ← toList_bytesAt (by omega)] at hform
      conv => arg 3; rw [hform]
      exact .socks5Ipv4 _ _
    · obtain ⟨rfl, rfl, rfl⟩ :
        (request.drop 5).take (byteAt request 4).toNat = host ∧ addrDomain = addrType ∧
          5 + (byteAt request 4).toNat = offset := by
        simpa using hhost
      refine .inr (.inr ⟨?_, hholds⟩)
      have htake5 : request.take 5 =
          [socks5Version, socks5CmdConnect, socks5Rsv, socks5AtypDomain, byteAt request 4] := by
        rw [show 5 = 4 + 1 from rfl, take_add, htake4, hdomain, drop_eq_byteAt_cons (by omega)]
        rfl
      have hform : request = _ := eq_header_append 5 (byteAt request 4).toNat (by omega)
      rw [htake5] at hform
      conv => arg 3; rw [hform]
      exact .socks5Domain _ _ _ (length_field (by omega))
    · obtain ⟨rfl, rfl, rfl⟩ :
          inet.ntop6 (bytesAt request 4 16) = host ∧ addrIpv6 = addrType ∧ 20 = offset := by
        simpa using hhost
      refine .inr (.inl ⟨bytesAt request 4 16, ?_, rfl, hholds⟩)
      have hform : request = _ := eq_header_append 4 16 (by omega)
      rw [htake4, hipv6, ← toList_bytesAt (by omega)] at hform
      conv => arg 3; rw [hform]
      exact .socks5Ipv6 _ _

theorem parsePortDigits_eq {digits : Bytes} {value n : Nat}
    (h : parsePortDigits value digits = some n) (hvalue : value ≤ 65535) :
    n = digits.foldl (fun value ch => value * 10 + (ch - 0x30).toNat) value ∧ n ≤ 65535 ∧
      ∀ ch ∈ digits, 0x30 ≤ ch ∧ ch ≤ 0x39 := by
  induction digits generalizing value with
  | nil =>
    cases h
    exact ⟨rfl, hvalue, by simp⟩
  | cons ch digits ih =>
    unfold parsePortDigits at h
    dsimp only at h
    split_ifs at h with hdigit hbig
    simp only [Bool.or_eq_true, decide_eq_true_eq, not_or, UInt8.not_lt] at hdigit
    obtain ⟨hn, hle, hrest⟩ := ih h (Nat.le_of_not_lt hbig)
    exact ⟨hn, hle, forall_mem_cons.mpr ⟨hdigit, hrest⟩⟩

theorem parsePort_eq {text : Bytes} {port : UInt16} (h : parsePort text = some port) :
    port ≠ 0 ∧ decimal text = port.toNat ∧ ∀ ch ∈ text, 0x30 ≤ ch ∧ ch ≤ 0x39 := by
  unfold parsePort at h
  split_ifs at h with hempty
  cases hdigits : parsePortDigits 0 text with
  | none => simp [hdigits] at h
  | some value =>
    simp only [hdigits] at h
    split_ifs at h with hzero
    cases h
    obtain ⟨hvalue, hle, hall⟩ := parsePortDigits_eq hdigits (Nat.zero_le _)
    have hnat : (UInt16.ofNat value).toNat = value :=
      UInt16.toNat_ofNat_of_lt (by simpa [UInt16.size] using Nat.lt_succ_of_le hle)
    refine ⟨fun h0 => hzero ?_, by rw [hnat, hvalue]; rfl, hall⟩
    rw [← hnat, h0]
    rfl

theorem authority_of_parseHostPort {hostPort : HostPort}
    (h : parseHostPort target = some hostPort) :
    Authority target hostPort.host hostPort.port ∧ hostPort.host ≠ [] ∧ hostPort.port ≠ 0 := by
  unfold parseHostPort at h
  split_ifs at h with hfirst
  cases hsplit : splitHostPort target with
  | none => simp [hsplit] at h
  | some pair =>
    obtain ⟨host, portText⟩ := pair
    simp only [hsplit] at h
    split_ifs at h with hempty
    cases hport : parsePort portText with
    | none => simp [hport] at h
    | some port =>
      simp only [hport, Option.some.injEq] at h
      subst h
      obtain ⟨hne, hvalue, hdigits⟩ := parsePort_eq hport
      refine ⟨?_, by simpa using hempty, hne⟩
      unfold splitHostPort at hsplit
      split_ifs at hsplit with hbracket
      · cases hclose : find [closeBracket] target with
        | none => simp [hclose] at hsplit
        | some close =>
          simp only [hclose] at hsplit
          split_ifs at hsplit with hcolon
          simp only [Bool.or_eq_true, decide_eq_true_eq, not_or, not_not, Nat.not_le] at hcolon
          cases hsplit
          obtain ⟨hform, hclosed⟩ := find_singleton hclose
          cases target with
          | nil => simp at hbracket
          | cons b target =>
            obtain rfl : b = openBracket := by simpa using hbracket
            cases close with
            | zero => exact absurd (cons.inj hform).1 (by decide)
            | succ close =>
              rw [drop_eq_byteAt_cons hcolon.1, hcolon.2] at hform
              conv => arg 1; rw [hform]
              exact .bracketed (fun hmem => hclosed (mem_cons_of_mem _ hmem)) hdigits hvalue
      · cases hlast : findLast colon target with
        | none => simp [hlast] at hsplit
        | some i =>
          simp only [hlast] at hsplit
          split_ifs at hsplit with hend hinner
          cases hsplit
          have hcolonFree : colon ∉ target.take i := not_mem_of_find_eq_none (by simpa using hinner)
          have hunbracketed : (target.take i).head? ≠ some openBracket := by
            intro hhead
            refine hbracket ?_
            rw [head?_take] at hhead
            split_ifs at hhead
            exact hhead
          conv => arg 1; rw [findLast_split hlast]
          exact .plain hcolonFree hunbracketed hdigits hvalue

theorem connectTarget_eq_some {line : Bytes} (h : connectTarget line = some target) :
    ∃ minor, line = ascii "CONNECT" ++ space :: target ++ space :: ascii "HTTP/1." ++ [minor] ∧
      space ∉ target := by
  unfold connectTarget findFrom at h
  cases hmethod : find [space] line with
  | none => simp [hmethod] at h
  | some methodEnd =>
    simp only [hmethod] at h
    cases htarget : find [space] (line.drop (methodEnd + 1)) with
    | none => simp [htarget] at h
    | some k =>
      simp only [htarget, Option.map_some] at h
      split_ifs at h with hthird hparts
      simp only [Bool.or_eq_true, decide_eq_true_eq, not_or, not_not] at hparts
      obtain ⟨⟨hname, ⟨tail, htail⟩⟩, hlength⟩ := hparts
      cases h
      obtain ⟨hline, -⟩ := find_singleton hmethod
      obtain ⟨hrest, hspace⟩ := find_singleton htarget
      rw [drop_drop, show methodEnd + 1 + (k + 1) = methodEnd + 1 + k + 1 by omega] at hrest
      rw [show methodEnd + 1 + k - methodEnd - 1 = k by omega]
      obtain ⟨minor, rfl⟩ : ∃ minor, tail = [minor] := by
        refine length_eq_one_iff.mp ?_
        rw [← htail, length_append] at hlength
        have : (ascii "HTTP/1.").length = 7 := rfl
        omega
      refine ⟨minor, ?_, hspace⟩
      calc line = ascii "CONNECT" ++ space :: line.drop (methodEnd + 1) := by rw [← hname, ← hline]
        _ = ascii "CONNECT" ++ space ::
          ((line.drop (methodEnd + 1)).take k ++ space :: (ascii "HTTP/1." ++ [minor])) := by
          rw [htail, ← hrest]
        _ = _ := by simp only [append_assoc, cons_append]

/-- **An accepted HTTP request asks for the host that the parsed request holds.** -/
theorem asks_of_parseHttp {req : TunnelRequest}
    (h : parseHttpConnectRequest inet request = some req) :
    ∃ host port, Asks inet .httpConnect request (.ofText inet host) port ∧
      Holds req host port (addrTypeForHost inet host) := by
  unfold parseHttpConnectRequest at h
  cases hend : find headerTerminator request with
  | none => simp [hend] at h
  | some headerEnd =>
    cases hline : find crlf request with
    | none => simp [hend, hline] at h
    | some lineEnd =>
      simp only [hend, hline] at h
      split_ifs at h with hbounds
      cases htarget : connectTarget (request.take lineEnd) with
      | none => simp [htarget] at h
      | some target =>
        simp only [htarget] at h
        cases hhostPort : parseHostPort target with
        | none => simp [hhostPort] at h
        | some hostPort =>
          simp only [hhostPort] at h
          split_ifs at h with hshort
          obtain ⟨hauthority, hempty, hport⟩ := authority_of_parseHostPort hhostPort
          obtain ⟨minor, hform, hspace⟩ := connectTarget_eq_some htarget
          have hlength : lineEnd = target.length + 17 := by
            have := congrArg length hform
            have hle := find_add_length_le hline
            simp [ascii] at this
            omega
          have hrequest := find_split hline
          rw [hform] at hrequest
          refine ⟨hostPort.host, hostPort.port, .http hrequest ?_ hspace hauthority, ?_⟩
          · rw [hline, hlength]
          · cases h
            exact ⟨hempty, Nat.lt_of_not_le hshort, hport, rfl, rfl, rfl⟩

/-! ### The target arrives when it has no zero byte -/

variable {client server : LawfulInet} {cfg : CompressConfig} {req : TunnelRequest} {host : Bytes}
  {port : UInt16}

theorem carried_ofText (hholds : Holds req host port (addrTypeForHost client.toInet host)) :
    carried client.toInet server.toInet cfg req =
      some ((Host.ofText client.toInet host).text server.toInet, port) ↔
      (Host.ofText client.toInet host).ZeroFree := by
  by_cases hzero : (0 : UInt8) ∈ host
  · rw [Host.ofText, if_pos hzero]
    exact iff_of_false (fun h => zero_not_mem_of_carried h hzero) (fun h => h hzero)
  have hstring : cString host = host := cString_of_not_mem hzero
  cases h4 : client.pton4 host with
  | some addr =>
    have htype : req.addrType = addrIpv4 := by
      simp [hholds.addrType_eq, addrTypeForHost, hstring, h4]
    simp only [Host.ofText, if_neg hzero, h4]
    exact iff_of_true
      (carried_ipv4 hholds.nonempty hholds.short hholds.port_ne hzero hholds.host_eq hholds.port_eq
      htype h4) trivial
  | none =>
    cases h6 : client.pton6 host with
    | some addr =>
      have htype : req.addrType = addrIpv6 := by
        simp [hholds.addrType_eq, addrTypeForHost, hstring, h4, h6]
      simp only [Host.ofText, if_neg hzero, h4, h6]
      exact iff_of_true
        (carried_ipv6 hholds.nonempty hholds.short hholds.port_ne hzero hholds.host_eq
        hholds.port_eq
        htype h6) trivial
    | none =>
      have htype : req.addrType = addrDomain := by
        simp [hholds.addrType_eq, addrTypeForHost, hstring, h4, h6]
      simp only [Host.ofText, if_neg hzero, h4, h6]
      exact iff_of_true
        (carried_domain hholds.nonempty hholds.short hholds.port_ne hzero hholds.host_eq
        hholds.port_eq
        htype) hzero

/-- **What is dialled is what was asked for exactly when the host has no zero
byte.** -/
theorem target_preserved_iff (client server : LawfulInet) (cfg : CompressConfig) (proto : Proto)
    (request : Bytes) (req : TunnelRequest)
    (hreq : parseConnect client.toInet proto request = some req) :
    ∃ host port, Asks client.toInet proto request host port ∧
      (carried client.toInet server.toInet cfg req = some (host.text server.toInet, port) ↔
        host.ZeroFree) := by
  cases proto with
  | socks5 =>
    obtain ⟨host, port,
        ⟨addr, hasks, rfl, hholds⟩ | ⟨addr, hasks, rfl, hholds⟩ | ⟨hasks, hholds⟩⟩ :=
      asks_of_parseSocks5 hreq
    · refine ⟨_, port, hasks, iff_of_true ?_ trivial⟩
      exact carried_ipv4 hholds.nonempty hholds.short hholds.port_ne
        (client.zero_not_mem_ntop4 addr) hholds.host_eq
        hholds.port_eq hholds.addrType_eq (client.pton4_ntop4 addr)
    · refine ⟨_, port, hasks, iff_of_true ?_ trivial⟩
      exact carried_ipv6 hholds.nonempty hholds.short hholds.port_ne
        (client.zero_not_mem_ntop6 addr) hholds.host_eq
        hholds.port_eq hholds.addrType_eq (client.pton6_ntop6 addr)
    · refine ⟨_, port, hasks, zero_not_mem_of_carried, fun hzero => ?_⟩
      exact carried_domain hholds.nonempty hholds.short hholds.port_ne hzero hholds.host_eq
        hholds.port_eq
        hholds.addrType_eq
  | httpConnect =>
    obtain ⟨host, port, hasks, hholds⟩ := asks_of_parseHttp hreq
    exact ⟨_, port, hasks, carried_ofText hholds⟩

/-- A request for the name `a.example` on port 80. -/
def plainNameRequest : Bytes := ascii "CONNECT a.example:80 HTTP/1.1\r\n\r\n"

theorem plainName_preserved :
    ∃ req, parseConnect plainInet.toInet .httpConnect plainNameRequest = some req ∧
      ∃ host port, Asks plainInet.toInet .httpConnect plainNameRequest host port ∧
        (carried plainInet.toInet plainInet.toInet ⟨[], []⟩ req =
          some (host.text plainInet.toInet, port) ↔
          host.ZeroFree) := by
  obtain ⟨req, hreq⟩ := Option.isSome_iff_exists.mp
    (show (parseConnect plainInet.toInet .httpConnect plainNameRequest).isSome = true by
      decide +kernel)
  exact ⟨req, hreq, target_preserved_iff plainInet plainInet ⟨[], []⟩
    .httpConnect plainNameRequest req hreq⟩

/-- A request for the name of the three bytes `a`, zero, `b` on port 80. -/
def zeroByteRequest : Bytes := [0x05, 0x01, 0x00, 0x03, 0x03, 0x61, 0x00, 0x62, 0x00, 0x50]

/-- The request is accepted, and the name `a` is dialled. -/
theorem zeroByte_dials_other_name :
    Asks plainInet.toInet .socks5 zeroByteRequest (.name [0x61, 0x00, 0x62]) 80 ∧
      (parseConnect plainInet.toInet .socks5 zeroByteRequest).bind
        (carried plainInet.toInet plainInet.toInet ⟨[], []⟩) = some ([0x61], 80) ∧
      some ([0x61], 80) ≠
        some ((Host.name [0x61, 0x00, 0x62]).text plainInet.toInet, (80 : UInt16)) := by
  refine ⟨.socks5Domain 3 [0x61, 0x00, 0x62] 80 rfl, by decide +kernel, by decide⟩

end TcpQuicProxy.Ingress
