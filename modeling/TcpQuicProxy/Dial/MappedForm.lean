import TcpQuicProxy.Acl.Decision
import TcpQuicProxy.Dial.Reactor
import TcpQuicProxy.Platform.InetText

/-!
# Two forms of one destination

An IPv6 socket that connects to `::ffff:a.b.c.d` reaches the IPv4 host `a.b.c.d`.
The access control list compares an address with the entries of its own family
only, so the two forms are decided by different entries.
-/

namespace TcpQuicProxy.Dial

open Platform Acl

/-- The first twelve bytes of every IPv4-mapped address. -/
def mappedHead : Vector UInt8 12 := #v[0, 0, 0, 0, 0, 0, 0, 0, 0, 0, 0xff, 0xff]

def mapped (a : Ipv4) : Ipv6 := mappedHead ++ a

/-- The IPv6 entry speaks of the IPv4 address: its first 96 bits, as far as it has them, are those
of the mapped addresses, and the bits behind them are bits of the address. -/
def Covers (cidr : ParsedCidr) (a : Ipv4) : Prop :=
  cidr.family = .inet6 ∧ Wire.AgreeOn (min cidr.prefixLen 96) mappedHead.toList cidr.addr.toList ∧
    Wire.AgreeOn (cidr.prefixLen - 96) a.toList (cidr.addr.toList.drop 12)

instance (cidr : ParsedCidr) (a : Ipv4) : Decidable (Covers cidr a) :=
  inferInstanceAs (Decidable (_ ∧ _ ∧ _))

theorem liesIn_mapped (cidr : ParsedCidr) (a : Ipv4) (port : UInt16) (flowInfo scopeId : UInt32) :
    LiesIn (.inet6 (mapped a) port flowInfo scopeId) cidr ↔ Covers cidr a := by
  have hsplit :=
    Wire.agreeOn_append cidr.prefixLen mappedHead.length_toList a.toList cidr.addr.toList
  rw [← Vector.toList_append] at hsplit
  exact and_congr_right fun _ => hsplit

/-- One of the entries covers the mapped form of the address. -/
def CoveredBy (inet : Inet) (a : Ipv4) (cidrs : List Bytes) : Prop :=
  ∃ cidr ∈ parseCidrList inet cidrs, Covers cidr a

instance (inet : Inet) (a : Ipv4) (cidrs : List Bytes) : Decidable (CoveredBy inet a cidrs) :=
  inferInstanceAs (Decidable (∃ cidr ∈ parseCidrList inet cidrs, Covers cidr a))

theorem inSome_mapped (inet : Inet) (a : Ipv4) (port : UInt16) (flowInfo scopeId : UInt32)
    (cidrs : List Bytes) :
    InSome inet (.inet6 (mapped a) port flowInfo scopeId) cidrs ↔ CoveredBy inet a cidrs := by
  simp only [inSome_iff, CoveredBy, liesIn_mapped]

/-- The server refuses a tunnel to this host, whether it dials through the reactor or by itself. -/
def Refused (r : Reactor) (getaddrinfo : Bytes → Option (List SockAddr)) (host : Bytes)
    (port : UInt16) : Prop :=
  (∀ complete, r.filterAddresses ⟨host, port, false, complete⟩ (r.parseIpLiteral host) true =
    .error .aclDenied) ∧
    r.acl.resolveAndFilter r.inet getaddrinfo host port = none

theorem parseIpLiteral_eq (r : Reactor) (host : Bytes) :
    r.parseIpLiteral host = (Acl.parseIpLiteral r.inet host).toList := by
  unfold Reactor.parseIpLiteral Acl.parseIpLiteral
  cases r.inet.pton4 (cString host) with
  | some v4 => rfl
  | none => cases r.inet.pton6 (cString host) <;> rfl

/-- Setting the port does not move an address in or out of a prefix. -/
theorem inSome_setSockaddrPort (inet : Inet) (port : UInt16) (address : SockAddr)
    (cidrs : List Bytes) :
    InSome inet (setSockaddrPort port address) cidrs ↔ InSome inet address cidrs := by
  cases address <;> rfl

theorem filter_singleton_eq_none (inet : Inet) (acl : Rules) (address : SockAddr) (port : UInt16) :
    acl.filterResolvedAddresses inet [address] port = none ↔
      InSome inet address acl.denyCidrs ∨ ¬ InSome inet address acl.allowCidrs := by
  rw [filterResolvedAddresses_eq]
  simp only [List.mem_singleton, forall_eq, exists_eq_left]
  split_ifs with hpass
  · simp [hpass]
  · simp only [true_iff]
    tauto

/-- The decision on a literal: both ways of dialling filter the one address. -/
theorem refused_iff {r : Reactor} {host : Bytes} {literal : SockAddr}
    (h : Acl.parseIpLiteral r.inet host = some literal)
    (getaddrinfo : Bytes → Option (List SockAddr)) (port : UInt16) :
    Refused r getaddrinfo host port ↔
      InSome r.inet literal r.acl.denyCidrs ∨ ¬ InSome r.inet literal r.acl.allowCidrs := by
  have hdirect : r.acl.resolveAndFilter r.inet getaddrinfo host port = none ↔
      InSome r.inet literal r.acl.denyCidrs ∨ ¬ InSome r.inet literal r.acl.allowCidrs := by
    rw [Rules.resolveAndFilter, h]
    simp only [filter_singleton_eq_none, inSome_setSockaddrPort]
  have hreactor : (r.acl.filterResolvedAddresses r.inet [literal] port = none) → ∀ complete,
      r.filterAddresses ⟨host, port, false, complete⟩ (r.parseIpLiteral host) true =
        .error .aclDenied := by
    intro hnone complete
    simp [Reactor.filterAddresses, parseIpLiteral_eq, h, hnone]
  constructor
  · exact fun hrefused => hdirect.mp hrefused.2
  · exact fun hout => ⟨hreactor ((filter_singleton_eq_none ..).mpr hout), hdirect.mpr hout⟩

theorem mapped_form_refused_iff (r : Reactor) (getaddrinfo : Bytes → Option (List SockAddr))
    (a : Ipv4) (host mappedHost : Bytes) (port : UInt16)
    (hhost : r.inet.pton4 (cString host) = some a)
    (hmapped4 : r.inet.pton4 (cString mappedHost) = none)
    (hmapped6 : r.inet.pton6 (cString mappedHost) = some (mapped a)) :
    (Refused r getaddrinfo host port → Refused r getaddrinfo mappedHost port) ↔
      ¬ InSome r.inet (.inet a port) r.acl.denyCidrs ∧
        InSome r.inet (.inet a port) r.acl.allowCidrs ∨
        CoveredBy r.inet a r.acl.denyCidrs ∨ ¬ CoveredBy r.inet a r.acl.allowCidrs := by
  have hliteral : Acl.parseIpLiteral r.inet host = some (.inet a 0) := by
    rw [Acl.parseIpLiteral, hhost]
  have hliteral6 : Acl.parseIpLiteral r.inet mappedHost = some (.inet6 (mapped a) 0 0 0) := by
    simp only [Acl.parseIpLiteral, hmapped4, hmapped6]
  have hport := inSome_setSockaddrPort r.inet port (.inet a 0)
  simp only [setSockaddrPort] at hport
  rw [refused_iff hliteral, refused_iff hliteral6, inSome_mapped, inSome_mapped, hport, hport]
  tauto

/-- All of IPv6 is allowed, 127.0.0.0/8 is denied in both forms. -/
def deniesBothForms : Reactor :=
  { (start Unit plainInet.toInet
      { allowCidrs := [ascii "0.0.0.0/0", ascii "0000:0000:0000:0000:0000:0000:0000:0000/0"]
        denyCidrs :=
          [ascii "127.0.0.0/8", ascii "0000:0000:0000:0000:0000:ffff:7f00:0000/104"] }).shared with
    started := true }

theorem deniesBothForms_refused :
    Refused deniesBothForms (fun _ => none) (ascii "127.0.0.1") 22 ∧
      Refused deniesBothForms (fun _ => none)
        (ascii "0000:0000:0000:0000:0000:ffff:7f00:0001") 22 := by
  have hloopback : Acl.parseIpLiteral deniesBothForms.inet (ascii "127.0.0.1") =
      some (.inet #v[127, 0, 0, 1] 0) := by
    decide
  have hdenied :
      InSome deniesBothForms.inet (.inet #v[127, 0, 0, 1] 0) deniesBothForms.acl.denyCidrs := by
    decide +kernel
  have hrefused := (refused_iff hloopback (fun _ => none) 22).mpr (.inl hdenied)
  refine ⟨hrefused,
    (mapped_form_refused_iff deniesBothForms (fun _ => none) #v[127, 0, 0, 1] (ascii "127.0.0.1")
    (ascii "0000:0000:0000:0000:0000:ffff:7f00:0001") 22 ?_ ?_ ?_).mpr (.inr (.inl ?_))
      hrefused⟩ <;> decide +kernel

/-- Everything is allowed but 127.0.0.0/8. -/
def deniesOneForm : Reactor :=
  { (start Unit plainInet.toInet
      { allowCidrs := [ascii "0.0.0.0/0", ascii "0000:0000:0000:0000:0000:0000:0000:0000/0"]
        denyCidrs := [ascii "127.0.0.0/8"] }).shared with
    started := true }

theorem mapped_loopback_dialled :
    ¬ (Refused deniesOneForm (fun _ => none) (ascii "127.0.0.1") 22 →
      Refused deniesOneForm (fun _ => none)
        (ascii "0000:0000:0000:0000:0000:ffff:7f00:0001") 22) := by
  intro h
  have hloopback : Acl.parseIpLiteral deniesOneForm.inet (ascii "127.0.0.1") =
      some (.inet #v[127, 0, 0, 1] 0) := by
    decide +kernel
  have hdenied :
      InSome deniesOneForm.inet (.inet #v[127, 0, 0, 1] 0) deniesOneForm.acl.denyCidrs := by
    decide +kernel
  -- the filter lets the mapped form through
  have hpass : deniesOneForm.acl.resolveAndFilter deniesOneForm.inet (fun _ => none)
      (ascii "0000:0000:0000:0000:0000:ffff:7f00:0001") 22 =
        some [.inet6 (mapped #v[127, 0, 0, 1]) 22 0 0] := by
    decide +kernel
  have hrefused := h ((refused_iff hloopback _ 22).mpr (.inl hdenied))
  rw [hrefused.2] at hpass
  cases hpass

end TcpQuicProxy.Dial
