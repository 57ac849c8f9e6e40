import TcpQuicProxy.Acl.Matcher
import TcpQuicProxy.Platform.InetText
import TcpQuicProxy.Wire.Bits

/-!
# The decision of the access control list

What the rules mean: an entry is an address and a length, and stands for a set of addresses, those
of its family that agree with the network on the first bits. A list of candidates passes when none
of them is denied and one of them is allowed. The filter computes that decision, and so does the
check of a single literal.
-/

namespace TcpQuicProxy.Acl

open Platform

/-- The entry is an address and a length, `text/digits`: those of the network. -/
def Denotes (inet : Inet) (entry : Bytes) (cidr : ParsedCidr) : Prop :=
  ∃ text digits, entry = text ++ slash :: digits ∧ slash ∉ text ∧
    digits ≠ [] ∧ (∀ c ∈ digits, isDigit c = true) ∧ decimalValue digits = cidr.prefixLen ∧
    match inet.pton4 (cString text) with
    | some v4 => cidr.family = .inet ∧ cidr.addr = widen v4
    | none => cidr.family = .inet6 ∧ inet.pton6 (cString text) = some cidr.addr

/-- The address is of the network's family and agrees with it on the first bits. -/
def LiesIn (address : SockAddr) (cidr : ParsedCidr) : Prop :=
  match address with
  | .inet addr _ => cidr.family = .inet ∧ Wire.AgreeOn cidr.prefixLen addr.toList cidr.addr.toList
  | .inet6 addr _ _ _ =>
    cidr.family = .inet6 ∧ Wire.AgreeOn cidr.prefixLen addr.toList cidr.addr.toList
  | .other _ => False

instance : (address : SockAddr) → (cidr : ParsedCidr) → Decidable (LiesIn address cidr)
  | .inet _ _, _ => inferInstanceAs (Decidable (_ ∧ _))
  | .inet6 _ _ _ _, _ => inferInstanceAs (Decidable (_ ∧ _))
  | .other _, _ => inferInstanceAs (Decidable False)

/-- The address lies in the prefix of one of the entries. -/
def InSome (inet : Inet) (address : SockAddr) (cidrs : List Bytes) : Prop :=
  ∃ entry ∈ cidrs, ∃ cidr, Denotes inet entry cidr ∧ LiesIn address cidr

/-- The two are one address, whatever their ports. -/
def SameAddress : SockAddr → SockAddr → Prop
  | .inet a _, .inet b _ => a = b
  | .inet6 a _ flowInfo scopeId, .inet6 b _ flowInfo' scopeId' =>
    a = b ∧ flowInfo = flowInfo' ∧ scopeId = scopeId'
  | _, _ => False

def sockaddrPort : SockAddr → Option UInt16
  | .inet _ port | .inet6 _ port _ _ => some port
  | .other _ => none

/-! ### Entries -/

variable {inet : Inet} {cidrs : List Bytes} {address : SockAddr} {family : Family}
variable {addr : Vector UInt8 16} {entry : Bytes} {cidr : ParsedCidr}

theorem parsePrefixDigits_eq_some {s : Bytes} {value n : Nat} (hvalue : value ≤ 128) :
    parsePrefixDigits s value = some n ↔ (∀ c ∈ s, isDigit c = true) ∧
      s.foldl (fun v c => v * 10 + (c.toNat - 48)) value = n ∧ n ≤ 128 := by
  induction s generalizing value with
  | nil =>
    simp only [parsePrefixDigits, List.foldl_nil, Option.some.injEq]
    grind
  | cons c s ih =>
    have hgrows : ∀ (s : Bytes) (v : Nat), v ≤ s.foldl (fun v c => v * 10 + (c.toNat - 48)) v := by
      intro s
      induction s with
      | nil => exact fun v => le_rfl
      | cons c s ih => exact fun v => le_trans (by omega) (ih (v * 10 + (c.toNat - 48)))
    rw [parsePrefixDigits, List.forall_mem_cons, List.foldl_cons]
    cases hdigit : isDigit c with
    | false => simp_all [isDigit]
    | true =>
      rw [if_neg (by simpa [isDigit] using hdigit)]
      dsimp only
      split
      next hlarge =>
        have := hgrows s (value * 10 + (c.toNat - 48))
        simp only [reduceCtorEq, true_and, false_iff]
        omega
      next hsmall => rw [ih (by omega), and_iff_right rfl]

theorem parsePrefix_eq_some {s : Bytes} {n : Nat} :
    parsePrefix s = some n ↔
      s ≠ [] ∧ (∀ c ∈ s, isDigit c = true) ∧ decimalValue s = n ∧ n ≤ 128 := by
  unfold parsePrefix decimalValue
  split
  next hnil => simp [hnil]
  next hne => rw [parsePrefixDigits_eq_some (by decide), and_iff_right hne]

theorem parseCidr_append {text digits : Bytes} (hslash : slash ∉ text) :
    parseCidr inet (text ++ slash :: digits) =
      (parsePrefix digits).bind fun len =>
        match inet.pton4 (cString text) with
        | some v4 => if h : len ≤ 32 then some ⟨.inet, widen v4, len, h⟩ else none
        | none => (inet.pton6 (cString text)).bind fun v6 =>
            if h : len ≤ 128 then some ⟨.inet6, v6, len, h⟩ else none := by
  have hfind : (text ++ slash :: digits).findIdx? (· = slash) = some text.length := by
    have hnone : text.findIdx? (· = slash) = none :=
      List.findIdx?_eq_none_iff.mpr fun c hc => decide_eq_false (ne_of_mem_of_not_mem hc hslash)
    rw [List.findIdx?_append, hnone]
    simp [List.findIdx?_cons]
  have hrest : (text ++ slash :: digits).drop (text.length + 1) = digits := by simp
  rw [parseCidr, hfind]
  simp only [List.take_left, hrest]
  cases parsePrefix digits with
  | none => rfl
  | some len =>
    cases inet.pton4 (cString text) with
    | some v4 => rfl
    | none => cases inet.pton6 (cString text) <;> rfl

/-- The parser reads an entry as the network that it denotes. -/
theorem parseCidr_eq_some :
    parseCidr inet entry = some cidr ↔ Denotes inet entry cidr := by
  constructor
  · intro h
    obtain ⟨i, hi⟩ : ∃ i, entry.findIdx? (· = slash) = some i := by
      cases hfind : entry.findIdx? (· = slash) with
      | none => simp [parseCidr, hfind] at h
      | some i => exact ⟨i, rfl⟩
    obtain ⟨hlt, hat, hbefore⟩ := List.findIdx?_eq_some_iff_getElem.mp hi
    have hslash : slash ∉ entry.take i := by
      intro hmem
      obtain ⟨j, hj, heq⟩ := List.mem_take_iff_getElem.mp hmem
      exact hbefore j (by omega) (decide_eq_true heq)
    have hentry : entry = entry.take i ++ slash :: entry.drop (i + 1) := by
      rw [← of_decide_eq_true hat, ← List.drop_eq_getElem_cons hlt, List.take_append_drop]
    refine ⟨_, _, hentry, hslash, ?_⟩
    rw [hentry, parseCidr_append hslash] at h
    obtain ⟨len, hlen, h⟩ := Option.bind_eq_some_iff.mp h
    obtain ⟨hne, hdigits, hvalue, -⟩ := parsePrefix_eq_some.mp hlen
    refine ⟨hne, hdigits, ?_⟩
    cases hv4 : inet.pton4 (cString (entry.take i)) with
    | some v4 =>
      simp only [hv4, Option.dite_none_right_eq_some, Option.some.injEq] at h
      obtain ⟨-, rfl⟩ := h
      exact ⟨hvalue, rfl, rfl⟩
    | none =>
      simp only [hv4, Option.bind_eq_some_iff, Option.dite_none_right_eq_some,
        Option.some.injEq] at h
      obtain ⟨v6, hv6, -, rfl⟩ := h
      exact ⟨hvalue, rfl, hv6⟩
  · rintro ⟨text, digits, rfl, hslash, hne, hdigits, hvalue, haddr⟩
    obtain ⟨family, addr, len, hle⟩ := cidr
    have hlen : len ≤ 128 := by cases family <;> exact le_trans hle (by decide)
    rw [parseCidr_append hslash, parsePrefix_eq_some.mpr ⟨hne, hdigits, hvalue, hlen⟩,
      Option.bind_some]
    cases hv4 : inet.pton4 (cString text) with
    | some v4 =>
      rw [hv4] at haddr
      obtain ⟨rfl, rfl⟩ := haddr
      exact dif_pos hle
    | none =>
      rw [hv4] at haddr
      obtain ⟨rfl, hv6⟩ := haddr
      simp [hv6, hlen]

theorem inSome_iff :
    InSome inet address cidrs ↔ ∃ cidr ∈ parseCidrList inet cidrs, LiesIn address cidr := by
  simp only [InSome, parseCidrList, List.mem_filterMap, parseCidr_eq_some]
  constructor
  · rintro ⟨entry, hentry, cidr, hcidr, hlies⟩
    exact ⟨cidr, ⟨entry, hentry, hcidr⟩, hlies⟩
  · rintro ⟨cidr, ⟨entry, hentry, hcidr⟩, hlies⟩
    exact ⟨entry, hentry, cidr, hcidr, hlies⟩

instance (inet : Inet) (address : SockAddr) (cidrs : List Bytes) :
    Decidable (InSome inet address cidrs) :=
  decidable_of_iff _ inSome_iff.symm

/-- A validated list is one in which every entry has a prefix. -/
theorem validateCidrList_eq_ok :
    validateCidrList inet cidrs = .ok () ↔ ∀ entry ∈ cidrs, ∃ cidr, Denotes inet entry cidr := by
  induction cidrs with
  | nil => simp [validateCidrList]
  | cons entry cidrs ih =>
    rw [validateCidrList, List.forall_mem_cons, ← ih]
    simp only [← parseCidr_eq_some, ← Option.isSome_iff_exists]
    cases entry with
    | nil => simp [parseCidr]
    | cons c entry => cases parseCidr inet (c :: entry) <;> simp

/-! ### One address and one network -/

/-- The byte loop and the mask decide agreement on the first bits. -/
theorem ipMatchesCidr_iff (family : Family) (addr : Vector UInt8 16) (cidr : ParsedCidr) :
    ipMatchesCidr family addr cidr = true ↔
      cidr.family = family ∧ Wire.AgreeOn cidr.prefixLen addr.toList cidr.addr.toList := by
  by_cases hfamily : family = cidr.family
  · subst hfamily
    have hle := cidr.prefixLen_le
    have hmod : cidr.prefixLen % 8 < 8 := Nat.mod_lt _ (by decide)
    have hsplit := Wire.agreeOn_iff addr.toList cidr.addr.toList (cidr.prefixLen / 8) hmod
    rw [Nat.div_add_mod] at hsplit
    -- a prefix is no longer than the address, so the loop stays inside it
    have hloop : ((List.range (cidr.prefixLen / 8)).any fun i =>
        decide (cidr.family.byteCount ≤ i) ||
          decide (addr.toList.getD i 0 ≠ cidr.addr.toList.getD i 0)) = false ↔
        ∀ i < cidr.prefixLen / 8, addr.toList.getD i 0 = cidr.addr.toList.getD i 0 := by
      simp only [List.any_eq_false, List.mem_range, Bool.or_eq_true, decide_eq_true_eq, not_or,
        Nat.not_le, not_not]
      constructor
      · intro h i hi
        exact (h i hi).2
      · intro h i hi
        exact ⟨by omega, h i hi⟩
    unfold ipMatchesCidr
    rw [if_neg (not_not.mpr rfl), hsplit, ← hloop]
    dsimp only
    generalize ((List.range (cidr.prefixLen / 8)).any fun i =>
      decide (cidr.family.byteCount ≤ i) ||
        decide (addr.toList.getD i 0 ≠ cidr.addr.toList.getD i 0)) = differs
    cases differs with
    | true => simp
    | false =>
      by_cases hzero : cidr.prefixLen % 8 = 0
      · simp [hzero]
      · have hshort : ¬ cidr.family.byteCount ≤ cidr.prefixLen / 8 := by omega
        rw [if_neg (by decide), if_neg hzero, if_neg hshort, decide_eq_true_eq,
          Wire.masked_eq_iff hmod]
        simp
  · simp [ipMatchesCidr, hfamily, Ne.symm hfamily]

theorem agreeOn_widen {n : Nat} (hn : n ≤ 32) (addr : Ipv4) (network : Bytes) :
    Wire.AgreeOn n (widen addr).toList network ↔ Wire.AgreeOn n addr.toList network := by
  have htail : Wire.AgreeOn 0 (Vector.replicate 12 (0 : UInt8)).toList (network.drop 4) := by
    intro i hi
    omega
  rw [widen, Vector.toList_append, Wire.agreeOn_append n addr.length_toList, Nat.min_eq_left hn,
    Nat.sub_eq_zero_of_le hn]
  exact and_iff_left htail

/-- The bytes that the matcher extracts are matched as the address is. -/
theorem ipMatchesCidr_extract (h : extractIpBytes address = some (family, addr))
    (cidr : ParsedCidr) :
    ipMatchesCidr family addr cidr = true ↔ LiesIn address cidr := by
  rw [ipMatchesCidr_iff]
  cases address with
  | inet v4 port =>
    obtain ⟨rfl, rfl⟩ : .inet = family ∧ widen v4 = addr := by simpa [extractIpBytes] using h
    refine and_congr_right fun hfamily => agreeOn_widen ?_ v4 _
    have hle := cidr.prefixLen_le
    rwa [hfamily] at hle
  | inet6 v6 port flowInfo scopeId =>
    obtain ⟨rfl, rfl⟩ : .inet6 = family ∧ v6 = addr := by simpa [extractIpBytes] using h
    rfl
  | other number => cases h

/-! ### A list of candidates -/

/-- A list of networks matches the bytes of a candidate when the candidate lies in one of them. -/
theorem any_matches_iff (h : extractIpBytes address = some (family, addr)) (cidrs : List Bytes) :
    (parseCidrList inet cidrs).any (ipMatchesCidr family addr) = true ↔
      InSome inet address cidrs := by
  simp only [List.any_eq_true, inSome_iff, ipMatchesCidr_extract h]

theorem checkCandidate_iff (inet : Inet) (cidrs : List Bytes) (candidate : SockAddr) :
    checkCandidate (fun family addr => (parseCidrList inet cidrs).any (ipMatchesCidr family addr))
      candidate = true ↔ InSome inet candidate cidrs := by
  unfold checkCandidate
  cases hextract : extractIpBytes candidate with
  | some bytes => exact any_matches_iff hextract cidrs
  | none =>
    cases candidate with
    | inet v4 port | inet6 v6 port flowInfo scopeId => cases hextract
    | other number => simp [InSome, LiesIn]

/-- A single address passes when it is in no deny prefix and in some allow prefix. -/
theorem ipBytesAllowed_iff (h : extractIpBytes address = some (family, addr)) (acl : Rules) :
    ipBytesAllowed family addr (parseCidrList inet acl.denyCidrs)
      (parseCidrList inet acl.allowCidrs) = true ↔
        ¬ InSome inet address acl.denyCidrs ∧ InSome inet address acl.allowCidrs := by
  rw [← any_matches_iff h, ← any_matches_iff h, ipBytesAllowed]
  cases (parseCidrList inet acl.denyCidrs).any (ipMatchesCidr family addr) <;>
    cases parseCidrList inet acl.allowCidrs <;> simp

theorem ipBytesAllowed_nil (family : Family) (addr : Vector UInt8 16) (allow : List ParsedCidr) :
    ipBytesAllowed family addr [] allow = allow.any (ipMatchesCidr family addr) := by
  cases allow <;> simp [ipBytesAllowed]

/-- The two passes over the candidates compute the decision. -/
theorem evaluateCandidates_eq (inet : Inet) (acl : Rules) (candidates : List SockAddr) :
    evaluateCandidates (parseCidrList inet acl.denyCidrs) (parseCidrList inet acl.allowCidrs)
      candidates =
    if (∀ c ∈ candidates, ¬ InSome inet c acl.denyCidrs) ∧
      ∃ c ∈ candidates, InSome inet c acl.allowCidrs then
      some (candidates.filter fun c => InSome inet c acl.allowCidrs)
    else none := by
  have hallow : candidates.filter (checkCandidate fun family addr =>
        ipBytesAllowed family addr [] (parseCidrList inet acl.allowCidrs)) =
      candidates.filter fun c => InSome inet c acl.allowCidrs := by
    simp only [ipBytesAllowed_nil]
    apply List.filter_congr
    intro c _
    rw [Bool.eq_iff_iff, checkCandidate_iff, decide_eq_true_eq]
  have hnone : (parseCidrList inet acl.allowCidrs).isEmpty = true →
      ∀ c, ¬ InSome inet c acl.allowCidrs := by
    intro hempty c
    simp [inSome_iff, List.isEmpty_iff.mp hempty]
  have hdeny : candidates.any (checkCandidate fun family addr =>
        (parseCidrList inet acl.denyCidrs).any (ipMatchesCidr family addr)) = true ↔
      ¬ ∀ c ∈ candidates, ¬ InSome inet c acl.denyCidrs := by
    simp only [List.any_eq_true, checkCandidate_iff, not_forall, not_not, exists_prop]
  have hout : (candidates.filter fun c => InSome inet c acl.allowCidrs).isEmpty = true ↔
      ¬ ∃ c ∈ candidates, InSome inet c acl.allowCidrs := by
    simp
  unfold evaluateCandidates
  rw [hallow]
  simp only [hdeny, hout]
  by_cases hall : ∀ c ∈ candidates, ¬ InSome inet c acl.denyCidrs
  · by_cases hsome : ∃ c ∈ candidates, InSome inet c acl.allowCidrs
    · have hempty : ¬ (parseCidrList inet acl.allowCidrs).isEmpty = true := by
        obtain ⟨c, _, hc⟩ := hsome
        exact fun hempty => hnone hempty c hc
      rw [if_neg hempty, if_neg (not_not.mpr hall), if_neg (not_not.mpr hsome),
        if_pos ⟨hall, hsome⟩]
    · rw [if_neg (not_not.mpr hall), if_pos hsome, ite_self, if_neg (fun h => hsome h.2)]
  · rw [if_pos hall, ite_self, if_neg (fun h => hall h.1)]

theorem filterResolvedAddresses_eq (inet : Inet) (acl : Rules) (candidates : List SockAddr)
    (port : UInt16) :
    acl.filterResolvedAddresses inet candidates port =
      if (∀ c ∈ candidates, ¬ InSome inet c acl.denyCidrs) ∧
        ∃ c ∈ candidates, InSome inet c acl.allowCidrs then
        some ((candidates.filter fun c => InSome inet c acl.allowCidrs).map (setSockaddrPort port))
      else none := by
  rw [Rules.filterResolvedAddresses, evaluateCandidates_eq, apply_ite (Option.map _)]
  rfl

/-- The two decision paths agree on a literal. -/
theorem isAllowed_eq_filter {host : Bytes} {literal : SockAddr}
    (h : parseIpLiteral inet host = some literal) (acl : Rules) (port : UInt16) :
    acl.isAllowed inet host port = (acl.filterResolvedAddresses inet [literal] port).isSome := by
  obtain ⟨bytes, hbytes⟩ : ∃ bytes, extractIpBytes literal = some bytes := by
    unfold parseIpLiteral at h
    split at h
    · cases h
      exact ⟨_, rfl⟩
    · split at h
      · cases h
        exact ⟨_, rfl⟩
      · cases h
  have hallowed : acl.isAllowed inet host port = true ↔
      ¬ InSome inet literal acl.denyCidrs ∧ InSome inet literal acl.allowCidrs := by
    rw [← ipBytesAllowed_iff hbytes, Rules.isAllowed, h]
    simp only [hbytes]
  rw [Bool.eq_iff_iff, hallowed, filterResolvedAddresses_eq]
  simp only [List.mem_singleton, forall_eq, exists_eq_left]
  split_ifs with hpass <;> simp [hpass]

/-- An address of a family that has prefixes is given its port and keeps the rest. -/
theorem eq_setSockaddrPort_iff {out : SockAddr} {port : UInt16} (h : InSome inet address cidrs) :
    out = setSockaddrPort port address ↔
      SameAddress address out ∧ sockaddrPort out = some port := by
  cases address with
  | inet | inet6 =>
    cases out <;> simp only [SameAddress, sockaddrPort, setSockaddrPort]
    all_goals grind
  | other family => simp [InSome, LiesIn] at h

theorem eq_map_setSockaddrPort_iff {passed out : List SockAddr} {port : UInt16}
    (h : ∀ c ∈ passed, InSome inet c cidrs) :
    out = passed.map (setSockaddrPort port) ↔
      List.Forall₂ (fun c o => SameAddress c o ∧ sockaddrPort o = some port) passed out := by
  induction passed generalizing out with
  | nil => rw [List.forall₂_nil_left_iff, List.map_nil]
  | cons c passed ih =>
    obtain ⟨hc, hpassed⟩ := List.forall_mem_cons.mp h
    rw [List.forall₂_cons_left_iff, List.map_cons]
    simp only [← eq_setSockaddrPort_iff hc, ← ih hpassed]
    simp

/-- **The access control list decides by prefixes.** The validated lists are those whose entries all
denote a network. The filter passes a list of candidates exactly if none of them lies in a denied
network and one in an allowed one, and returns those that do with the port set; order and repetition
of the entries do not matter, and a literal is decided as a list of one. -/
theorem filter_is_prefix_semantics (inet : Inet) (acl : Rules) :
    (∀ cidrs, validateCidrList inet cidrs = .ok () ↔
      ∀ entry ∈ cidrs, ∃ cidr, Denotes inet entry cidr) ∧
    (∀ candidates port out, acl.filterResolvedAddresses inet candidates port = some out ↔
      (∀ c ∈ candidates, ¬ InSome inet c acl.denyCidrs) ∧
      (∃ c ∈ candidates, InSome inet c acl.allowCidrs) ∧
      List.Forall₂ (fun c o => SameAddress c o ∧ sockaddrPort o = some port)
        (candidates.filter fun c => InSome inet c acl.allowCidrs) out) ∧
    (∀ acl' : Rules, (∀ entry, entry ∈ acl'.allowCidrs ↔ entry ∈ acl.allowCidrs) →
      (∀ entry, entry ∈ acl'.denyCidrs ↔ entry ∈ acl.denyCidrs) →
      ∀ candidates port, acl'.filterResolvedAddresses inet candidates port =
        acl.filterResolvedAddresses inet candidates port) ∧
    (∀ host literal port, parseIpLiteral inet host = some literal →
      (acl.filterResolvedAddresses inet [literal] port).isSome = acl.isAllowed inet host port) := by
  refine ⟨fun cidrs => validateCidrList_eq_ok, ?_, ?_, ?_⟩
  · intro candidates port out
    have hpassed : ∀ c ∈ candidates.filter fun c => InSome inet c acl.allowCidrs,
        InSome inet c acl.allowCidrs := fun c hc => by
      simpa using (List.mem_filter.mp hc).2
    rw [filterResolvedAddresses_eq, ← eq_map_setSockaddrPort_iff hpassed]
    split_ifs with hpass
    · exact ⟨fun h => ⟨hpass.1, hpass.2, (Option.some.inj h).symm⟩,
        fun h => congrArg some h.2.2.symm⟩
    · exact ⟨fun h => (nomatch h), fun h => absurd ⟨h.1, h.2.1⟩ hpass⟩
  · intro acl' hallow hdeny candidates port
    have hsame : ∀ c, (InSome inet c acl'.allowCidrs ↔ InSome inet c acl.allowCidrs) ∧
        (InSome inet c acl'.denyCidrs ↔ InSome inet c acl.denyCidrs) := by
      simp only [InSome, hallow, hdeny, implies_true, and_self]
    simp only [filterResolvedAddresses_eq, hsame]
  · intro host literal port hliteral
    exact (isAllowed_eq_filter hliteral acl port).symm

/-- The first half of 10.0.0.0/8 is allowed, without 10.64.0.0/10. -/
def halfTen : Rules := ⟨[ascii "10.0.0.0/9"], [ascii "10.64.0.0/10"]⟩

/-- A candidate outside of both networks is left out, and a denied one refuses them all. -/
theorem halfTen_decides :
    validateCidrList plainInet.toInet halfTen.allowCidrs = .ok () ∧
    halfTen.filterResolvedAddresses plainInet.toInet
      [.inet #v[192, 168, 1, 5] 0, .inet #v[10, 1, 2, 3] 0] 443 =
        some [.inet #v[10, 1, 2, 3] 443] ∧
    halfTen.filterResolvedAddresses plainInet.toInet
      [.inet #v[10, 1, 2, 3] 0, .inet #v[10, 65, 0, 1] 0] 443 = none := by
  obtain ⟨-, hfilter, -⟩ := filter_is_prefix_semantics plainInet.toInet halfTen
  refine ⟨by decide, (hfilter _ _ _).mpr ⟨by decide +kernel, by decide +kernel, ?_⟩, ?_⟩
  · have hpassed : [SockAddr.inet #v[192, 168, 1, 5] 0, .inet #v[10, 1, 2, 3] 0].filter
        (fun c => InSome plainInet.toInet c halfTen.allowCidrs) = [.inet #v[10, 1, 2, 3] 0] := by
      decide +kernel
    rw [hpassed]
    exact .cons ⟨rfl, rfl⟩ .nil
  · refine Option.eq_none_iff_forall_ne_some.mpr fun out hout => ?_
    exact ((hfilter _ _ _).mp hout).1 (.inet #v[10, 65, 0, 1] 0) (by simp) (by decide +kernel)

end TcpQuicProxy.Acl
