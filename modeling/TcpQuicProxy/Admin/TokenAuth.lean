import Mathlib.Data.List.GetD
import TcpQuicProxy.Ingress.ProxyAuth

/-!
# The bearer token of the admin interface

`authorize` reads the authorization header of a request and compares what
follows the scheme with the token. The comparison of the admin interface is not
the one of the proxy credentials: it has no early exit on the length, it pads
the shorter operand with NUL bytes and puts the difference of the lengths into
the accumulator of the byte differences, of which it keeps the low eight bits.

`constantTimeEquals_iff` says what that comparison decides, and
`authorize_exact_iff` for which header values the check is exact.
-/

namespace TcpQuicProxy.Admin

open List

/-- `Headers` is a map: names are in lower case and occur once. -/
structure HttpRequest where
  headers : List (Bytes × Bytes)
  deriving DecidableEq

structure AdminAuth where
  tokenValue : Bytes
  deriving DecidableEq

/-- The bytes of "Bearer ". -/
def kPrefix : Bytes := [0x42, 0x65, 0x61, 0x72, 0x65, 0x72, 0x20]

/-- The bytes of "authorization". -/
def authorization : Bytes :=
  [0x61, 0x75, 0x74, 0x68, 0x6F, 0x72, 0x69, 0x7A, 0x61, 0x74, 0x69, 0x6F, 0x6E]

def constantTimeEquals (a b : Bytes) : Bool :=
  let maxLen := if a.length > b.length then a.length else b.length
  let diff : UInt8 := (UInt64.ofNat a.length ^^^ UInt64.ofNat b.length).toUInt8
  (List.range maxLen).foldl (fun diff i => diff ||| (a.getD i 0 ^^^ b.getD i 0)) diff = 0

def AdminAuth.authorize (auth : AdminAuth) (req : HttpRequest) : Bool :=
  if auth.tokenValue.isEmpty then false
  else match req.headers.lookup authorization with
    | none => false
    | some value =>
      -- `compare` takes at most as many bytes of the value as the scheme has
      if value.take kPrefix.length ≠ kPrefix then false
      else constantTimeEquals (value.drop kPrefix.length) auth.tokenValue

/-! ### What the comparison decides -/

/-- `b` is `a` followed by a positive multiple of 256 NUL bytes. -/
def PaddedBy256 (a b : Bytes) : Prop := ∃ k, 0 < k ∧ b = a ++ List.replicate (256 * k) 0

theorem toUInt8_xor_eq_zero {m n : Nat} :
    (UInt64.ofNat m ^^^ UInt64.ofNat n).toUInt8 = 0 ↔ m % 256 = n % 256 := by
  rw [UInt64.toUInt8_xor, UInt8.xor_eq_zero_iff, ← UInt8.toNat_inj]
  simp only [UInt64.toUInt8_ofNat', UInt8.toNat_ofNat']

variable {a b value : Bytes}

/-- Reading past the end gives a NUL byte, so two strings that read the same
everywhere differ by NUL bytes at the end of the longer one. -/
theorem eq_append_replicate_of_getD (hlength : a.length ≤ b.length)
    (h : ∀ i < b.length, a.getD i 0 = b.getD i 0) :
    b = a ++ List.replicate (b.length - a.length) 0 := by
  apply ext_getElem
  · simp
    omega
  · intro i hb _
    have hi := h i hb
    rw [getD_eq_getElem _ _ hb] at hi
    by_cases ha : i < a.length
    · rw [getElem_append_left ha, ← hi, getD_eq_getElem _ _ ha]
    · rw [getElem_append_right (by omega), getElem_replicate, ← hi,
        getD_eq_default _ _ (by omega)]

theorem getD_append_replicate (a : Bytes) (n i : Nat) :
    (a ++ List.replicate n 0).getD i 0 = a.getD i 0 := by
  by_cases h : i < a.length
  · rw [getD_append _ _ _ _ h]
  · rw [getD_append_right _ _ _ _ (by omega), getD_eq_default a _ (by omega)]
    simp [getD, getElem?_replicate]
    split <;> rfl

theorem constantTimeEquals_eq_true :
    constantTimeEquals a b = true ↔
      a.length % 256 = b.length % 256 ∧ ∀ i < max a.length b.length, a.getD i 0 = b.getD i 0 := by
  have hloop := @Ingress.foldl_or_eq_zero
    ((range (max a.length b.length)).map fun i => (a.getD i 0, b.getD i 0))
    (UInt64.ofNat a.length ^^^ UInt64.ofNat b.length).toUInt8
  rw [foldl_map] at hloop
  have hmax : (if a.length > b.length then a.length else b.length) = max a.length b.length := by
    split <;> omega
  unfold constantTimeEquals
  rw [hmax, decide_eq_true_eq, hloop, toUInt8_xor_eq_zero]
  simp

/-- The lengths are compared modulo 256, and NUL bytes fill up the shorter one. -/
theorem constantTimeEquals_iff :
    constantTimeEquals a b = true ↔ a = b ∨ PaddedBy256 a b ∨ PaddedBy256 b a := by
  rw [constantTimeEquals_eq_true]
  constructor
  · rintro ⟨hmod, hsame⟩
    rcases Nat.lt_trichotomy a.length b.length with hlt | heq | hgt
    · refine .inr (.inl ⟨(b.length - a.length) / 256, by omega, ?_⟩)
      rw [show 256 * ((b.length - a.length) / 256) = b.length - a.length by omega]
      exact eq_append_replicate_of_getD hlt.le fun i hi => hsame i (by omega)
    · left
      have hb := eq_append_replicate_of_getD heq.le fun i hi => hsame i (by omega)
      rw [heq, Nat.sub_self] at hb
      simpa using hb.symm
    · refine .inr (.inr ⟨(a.length - b.length) / 256, by omega, ?_⟩)
      rw [show 256 * ((a.length - b.length) / 256) = a.length - b.length by omega]
      exact eq_append_replicate_of_getD hgt.le fun i hi => (hsame i (by omega)).symm
  · rintro (rfl | ⟨k, -, rfl⟩ | ⟨k, -, rfl⟩)
    · exact ⟨rfl, fun _ _ => rfl⟩
    · exact ⟨by simp, fun i _ => (getD_append_replicate a _ i).symm⟩
    · exact ⟨by simp, fun i _ => getD_append_replicate b _ i⟩

/-! ### The check of a request -/

theorem authorize_eq_true {auth : AdminAuth} {req : HttpRequest}
    (htoken : auth.tokenValue ≠ []) (hvalue : req.headers.lookup authorization = some value) :
    auth.authorize req = true ↔
      ∃ rest, value = kPrefix ++ rest ∧ constantTimeEquals rest auth.tokenValue = true := by
  have hempty : auth.tokenValue.isEmpty = false := by simpa using htoken
  simp only [AdminAuth.authorize, hempty, hvalue, Bool.false_eq_true, if_false]
  constructor
  · intro h
    split at h
    · contradiction
    · rename_i hscheme
      have htake : value.take kPrefix.length = kPrefix := by simpa using hscheme
      refine ⟨value.drop kPrefix.length, ?_, h⟩
      conv_lhs => rw [← take_append_drop kPrefix.length value, htake]
  · rintro ⟨rest, rfl, h⟩
    simpa using h

/-- A scheme with padding behind it is not a shorter value: the scheme has no NUL byte. -/
theorem paddedBy256_left {rest : Bytes} (h : PaddedBy256 value (kPrefix ++ rest)) :
    ∃ shorter, value = kPrefix ++ shorter ∧ PaddedBy256 shorter rest := by
  obtain ⟨k, hk, h⟩ := h
  rcases append_eq_append_iff.mp h with ⟨shorter, rfl, hrest⟩ | ⟨tail, hscheme, hzeros⟩
  · exact ⟨shorter, rfl, k, hk, hrest⟩
  · -- what the value lacks of the scheme would have to be NUL bytes
    have htail : tail = [] := by
      cases tail with
      | nil => rfl
      | cons b tail =>
        have hzero : b = 0 := eq_of_mem_replicate (n := 256 * k) (by rw [hzeros]; simp)
        have hb : b ∈ kPrefix := by rw [hscheme]; simp
        subst hzero
        exact absurd hb (by decide)
    subst htail
    exact ⟨[], by simpa using hscheme.symm, k, hk, by simpa using hzeros.symm⟩

theorem paddedBy256_append {scheme : Bytes} (h : PaddedBy256 a b) :
    PaddedBy256 (scheme ++ a) (scheme ++ b) := by
  obtain ⟨k, hk, rfl⟩ := h
  exact ⟨k, hk, by simp⟩

theorem paddedBy256_ne (h : PaddedBy256 a b) : a ≠ b := by
  obtain ⟨k, hk, rfl⟩ := h
  intro heq
  have := congrArg length heq
  simp at this
  omega

/-- The check accepts the scheme followed by the token and nothing else, unless
the value and that string differ by a multiple of 256 NUL bytes at the end. -/
theorem authorize_exact_iff (auth : AdminAuth) (req : HttpRequest) (value : Bytes)
    (htoken : auth.tokenValue ≠ []) (hvalue : req.headers.lookup authorization = some value) :
    (auth.authorize req = true ↔ value = kPrefix ++ auth.tokenValue) ↔
      ¬ PaddedBy256 (kPrefix ++ auth.tokenValue) value ∧
        ¬ PaddedBy256 value (kPrefix ++ auth.tokenValue) := by
  rw [authorize_eq_true htoken hvalue]
  constructor
  · intro hexact
    constructor
    · intro hlonger
      obtain ⟨k, hk, hpad⟩ := hlonger
      refine paddedBy256_ne ⟨k, hk, hpad⟩
        (hexact.mp ⟨auth.tokenValue ++ replicate (256 * k) 0, ?_, ?_⟩).symm
      · rw [hpad, append_assoc]
      · exact constantTimeEquals_iff.mpr (.inr (.inr ⟨k, hk, rfl⟩))
    · intro hshorter
      obtain ⟨shorter, hscheme, hpad⟩ := paddedBy256_left hshorter
      exact paddedBy256_ne hshorter
        (hexact.mp ⟨shorter, hscheme, constantTimeEquals_iff.mpr (.inr (.inl hpad))⟩)
  · rintro ⟨hlonger, hshorter⟩
    constructor
    · rintro ⟨rest, rfl, hequals⟩
      rcases constantTimeEquals_iff.mp hequals with rfl | hpad | hpad
      · rfl
      · exact absurd (paddedBy256_append hpad) hshorter
      · exact absurd (paddedBy256_append hpad) hlonger
    · rintro rfl
      exact ⟨auth.tokenValue, rfl, constantTimeEquals_iff.mpr (.inl rfl)⟩

/-- The header "Bearer " followed by `rest`, as the only one of a request. -/
def bearing (rest : Bytes) : HttpRequest := ⟨[(authorization, kPrefix ++ rest)]⟩

/-- For a one-byte token the value with a wrong byte is refused and the right one accepted. -/
theorem authorize_exact_oneByte :
    (AdminAuth.authorize ⟨[0x74]⟩ (bearing [0x74]) = true ↔
      kPrefix ++ [0x74] = kPrefix ++ [(0x74 : UInt8)]) ∧
    (AdminAuth.authorize ⟨[0x74]⟩ (bearing [0x75]) = true ↔
      kPrefix ++ [0x75] = kPrefix ++ [(0x74 : UInt8)]) := by
  have hexact (b : UInt8) :
      AdminAuth.authorize ⟨[0x74]⟩ (bearing [b]) = true ↔ kPrefix ++ [b] = kPrefix ++ [0x74] := by
    refine (authorize_exact_iff ⟨[0x74]⟩ (bearing [b]) (kPrefix ++ [b]) (by simp)
      (by simp [bearing])).mpr ⟨?_, ?_⟩ <;>
    · rintro ⟨k, hk, h⟩
      have := congrArg length h
      simp at this
      omega
  exact ⟨hexact 0x74, hexact 0x75⟩

/-- A token of 64 hexadecimal digits followed by 256 NUL bytes is accepted. -/
theorem authorize_accepts_longer_value :
    ¬ (AdminAuth.authorize ⟨List.replicate 64 0x61⟩
        (bearing (List.replicate 64 0x61 ++ List.replicate 256 0)) = true ↔
      kPrefix ++ (List.replicate 64 0x61 ++ List.replicate 256 0) =
        kPrefix ++ List.replicate 64 (0x61 : UInt8)) := by
  decide +kernel

end TcpQuicProxy.Admin
