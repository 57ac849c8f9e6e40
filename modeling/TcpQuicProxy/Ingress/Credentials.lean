import TcpQuicProxy.Ingress.AuthGate
import TcpQuicProxy.Wire.BigEndian

/-!
# The same credentials on both protocols

A user table is checked once, when the configuration is read, and then serves
both kinds of clients. A SOCKS5 client sends the name and the password as two
fields, an HTTP client as the Base64 text of name, colon and password, which is
cut again at its first colon. So an entry whose name has a colon in it can be
used by SOCKS5 clients only.
-/

namespace TcpQuicProxy.Ingress

open Platform Protocol Wire List ProxyAuthTable

/-! ### Base64 texts -/

/-- The character of a six-bit value. -/
def base64EncodeByte (v : UInt32) : UInt8 :=
  if v < 26 then 0x41 + v.toUInt8
  else if v < 52 then 0x61 + (v.toUInt8 - 26)
  else if v < 62 then 0x30 + (v.toUInt8 - 52)
  else if v = 62 then 0x2B
  else 0x2F

/-- Six bits of a group of three bytes. -/
def sextet (triple : UInt32) (shift : UInt32) : UInt32 := (triple >>> shift) &&& 63

/-- The standard encoding, with padding. -/
def base64Encode : Bytes → Bytes
  | [] => []
  | [a] =>
    let triple := join32 0 a 0 0
    [base64EncodeByte (sextet triple 18), base64EncodeByte (sextet triple 12),
      equalsSign, equalsSign]
  | [a, b] =>
    let triple := join32 0 a b 0
    [base64EncodeByte (sextet triple 18), base64EncodeByte (sextet triple 12),
      base64EncodeByte (sextet triple 6), equalsSign]
  | a :: b :: c :: rest =>
    let triple := join32 0 a b c
    base64EncodeByte (sextet triple 18) :: base64EncodeByte (sextet triple 12) ::
      base64EncodeByte (sextet triple 6) ::
      base64EncodeByte (sextet triple 0) :: base64Encode rest

variable {v : UInt32} {auth : ProxyAuthTable} {pass user : Bytes}

theorem base64DecodeByte_encode (h : v < 64) : base64DecodeByte (base64EncodeByte v) = some v := by
  have hall : ∀ n : Fin 64,
      base64DecodeByte (base64EncodeByte (UInt32.ofNat n.val)) = some (UInt32.ofNat n.val) := by
    decide +kernel
  have hlt : v.toNat < 64 := UInt32.lt_iff_toNat_lt.mp h
  simpa using hall ⟨v.toNat, hlt⟩

theorem base64DecodeByte_equalsSign : base64DecodeByte equalsSign = none := by decide

theorem base64EncodeByte_ne (h : v < 64) : base64EncodeByte v ≠ equalsSign := by
  intro heq
  have hdecode := base64DecodeByte_encode h
  rw [heq, base64DecodeByte_equalsSign] at hdecode
  cases hdecode

theorem sextet_lt (triple shift : UInt32) : sextet triple shift < 64 := by
  rw [UInt32.lt_iff_toNat_lt, sextet, UInt32.toNat_and]
  exact Nat.lt_of_le_of_lt Nat.and_le_right (by decide)

theorem getLsbD_sixBits (k : Nat) : (63#32).getLsbD k = decide (k < 6) := by
  by_cases hk : k < 32
  · have hall : ∀ k : Fin 32, (63#32).getLsbD k = decide (k.val < 6) := by decide
    exact hall ⟨k, hk⟩
  · rw [BitVec.getLsbD_of_ge _ _ (Nat.le_of_not_lt hk)]
    simp
    omega

theorem word_ext {w : UInt32} (h : ∀ i < 32, v.toBitVec.getLsbD i = w.toBitVec.getLsbD i) : v = w :=
  UInt32.eq_of_toBitVec_eq (BitVec.eq_of_getLsbD_eq h)

attribute [local simp] base64Encode getLsbD_sixBits

/-- The sextets of a number of 24 bits put together again. -/
theorem join_sextets {triple : UInt32} (h : ∀ i, 24 ≤ i → triple.toBitVec.getLsbD i = false) :
    (sextet triple 18 <<< 18) ||| (sextet triple 12 <<< 12) ||| (sextet triple 6 <<< 6)
    ||| sextet triple 0 = triple := by
  apply word_ext
  intro i hi
  have hlast := h i
  simp [sextet]
  grind

theorem getLsbD_join32 (a b c : UInt8) (i : Nat) (h : 24 ≤ i) :
    (join32 0 a b c).toBitVec.getLsbD i = false := by
  simp [join32]
  grind

theorem bytes_join32 (a b c : UInt8) :
    (join32 0 a b c >>> 16).toUInt8 = a ∧ (join32 0 a b c >>> 8).toUInt8 = b ∧
      (join32 0 a b c).toUInt8 = c := by
  have hsplit := split32_join32 0 a b c
  simp only [split32, cons.injEq] at hsplit
  exact ⟨hsplit.2.1, hsplit.2.2.1, hsplit.2.2.2.1⟩

/-- Sextets put into their places in a number of 24 bits. -/
theorem sextet_join {b0 b1 b2 b3 : UInt32} (h0 : b0 &&& 63 = b0) (h1 : b1 &&& 63 = b1)
    (h2 : b2 &&& 63 = b2) (h3 : b3 &&& 63 = b3) :
    let triple := (b0 <<< 18) ||| (b1 <<< 12) ||| (b2 <<< 6) ||| b3
    (triple >>> 24).toUInt8 = 0 ∧ sextet triple 18 = b0 ∧ sextet triple 12 = b1 ∧
      sextet triple 6 = b2 ∧ sextet triple 0 = b3 := by
  have hbits : ∀ {v : UInt32}, v &&& 63 = v → ∀ i, 6 ≤ i → v.toBitVec.getLsbD i = false := by
    intro v hv i hi
    rw [← hv]
    simp
    omega
  have hbits0 := hbits h0
  have hbits1 := hbits h1
  have hbits2 := hbits h2
  have hbits3 := hbits h3
  refine ⟨byte_ext ?_, word_ext ?_, word_ext ?_, word_ext ?_, word_ext ?_⟩
  all_goals
    intro i hi
    simp [sextet]
    grind

/-- The bits that a padded group does not use are zero. -/
theorem sextet_padded (a b : UInt8) :
    sextet (join32 0 a b 0) 0 = 0 ∧
      (sextet (join32 0 a b 0) 6 >>> 2) <<< 2 = sextet (join32 0 a b 0) 6 ∧
      sextet (join32 0 a 0 0) 6 = 0 ∧
        (sextet (join32 0 a 0 0) 12 >>> 4) <<< 4 = sextet (join32 0 a 0 0) 12 := by
  refine ⟨word_ext ?_, word_ext ?_, word_ext ?_, word_ext ?_⟩
  all_goals
    intro i hi
    simp [sextet, join32]
    grind

/-- If they are zero, so are the bytes. -/
theorem padded_zero {a b c : UInt8} (hlast : sextet (join32 0 a b c) 0 = 0) :
    ((sextet (join32 0 a b c) 6 >>> 2) <<< 2 = sextet (join32 0 a b c) 6 → c = 0) ∧
      (sextet (join32 0 a b c) 6 = 0 →
        (sextet (join32 0 a b c) 12 >>> 4) <<< 4 = sextet (join32 0 a b c) 12 → b = 0) := by
  have hbit : ∀ {v w : UInt32}, v = w → ∀ i, v.toBitVec.getLsbD i = w.toBitVec.getLsbD i :=
    fun h i => h ▸ rfl
  refine ⟨fun hthird => byte_ext fun i hi => ?_, fun hthird hsecond => byte_ext fun i hi => ?_⟩
  · have h0 := hbit hlast i
    have h6 := hbit hthird (i - 6)
    simp [sextet, join32] at h0 h6 ⊢
    grind
  · have h6 := hbit hthird (i + 2)
    have h12 := hbit hsecond (i - 4)
    simp [sextet, join32] at h6 h12 ⊢
    grind

theorem base64EncodeByte_decode {ch : UInt8} (h : base64DecodeByte ch = some v) :
    base64EncodeByte v = ch ∧ v &&& 63 = v := by
  have hall : ∀ n : Fin 256, (base64DecodeByte (UInt8.ofNat n.val)).all
      (fun v => base64EncodeByte v = UInt8.ofNat n.val && v &&& 63 = v) = true := by
    decide +kernel
  have hch := hall ⟨ch.toNat, ch.toNat_lt⟩
  simpa [h] using hch

/-! ### Groups -/

/-- One of the last two characters of a group and its six bits. -/
def Place (ch : UInt8) (v : UInt32) : Prop :=
  if ch = equalsSign then v = 0 else base64EncodeByte v = ch

section Groups

variable {c0 c1 c2 c3 : UInt8}

/-- A group is the text of the three bytes whose sextets stand in its places. -/
theorem base64Group_iff {head : Bytes} :
    base64Group c0 c1 c2 c3 = some head ↔ ∃ a b c,
      base64EncodeByte (sextet (join32 0 a b c) 18) = c0 ∧
        base64EncodeByte (sextet (join32 0 a b c) 12) = c1 ∧
      Place c2 (sextet (join32 0 a b c) 6) ∧ Place c3 (sextet (join32 0 a b c) 0) ∧
      head = a ::
        ((if c2 ≠ equalsSign then [b] else []) ++ if c3 ≠ equalsSign then [c] else []) := by
  constructor
  · intro h
    have hplace : ∀ {ch : UInt8} {v : UInt32}, base64Padded ch = some v →
        Place ch v ∧ v &&& 63 = v := by
      intro ch v hv
      unfold base64Padded at hv
      unfold Place
      split_ifs at hv ⊢
      · obtain rfl := Option.some.inj hv
        exact ⟨rfl, rfl⟩
      · exact base64EncodeByte_decode hv
    simp only [base64Group, Option.bind_eq_bind, Option.bind_eq_some_iff, Option.some.injEq] at h
    obtain ⟨b0, hb0, b1, hb1, b2, hb2, b3, hb3, rfl⟩ := h
    obtain ⟨hc0, hb0⟩ := base64EncodeByte_decode hb0
    obtain ⟨hc1, hb1⟩ := base64EncodeByte_decode hb1
    obtain ⟨hc2, hb2⟩ := hplace hb2
    obtain ⟨hc3, hb3⟩ := hplace hb3
    obtain ⟨htop, hs0, hs1, hs2, hs3⟩ := sextet_join hb0 hb1 hb2 hb3
    have hjoin := join32_split32 ((b0 <<< 18) ||| (b1 <<< 12) ||| (b2 <<< 6) ||| b3)
    rw [htop] at hjoin
    refine ⟨_, _, _, ?_, ?_, ?_, ?_, rfl⟩
    all_goals rw [hjoin]
    · rw [hs0, hc0]
    · rw [hs1, hc1]
    · rwa [hs2]
    · rwa [hs3]
  · rintro ⟨a, b, c, rfl, rfl, h2, h3, rfl⟩
    have hplace : ∀ {ch : UInt8} {shift : UInt32}, Place ch (sextet (join32 0 a b c) shift) →
        base64Padded ch = some (sextet (join32 0 a b c) shift) := by
      intro ch shift hch
      unfold Place at hch
      unfold base64Padded
      split_ifs at hch ⊢
      · rw [hch]
      · rw [← hch, base64DecodeByte_encode (sextet_lt ..)]
    obtain ⟨h16, h8, h0⟩ := bytes_join32 a b c
    simp only [base64Group, base64DecodeByte_encode (sextet_lt ..), hplace h2, hplace h3,
      Option.bind_eq_bind, Option.bind_some,
      join_sextets (getLsbD_join32 a b c), h16, h8, h0]

end Groups

theorem place_encodeByte (triple shift : UInt32) :
    Place (base64EncodeByte (sextet triple shift)) (sextet triple shift) := by
  rw [Place, if_neg (base64EncodeByte_ne (sextet_lt ..))]

theorem place_equalsSign (h : v = 0) : Place equalsSign v := by
  rwa [Place, if_pos rfl]

theorem base64Groups_encode (bytes : Bytes) : base64Groups (base64Encode bytes) = some bytes := by
  have hne : ∀ triple shift, base64EncodeByte (sextet triple shift) ≠ equalsSign :=
    fun _ _ => base64EncodeByte_ne (sextet_lt ..)
  induction bytes using base64Encode.induct with
  | case1 => rfl
  | case2 a =>
    obtain ⟨hlast, -, hthird, -⟩ := sextet_padded a 0
    simp [base64Groups,
      base64Group_iff.mpr ⟨a, 0, 0, rfl, rfl, place_equalsSign hthird, place_equalsSign hlast, rfl⟩]
  | case3 a b =>
    have hlast := (sextet_padded a b).1
    simp [base64Groups, base64Group_iff.mpr
      ⟨a, b, 0, rfl, rfl, place_encodeByte .., place_equalsSign hlast, rfl⟩, hne]
  | case4 a b c rest ih =>
    simp [base64Groups, base64Group_iff.mpr
      ⟨a, b, c, rfl, rfl, place_encodeByte .., place_encodeByte .., rfl⟩, ih, hne]

/-- What an encoded text consists of. -/
def Base64Char (ch : UInt8) : Prop := ch = equalsSign ∨ (base64DecodeByte ch).isSome = true

theorem base64Char_encodeByte (triple shift : UInt32) :
    Base64Char (base64EncodeByte (sextet triple shift)) :=
  .inr (by rw [base64DecodeByte_encode (sextet_lt ..)]; rfl)

theorem base64Char_encode (bytes : Bytes) : ∀ ch ∈ base64Encode bytes, Base64Char ch := by
  induction bytes using base64Encode.induct with
  | case1 => simp
  | case2 a | case3 a b => simp [base64Char_encodeByte, show Base64Char equalsSign from .inl rfl]
  | case4 a b c rest ih => simpa [base64Encode, base64Char_encodeByte] using ih

theorem base64Clean_of_chars {text : Bytes} (h : ∀ ch ∈ text, Base64Char ch) :
    base64Clean text = some text := by
  induction text with
  | nil => rfl
  | cons ch text ih =>
    obtain ⟨hch, htext⟩ := forall_mem_cons.mp h
    rw [base64Clean, if_pos (by simpa [Base64Char] using hch), ih htext]
    rfl

theorem length_base64Encode (bytes : Bytes) :
    (base64Encode bytes).length = 4 * ((bytes.length + 2) / 3) := by
  induction bytes using base64Encode.induct with
  | case1 | case2 a | case3 a b => simp
  | case4 a b c rest ih =>
    simp only [base64Encode, length_cons, ih]
    omega

theorem base64Decode_encode {bytes : Bytes} (h : bytes ≠ []) :
    base64Decode (base64Encode bytes) = some bytes := by
  have hlength := length_base64Encode bytes
  have hpos : 0 < bytes.length := length_pos_iff.mpr h
  have hne : base64Encode bytes ≠ [] := by
    intro hnil
    rw [hnil, length_nil] at hlength
    omega
  have hmod : (base64Encode bytes).length % 4 = 0 := by omega
  rw [base64Decode, base64Clean_of_chars (base64Char_encode bytes)]
  simp [hne, hmod, h, base64Groups_encode]

/-! ### Texts that are encoded again -/

/-- Only the last group is padded, and the bits that it does not use are zero. -/
def base64Canonical : Bytes → Bool
  | [_, c1, c2, c3] =>
    if c3 ≠ equalsSign then c2 ≠ equalsSign
    else if c2 ≠ equalsSign then (base64DecodeByte c2).all fun v : UInt32 => (v >>> 2) <<< 2 = v
    else (base64DecodeByte c1).all fun v : UInt32 => (v >>> 4) <<< 4 = v
  | _ :: _ :: c2 :: c3 :: rest => c2 ≠ equalsSign && c3 ≠ equalsSign && base64Canonical rest
  | _ => true

section Groups

variable {c0 c1 c2 c3 : UInt8} {head : Bytes}

theorem base64Encode_group (rest : Bytes) (h : base64Group c0 c1 c2 c3 = some head)
    (h2 : c2 ≠ equalsSign) (h3 : c3 ≠ equalsSign) :
    base64Encode (head ++ rest) = c0 :: c1 :: c2 :: c3 :: base64Encode rest := by
  obtain ⟨a, b, c, hc0, hc1, hc2, hc3, rfl⟩ := base64Group_iff.mp h
  rw [Place, if_neg h2] at hc2
  rw [Place, if_neg h3] at hc3
  simp [hc0, hc1, hc2, hc3, h2, h3]

theorem base64Encode_last (h : base64Group c0 c1 c2 c3 = some head)
    (hcanonical : base64Canonical [c0, c1, c2, c3] = true) :
    base64Encode head = [c0, c1, c2, c3] := by
  by_cases h3 : c3 = equalsSign
  · obtain ⟨a, b, c, hc0, hc1, hc2, hlast, rfl⟩ := base64Group_iff.mp h
    rw [Place, if_pos h3] at hlast
    obtain ⟨hthird, hsecond⟩ := padded_zero hlast
    by_cases h2 : c2 = equalsSign
    · rw [Place, if_pos h2] at hc2
      simp only [base64Canonical, h2, h3, ← hc1,
        base64DecodeByte_encode (sextet_lt ..)] at hcanonical
      obtain rfl : c = 0 := hthird (by rw [hc2]; rfl)
      obtain rfl : b = 0 := hsecond hc2 (by simpa using hcanonical)
      simp [hc0, hc1, h2, h3]
    · rw [Place, if_neg h2] at hc2
      simp only [base64Canonical, h2, h3, ne_eq, not_true_eq_false, not_false_eq_true, if_true,
        if_false] at hcanonical
      rw [← hc2, base64DecodeByte_encode (sextet_lt ..)] at hcanonical
      obtain rfl : c = 0 := hthird (by simpa using hcanonical)
      simp [hc0, hc1, hc2, h2, h3]
  · have h2 : c2 ≠ equalsSign := by simpa [base64Canonical, h3] using hcanonical
    simpa [base64Encode] using base64Encode_group [] h h2 h3

end Groups

theorem base64Encode_of_canonical {text out : Bytes} (hlength : text.length % 4 = 0)
    (h : base64Groups text = some out) (hcanonical : base64Canonical text = true) :
    base64Encode out = text := by
  induction text using base64Groups.induct generalizing out with
  | case1 c0 c1 c2 c3 rest ih =>
    simp only [base64Groups, Option.bind_eq_bind, Option.bind_eq_some_iff, Option.some.injEq] at h
    obtain ⟨head, hhead, tail, htail, rfl⟩ := h
    cases rest with
    | nil =>
      obtain rfl := Option.some.inj htail
      rw [append_nil]
      exact base64Encode_last hhead hcanonical
    | cons d rest =>
      simp only [base64Canonical, Bool.and_eq_true, decide_eq_true_eq] at hcanonical
      rw [base64Encode_group tail hhead hcanonical.1.1 hcanonical.1.2,
        ih (by simp only [length_cons] at hlength ⊢; omega) htail hcanonical.2]
  | case2 text hshort =>
    obtain _ | ⟨c0, _ | ⟨c1, _ | ⟨c2, _ | ⟨c3, rest⟩⟩⟩⟩ := text
    case nil =>
      obtain rfl := Option.some.inj h
      rfl
    case cons.cons.cons.cons => exact absurd rfl (hshort c0 c1 c2 c3 rest)
    all_goals simp at hlength

theorem base64Canonical_encode (bytes : Bytes) : base64Canonical (base64Encode bytes) = true := by
  have hne : ∀ triple shift, base64EncodeByte (sextet triple shift) ≠ equalsSign :=
    fun _ _ => base64EncodeByte_ne (sextet_lt ..)
  induction bytes using base64Encode.induct with
  | case1 => rfl
  | case2 a =>
    obtain ⟨-, -, -, hsecond⟩ := sextet_padded a 0
    simp [base64Canonical, base64DecodeByte_encode (sextet_lt ..), hsecond]
  | case3 a b =>
    obtain ⟨-, hthird, -, -⟩ := sextet_padded a b
    simp [base64Canonical, base64DecodeByte_encode (sextet_lt ..), hne, hthird]
  | case4 a b c rest ih =>
    cases htail : base64Encode rest with
    | nil => simp [base64Canonical, htail, hne]
    | cons ch tail => simpa [base64Encode, base64Canonical, htail, hne] using ih

/-- A text that is accepted is the encoding of its string, blanks apart, exactly if it is
canonical. -/
theorem base64Clean_eq_iff {input out : Bytes} (h : base64Decode input = some out) :
    base64Clean input = some (base64Encode out) ↔
      (base64Clean input).any base64Canonical = true := by
  refine ⟨fun hclean => ?_, fun hcanonical => ?_⟩
  · rw [hclean]
    exact base64Canonical_encode out
  · unfold base64Decode at h
    split_ifs at h
    cases hclean : base64Clean input with
    | none => simp [hclean] at h
    | some cleaned =>
      simp only [hclean] at h hcanonical
      split_ifs at h with hcleaned
      cases hgroups : base64Groups cleaned with
      | none => simp [hgroups] at h
      | some out' =>
        simp only [hgroups] at h
        split_ifs at h
        cases h
        simp only [Bool.or_eq_true, decide_eq_true_eq, not_or, not_not] at hcleaned
        rw [base64Encode_of_canonical hcleaned.2 hgroups hcanonical]

/-- **Base64 texts.** Every string is decoded from its encoding, a text that is accepted is the
encoding of its string, blanks apart, exactly if it is canonical, and so canonical texts of one
string differ in their blanks only. -/
theorem base64Decode_exact (bytes input out : Bytes) :
    (bytes ≠ [] → base64Decode (base64Encode bytes) = some bytes) ∧
    (base64Decode input = some out →
      (base64Clean input = some (base64Encode out) ↔
        (base64Clean input).any base64Canonical = true) ∧
      ∀ input', base64Decode input' = some out → (base64Clean input).any base64Canonical = true →
        (base64Clean input').any base64Canonical = true →
          base64Clean input = base64Clean input') := by
  refine ⟨base64Decode_encode, fun h => ⟨base64Clean_eq_iff h, fun input' h' hc hc' => ?_⟩⟩
  rw [(base64Clean_eq_iff h).mpr hc, (base64Clean_eq_iff h').mpr hc']

theorem base64Decode_exact_padded :
    base64Decode (ascii "QUI=") = some (ascii "AB") ∧
      base64Clean (ascii "QUI=") = some (base64Encode (ascii "AB")) := by
  have hdecode : base64Decode (ascii "QUI=") = some (ascii "AB") := by decide
  exact ⟨hdecode, ((base64Decode_exact (ascii "AB") _ _).2 hdecode).1.mpr (by decide)⟩

/-- Bits that are discarded, and padding before the last group. -/
theorem base64Decode_accepts_others :
    base64Decode (ascii "QR==") = some (ascii "A") ∧
      base64Decode (ascii "QQ==Qg==") = some (ascii "AB") ∧
      base64Encode (ascii "A") = ascii "QQ==" ∧ base64Encode (ascii "AB") = ascii "QUI=" := by
  decide

/-! ### The check of the configuration -/

def kMaxUsers : Nat := 64

/-- The loop of `TqValidateProxyAuthUsers`; `seen` are the names so far. -/
def validateUsers : List Bytes → List ProxyAuthUser → Except Bytes Unit
  | _, [] => .ok ()
  | seen, user :: rest =>
    if user.username.isEmpty || user.password.isEmpty then
      .error (ascii "proxy_auth username and password must be non-empty")
    else if kMaxFieldBytes < user.username.length || kMaxFieldBytes < user.password.length then
      .error (ascii "proxy_auth username or password too long")
    else if user.username ∈ seen then
      .error (ascii "duplicate proxy_auth username: " ++ user.username)
    else validateUsers (user.username :: seen) rest

def validateProxyAuthUsers (users : List ProxyAuthUser) : Except Bytes Unit :=
  if kMaxUsers < users.length then .error (ascii "proxy_auth exceeds maximum user count")
  else validateUsers [] users

/-- A field that the check accepts. -/
def GoodField (field : Bytes) : Prop := field ≠ [] ∧ field.length ≤ kMaxFieldBytes

theorem goodFields_of_validateUsers {users : List ProxyAuthUser} :
    ∀ {seen : List Bytes}, validateUsers seen users = .ok () →
      ∀ user ∈ users, GoodField user.username ∧ GoodField user.password := by
  induction users with
  | nil => simp
  | cons user rest ih =>
    intro seen h
    unfold validateUsers at h
    split at h
    · cases h
    next hempty =>
      split at h
      · cases h
      next hlong =>
        split at h
        · cases h
        · simp only [Bool.or_eq_true, List.isEmpty_iff, not_or] at hempty
          simp only [Bool.or_eq_true, decide_eq_true_iff, not_or, Nat.not_lt] at hlong
          exact forall_mem_cons.mpr ⟨⟨⟨hempty.1, hlong.1⟩, hempty.2, hlong.2⟩, ih h⟩

theorem goodFields_of_validate {users : List ProxyAuthUser}
    (h : validateProxyAuthUsers users = .ok ()) :
    ∀ user ∈ users, GoodField user.username ∧ GoodField user.password := by
  unfold validateProxyAuthUsers at h
  split at h
  · cases h
  · exact goodFields_of_validateUsers h

/-- The table validates its entries. -/
theorem ProxyAuthTable.validate_of_mem (huser : user ≠ []) (hpass : pass ≠ [])
    (h : ⟨user, pass⟩ ∈ auth.users) : auth.validate user pass = true := by
  have hfold : ∀ (l : List ProxyAuthUser) (acc : Bool), acc = true ∨ ⟨user, pass⟩ ∈ l →
      l.foldl (fun matched entry => matched ||
        (constantTimeEquals entry.username user && constantTimeEquals entry.password pass))
          acc = true := by
    intro l
    induction l with
    | nil => exact fun acc h => h.resolve_right not_mem_nil
    | cons entry l ih =>
      intro acc h
      apply ih
      rcases h with hacc | hmem
      · exact .inl (by rw [hacc]; rfl)
      · rcases mem_cons.mp hmem with rfl | hlater
        · have hsame : ∀ s : Bytes, constantTimeEquals s s = true :=
            fun s => constantTimeEquals_iff.mpr rfl
          exact .inl (by simp [hsame])
        · exact .inr hlater
  unfold validate
  split
  · rfl
  · rw [if_neg (by simp [huser, hpass])]
    exact hfold auth.users false (.inr h)

/-! ### SOCKS5 -/

def socks5Greeting : Bytes := [socks5Version, 1, socks5UserPass]

def socks5Fields (user pass : Bytes) : Bytes :=
  socks5UserPassVersion :: UInt8.ofNat user.length :: user ++ UInt8.ofNat pass.length :: pass

/-- The client offers the sub-negotiation, takes the reply and names itself. -/
def socks5Login (user pass : Bytes) : List Action :=
  [.feed socks5Greeting, .write 2, .feed (socks5Fields user pass)]

/-- A client that sends the pair by sub-negotiation is told that it is authenticated. -/
def Socks5Accepts (inet : Inet) (auth : ProxyAuthTable) (user pass : Bytes) : Prop :=
  user.length ≤ kMaxFieldBytes ∧ pass.length ≤ kMaxFieldBytes ∧
    (drive inet .socks5 auth (socks5Login user pass)).state.writeBuffer =
      [socks5UserPassVersion, socks5AuthSuccess]

theorem state_after_greeting (inet : Inet) (hauth : auth.enabled = true) :
    (drive inet .socks5 auth [.feed socks5Greeting, .write 2]).state =
      { State.new .socks5 auth with socksAuthPending := true } := by
  simp [drive, Session.step, Session.start, State.new, State.feed, State.push, State.poll,
    State.feedSocks5,
    State.feedSocks5Greeting, State.feedSocks5Auth, State.markWriteComplete, socks5Greeting,
      byteAt, hauth]

theorem toNat_fieldLength {field : Bytes} (h : field.length ≤ kMaxFieldBytes) :
    (UInt8.ofNat field.length).toNat = field.length :=
  UInt8.toNat_ofNat_of_lt (Nat.lt_of_le_of_lt h (by decide))

theorem byteAt_socks5Fields (user pass : Bytes) :
    byteAt (socks5Fields user pass) 0 = socks5UserPassVersion ∧
      byteAt (socks5Fields user pass) 1 = UInt8.ofNat user.length ∧
      byteAt (socks5Fields user pass) (2 + user.length) = UInt8.ofNat pass.length := by
  refine ⟨rfl, rfl, ?_⟩
  rw [Nat.add_comm]
  simp [byteAt, socks5Fields]

/-- The reply to a pair of fields. -/
theorem feedSocks5Auth_fields {s : State} (hbuffer : s.readBuffer = socks5Fields user pass)
    (huser : user.length ≤ kMaxFieldBytes) (hpass : pass.length ≤ kMaxFieldBytes) :
    s.feedSocks5Auth.1.writeBuffer =
      if user = [] ∨ pass = [] then s.writeBuffer
      else [socks5UserPassVersion,
        if s.auth.validate user pass then socks5AuthSuccess else socks5AuthFailure] := by
  obtain ⟨hversion, hulen, hplen⟩ := byteAt_socks5Fields user pass
  have hlength : (socks5Fields user pass).length = 2 + user.length + 1 + pass.length := by
    simp [socks5Fields]
    omega
  unfold State.feedSocks5Auth
  rw [hbuffer, hversion, hulen, toNat_fieldLength huser, hlength]
  rw [if_neg (by omega), if_neg (by simp)]
  by_cases hu : user = []
  · simp [hu]
  rw [if_neg (by simpa [hu] using huser), if_neg (by omega), hplen, toNat_fieldLength hpass]
  by_cases hp : pass = []
  · simp [hp]
  have hname : ((socks5Fields user pass).drop 2).take user.length = user := by simp [socks5Fields]
  have hword : ((socks5Fields user pass).drop (2 + user.length + 1)).take pass.length = pass := by
    rw [show 2 + user.length + 1 = (user.length + 1) + 2 by omega, ← drop_drop]
    simp [socks5Fields]
  rw [if_neg (by simpa [hp] using hpass), if_neg (by omega), if_neg (by simp [hu, hp])]
  simp only [hname, hword]

theorem socks5Accepts_iff (inet : Inet) (hauth : auth.users ≠ [])
    (hgood : ∀ user ∈ auth.users, GoodField user.username ∧ GoodField user.password) :
    Socks5Accepts inet auth user pass ↔ ⟨user, pass⟩ ∈ auth.users := by
  have henabled : auth.enabled = true := by simp [enabled, hauth]
  have hdrive : user.length ≤ kMaxFieldBytes → pass.length ≤ kMaxFieldBytes →
      (drive inet .socks5 auth (socks5Login user pass)).state.writeBuffer = if user = [] ∨
        pass = [] then []
        else [socks5UserPassVersion,
          if auth.validate user pass then socks5AuthSuccess else socks5AuthFailure] := by
    intro huser hpass
    have hstate := state_after_greeting inet henabled
    have hlast : drive inet .socks5 auth (socks5Login user pass) =
        (drive inet .socks5 auth [.feed socks5Greeting, .write 2]).step inet
        (.feed (socks5Fields user pass)) := rfl
    rw [hlast]
    simp only [Session.step, hstate]
    exact feedSocks5Auth_fields (s := { State.new .socks5 auth with
      socksAuthPending := true, readBuffer := socks5Fields user pass }) rfl huser hpass
  constructor
  · rintro ⟨huser, hpass, hreply⟩
    rw [hdrive huser hpass] at hreply
    split at hreply
    · cases hreply
    · cases hvalid : auth.validate user pass with
      | true => exact mem_of_validate hauth hvalid
      | false =>
        rw [hvalid] at hreply
        exact absurd hreply (by decide)
  · intro hmem
    obtain ⟨⟨huser, hulen⟩, hpass, hplen⟩ := hgood _ hmem
    refine ⟨hulen, hplen, ?_⟩
    rw [hdrive hulen hplen, if_neg (not_or.mpr ⟨huser, hpass⟩), validate_of_mem huser hpass hmem]
    rfl

/-! ### HTTP -/

def connectLine : Bytes := ascii "CONNECT a:1 HTTP/1.1"

/-- The header line with the given credentials, `name:password`. -/
def basicLine (credentials : Bytes) : Bytes :=
  proxyAuthorization ++ colon :: space :: (basicScheme ++ base64Encode credentials)

def connectRequest (credentials : Bytes) : Bytes :=
  connectLine ++ (crlf ++ (basicLine credentials ++ headerTerminator))

/-- A CONNECT request with these credentials is let through. -/
def HttpAccepts (inet : Inet) (auth : ProxyAuthTable) (credentials : Bytes) : Prop :=
  (drive inet .httpConnect auth [.feed (connectRequest credentials)]).result = .readyToOpen

def carriageReturn : UInt8 := 0x0D

theorem carriageReturn_of_crlf {l : Bytes} {j : Nat} (h : crlf <+: l.drop j) :
    l[j]? = some carriageReturn := by
  obtain ⟨rest, hrest⟩ := h
  have hhead := congrArg (·[0]?) hrest
  simpa [crlf, carriageReturn] using hhead.symm

theorem getElem?_ne_of_not_mem {line rest : Bytes} {b : UInt8} (h : b ∉ line) {j : Nat}
    (hj : j < line.length) :
    (line ++ rest)[j]? ≠ some b := by
  rw [getElem?_append_left hj]
  intro hget
  exact h (mem_of_getElem? hget)

theorem find_crlf_of_line {line : Bytes} (h : carriageReturn ∉ line) (rest : Bytes) :
    find crlf (line ++ (crlf ++ rest)) = some line.length := by
  refine find_eq_some_iff.mpr ⟨by simp, ⟨rest, by simp⟩, ?_⟩
  intro j hj hpre
  exact getElem?_ne_of_not_mem h hj (carriageReturn_of_crlf hpre)

/-- The empty line of a header with two lines. -/
theorem find_headerTerminator_of_lines {first second : Bytes} (hfirst : carriageReturn ∉ first)
    (hsecond : carriageReturn ∉ second) (hne : second ≠ []) :
    find headerTerminator (first ++ (crlf ++ (second ++ headerTerminator))) =
      some (first.length + 2 + second.length) := by
  have hdrop : (first ++ (crlf ++ (second ++ headerTerminator))).drop (first.length + 2) =
      second ++ headerTerminator := by
    rw [← drop_drop]
    simp [crlf]
  refine find_eq_some_iff.mpr ⟨by simp [crlf]; omega, ?_, ?_⟩
  · rw [← drop_drop, hdrop]
    simp
  · intro j hj hpre
    -- the only line end before is the one of the first line, and no second one follows it
    have hcrlf : crlf <+: (first ++ (crlf ++ (second ++ headerTerminator))).drop j :=
      (prefix_append crlf crlf).trans hpre
    have hreturn := carriageReturn_of_crlf hcrlf
    have hnext :
        (first ++ (crlf ++ (second ++ headerTerminator)))[j + 2]? = some carriageReturn := by
      obtain ⟨rest, hrest⟩ := hpre
      have hget := congrArg (·[2]?) hrest
      simpa [headerTerminator, crlf, carriageReturn] using hget.symm
    have hsecondPos : 0 < second.length := length_pos_iff.mpr hne
    have htail : ∀ k, (first ++ (crlf ++ (second ++ headerTerminator)))[first.length + 2 + k]? =
        (second ++ headerTerminator)[k]? := by
      intro k
      rw [← getElem?_drop, hdrop]
    rcases Nat.lt_trichotomy j first.length with hlt | rfl | hgt
    · exact getElem?_ne_of_not_mem hfirst hlt hreturn
    · have hzero := htail 0
      rw [Nat.add_zero, hnext] at hzero
      exact getElem?_ne_of_not_mem hsecond hsecondPos hzero.symm
    · by_cases hone : j = first.length + 1
      · rw [hone] at hreturn
        simp [crlf, carriageReturn] at hreturn
      · obtain ⟨k, rfl⟩ : ∃ k, j = first.length + 2 + k := ⟨j - (first.length + 2), by omega⟩
        rw [htail k] at hreturn
        exact getElem?_ne_of_not_mem hsecond (by omega) hreturn

theorem headerLines_of_lines {first second : Bytes} (hfirst : carriageReturn ∉ first)
    (hsecond : carriageReturn ∉ second) (hne : second ≠ []) :
    headerLines (first ++ (crlf ++ (second ++ headerTerminator))) = [second] := by
  have htwo : headerTerminator = crlf ++ (crlf ++ []) := by simp [headerTerminator]
  have hrest : ∀ line rest : Bytes, (line ++ (crlf ++ rest)).drop (line.length + 2) = rest := by
    intro line rest
    rw [← drop_drop]
    simp [crlf]
  have hlines : ∀ {line : Bytes}, carriageReturn ∉ line → ∀ rest,
      lines (line ++ (crlf ++ rest)) = line :: lines rest := by
    intro line hline rest
    rw [lines_of_find (find_crlf_of_line hline rest), hrest, take_left]
  have hempty : lines (crlf ++ []) = [[]] := by
    have hnil : carriageReturn ∉ ([] : Bytes) := not_mem_nil
    simpa [lines] using hlines hnil []
  rw [headerLines, hlines hfirst, tail_cons, htwo, hlines hsecond, hempty,
    takeWhile_cons_of_pos (by simpa using hne)]
  rfl

section

variable (credentials : Bytes)
include credentials

theorem carriageReturn_not_mem_basicLine : carriageReturn ∉ basicLine credentials := by
  have hencoded : carriageReturn ∉ base64Encode credentials := by
    intro hmem
    have hchar := base64Char_encode credentials _ hmem
    exact absurd hchar (by unfold Base64Char; decide)
  have hname : carriageReturn ∉ proxyAuthorization ++ colon :: space :: basicScheme := by decide
  intro hmem
  rw [basicLine, ← cons_append, ← cons_append, ← append_assoc, mem_append] at hmem
  exact hmem.elim hname hencoded

theorem find_headerTerminator_connectRequest :
    find headerTerminator (connectRequest credentials) =
      some (connectLine.length + 2 + (basicLine credentials).length) :=
  find_headerTerminator_of_lines (by decide) (carriageReturn_not_mem_basicLine credentials)
    (by simp [basicLine])

theorem length_connectRequest :
    (connectRequest credentials).length =
      connectLine.length + 2 + (basicLine credentials).length + 4 := by
  simp [connectRequest, headerTerminator, crlf]
  omega

theorem findHttpHeaderValue_connectRequest :
    findHttpHeaderValue (connectRequest credentials) proxyAuthorization =
      some (basicScheme ++ base64Encode credentials) := by
  have hvalue : headerLineValue proxyAuthorization (basicLine credentials) =
      some (basicScheme ++ base64Encode credentials) := by
    have hname : colon ∉ proxyAuthorization := by decide
    have hsame : equalsIgnoreCase proxyAuthorization proxyAuthorization = true := by decide
    rw [headerLineValue, basicLine, find_singleton_of_not_mem hname]
    dsimp only
    rw [take_left, if_pos hsame, ← drop_drop, drop_left]
    rfl
  rw [findHttpHeaderValue_eq (find_headerTerminator_connectRequest credentials), connectRequest,
    headerLines_of_lines (by decide) (carriageReturn_not_mem_basicLine credentials)
      (by simp [basicLine]),
    findSome?_cons, hvalue]

end

/-- The request line is the same whatever the credentials are. -/
theorem parseHttpConnectRequest_isSome (inet : Inet) (credentials : Bytes) :
    ∃ parsed, parseHttpConnectRequest inet (connectRequest credentials) = some parsed := by
  have hline : find crlf (connectRequest credentials) = some connectLine.length :=
    find_crlf_of_line (by decide) _
  have htarget : connectTarget connectLine = some (ascii "a:1") := by decide
  have hhost : parseHostPort (ascii "a:1") = some ⟨ascii "a", 1⟩ := by decide
  have htake : (connectRequest credentials).take connectLine.length = connectLine := by
    rw [connectRequest, take_left]
  rw [parseHttpConnectRequest, find_headerTerminator_connectRequest, hline]
  dsimp only
  rw [if_neg (by simp [show connectLine.length = 20 from rfl]; omega), htake, htarget]
  dsimp only
  rw [hhost]
  exact ⟨_, if_neg (by decide)⟩

theorem httpAccepts_iff_authorized (inet : Inet) (auth : ProxyAuthTable) (credentials : Bytes) :
    HttpAccepts inet auth credentials ↔ (connectRequest credentials).length ≤ httpConnectHeaderCap ∧
      httpConnectRequestAuthorized (connectRequest credentials) auth = true := by
  obtain ⟨parsed, hparsed⟩ := parseHttpConnectRequest_isSome inet credentials
  have hdrive : (drive inet .httpConnect auth [.feed (connectRequest credentials)]).result =
      ({ State.new .httpConnect auth with
        readBuffer := connectRequest credentials }.feedHttpHeader inet).2 := rfl
  have hwhole : (connectRequest credentials).take
      (connectLine.length + 2 + (basicLine credentials).length + 4) =
      connectRequest credentials :=
        take_of_length_le (Nat.le_of_eq (length_connectRequest credentials))
  rw [HttpAccepts, hdrive, State.feedHttpHeader, find_headerTerminator_connectRequest,
    length_connectRequest]
  dsimp only
  rw [hwhole, hparsed]
  by_cases hcap : connectLine.length + 2 + (basicLine credentials).length + 4 ≤ httpConnectHeaderCap
  · rw [if_neg (by omega)]
    cases hauthorized : httpConnectRequestAuthorized (connectRequest credentials) auth <;>
      simp [hcap, hauthorized, State.new]
  · rw [if_pos (by omega)]
    simp [hcap]

theorem parseHttpProxyAuthorization_basic (huser : GoodField user) (hpass : GoodField pass)
    (hcolon : colon ∉ user) :
    parseHttpProxyAuthorization (basicScheme ++ base64Encode (user ++ colon :: pass)) =
      some (user, pass) := by
  have hscheme : equalsIgnoreCase basicScheme basicScheme = true := by decide
  have hlong :
      ¬(user.length = 0 ∨ user = [] ∨ kMaxFieldBytes < user.length ∨
        kMaxFieldBytes < pass.length) := by
    simp [huser.1, huser.2, hpass.2]
  unfold parseHttpProxyAuthorization
  rw [take_left, drop_left, base64Decode_encode (by simp), if_neg (by simp [hscheme])]
  dsimp only
  rw [find_singleton_of_not_mem hcolon]
  dsimp only
  rw [take_left, ← drop_drop, drop_left, if_neg (by simpa [or_assoc] using hlong)]
  rfl

/-- With a user table, the credentials are cut at their first colon. -/
theorem authorized_iff (hauth : auth.users ≠ [])
    (hgood : ∀ user ∈ auth.users, GoodField user.username ∧ GoodField user.password)
    {credentials : Bytes} :
    httpConnectRequestAuthorized (connectRequest credentials) auth = true ↔
      ∃ user pass, credentials = user ++ colon :: pass ∧ colon ∉ user ∧
        ⟨user, pass⟩ ∈ auth.users := by
  have henabled : auth.enabled = true := by simp [enabled, hauth]
  rw [httpConnectRequestAuthorized, httpConnectRequestAuthResult,
    findHttpHeaderValue_connectRequest, henabled]
  simp only [Bool.not_true, Bool.false_eq_true, ↓reduceIte]
  constructor
  · intro h
    cases hparse : parseHttpProxyAuthorization (basicScheme ++ base64Encode credentials) with
    | none => simp [hparse] at h
    | some pair =>
      obtain ⟨user, pass⟩ := pair
      have hvalid : auth.validate user pass = true := by
        by_contra hnot
        simp [hparse, hnot] at h
      obtain ⟨scheme, encoded, hvalue, hscheme, hdecode, hcolon⟩ :=
        parseHttpProxyAuthorization_eq_some hparse
      have hlength : basicScheme.length = scheme.length := by
        have hmaps : scheme.map tolower = basicScheme.map tolower := by
          simpa [equalsIgnoreCase] using hscheme
        simpa using (congrArg length hmaps).symm
      obtain ⟨-, rfl⟩ := append_inj hvalue hlength
      have hne : credentials ≠ [] := by
        rintro rfl
        simp [base64Decode] at hdecode
      rw [base64Decode_encode hne] at hdecode
      exact ⟨user, pass, Option.some.inj hdecode, hcolon, mem_of_validate hauth hvalid⟩
  · rintro ⟨user, pass, rfl, hcolon, hmem⟩
    obtain ⟨huser, hpass⟩ := hgood _ hmem
    rw [parseHttpProxyAuthorization_basic huser hpass hcolon]
    simp [validate_of_mem huser.1 hpass.1 hmem]

theorem httpAccepts_iff (inet : Inet) (hauth : auth.users ≠ [])
    (hgood : ∀ user ∈ auth.users, GoodField user.username ∧ GoodField user.password)
    {credentials : Bytes} :
    HttpAccepts inet auth credentials ↔
      ∃ user pass, credentials = user ++ colon :: pass ∧ colon ∉ user ∧
        ⟨user, pass⟩ ∈ auth.users := by
  rw [httpAccepts_iff_authorized, authorized_iff hauth hgood]
  refine ⟨fun h => h.2, fun h => ⟨?_, h⟩⟩
  obtain ⟨user, pass, rfl, -, hmem⟩ := h
  obtain ⟨⟨-, huser⟩, -, hpass⟩ := hgood _ hmem
  have hline : (basicLine (user ++ colon :: pass)).length =
      27 + 4 * ((user.length + (pass.length + 1) + 2) / 3) := by
    have hname : proxyAuthorization.length = 19 := rfl
    have hscheme : basicScheme.length = 6 := rfl
    simp only [basicLine, length_append, length_cons, hname, hscheme, length_base64Encode]
    omega
  have hconnect : connectLine.length = 20 := rfl
  have hmax : kMaxFieldBytes = 255 := rfl
  have hcap : httpConnectHeaderCap = 16384 := rfl
  rw [length_connectRequest, hline, hconnect, hcap]
  simp only at huser hpass
  omega

/-! ### The same pairs -/

/-- Every entry of the table serves both protocols, and the credentials that HTTP
clients are let through with are those of the pairs that SOCKS5 clients are. -/
structure CredentialsAgree (inet : Inet) (auth : ProxyAuthTable) : Prop where
  entries : ∀ entry ∈ auth.users, Socks5Accepts inet auth entry.username entry.password ∧
    HttpAccepts inet auth (entry.username ++ colon :: entry.password)
  same : auth.users ≠ [] → ∀ credentials, HttpAccepts inet auth credentials ↔
    ∃ user pass, Socks5Accepts inet auth user pass ∧ credentials = user ++ colon :: pass

/-- For a table that the configuration accepts, both protocols take the same pairs
exactly if no name has a colon, or the pair that results from cutting it there is an
entry too. -/
theorem credentials_agree_iff (inet : Inet) (users : List ProxyAuthUser)
    (hvalid : validateProxyAuthUsers users = .ok ()) :
    CredentialsAgree inet ⟨users⟩ ↔
      ∀ entry ∈ users, ∀ before after, entry.username = before ++ colon :: after →
      colon ∉ before → ⟨before, after ++ colon :: entry.password⟩ ∈ users := by
  have hgood := goodFields_of_validate hvalid
  by_cases hne : users = []
  · subst hne
    refine iff_of_true ⟨by simp, by simp⟩ (by simp)
  have hsocks : ∀ user pass, Socks5Accepts inet ⟨users⟩ user pass ↔ ⟨user, pass⟩ ∈ users :=
    fun user pass =>
    socks5Accepts_iff inet hne hgood
  have hhttp : ∀ credentials, HttpAccepts inet ⟨users⟩ credentials ↔
      ∃ user pass, credentials = user ++ colon :: pass ∧ colon ∉ user ∧ ⟨user, pass⟩ ∈ users :=
        fun credentials =>
    httpAccepts_iff inet hne hgood
  constructor
  · rintro h entry hentry before after hname hbefore
    obtain ⟨user, pass, hcut, huser, hmem⟩ := (hhttp _).mp (h.entries entry hentry).2
    -- both texts are cut at their first colon
    rw [hname, append_assoc, cons_append] at hcut
    have hlength : before.length = user.length := by
      have hfirst := find_singleton_of_not_mem hbefore (after ++ colon :: entry.password)
      rw [hcut, find_singleton_of_not_mem huser] at hfirst
      exact (Option.some.inj hfirst).symm
    obtain ⟨rfl, hrest⟩ := append_inj hcut hlength
    rwa [(cons.inj hrest).2]
  · intro hcond
    have hentry :
        ∀ entry ∈ users, HttpAccepts inet ⟨users⟩ (entry.username ++ colon :: entry.password) := by
      intro entry hmem
      rw [hhttp]
      by_cases hcolon : colon ∈ entry.username
      · obtain ⟨before, after, hname, hbefore⟩ := eq_append_cons_of_mem hcolon
        exact ⟨before, after ++ colon :: entry.password,
          by rw [hname, append_assoc, cons_append], hbefore,
          hcond entry hmem before after hname hbefore⟩
      · exact ⟨entry.username, entry.password, rfl, hcolon, hmem⟩
    refine ⟨fun entry hmem => ⟨(hsocks _ _).mpr hmem, hentry entry hmem⟩, fun _ credentials => ?_⟩
    constructor
    · intro h
      obtain ⟨user, pass, hcut, -, hmem⟩ := (hhttp credentials).mp h
      exact ⟨user, pass, (hsocks user pass).mpr hmem, hcut⟩
    · rintro ⟨user, pass, hsock, rfl⟩
      exact hentry ⟨user, pass⟩ ((hsocks user pass).mp hsock)

theorem oneUser_agrees :
    validateProxyAuthUsers oneUser.users = .ok () ∧ CredentialsAgree plainInet.toInet oneUser := by
  have hvalid : validateProxyAuthUsers oneUser.users = .ok () := by decide
  refine ⟨hvalid, (credentials_agree_iff plainInet.toInet oneUser.users hvalid).mpr ?_⟩
  intro entry hentry before after hname _
  obtain rfl := mem_singleton.mp hentry
  have hcolon : colon ∈ ascii "u" := by
    rw [show ascii "u" = before ++ colon :: after from hname]
    exact mem_append_right before mem_cons_self
  exact absurd hcolon (by decide)

/-- A name with a colon in it. -/
def colonName : ProxyAuthUser := ⟨ascii "a:b", ascii "c"⟩

theorem colonName_refused_over_http : validateProxyAuthUsers [colonName] = .ok () ∧
    ¬ CredentialsAgree plainInet.toInet ⟨[colonName]⟩ := by
  refine ⟨by decide, fun h => ?_⟩
  have haccepts := (h.entries colonName mem_cons_self).2
  unfold HttpAccepts at haccepts
  exact absurd haccepts (by decide)

end TcpQuicProxy.Ingress
