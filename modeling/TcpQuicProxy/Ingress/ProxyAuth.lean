import TcpQuicProxy.Machine.Loop
import TcpQuicProxy.Platform.Address
import TcpQuicProxy.Wire.Search

/-!
# Proxy credentials

The table of the configured users and the ways in which a client names one of
them: a pair of fields for SOCKS5, or the first Proxy-Authorization header of an
HTTP request with Basic credentials. Strings are byte strings, and `tolower` is
the one of the C locale.

`lines` says what the header search works through: `findHttpHeaderValue_eq`
turns the loop over positions into a search among the lines of the header.
-/

namespace TcpQuicProxy.Ingress

open Machine Platform Wire List

structure ProxyAuthUser where
  username : Bytes
  password : Bytes
  deriving DecidableEq

structure ProxyAuthTable where
  users : List ProxyAuthUser
  deriving DecidableEq

def kMaxFieldBytes : Nat := 255

def ProxyAuthTable.enabled (auth : ProxyAuthTable) : Bool := !auth.users.isEmpty

def tolower (b : UInt8) : UInt8 := if 0x41 ≤ b && b ≤ 0x5A then b + 0x20 else b

def equalsIgnoreCase (left right : Bytes) : Bool := left.map tolower = right.map tolower

/-- Every byte is looked at, whatever the earlier ones were. -/
def constantTimeEquals (left right : Bytes) : Bool :=
  if left.length ≠ right.length then false
  else (left.zip right).foldl (fun diff p => diff ||| (p.1 ^^^ p.2)) 0 = 0

def ProxyAuthTable.validate (auth : ProxyAuthTable) (user pass : Bytes) : Bool :=
  if !auth.enabled then true
  else if user.isEmpty || pass.isEmpty then false
  else auth.users.foldl (fun matched entry =>
    matched || (constantTimeEquals entry.username user && constantTimeEquals entry.password pass))
      false

/-! ### Base64 -/

def equalsSign : UInt8 := 0x3D

def base64DecodeByte (ch : UInt8) : Option UInt32 :=
  if 0x41 ≤ ch && ch ≤ 0x5A then some (ch - 0x41).toUInt32
  else if 0x61 ≤ ch && ch ≤ 0x7A then some ((ch - 0x61).toUInt32 + 26)
  else if 0x30 ≤ ch && ch ≤ 0x39 then some ((ch - 0x30).toUInt32 + 52)
  else if ch = 0x2B then some 62
  else if ch = 0x2F then some 63
  else none

/-- Blanks and line ends are skipped, other foreign bytes refused. -/
def base64Clean : Bytes → Option Bytes
  | [] => some []
  | ch :: rest =>
    if ch = equalsSign || (base64DecodeByte ch).isSome then (base64Clean rest).map (ch :: ·)
    else if ch = 0x20 || ch = 0x09 || ch = 0x0D || ch = 0x0A then base64Clean rest
    else none

/-- One of the last two places of a group; a padded one counts as zero. -/
def base64Padded (ch : UInt8) : Option UInt32 :=
  if ch = equalsSign then some 0 else base64DecodeByte ch

def base64Group (c0 c1 c2 c3 : UInt8) : Option Bytes := do
  let b0 ← base64DecodeByte c0
  let b1 ← base64DecodeByte c1
  let b2 ← base64Padded c2
  let b3 ← base64Padded c3
  let triple := (b0 <<< 18) ||| (b1 <<< 12) ||| (b2 <<< 6) ||| b3
  some ((triple >>> 16).toUInt8 :: ((if c2 ≠ equalsSign then [(triple >>> 8).toUInt8] else []) ++
    (if c3 ≠ equalsSign then [triple.toUInt8] else [])))

def base64Groups : Bytes → Option Bytes
  | c0 :: c1 :: c2 :: c3 :: rest => do
    let head ← base64Group c0 c1 c2 c3
    let tail ← base64Groups rest
    some (head ++ tail)
  | _ => some []

/-- The count of trailing padding that the source takes first is at most two,
so its check against two never fails and is left out. -/
def base64Decode (input : Bytes) : Option Bytes :=
  if input.isEmpty then none
  else
    match base64Clean input with
    | none => none
    | some cleaned =>
      if cleaned.isEmpty || cleaned.length % 4 ≠ 0 then none
      else
        match base64Groups cleaned with
        | none => none
        | some out => if out.isEmpty then none else some out

/-! ### The Proxy-Authorization header -/

def crlf : Bytes := [0x0D, 0x0A]

def headerTerminator : Bytes := crlf ++ crlf

def colon : UInt8 := 0x3A

def space : UInt8 := 0x20

/-- The value of a header line with the given name, without the blanks in front. -/
def headerLineValue (headerName line : Bytes) : Option Bytes :=
  match find [colon] line with
  | none => none
  | some i =>
    if equalsIgnoreCase (line.take i) headerName then
      some ((line.drop (i + 1)).dropWhile fun b => b = space || b = 0x09)
    else none

/-- One turn of the search loop of `TqFindHttpHeaderValue`. -/
def headerLineTurn (request headerName : Bytes) (headerEnd pos : Nat) : Nat ⊕ Option Bytes :=
  if pos < headerEnd then
    match findFrom crlf pos request with
    | none => .inr none
    | some lineEnd =>
      if headerEnd < lineEnd then .inr none
      else
        match headerLineValue headerName ((request.drop pos).take (lineEnd - pos)) with
        | some value => .inr (some value)
        | none => .inl (lineEnd + 2)
  else .inr none

def findHttpHeaderValue (request headerName : Bytes) : Option Bytes :=
  match find headerTerminator request with
  | none => none
  | some headerEnd =>
    match find crlf request with
    | none => none
    | some pos =>
      loop (headerLineTurn request headerName headerEnd) (fun _ => none)
        (request.length + 1) (pos + 2)

def basicScheme : Bytes := ascii "Basic "

def parseHttpProxyAuthorization (headerValue : Bytes) : Option (Bytes × Bytes) :=
  if headerValue.length < basicScheme.length ||
    !equalsIgnoreCase (headerValue.take basicScheme.length) basicScheme then
    none
  else
    match base64Decode (headerValue.drop basicScheme.length) with
    | none => none
    | some decoded =>
      match find [colon] decoded with
      | none => none
      | some i =>
        let user := decoded.take i
        let pass := decoded.drop (i + 1)
        if i = 0 || user.isEmpty || kMaxFieldBytes < user.length ||
          kMaxFieldBytes < pass.length then none
        else some (user, pass)

inductive HttpConnectAuthResult where
  | authorized
  | disabled
  | missingHeader
  | invalidHeader
  | invalidCredentials
  deriving DecidableEq

def proxyAuthorization : Bytes := ascii "Proxy-Authorization"

def httpConnectRequestAuthResult (request : Bytes) (auth : ProxyAuthTable) :
    HttpConnectAuthResult :=
  if !auth.enabled then .disabled
  else
    match findHttpHeaderValue request proxyAuthorization with
    | none => .missingHeader
    | some authHeader =>
      match parseHttpProxyAuthorization authHeader with
      | none => .invalidHeader
      | some (user, pass) => if auth.validate user pass then .authorized else .invalidCredentials

def httpConnectRequestAuthorized (request : Bytes) (auth : ProxyAuthTable) : Bool :=
  let result := httpConnectRequestAuthResult request auth
  result = .authorized || result = .disabled

/-! ### What the comparisons decide -/

theorem foldl_or_eq_zero {l : List (UInt8 × UInt8)} {acc : UInt8} :
    l.foldl (fun diff p => diff ||| (p.1 ^^^ p.2)) acc = 0 ↔ acc = 0 ∧ ∀ p ∈ l, p.1 = p.2 := by
  induction l generalizing acc with
  | nil => simp
  | cons p l ih =>
    rw [foldl_cons, ih, UInt8.or_eq_zero_iff, UInt8.xor_eq_zero_iff, forall_mem_cons, and_assoc]

theorem constantTimeEquals_iff {left right : Bytes} :
    constantTimeEquals left right = true ↔ left = right := by
  unfold constantTimeEquals
  split_ifs with hlen
  · exact iff_of_false (by simp) fun h => hlen (congrArg length h)
  · rw [decide_eq_true_eq, foldl_or_eq_zero]
    constructor
    · rintro ⟨-, h⟩
      refine ext_getElem (not_not.mp hlen) fun i hi hi' => ?_
      exact h (left[i], right[i]) (mem_iff_getElem.mpr ⟨i, by rw [length_zip]; omega, by simp⟩)
    · rintro rfl
      refine ⟨rfl, fun p hp => ?_⟩
      obtain ⟨i, hi, rfl⟩ := mem_iff_getElem.mp hp
      simp

/-- A pair that the table validates is one of its entries. -/
theorem ProxyAuthTable.mem_of_validate {auth : ProxyAuthTable} {user pass : Bytes}
    (hauth : auth.users ≠ []) (h : auth.validate user pass = true) : ⟨user, pass⟩ ∈ auth.users := by
  have hfold : ∀ (l : List ProxyAuthUser) (acc : Bool),
      l.foldl (fun matched entry => matched ||
        (constantTimeEquals entry.username user && constantTimeEquals entry.password pass))
          acc = true →
      acc = true ∨ ⟨user, pass⟩ ∈ l := by
    intro l
    induction l with
    | nil => exact fun acc hacc => .inl hacc
    | cons entry l ih =>
      intro acc hacc
      rcases ih _ hacc with hnow | hlater
      · rcases Bool.or_eq_true_iff.mp hnow with hacc | hentry
        · exact .inl hacc
        · obtain ⟨huser, hpass⟩ := Bool.and_eq_true_iff.mp hentry
          rw [constantTimeEquals_iff] at huser hpass
          exact .inr (mem_cons.mpr (.inl (by rw [← huser, ← hpass])))
      · exact .inr (mem_cons_of_mem entry hlater)
  unfold validate at h
  split_ifs at h with hen _
  · simp [enabled, hauth] at hen
  · exact (hfold _ false h).resolve_left (by simp)

/-! ### The lines of a header -/

/-- The lines that end with CRLF, without it. -/
def lines : Bytes → List Bytes
  | [] => []
  | b :: rest =>
    if crlf <+: b :: rest then [] :: lines (rest.drop 1)
    else
      match lines rest with
      | [] => []
      | line :: more => (b :: line) :: more
termination_by s => s.length
decreasing_by all_goals (simp; try omega)

/-- Cutting off the first line is cutting at the first CRLF. -/
theorem lines_of_find {s : Bytes} :
    ∀ {i : Nat}, find crlf s = some i → lines s = s.take i :: lines (s.drop (i + 2)) := by
  induction s with
  | nil =>
    intro i h
    simp [find, crlf] at h
  | cons b rest ih =>
    intro i h
    unfold find at h
    split_ifs at h with hhere
    · cases h
      rw [lines, if_pos hhere, take_zero]
      rfl
    · obtain ⟨k, hk, rfl⟩ := Option.map_eq_some_iff.mp h
      rw [lines, if_neg hhere, ih hk]
      rfl

variable {request : Bytes} {headerEnd : Nat}

section

variable (hend : find headerTerminator request = some headerEnd)
include hend

/-- After a line end that is not the last one of the header the next line is not empty. -/
theorem not_crlf_of_lt {pos : Nat} (hpos : crlf <+: request.drop pos) (hlt : pos < headerEnd) :
    ¬crlf <+: request.drop (pos + 2) := by
  rintro ⟨post, hpost⟩
  obtain ⟨-, -, hfirst⟩ := find_eq_some_iff.mp hend
  obtain ⟨rest, hrest⟩ := hpos
  refine hfirst pos hlt ⟨post, ?_⟩
  have hdrop : request.drop (pos + 2) = rest := by
    rw [← drop_drop, ← hrest]
    rfl
  rw [headerTerminator, append_assoc, hpost, hdrop, hrest]

/-- A line end after the first one of the terminator is the second one of it. -/
theorem eq_of_headerEnd_le {pos : Nat} (hpos : crlf <+: request.drop pos)
    (hge : headerEnd < pos + 2) (hle : pos ≤ headerEnd) : pos = headerEnd := by
  obtain ⟨-, ⟨rest, hrest⟩, -⟩ := find_eq_some_iff.mp hend
  obtain ⟨rest', hrest'⟩ := hpos
  by_contra hne
  have hsucc : headerEnd = pos + 1 := by omega
  subst hsucc
  have h1 : request[pos + 1]? = some 0x0A := by
    have := congrArg (·[1]?) hrest'
    simpa [crlf] using this.symm
  have h2 : request[pos + 1]? = some 0x0D := by
    have := congrArg (·[0]?) hrest
    simpa [headerTerminator, crlf] using this.symm
  cases h1.symm.trans h2

/-- The loop over positions searches the lines up to the empty one. -/
theorem loop_headerLineTurn {headerName : Bytes} :
    ∀ (n pos : Nat), crlf <+: request.drop pos → pos ≤ headerEnd → headerEnd < n + pos →
      loop (headerLineTurn request headerName headerEnd) (fun _ => none) n (pos + 2) =
        ((lines (request.drop (pos + 2))).takeWhile (· ≠ [])).findSome?
          (headerLineValue headerName) := by
  intro n
  induction n with
  | zero =>
    intro pos _ hle hlt
    omega
  | succ n ih =>
    intro pos hpos hle hlt
    obtain ⟨hendle, hterm, -⟩ := find_eq_some_iff.mp hend
    have hcrlf : crlf <+: request.drop headerEnd := (prefix_append crlf crlf).trans hterm
    by_cases hmore : pos + 2 < headerEnd
    · obtain ⟨k, hk, hfind⟩ :=
        exists_find_le crlf (l := request.drop (pos + 2)) (j := headerEnd - (pos + 2))
        (by rw [length_drop]; omega) (by rw [drop_drop, Nat.add_sub_of_le (by omega)]; exact hcrlf)
      obtain ⟨-, hk0, -⟩ := find_eq_some_iff.mp hfind
      rw [drop_drop] at hk0
      have hne : (request.drop (pos + 2)).take k ≠ [] := by
        intro hnil
        rcases take_eq_nil_iff.mp hnil with rfl | hempty
        · exact not_crlf_of_lt hend hpos (by omega) hk0
        · rw [hempty] at hfind
          simp [find, crlf] at hfind
      have hturn : headerLineTurn request headerName headerEnd (pos + 2) =
          match headerLineValue headerName ((request.drop (pos + 2)).take k) with
          | some value => .inr (some value)
          | none => .inl (pos + 2 + k + 2) := by
        unfold headerLineTurn findFrom
        rw [if_pos hmore, hfind, Option.map_some]
        dsimp only
        rw [if_neg (by omega), Nat.add_sub_cancel_left]
      rw [lines_of_find hfind, takeWhile_cons_of_pos (by simpa using hne), findSome?_cons]
      cases hvalue : headerLineValue headerName ((request.drop (pos + 2)).take k) with
      | some value =>
        rw [hvalue] at hturn
        exact loop_leave hturn
      | none =>
        rw [hvalue] at hturn
        rw [loop_next hturn, ih (pos + 2 + k) hk0 (by omega) (by omega), drop_drop,
          Nat.add_assoc (pos + 2)]
    · -- the line that ended here was the last one, and the empty line follows
      have hlast : pos = headerEnd := by
        refine eq_of_headerEnd_le hend hpos ?_ hle
        by_contra hnot
        obtain rfl : headerEnd = pos + 2 := by omega
        exact not_crlf_of_lt hend hpos (by omega) hcrlf
      subst hlast
      have hempty : find crlf (request.drop (pos + 2)) = some 0 := by
        refine find_eq_some_iff.mpr ⟨Nat.zero_le _, ?_, fun j hj => absurd hj (by omega)⟩
        obtain ⟨rest, hrest⟩ := hterm
        rw [drop_zero, ← drop_drop, ← hrest, headerTerminator]
        exact ⟨rest, rfl⟩
      have hturn : headerLineTurn request headerName pos (pos + 2) = .inr none := by
        rw [headerLineTurn, if_neg (by omega)]
      rw [loop_leave hturn, lines_of_find hempty, take_zero]
      rfl

end

/-- The lines of a header after the request line. -/
def headerLines (request : Bytes) : List Bytes := (lines request).tail.takeWhile (· ≠ [])

theorem findHttpHeaderValue_eq (hend : find headerTerminator request = some headerEnd)
    (headerName : Bytes) :
    findHttpHeaderValue request headerName =
      (headerLines request).findSome? (headerLineValue headerName) := by
  obtain ⟨hle, hterm, -⟩ := find_eq_some_iff.mp hend
  obtain ⟨pos, hpos, hfind⟩ := exists_find_le crlf hle ((prefix_append crlf crlf).trans hterm)
  have hlen := find_add_length_le hfind
  rw [headerLines, lines_of_find hfind, tail_cons, findHttpHeaderValue, hend, hfind]
  exact loop_headerLineTurn hend (request.length + 1) pos
    (find_eq_some_iff.mp hfind).2.1 hpos (by omega)

end TcpQuicProxy.Ingress
