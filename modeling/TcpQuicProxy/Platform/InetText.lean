import TcpQuicProxy.Platform.Address

/-!
# Dotted quads and groups of hexadecimal digits

One platform that keeps the laws of `LawfulInet`. It reads a dotted quad as
strictly as `inet_pton` does, and reads and prints an IPv6 address as eight
groups of four digits.
-/

namespace TcpQuicProxy.Platform

/-! ### Fields between separators -/

variable {α : Type} {b sep : UInt8} {n : Nat} {text : α → Bytes}

theorem mapM_map_of_inverse {β : Type} {text : α → β} {parse : β → Option α}
    (hparse : ∀ x, parse (text x) = some x) (l : List α) : (l.map text).mapM parse = some l := by
  induction l with
  | nil => rfl
  | cons x l ih => simp [hparse, ih]

theorem mapM_splitOn_intercalate {parse : Bytes → Option α}
    (hparse : ∀ x, parse (text x) = some x) (hsep : ∀ x, sep ∉ text x) {l : List α} (hl : l ≠ []) :
    (([sep].intercalate (l.map text)).splitOn sep).mapM parse = some l := by
  rw [List.splitOn_intercalate sep _ (by simpa using hl), mapM_map_of_inverse hparse]
  intro field hfield
  obtain ⟨x, _, rfl⟩ := List.mem_map.mp hfield
  exact hsep x

theorem mem_intercalate {l : List Bytes} (h : b ∈ [sep].intercalate l) :
    b = sep ∨ ∃ field ∈ l, b ∈ field := by
  induction l with
  | nil => simp at h
  | cons field l ih =>
    cases l with
    | nil => exact .inr ⟨field, List.mem_cons_self, by simpa using h⟩
    | cons next l =>
      rw [List.intercalate_cons_cons, List.mem_append, List.mem_append] at h
      rcases h with (h | h) | h
      · exact .inr ⟨field, List.mem_cons_self, h⟩
      · exact .inl (List.mem_singleton.mp h)
      · rcases ih h with hsep | ⟨other, hother, hb⟩
        · exact .inl hsep
        · exact .inr ⟨other, List.mem_cons_of_mem field hother, hb⟩

theorem not_mem_intercalate (hsep : b ≠ sep) (htext : ∀ x, b ∉ text x)
    (l : List α) : b ∉ [sep].intercalate (l.map text) := by
  intro h
  rcases mem_intercalate h with hb | ⟨field, hfield, hb⟩
  · exact hsep hb
  · obtain ⟨x, _, rfl⟩ := List.mem_map.mp hfield
    exact htext x hb

def vectorOfList (n : Nat) (l : Bytes) : Option (Vector UInt8 n) :=
  if h : l.length = n then some ⟨l.toArray, h⟩ else none

theorem vectorOfList_toList (v : Vector UInt8 n) : vectorOfList n v.toList = some v := by
  unfold vectorOfList
  rw [dif_pos v.length_toList]
  rfl

theorem toList_ne_nil (hn : n ≠ 0) (v : Vector UInt8 n) : v.toList ≠ [] := by
  intro h
  have hlen := congrArg List.length h
  rw [v.length_toList] at hlen
  exact hn hlen

/-! ### IPv4 -/

def isDigit (c : UInt8) : Bool := 48 ≤ c && c ≤ 57

def decimalValue (s : Bytes) : Nat := s.foldl (fun v c => v * 10 + (c.toNat - 48)) 0

def parseOctet (s : Bytes) : Option UInt8 :=
  if s = [] || 3 < s.length || !s.all isDigit then none
  else if s.head? = some 48 && s.length ≠ 1 then none
  else if 255 < decimalValue s then none
  else some (UInt8.ofNat (decimalValue s))

def digit (n : Nat) : UInt8 := UInt8.ofNat (48 + n)

def octetText (b : UInt8) : Bytes :=
  if b < 10 then [digit b.toNat]
  else if b < 100 then [digit (b.toNat / 10), digit (b.toNat % 10)]
  else [digit (b.toNat / 100), digit (b.toNat / 10 % 10), digit (b.toNat % 10)]

def dot : UInt8 := 46

def parseDottedQuad (s : Bytes) : Option Ipv4 :=
  ((s.splitOn dot).mapM parseOctet).bind (vectorOfList 4)

def dottedQuad (a : Ipv4) : Bytes := [dot].intercalate (a.toList.map octetText)

theorem octetText_spec (b : UInt8) :
    parseOctet (octetText b) = some b ∧ dot ∉ octetText b ∧ 0 ∉ octetText b := by
  have hall : ∀ n : Fin 256, parseOctet (octetText (UInt8.ofFin n)) = some (UInt8.ofFin n) ∧
      dot ∉ octetText (UInt8.ofFin n) ∧ 0 ∉ octetText (UInt8.ofFin n) := by
    decide +kernel
  exact hall b.toFin

theorem parseDottedQuad_dottedQuad (a : Ipv4) : parseDottedQuad (dottedQuad a) = some a := by
  unfold parseDottedQuad dottedQuad
  rw [mapM_splitOn_intercalate (fun b => (octetText_spec b).1) (fun b => (octetText_spec b).2.1)
    (toList_ne_nil (by decide) a)]
  exact vectorOfList_toList a

/-! ### IPv6 -/

def hexDigit (n : Nat) : UInt8 := if n < 10 then UInt8.ofNat (48 + n) else UInt8.ofNat (87 + n)

def hexValue (c : UInt8) : Option Nat :=
  if 48 ≤ c && c ≤ 57 then some (c.toNat - 48)
  else if 97 ≤ c && c ≤ 102 then some (c.toNat - 87)
  else none

def octetHex (b : UInt8) : Bytes := [hexDigit (b.toNat / 16), hexDigit (b.toNat % 16)]

def parseHexOctet (high low : UInt8) : Option UInt8 :=
  match hexValue high, hexValue low with
  | some h, some l => some (UInt8.ofNat (16 * h + l))
  | _, _ => none

def groupText (group : UInt8 × UInt8) : Bytes := octetHex group.1 ++ octetHex group.2

def parseGroup : Bytes → Option (UInt8 × UInt8)
  | [a, b, c, d] =>
    match parseHexOctet a b, parseHexOctet c d with
    | some x, some y => some (x, y)
    | _, _ => none
  | _ => none

def groups : Bytes → List (UInt8 × UInt8)
  | x :: y :: l => (x, y) :: groups l
  | _ => []

def colon : UInt8 := 58

def parseGroups (s : Bytes) : Option Ipv6 :=
  ((s.splitOn colon).mapM parseGroup).bind fun l =>
    vectorOfList 16 (l.flatMap fun group => [group.1, group.2])

def groupsText (a : Ipv6) : Bytes := [colon].intercalate ((groups a.toList).map groupText)

theorem octetHex_spec (b : UInt8) :
    parseHexOctet (hexDigit (b.toNat / 16)) (hexDigit (b.toNat % 16)) = some b ∧
      colon ∉ octetHex b ∧ dot ∉ octetHex b ∧ 0 ∉ octetHex b := by
  have hall : ∀ n : Fin 256,
      parseHexOctet (hexDigit (n.val / 16)) (hexDigit (n.val % 16)) = some (UInt8.ofFin n) ∧
        colon ∉ octetHex (UInt8.ofFin n) ∧ dot ∉ octetHex (UInt8.ofFin n) ∧
          0 ∉ octetHex (UInt8.ofFin n) := by
    decide +kernel
  exact hall b.toFin

theorem parseGroup_groupText (group : UInt8 × UInt8) :
    parseGroup (groupText group) = some group := by
  simp only [groupText, octetHex, List.cons_append, List.nil_append, parseGroup,
    (octetHex_spec group.1).1,
    (octetHex_spec group.2).1]

theorem not_mem_groupText (h : ∀ x, b ∉ octetHex x) (group : UInt8 × UInt8) :
    b ∉ groupText group := by
  intro hb
  exact (List.mem_append.mp hb).elim (h _) (h _)

theorem flatMap_groups {l : Bytes} (h : l.length % 2 = 0) :
    (groups l).flatMap (fun group => [group.1, group.2]) = l := by
  induction l using groups.induct with
  | case1 x y l ih =>
    have hl : l.length % 2 = 0 := by
      rw [List.length_cons, List.length_cons] at h
      omega
    rw [groups, List.flatMap_cons, ih hl]
    rfl
  | case2 l hl =>
    match l, hl with
    | [], _ => rfl
    | [x], _ => exact absurd h (by simp)
    | x :: y :: l, hl => exact absurd rfl (hl x y l)

theorem groups_ne_nil (a : Ipv6) : groups a.toList ≠ [] := by
  intro h
  have hflat := flatMap_groups (l := a.toList) (by rw [a.length_toList])
  rw [h] at hflat
  exact toList_ne_nil (by decide) a hflat.symm

theorem parseGroups_groupsText (a : Ipv6) : parseGroups (groupsText a) = some a := by
  unfold parseGroups groupsText
  rw [mapM_splitOn_intercalate parseGroup_groupText
    (not_mem_groupText fun b => (octetHex_spec b).2.1) (groups_ne_nil a),
    Option.bind_some, flatMap_groups (by rw [a.length_toList])]
  exact vectorOfList_toList a

/-- A text without dots has one field, and a dotted quad four. -/
theorem parseDottedQuad_eq_none {s : Bytes} (h : dot ∉ s) : parseDottedQuad s = none := by
  unfold parseDottedQuad
  rw [show s = [dot].intercalate [s] by simp,
    List.splitOn_intercalate dot (by simpa using h) (by simp)]
  cases hs : parseOctet s <;> simp [hs, vectorOfList]

/-- The platform of dotted quads and full groups. -/
def plainInet : LawfulInet where
  pton4 := parseDottedQuad
  pton6 := parseGroups
  ntop4 := dottedQuad
  ntop6 := groupsText
  pton4_ntop4 := parseDottedQuad_dottedQuad
  pton6_ntop6 := parseGroups_groupsText
  pton4_ntop6 _ :=
    parseDottedQuad_eq_none
      (not_mem_intercalate (by decide) (not_mem_groupText fun b => (octetHex_spec b).2.2.1) _)
  zero_not_mem_ntop4 _ := not_mem_intercalate (by decide) (fun b => (octetText_spec b).2.2) _
  zero_not_mem_ntop6 _ :=
    not_mem_intercalate (by decide) (not_mem_groupText fun b => (octetHex_spec b).2.2.2) _

end TcpQuicProxy.Platform
