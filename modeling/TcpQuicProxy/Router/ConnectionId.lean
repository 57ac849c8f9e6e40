import TcpQuicProxy.Router.Runtime

/-!
# The slot that a connection id names

Admin requests name a connection by `conn-` and the index of its slot.
`ParseConnectionId` reads the index into a `size_t` and does not look for an
overflow: the loop in words follows the loop in natural numbers as long as the
number fits, and a text of a larger number names another slot.
-/

namespace TcpQuicProxy.Router

open Platform Wire List

def addDigit (value : Nat) (ch : UInt8) : Nat := value * 10 + (ch - 0x30).toNat

namespace Manager

def makeConnectionId (index : Nat) : Bytes := connectionIdStem ++ decimalText index

/-- The number that the digits of an id denote. -/
def denoted (connectionId : Bytes) : Nat :=
  (connectionId.drop connectionIdStem.length).foldl addDigit 0

/-- The slot of a peer's session that an id names, if the session has it. -/
def findSlot (m : Manager) (peerId connectionId : Bytes) : Except Bytes Nat :=
  match m peerId with
  | none => .error (ascii "not found")
  | some runtime =>
    match parseConnectionId connectionId with
    | none => .error (ascii "invalid connection id")
    | some index =>
      if runtime.slots ≤ index then .error (ascii "connection not found") else .ok index

/-- The slot that is started over. -/
def reconnectConnection (m : Manager) (retrySchedulingFailed : Nat → Bool)
    (peerId connectionId : Bytes) :
    Except Bytes Nat :=
  match m.findSlot peerId connectionId with
  | .error err => .error err
  | .ok index =>
    if retrySchedulingFailed index then
      .error (ascii "retry scheduling failed; restart peer session") else .ok index

/-- The slot whose tunnels are aborted. -/
def abortConnectionTunnels (m : Manager) (peerId connectionId : Bytes) : Except Bytes Nat :=
  m.findSlot peerId connectionId

/-- A request with the id starts the slot over, aborts its tunnels or removes it. -/
def ActsOn (m : Manager) (retrySchedulingFailed : Nat → Bool) (peerId connectionId : Bytes)
    (index : Nat) : Prop :=
  m.reconnectConnection retrySchedulingFailed peerId connectionId = .ok index ∨
  m.abortConnectionTunnels peerId connectionId = .ok index ∨
  ∃ runtime m', m peerId = some runtime ∧ runtime.slots = index + 1 ∧
    m.stopHighestConnection peerId connectionId = .ok m' ∧ m'.liveConnections peerId = index

variable {m : Manager} {retrySchedulingFailed : Nat → Bool} {peerId connectionId digits : Bytes}
  {value index : Nat}

/-! ### The loop in words -/

/-- Where the loop in words ends, it has the number of the loop in natural numbers
up to what does not fit. -/
theorem parseIndex_eq_mod (h : parseIndex (value % 2 ^ 64) digits = some index) :
    index = digits.foldl addDigit value % 2 ^ 64 := by
  induction digits generalizing value with
  | nil => exact (Option.some.inj h).symm
  | cons ch digits ih =>
    unfold parseIndex at h
    split at h
    · cases h
    · rw [foldl_cons]
      apply ih
      rw [← h, addDigit]
      congr 1
      omega

theorem parseIndex_of_digits (hdigits : ∀ ch ∈ digits, Config.isDigit ch = true) :
    (parseIndex value digits).isSome = true := by
  induction digits generalizing value with
  | nil => rfl
  | cons ch digits ih =>
    have hch : Config.isDigit ch = true := hdigits ch mem_cons_self
    rw [parseIndex, hch]
    exact ih fun ch' hmem => hdigits ch' (mem_cons_of_mem ch hmem)

theorem parseConnectionId_eq_mod (h : parseConnectionId connectionId = some index) :
    index = denoted connectionId % 2 ^ 64 := by
  unfold parseConnectionId at h
  split at h
  · exact parseIndex_eq_mod h
  · cases h

/-! ### Canonical ids -/

theorem foldl_addDigit_decimalText (n : Nat) : (decimalText n).foldl addDigit 0 = n := by
  rw [decimalText, foldl_map]
  conv_rhs => rw [← Nat.ofDigitChars_ten_toDigits (n := n), Nat.ofDigitChars]
  refine foldl_ext _ _ _ fun value c hc => ?_
  obtain ⟨hlow, -⟩ := toNat_of_mem_toDigits hc
  have hdigit : (UInt8.ofNat c.toNat - 0x30).toNat = c.toNat - 48 := by
    rw [UInt8.toNat_sub_of_le _ _ (UInt8.le_iff_toNat_le.mpr ?_), toNat_ofNat_of_mem_toDigits hc]
    · rfl
    · rwa [toNat_ofNat_of_mem_toDigits hc]
  rw [addDigit, hdigit, Nat.mul_comm]
  rfl

theorem denoted_makeConnectionId (n : Nat) : denoted (makeConnectionId n) = n := by
  rw [denoted, makeConnectionId, drop_left, foldl_addDigit_decimalText]

theorem parseConnectionId_makeConnectionId (hfits : index < 2 ^ 64) :
    parseConnectionId (makeConnectionId index) = some index := by
  have hdigits : ∀ ch ∈ decimalText index, Config.isDigit ch = true := fun ch hch => by
    obtain ⟨hlow, hhigh⟩ := digit_of_mem_decimalText hch
    simpa [Config.isDigit] using ⟨hlow, hhigh⟩
  have haccepts : (parseConnectionId (makeConnectionId index)).isSome = true := by
    have hstem : connectionIdStem.isPrefixOf (makeConnectionId index) = true :=
      isPrefixOf_iff_prefix.mpr (prefix_append _ _)
    have hnonempty : (makeConnectionId index).length ≠ connectionIdStem.length := by
      have hne : decimalText index ≠ [] := by simp [decimalText, Nat.toDigits_ne_nil]
      have hpos := length_pos_iff.mpr hne
      rw [makeConnectionId, length_append]
      omega
    rw [parseConnectionId, if_pos (by simp [hstem, hnonempty]), makeConnectionId, drop_left]
    exact parseIndex_of_digits hdigits
  obtain ⟨parsed, hparsed⟩ := Option.isSome_iff_exists.mp haccepts
  have hmod := parseConnectionId_eq_mod hparsed
  rw [denoted_makeConnectionId, Nat.mod_eq_of_lt hfits] at hmod
  rw [hparsed, hmod]

/-! ### Requests -/

theorem parse_of_findSlot (h : m.findSlot peerId connectionId = .ok index) :
    parseConnectionId connectionId = some index := by
  unfold findSlot at h
  split at h
  · cases h
  · split at h
    · cases h
    next hparse =>
      split at h
      · cases h
      · cases h
        exact hparse

theorem ActsOn.parse (h : ActsOn m retrySchedulingFailed peerId connectionId index) :
    parseConnectionId connectionId = some index := by
  rcases h with hreconnect | habort | ⟨runtime, m', hruntime, hslots, hstop, -⟩
  · unfold reconnectConnection at hreconnect
    split at hreconnect
    · cases hreconnect
    next hfind =>
      split at hreconnect
      · cases hreconnect
      · cases hreconnect
        exact parse_of_findSlot hfind
  · exact parse_of_findSlot habort
  · simp only [stopHighestConnection, hruntime] at hstop
    split at hstop
    · cases hstop
    · split at hstop
      · cases hstop
      next parsed hparse =>
        split at hstop
        · cases hstop
        · split at hstop
          · cases hstop
          next hhighest =>
            have heq : parsed = index := by omega
            rw [hparse, heq]

/-- An id that is accepted denotes the index that it is read as, and requests act
on the slot of that number, exactly if the number fits a `size_t`. -/
theorem accepted_id_names_slot (hparse : parseConnectionId connectionId = some index) :
    (denoted connectionId = index ↔ denoted connectionId < 2 ^ 64) ∧
    (∀ slot, slot < 2 ^ 64 → parseConnectionId (makeConnectionId slot) = some slot) ∧
    ∀ m retrySchedulingFailed peerId slot, ActsOn m retrySchedulingFailed peerId connectionId slot →
      (slot = denoted connectionId ↔ denoted connectionId < 2 ^ 64) := by
  have hmod := parseConnectionId_eq_mod hparse
  have hiff : denoted connectionId = index ↔ denoted connectionId < 2 ^ 64 := by omega
  refine ⟨hiff, fun slot hfits => parseConnectionId_makeConnectionId hfits,
    fun m failed peerId slot hacts => ?_⟩
  have hslot : slot = index := Option.some.inj (hacts.parse.symm.trans hparse)
  rw [hslot, ← hiff]
  exact eq_comm

/-- A peer with one connection. -/
def oneSlot : Manager := fun _ => some ⟨{ mode := .client }, 1⟩

theorem firstId_names_first :
    oneSlot.reconnectConnection (fun _ => false) [] (ascii "conn-0") = .ok 0 ∧
      denoted (ascii "conn-0") = 0 := by
  have hparse : parseConnectionId (ascii "conn-0") = some 0 := by decide
  exact ⟨by decide, (accepted_id_names_slot hparse).1.mpr (by decide)⟩

/-- The id of slot `2 ^ 64` starts slot 0 over, aborts its tunnels and removes it. -/
theorem wrappedId_names_first :
    denoted (ascii "conn-18446744073709551616") = 2 ^ 64 ∧
    parseConnectionId (ascii "conn-18446744073709551616") = some 0 ∧
    oneSlot.reconnectConnection (fun _ => false) [] (ascii "conn-18446744073709551616") = .ok 0 ∧
    oneSlot.abortConnectionTunnels [] (ascii "conn-18446744073709551616") = .ok 0 ∧
    (oneSlot.stopHighestConnection [] (ascii "conn-18446744073709551616")).map
      (·.liveConnections []) = .ok 0 := by
  decide +kernel

end Manager
end TcpQuicProxy.Router
