import TcpQuicProxy.Protocol.ControlFrame

/-!
# The control protocol is an exact codec

Each encoder and its decoder are inverse to each other on what they accept. A
decoder reads its fields at fixed offsets, so a string that it accepts is the
list of its own bytes, and the encoder writes the same list. The command byte
tells the kinds apart.
-/

namespace TcpQuicProxy.Protocol

open List

/-! ### Reading what was written -/

@[simp] theorem byteAt_cons_zero (b : UInt8) (l : Bytes) : byteAt (b :: l) 0 = b := rfl

@[simp] theorem byteAt_cons_succ (b : UInt8) (l : Bytes) (i : Nat) :
    byteAt (b :: l) (i + 1) = byteAt l i := rfl

theorem byteAt_append_length (l : Bytes) (b : UInt8) : byteAt (l ++ [b]) l.length = b := by
  simp [byteAt]

section

variable (data : Bytes)
include data

theorem readU16BE_eq (i : Nat) :
    readU16BE data i = Wire.join16 (byteAt data i) (byteAt data (i + 1)) := rfl

theorem readU32BE_eq (i : Nat) : readU32BE data i =
    Wire.join32 (byteAt data i) (byteAt data (i + 1)) (byteAt data (i + 2)) (byteAt data (i + 3)) :=
  rfl

theorem readU64BE_eq (i : Nat) : readU64BE data i =
    Wire.join64 (byteAt data i) (byteAt data (i + 1)) (byteAt data (i + 2)) (byteAt data (i + 3))
      (byteAt data (i + 4)) (byteAt data (i + 5)) (byteAt data (i + 6)) (byteAt data (i + 7)) := rfl

/-! ### Writing what was read -/

theorem writeU16BE_readU16BE (i : Nat) :
    writeU16BE (readU16BE data i) = [byteAt data i, byteAt data (i + 1)] :=
  Wire.split16_join16 ..

theorem writeU32BE_readU32BE (i : Nat) : writeU32BE (readU32BE data i) =
    [byteAt data i, byteAt data (i + 1), byteAt data (i + 2), byteAt data (i + 3)] :=
  Wire.split32_join32 ..

theorem writeU64BE_readU64BE (i : Nat) : writeU64BE (readU64BE data i) =
    [byteAt data i, byteAt data (i + 1), byteAt data (i + 2), byteAt data (i + 3),
      byteAt data (i + 4),
      byteAt data (i + 5), byteAt data (i + 6), byteAt data (i + 7)] :=
  Wire.split64_join64 ..

end

variable {k : Nat} {data : Bytes}

/-- A string is its first bytes, one by one, and the rest. -/
theorem eq_bytes_append (data : Bytes) (h : k ≤ data.length) :
    data = (List.range k).map (byteAt data) ++ data.drop k := by
  have htake : data.take k = (range k).map (byteAt data) := Wire.take_eq_map_getD 0 h
  rw [← htake, take_append_drop]

theorem eq_bytes (h : data.length = k) : data = (List.range k).map (byteAt data) := by
  have hdata := eq_bytes_append data (Nat.le_of_eq h.symm)
  rwa [drop_eq_nil_of_le (Nat.le_of_eq h), append_nil] at hdata

theorem hasHeader_iff {cmd : UInt8} :
    (!hasHeader data cmd) ≠ true ↔
      byteAt data 0 = magic0 ∧ byteAt data 1 = magic1 ∧ byteAt data 2 = version ∧
        byteAt data 3 = cmd := by
  simp [hasHeader, and_assoc]

/-! ### Length fields -/

theorem toNat_ofNat_length {l : Bytes} (h : l.length < 65536) :
    (UInt16.ofNat l.length).toNat = l.length := by
  rw [UInt16.toNat_ofNat']
  exact Nat.mod_eq_of_lt h

theorem ofNat_length {l : Bytes} {v : UInt16} (h : l.length = v.toNat) :
    UInt16.ofNat l.length = v := by
  rw [h, UInt16.ofNat_toNat]

/-- A string that is as long as its length field says ends in the field's bytes. -/
theorem take_drop_of_length {n : Nat} (h : data.length = k + n) :
    (data.drop k).take n = data.drop k := by
  apply take_of_length_le
  rw [length_drop]
  omega

theorem length_take_drop {n : Nat} (h : k + n ≤ data.length) :
    ((data.drop k).take n).length = n := by
  rw [length_take, length_drop]
  omega

/-! ### Fixed sizes -/

attribute [local simp]
    hasHeader writeU16BE writeU32BE writeU64BE readU16BE_eq readU32BE_eq readU64BE_eq
    Wire.join16_split16
  Wire.join32_split32 Wire.join64_split64 List.range_succ

theorem openResponse_exact (resp : OpenResponse) (data : Bytes) :
    encodeOpenResponse resp = some data ↔ decodeOpenResponse data = some resp := by
  constructor
  · intro h
    unfold encodeOpenResponse at h
    split at h
    · cases h
    · split at h
      · cases h
      · cases h
        obtain ⟨ok, error, connId⟩ := resp
        cases ok <;>
          simp_all [decodeOpenResponse, openResponseSize, writeU32BE, readU32BE_eq,
            Wire.join32_split32, cmdOpenOk,
            cmdOpenFail]
  · intro h
    have hlen := length_of_decodeOpenResponse h
    unfold decodeOpenResponse at h
    dsimp only at h
    split_ifs at h with _ hmagic hversion hcmd hok hfail
    cases h
    simp only [Bool.or_eq_true, decide_eq_true_eq, not_or, not_not] at hmagic hversion
    simp only [Bool.and_eq_true, decide_eq_true_eq, not_and, not_not] at hcmd
    have hcommand : (if decide (byteAt data 3 = cmdOpenOk) = true then cmdOpenOk else cmdOpenFail) =
        byteAt data 3 := by
      by_cases h3 : byteAt data 3 = cmdOpenOk
      · simp [h3]
      · simp only [h3, decide_false, Bool.false_eq_true, if_false]
        exact (hcmd h3).symm
    rw [encodeOpenResponse, if_neg hok, if_neg hfail, writeU32BE_readU32BE, hcommand]
    conv_rhs => rw [eq_bytes hlen]
    simp [openResponseSize, hmagic, hversion]

theorem speedStart_exact (msg : SpeedStart) (data : Bytes) :
    encodeSpeedStart msg = some data ↔ decodeSpeedStart data = some msg := by
  constructor
  · intro h
    unfold encodeSpeedStart at h
    split_ifs at h with hvalid
    cases h
    obtain ⟨sessionId, direction, durationSec, parallel, flags⟩ := msg
    obtain ⟨hdirection, rfl⟩ : isValidSpeedDirection direction = true ∧ flags = 0 := by
      simp only [SpeedStart.validate, Bool.and_eq_true, decide_eq_true_eq] at hvalid
      exact ⟨hvalid.1.1.1.1.1, hvalid.2⟩
    simp [decodeSpeedStart, speedStartSize, hdirection, hvalid]
  · intro h
    unfold decodeSpeedStart at h
    dsimp only at h
    split_ifs at h with hlen hheader _ _ hvalid
    cases h
    have hlen := not_not.mp hlen
    have hheader := hasHeader_iff.mp hheader
    rw [encodeSpeedStart, if_pos hvalid, writeU32BE_readU32BE, writeU32BE_readU32BE,
      writeU16BE_readU16BE]
    conv_rhs => rw [eq_bytes hlen]
    simp [speedStartSize, hheader]

theorem speedFinish_exact (msg : SpeedFinish) (data : Bytes) :
    encodeSpeedFinish msg = some data ↔ decodeSpeedFinish data = some msg := by
  constructor
  · intro h
    cases h
    simp [decodeSpeedFinish, speedFinishSize]
  · intro h
    unfold decodeSpeedFinish at h
    split_ifs at h with hlen hheader
    cases h
    have hlen := not_not.mp hlen
    have hheader := hasHeader_iff.mp hheader
    rw [encodeSpeedFinish, writeU32BE_readU32BE, writeU64BE_readU64BE, writeU64BE_readU64BE]
    conv_rhs => rw [eq_bytes hlen]
    simp [speedFinishSize, hheader]

theorem speedResult_exact (msg : SpeedResult) (data : Bytes) :
    encodeSpeedResult msg = some data ↔ decodeSpeedResult data = some msg := by
  constructor
  · intro h
    cases h
    simp [decodeSpeedResult, speedResultSize]
  · intro h
    unfold decodeSpeedResult at h
    split_ifs at h with hlen hheader
    cases h
    have hlen := not_not.mp hlen
    have hheader := hasHeader_iff.mp hheader
    rw [encodeSpeedResult, writeU32BE_readU32BE, writeU64BE_readU64BE, writeU64BE_readU64BE,
      writeU32BE_readU32BE,
      writeU32BE_readU32BE]
    conv_rhs => rw [eq_bytes hlen]
    simp [speedResultSize, hheader]

/-! ### Frames that end in a string -/

theorem SpeedReady.length_addr {msg : SpeedReady} (h : msg.validate = true) :
    msg.addr.length < 65536 := by
  unfold SpeedReady.validate at h
  grind

theorem speedReady_exact (msg : SpeedReady) (data : Bytes) :
    encodeSpeedReady msg = some data ↔ decodeSpeedReady data = some msg := by
  constructor
  · intro h
    unfold encodeSpeedReady at h
    split_ifs at h with hvalid
    cases h
    have haddr := toNat_ofNat_length (SpeedReady.length_addr hvalid)
    generalize UInt16.ofNat msg.addr.length = v at haddr
    simp [decodeSpeedReady, speedReadyMinSize, haddr, hvalid]
    omega
  · intro h
    unfold decodeSpeedReady at h
    dsimp only at h
    split_ifs at h with hmin hheader hlen hvalid
    cases h
    have hlen : data.length = 13 + (readU16BE data 11).toNat := not_not.mp hlen
    have hheader := hasHeader_iff.mp hheader
    have haddr :
        ((data.drop 13).take (readU16BE data 11).toNat).length = (readU16BE data 11).toNat :=
      length_take_drop (Nat.le_of_eq hlen.symm)
    rw [encodeSpeedReady, if_pos hvalid, ofNat_length haddr, take_drop_of_length hlen,
      writeU32BE_readU32BE,
      writeU16BE_readU16BE, writeU16BE_readU16BE]
    conv_rhs => rw [eq_bytes_append data (Nat.le_of_not_lt hmin)]
    simp [speedReadyMinSize, hheader]

theorem speedError_exact (msg : SpeedErrorMessage) (data : Bytes) :
    encodeSpeedError msg = some data ↔ decodeSpeedError data = some msg := by
  constructor
  · intro h
    unfold encodeSpeedError at h
    split_ifs at h with hvalid
    cases h
    simp only [SpeedErrorMessage.validate, Bool.and_eq_true, decide_eq_true_eq] at hvalid
    have hmessage := toNat_ofNat_length (Nat.lt_of_le_of_lt hvalid.2 (by decide))
    generalize UInt16.ofNat msg.message.length = v at hmessage
    simp [decodeSpeedError, speedErrorMinSize, hmessage, hvalid]
    omega
  · intro h
    unfold decodeSpeedError at h
    dsimp only at h
    split_ifs at h with hmin hheader hsize hcode
    cases h
    simp only [Bool.or_eq_true, decide_eq_true_eq, not_or, not_not, Nat.not_lt] at hsize
    have hlen : data.length = 11 + (readU16BE data 9).toNat := hsize.1
    have hheader := hasHeader_iff.mp hheader
    have hmessage :
        ((data.drop 11).take (readU16BE data 9).toNat).length = (readU16BE data 9).toNat :=
      length_take_drop (Nat.le_of_eq hlen.symm)
    rw [encodeSpeedError, if_pos (by simp_all [SpeedErrorMessage.validate]), ofNat_length hmessage,
      take_drop_of_length hlen, writeU32BE_readU32BE, writeU16BE_readU16BE]
    conv_rhs => rw [eq_bytes_append data (Nat.le_of_not_lt hmin)]
    simp [speedErrorMinSize, hheader]

theorem clientHello_exact (msg : ClientHello) (data : Bytes) :
    encodeClientHello msg = some data ↔ decodeClientHello data = some msg := by
  constructor
  · intro h
    unfold encodeClientHello at h
    split_ifs at h with hvalid
    cases h
    have hsize : msg.clientName ≠ [] ∧ msg.clientName.length ≤ clientHelloMaxNameLen := by
      simp only [isValidClientName, Bool.and_eq_true, Bool.not_eq_true', Bool.or_eq_false_iff,
        decide_eq_false_iff_not, Nat.not_lt] at hvalid
      exact hvalid.1
    have hname := toNat_ofNat_length (Nat.lt_of_le_of_lt hsize.2 (by decide))
    generalize UInt16.ofNat msg.clientName.length = v at hname
    simp [decodeClientHello, clientHelloMinSize, hname, hvalid, hsize]
    omega
  · intro h
    unfold decodeClientHello at h
    dsimp only at h
    split_ifs at h with hmin hheader hsize hlen hvalid
    cases h
    have hlen := not_not.mp hlen
    have hheader := hasHeader_iff.mp hheader
    have hname : ((data.drop clientHelloMinSize).take (readU16BE data 4).toNat).length =
        (readU16BE data 4).toNat :=
      length_take_drop (Nat.le_of_eq hlen.symm)
    rw [encodeClientHello, if_pos hvalid, ofNat_length hname, take_drop_of_length hlen,
      writeU16BE_readU16BE]
    conv_rhs => rw [eq_bytes_append data (Nat.le_of_not_lt hmin)]
    simp [clientHelloMinSize, hheader]

theorem OpenRequest.length_addr {req : OpenRequest} (h : req.validateAddr = true) :
    req.addr.length < 65536 := by
  unfold OpenRequest.validateAddr at h
  grind

/-- An OPEN request ends in the byte that announces authentication. -/
theorem drop_eq_addr_append {n : Nat} (h : data.length = 11 + n) :
    data.drop 10 = (data.drop 10).take n ++ [byteAt data (10 + n)] := by
  have hlast : (data.drop 10).drop n = [byteAt data (10 + n)] := by
    have hlt : 10 + n < data.length := by omega
    rw [drop_drop, drop_eq_getElem_cons hlt, drop_eq_nil_of_le (by omega), byteAt,
      getD_eq_getElem?_getD, getElem?_eq_getElem hlt, Option.getD_some]
  rw [← hlast, take_append_drop]

theorem openRequest_exact (req : OpenRequest) (data : Bytes) :
    encodeOpenRequest req = some data ↔ decodeOpenRequest data = some req := by
  constructor
  · intro h
    unfold encodeOpenRequest at h
    split_ifs at h with hvalid
    cases h
    have haddr := toNat_ofNat_length (OpenRequest.length_addr hvalid)
    generalize UInt16.ofNat req.addr.length = v at haddr
    simp [decodeOpenRequest, openRequestLength, haddr, hvalid, Nat.add_comm _ req.addr.length,
      byteAt_append_length]
  · intro h
    obtain ⟨hlen, hmin⟩ := length_of_decodeOpenRequest h
    unfold decodeOpenRequest at h
    dsimp only at h
    split_ifs at h with _ hmagic hversion hcmd _ hauth hvalid
    cases h
    simp only [Bool.or_eq_true, decide_eq_true_eq, not_or, not_not] at hmagic hversion hcmd hauth
    unfold openRequestLength at hlen
    have haddr : ((data.drop 10).take (readU16BE data 8).toNat).length = (readU16BE data 8).toNat :=
      length_take_drop (by omega)
    rw [encodeOpenRequest, if_pos hvalid, ofNat_length haddr, writeU16BE_readU16BE,
      writeU16BE_readU16BE]
    conv_rhs => rw [eq_bytes_append data (Nat.le_of_succ_le hmin), drop_eq_addr_append hlen, hauth]
    simp [hmagic, hversion, hcmd]

/-! ### The eight kinds of frames -/

inductive Kind where
  | openRequest
  | openResponse
  | clientHello
  | speedStart
  | speedReady
  | speedFinish
  | speedResult
  | speedError
  deriving DecidableEq

def Kind.Message : Kind → Type
  | .openRequest => OpenRequest
  | .openResponse => OpenResponse
  | .clientHello => ClientHello
  | .speedStart => SpeedStart
  | .speedReady => SpeedReady
  | .speedFinish => SpeedFinish
  | .speedResult => SpeedResult
  | .speedError => SpeedErrorMessage

def Kind.codec : (kind : Kind) → Wire.Codec kind.Message
  | .openRequest => ⟨encodeOpenRequest, decodeOpenRequest, openRequest_exact⟩
  | .openResponse => ⟨encodeOpenResponse, decodeOpenResponse, openResponse_exact⟩
  | .clientHello => ⟨encodeClientHello, decodeClientHello, clientHello_exact⟩
  | .speedStart => ⟨encodeSpeedStart, decodeSpeedStart, speedStart_exact⟩
  | .speedReady => ⟨encodeSpeedReady, decodeSpeedReady, speedReady_exact⟩
  | .speedFinish => ⟨encodeSpeedFinish, decodeSpeedFinish, speedFinish_exact⟩
  | .speedResult => ⟨encodeSpeedResult, decodeSpeedResult, speedResult_exact⟩
  | .speedError => ⟨encodeSpeedError, decodeSpeedError, speedError_exact⟩

/-- The kind that a command byte announces. -/
def kindOfCommand (cmd : UInt8) : Option Kind :=
  if cmd = cmdOpen then some .openRequest
  else if cmd = cmdOpenOk || cmd = cmdOpenFail then some .openResponse
  else if cmd = cmdClientHello then some .clientHello
  else if cmd = cmdSpeedStart then some .speedStart
  else if cmd = cmdSpeedReady then some .speedReady
  else if cmd = cmdSpeedFinish then some .speedFinish
  else if cmd = cmdSpeedResult then some .speedResult
  else if cmd = cmdSpeedError then some .speedError
  else none

theorem kindOfCommand_encode {kind : Kind} {msg : kind.Message}
    (h : kind.codec.encode msg = some data) : kindOfCommand (byteAt data 3) = some kind := by
  cases kind <;>
    simp only [Kind.codec, encodeOpenRequest, encodeOpenResponse, encodeClientHello,
      encodeSpeedStart,
      encodeSpeedReady, encodeSpeedFinish, encodeSpeedResult, encodeSpeedError] at h
  case openResponse =>
    split at h
    · cases h
    · split at h
      · cases h
      · cases h
        obtain ⟨ok, error, connId⟩ := msg
        cases ok <;> rfl
  all_goals try split_ifs at h
  all_goals
    cases h
    rfl

theorem control_codec_exact :
    (∀ (kind : Kind) (msg : kind.Message) (data : Bytes),
      kind.codec.encode msg = some data → kind.codec.decode data = some msg) ∧
    (∀ (kind : Kind) (data : Bytes) (msg : kind.Message),
      kind.codec.decode data = some msg → kind.codec.encode msg = some data) ∧
    (∀ (kind other : Kind) (data : Bytes),
      (kind.codec.decode data).isSome → (other.codec.decode data).isSome → kind = other) := by
  refine ⟨fun kind msg data => (kind.codec.exact msg data).mp,
    fun kind data msg => (kind.codec.exact msg data).mpr, ?_⟩
  intro kind other data hkind hother
  obtain ⟨msg, hmsg⟩ := Option.isSome_iff_exists.mp hkind
  obtain ⟨msg', hmsg'⟩ := Option.isSome_iff_exists.mp hother
  have hfirst := kindOfCommand_encode ((kind.codec.exact msg data).mpr hmsg)
  have hsecond := kindOfCommand_encode ((other.codec.exact msg' data).mpr hmsg')
  exact Option.some.inj (hfirst.symm.trans hsecond)

end TcpQuicProxy.Protocol
