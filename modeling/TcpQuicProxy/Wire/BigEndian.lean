/-!
# Big-endian words and exact codecs

A word splits into bytes, most significant first, and joins again; both ways
round nothing is lost. A codec is exact when encoding and decoding are inverse
partial functions: what the encoder accepts is decoded to the same message, and
what the decoder accepts is encoded to the same bytes.
-/

namespace Wire

open List

/-! ### Words -/

def join16 (a b : UInt8) : UInt16 := (a.toUInt16 <<< 8) ||| b.toUInt16

def split16 (v : UInt16) : List UInt8 := [(v >>> 8).toUInt8, v.toUInt8]

def join32 (a b c d : UInt8) : UInt32 :=
  (a.toUInt32 <<< 24) ||| (b.toUInt32 <<< 16) ||| (c.toUInt32 <<< 8) ||| d.toUInt32

def split32 (v : UInt32) : List UInt8 :=
  [(v >>> 24).toUInt8, (v >>> 16).toUInt8, (v >>> 8).toUInt8, v.toUInt8]

def join64 (a b c d e f g h : UInt8) : UInt64 :=
  (a.toUInt64 <<< 56) ||| (b.toUInt64 <<< 48) ||| (c.toUInt64 <<< 40) ||| (d.toUInt64 <<< 32) |||
    (e.toUInt64 <<< 24) ||| (f.toUInt64 <<< 16) ||| (g.toUInt64 <<< 8) ||| h.toUInt64

def split64 (v : UInt64) : List UInt8 :=
  [(v >>> 56).toUInt8, (v >>> 48).toUInt8, (v >>> 40).toUInt8, (v >>> 32).toUInt8,
    (v >>> 24).toUInt8,
    (v >>> 16).toUInt8, (v >>> 8).toUInt8, v.toUInt8]

theorem join16_split16 (v : UInt16) : join16 (v >>> 8).toUInt8 v.toUInt8 = v := by
  unfold join16
  apply UInt16.eq_of_toBitVec_eq
  apply BitVec.eq_of_getLsbD_eq
  intro i hi
  simp [-UInt16.toUInt16_toUInt8]
  grind

theorem join32_split32 (v : UInt32) :
    join32 (v >>> 24).toUInt8 (v >>> 16).toUInt8 (v >>> 8).toUInt8 v.toUInt8 = v := by
  unfold join32
  apply UInt32.eq_of_toBitVec_eq
  apply BitVec.eq_of_getLsbD_eq
  intro i hi
  simp [-UInt32.toUInt32_toUInt8]
  grind

theorem join64_split64 (v : UInt64) :
    join64 (v >>> 56).toUInt8 (v >>> 48).toUInt8 (v >>> 40).toUInt8 (v >>> 32).toUInt8
      (v >>> 24).toUInt8 (v >>> 16).toUInt8 (v >>> 8).toUInt8 v.toUInt8 = v := by
  unfold join64
  apply UInt64.eq_of_toBitVec_eq
  apply BitVec.eq_of_getLsbD_eq
  intro i hi
  simp [-UInt64.toUInt64_toUInt8]
  grind

theorem byte_ext {a b : UInt8} (h : ∀ i < 8, a.toBitVec.getLsbD i = b.toBitVec.getLsbD i) : a = b :=
  UInt8.eq_of_toBitVec_eq (BitVec.eq_of_getLsbD_eq h)

theorem split16_join16 (a b : UInt8) : split16 (join16 a b) = [a, b] := by
  have low : (join16 a b).toUInt8 = b := by
    apply byte_ext
    intro i hi
    simp [join16]
  have high : (join16 a b >>> 8).toUInt8 = a := by
    apply byte_ext
    intro i hi
    simp [join16]
    grind
  rw [split16, low, high]

theorem split32_join32 (a b c d : UInt8) : split32 (join32 a b c d) = [a, b, c, d] := by
  have low : (join32 a b c d).toUInt8 = d := by
    apply byte_ext
    intro i hi
    simp [join32]
  simp only [split32, low, cons.injEq, and_true]
  refine ⟨byte_ext ?_, byte_ext ?_, byte_ext ?_⟩
  all_goals
    intro i hi
    simp [join32]
    grind

theorem split64_join64 (a b c d e f g h : UInt8) :
    split64 (join64 a b c d e f g h) = [a, b, c, d, e, f, g, h] := by
  have low : (join64 a b c d e f g h).toUInt8 = h := by
    apply byte_ext
    intro i hi
    simp [join64]
  simp only [split64, low, cons.injEq, and_true]
  refine ⟨byte_ext ?_, byte_ext ?_, byte_ext ?_, byte_ext ?_, byte_ext ?_, byte_ext ?_, byte_ext ?_⟩
  all_goals
    intro i hi
    simp [join64]
    grind

/-! ### Windows of a byte string -/

/-- The first bytes of a string, one by one. -/
theorem take_eq_map_getD {α : Type} (d : α) {l : List α} {k : Nat} (h : k ≤ l.length) :
    l.take k = (List.range k).map (l.getD · d) := by
  apply ext_getElem
  · rw [length_take, length_map, length_range, Nat.min_eq_left h]
  · intro i hi _
    have hlt : i < l.length := by
      rw [length_take] at hi
      omega
    simp [getD_eq_getElem?_getD, getElem?_eq_getElem hlt]

/-! ### Exact codecs -/

/-- Encoder and decoder are inverse to each other where they are defined. -/
structure Codec (α : Type) where
  encode : α → Option (List UInt8)
  decode : List UInt8 → Option α
  exact : ∀ m data, encode m = some data ↔ decode data = some m

end Wire
