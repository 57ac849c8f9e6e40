import Mathlib.Tactic

/-!
# Bits of byte strings

The bits of a byte string are counted from its first byte, most significant bit
first. Two strings that agree on their first `n` bits agree on `n / 8` whole
bytes and on the leading bits of one more, which is what a comparison under a
mask reads off.
-/

namespace Wire

/-- A bit of a byte, the most significant one at 0. -/
def byteBit (b : UInt8) (i : Nat) : Bool := b.toBitVec.getMsbD i

def bitAt (data : List UInt8) (i : Nat) : Bool := byteBit (data.getD (i / 8) 0) (i % 8)

/-- Two strings have the same first `n` bits. -/
def AgreeOn (n : Nat) (a b : List UInt8) : Prop := ∀ i < n, bitAt a i = bitAt b i

instance (n : Nat) (a b : List UInt8) : Decidable (AgreeOn n a b) :=
  inferInstanceAs (Decidable (∀ i < n, bitAt a i = bitAt b i))

theorem byte_eq_iff {x y : UInt8} : x = y ↔ ∀ i < 8, byteBit x i = byteBit y i := by
  constructor
  · rintro rfl i _
    rfl
  · intro h
    exact UInt8.eq_of_toBitVec_eq (BitVec.eq_of_getMsbD_eq h)

/-- The mask of the leading `r` bits. -/
theorem byteBit_mask {r : Nat} (hr : r < 8) (i : Nat) :
    byteBit (UInt8.ofNat (0xFF <<< (8 - r))) i = decide (i < r) := by
  by_cases hi : i < 8
  · have hall : ∀ r < 8, ∀ i < 8, byteBit (UInt8.ofNat (0xFF <<< (8 - r))) i = decide (i < r) := by
      decide
    exact hall r hr i hi
  · have hir : ¬ i < r := by omega
    simp [byteBit, BitVec.getMsbD_of_ge _ _ (Nat.le_of_not_lt hi), hir]

theorem masked_eq_iff {r : Nat} (hr : r < 8) (x y : UInt8) :
    x &&& UInt8.ofNat (0xFF <<< (8 - r)) = y &&& UInt8.ofNat (0xFF <<< (8 - r)) ↔
      ∀ i < r, byteBit x i = byteBit y i := by
  have hand : ∀ z : UInt8, ∀ i,
      byteBit (z &&& UInt8.ofNat (0xFF <<< (8 - r))) i = (byteBit z i && decide (i < r)) := by
    intro z i
    rw [← byteBit_mask hr i]
    simp [byteBit]
  rw [byte_eq_iff]
  constructor
  · intro h i hi
    have hbit := h i (Nat.lt_trans hi hr)
    rwa [hand, hand, decide_eq_true hi, Bool.and_true, Bool.and_true] at hbit
  · intro h i _
    rw [hand, hand]
    by_cases hi : i < r
    · rw [h i hi]
    · rw [decide_eq_false hi, Bool.and_false, Bool.and_false]

theorem bitAt_eq (data : List UInt8) {k j : Nat} (hj : j < 8) :
    bitAt data (8 * k + j) = byteBit (data.getD k 0) j := by
  unfold bitAt
  rw [show (8 * k + j) / 8 = k by omega, show (8 * k + j) % 8 = j by omega]

/-- Agreement on whole bytes and on the leading bits of the next one. -/
theorem agreeOn_iff (a b : List UInt8) (k : Nat) {r : Nat} (hr : r < 8) :
    AgreeOn (8 * k + r) a b ↔
      (∀ i < k, a.getD i 0 = b.getD i 0) ∧
        ∀ i < r, byteBit (a.getD k 0) i = byteBit (b.getD k 0) i := by
  constructor
  · intro h
    refine ⟨fun i hi => byte_eq_iff.mpr fun j hj => ?_, fun j hj => ?_⟩
    · rw [← bitAt_eq a hj, ← bitAt_eq b hj]
      exact h _ (by omega)
    · rw [← bitAt_eq a (Nat.lt_trans hj hr), ← bitAt_eq b (Nat.lt_trans hj hr)]
      exact h _ (by omega)
  · rintro ⟨hbytes, hbits⟩ i hi
    by_cases hik : i / 8 < k
    · unfold bitAt
      rw [hbytes _ hik]
    · have hdiv : i / 8 = k := by omega
      unfold bitAt
      rw [hdiv]
      exact hbits _ (by omega)

/-- A string in two parts is compared part by part. -/
theorem agreeOn_append (n : Nat) {k : Nat} {head : List UInt8} (hk : head.length = k)
    (a b : List UInt8) :
    AgreeOn n (head ++ a) b ↔
      AgreeOn (min n (8 * k)) head b ∧ AgreeOn (n - 8 * k) a (b.drop k) := by
  have hhead : ∀ i < 8 * k, bitAt (head ++ a) i = bitAt head i := by
    intro i hi
    have hlt : i / 8 < head.length := by omega
    simp only [bitAt, List.getD_eq_getElem?_getD, List.getElem?_append_left hlt]
  have htail : ∀ i, bitAt (head ++ a) (8 * k + i) = bitAt a i := by
    intro i
    have hdiv : (8 * k + i) / 8 = k + i / 8 := by omega
    have hle : head.length ≤ k + i / 8 := by omega
    simp only [bitAt, hdiv, List.getD_eq_getElem?_getD, List.getElem?_append_right hle, hk,
      Nat.add_sub_cancel_left,
      Nat.mul_add_mod]
  have hdrop : ∀ i, bitAt b (8 * k + i) = bitAt (b.drop k) i := by
    intro i
    have hdiv : (8 * k + i) / 8 = k + i / 8 := by omega
    simp only [bitAt, hdiv, List.getD_eq_getElem?_getD, List.getElem?_drop, Nat.mul_add_mod]
  constructor
  · intro h
    refine ⟨fun i hi => ?_, fun i hi => ?_⟩
    · rw [← hhead i (by omega)]
      exact h i (by omega)
    · rw [← htail, ← hdrop]
      exact h _ (by omega)
  · rintro ⟨hfirst, hsecond⟩ i hi
    by_cases hik : i < 8 * k
    · rw [hhead i hik]
      exact hfirst i (by omega)
    · obtain ⟨j, rfl⟩ : ∃ j, i = 8 * k + j := ⟨i - 8 * k, by omega⟩
      rw [htail, hdrop]
      exact hsecond j (by omega)

end Wire
