import TcpQuicProxy.Wire.Search

/-!
# Decimal texts

The decimal digits of a number as bytes. They contain nothing but digits.
-/

namespace Wire

open List

def decimalText (n : Nat) : List UInt8 := (Nat.toDigits 10 n).map fun c => UInt8.ofNat c.toNat

theorem toNat_of_mem_toDigits {n : Nat} {c : Char} (h : c ∈ Nat.toDigits 10 n) :
    48 ≤ c.toNat ∧ c.toNat ≤ 57 :=
  Char.isDigit_iff_toNat.mp (Nat.isDigit_of_mem_toDigits (by decide) (by decide) h)

theorem toNat_ofNat_of_mem_toDigits {n : Nat} {c : Char} (h : c ∈ Nat.toDigits 10 n) :
    (UInt8.ofNat c.toNat).toNat = c.toNat := by
  obtain ⟨-, hhigh⟩ := toNat_of_mem_toDigits h
  exact UInt8.toNat_ofNat_of_lt (Nat.lt_of_le_of_lt hhigh (by decide))

theorem digit_of_mem_decimalText {n : Nat} {b : UInt8} (h : b ∈ decimalText n) :
    48 ≤ b ∧ b ≤ 57 := by
  obtain ⟨c, hc, rfl⟩ := mem_map.mp h
  rw [UInt8.le_iff_toNat_le, UInt8.le_iff_toNat_le, toNat_ofNat_of_mem_toDigits hc]
  exact toNat_of_mem_toDigits hc

end Wire
