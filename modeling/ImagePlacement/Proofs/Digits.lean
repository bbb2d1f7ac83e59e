import ImagePlacement.Bytes
import Mathlib.Data.List.Induction

/-! Numbers written in bytes, the most significant one first. Writing and reading undo each
other, so a field of known width is determined by the number in it. -/
namespace ImagePlacement.Bytes

/-- The digits of a number to base 256, so many of them. -/
def digits : Nat → Nat → Bytes
  | 0, _ => []
  | count + 1, n => digits count (n / 256) ++ [UInt8.ofNat n]

@[simp] theorem length_digits (count n : Nat) : (digits count n).length = count := by
  induction count generalizing n with
  | zero => rfl
  | succ count ih => simp [digits, ih]

theorem toNat_append_singleton (bs : Bytes) (b : UInt8) :
    toNat (bs ++ [b]) = 256 * toNat bs + b.toNat := by
  simp [toNat]

theorem digits_toNat (bs : Bytes) : digits bs.length (toNat bs) = bs := by
  induction bs using List.reverseRecOn with
  | nil => rfl
  | append_singleton bs b ih =>
      have hLt := b.toNat_lt
      have hHigh : (256 * toNat bs + b.toNat) / 256 = toNat bs := by omega
      have hLow : UInt8.ofNat (256 * toNat bs + b.toNat) = b := by
        rw [← UInt8.toNat_inj, UInt8.toNat_ofNat']
        omega
      rw [List.length_append, List.length_singleton, toNat_append_singleton, digits, hHigh, hLow,
        ih]

theorem toNat_digits {count n : Nat} (h : n < Nat.pow 256 count) : toNat (digits count n) = n := by
  induction count generalizing n with
  | zero =>
      have hZero : n = 0 := Nat.lt_one_iff.mp h
      rw [hZero]
      rfl
  | succ count ih =>
      have hHigh : n / 256 < Nat.pow 256 count := Nat.div_lt_of_lt_mul (by
        rw [Nat.mul_comm]
        exact h)
      rw [digits, toNat_append_singleton, ih hHigh, UInt8.toNat_ofNat']
      omega

theorem toNat_lt (bs : Bytes) : toNat bs < Nat.pow 256 bs.length := by
  induction bs using List.reverseRecOn with
  | nil => exact Nat.zero_lt_one
  | append_singleton bs b ih =>
      have hLt := b.toNat_lt
      have hPow : Nat.pow 256 (bs ++ [b]).length = Nat.pow 256 bs.length * 256 := by
        rw [List.length_append]
        rfl
      rw [toNat_append_singleton, hPow]
      omega

/-! Words, which are numbers of two or four bytes -/

theorem half_digits (n : UInt16) : UInt16.ofNat (toNat (digits 2 n.toNat)) = n := by
  rw [toNat_digits n.toNat_lt, UInt16.ofNat_toNat]

theorem digits_half {bs : Bytes} (h : bs.length = 2) :
    digits 2 (UInt16.ofNat (toNat bs)).toNat = bs := by
  have hLt := toNat_lt bs
  rw [h] at hLt
  have hSame : (UInt16.ofNat (toNat bs)).toNat = toNat bs := UInt16.toNat_ofNat_of_lt hLt
  rw [hSame, ← h, digits_toNat]

theorem word_digits (n : UInt32) : UInt32.ofNat (toNat (digits 4 n.toNat)) = n := by
  rw [toNat_digits n.toNat_lt, UInt32.ofNat_toNat]

theorem digits_word {bs : Bytes} (h : bs.length = 4) :
    digits 4 (UInt32.ofNat (toNat bs)).toNat = bs := by
  have hLt := toNat_lt bs
  rw [h] at hLt
  have hSame : (UInt32.ofNat (toNat bs)).toNat = toNat bs := UInt32.toNat_ofNat_of_lt hLt
  rw [hSame, ← h, digits_toNat]

end ImagePlacement.Bytes
