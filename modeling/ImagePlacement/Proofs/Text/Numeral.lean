import Mathlib.Data.List.TakeWhile

/-! Texts that end with a number. The number is read back from the last digits, so such a text
determines it. -/
namespace ImagePlacement

/-- The digits that a text ends with, the last one first. -/
def trailingDigits (text : String) : List Char := text.toList.reverse.takeWhile Char.isDigit

variable {lead ending : String} {m n : Nat}

/-- What stands before a character that is no digit does not count. -/
theorem trailingDigits_append (lead : String) (h : ending.toList.all Char.isDigit = false) :
    trailingDigits (lead ++ ending) = trailingDigits ending := by
  obtain ⟨c, hMem, hOther⟩ := List.all_eq_false.mp h
  have hStops : ¬ (ending.toList.reverse.takeWhile Char.isDigit).length =
      ending.toList.reverse.length := by
    intro hLength
    have hAll := (List.takeWhile_sublist Char.isDigit).eq_of_length hLength
    exact hOther (List.takeWhile_eq_self_iff.mp hAll c (List.mem_reverse.mpr hMem))
  rw [trailingDigits, String.toList_append, List.reverse_append, List.takeWhile_append,
    if_neg hStops]
  rfl

theorem trailingDigits_append_toString (h : trailingDigits lead = []) (n : Nat) :
    trailingDigits (lead ++ toString n) = (Nat.toDigits 10 n).reverse := by
  have hDigits : (toString n).toList = Nat.toDigits 10 n := Nat.toList_repr
  rw [trailingDigits, String.toList_append, List.reverse_append, hDigits,
    List.takeWhile_append_of_pos]
  · rw [trailingDigits] at h
    rw [h, List.append_nil]
  · intro c hMem
    exact Nat.isDigit_of_mem_toDigits (by decide) (by decide) (List.mem_reverse.mp hMem)

theorem toDigits_injective (h : Nat.toDigits 10 m = Nat.toDigits 10 n) : m = n := by
  rw [← @Nat.ofDigitChars_ten_toDigits m, h, Nat.ofDigitChars_ten_toDigits]

end ImagePlacement
