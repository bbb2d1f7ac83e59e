import ImagePlacement.Bytes
import Mathlib.Data.List.Basic

/-! Text as bytes. Different texts have different bytes, and bytes below 128 are those of the text
that shows each of them as a character. -/
namespace ImagePlacement.Bytes

theorem toList_loop (bytes : ByteArray) (i : Nat) (done : List UInt8) :
    ByteArray.toList.loop bytes i done = done.reverse ++ bytes.data.toList.drop i := by
  fun_induction ByteArray.toList.loop bytes i done with
  | case1 i done h ih =>
      have hSize : i < bytes.data.toList.length := h
      have hGet : bytes.data.toList[i] = bytes.get! i := (getElem!_pos bytes.data i h).symm
      rw [ih, List.drop_eq_getElem_cons hSize, hGet, List.reverse_cons, List.append_assoc]
      rfl
  | case2 i done h =>
      have hSize : bytes.data.toList.length ≤ i := Nat.le_of_not_lt h
      rw [List.drop_of_length_le hSize, List.append_nil]

theorem toList_eq (bytes : ByteArray) : bytes.toList = bytes.data.toList := toList_loop bytes 0 []

theorem ofText_ofList (text : List Char) :
    ofText (String.ofList text) = text.flatMap String.utf8EncodeChar := by
  rw [ofText, toList_eq]
  change (List.flatMap String.utf8EncodeChar text).toByteArray.data.toList = _
  rw [List.data_toByteArray]

theorem ofText_eq (text : String) : ofText text = text.toList.flatMap String.utf8EncodeChar := by
  rw [← ofText_ofList, String.ofList_toList]

theorem ofText_injective {first second : String} (h : ofText first = ofText second) :
    first = second := by
  rw [ofText, ofText, toList_eq, toList_eq, Array.toList_inj] at h
  exact String.toByteArray_inj.mp (ByteArray.ext h)

theorem utf8EncodeChar_ofNat {b : UInt8} (h : b < 0x80) :
    String.utf8EncodeChar (Char.ofNat b.toNat) = [b] := by
  have hLt : b.toNat < 0x80 := h
  have hValid : b.toNat.isValidChar := Or.inl (by omega)
  have hCode : (Char.ofNat b.toNat).val.toNat = b.toNat := by
    rw [Char.ofNat, dif_pos hValid]
    rfl
  simp only [String.utf8EncodeChar, hCode]
  rw [if_pos (by omega), UInt8.ofNat_toNat]

theorem ofText_toText {bs : Bytes} (h : ∀ b ∈ bs, b < 0x80) : ofText (toText bs) = bs := by
  rw [toText, ofText_ofList]
  induction bs with
  | nil => rfl
  | cons b bs ih =>
      obtain ⟨hFirst, hRest⟩ := List.forall_mem_cons.mp h
      rw [List.map_cons, List.flatMap_cons, ih hRest, utf8EncodeChar_ofNat hFirst]
      rfl

end ImagePlacement.Bytes
