import ImagePlacement.Png.Decoder
import ImagePlacement.Proofs.Png.Datastream

/-! What the walk over chunks makes of a stream that goes on. A verdict is final once the ending has
been read, or a header without pixels; all else is put down to corruption. -/
namespace ImagePlacement.Png

variable {bs rest : Bytes} {c : Chunk} {fault : Fault}

/-- A verdict that more bytes cannot change: an image, or one without pixels. -/
def Settled : Except Fault Header → Prop
  | .ok _ => True
  | .error (.noPixels _) => True
  | .error _ => False

theorem toDecodeError_of_not_settled (h : ¬ Settled (.error fault)) :
    fault.toDecodeError = .corrupt .png fault.message := by
  cases fault with
  | noPixels size => exact absurd trivial h
  | _ => rfl

theorem Chunk.read_append (h : read bs = .ok (c, rest)) (tail : Bytes) :
    read (bs ++ tail) = .ok (c, rest ++ tail) := by
  obtain ⟨proper, rfl⟩ := read_eq_ok_iff.mp h
  exact read_eq_ok_iff.mpr ⟨proper, List.append_assoc ..⟩

theorem Survey.walk_append {s : Survey} {offset : Nat} (h : Settled (s.walk offset bs))
    (tail : Bytes) : s.walk offset (bs ++ tail) = s.walk offset bs := by
  -- a chunk that is read is read again before a longer rest, so only the first two rounds differ
  fun_induction walk s offset bs with
  | case1 => exact absurd h id
  | case2 => exact absurd h id
  | case3 s offset bs _ c rest hRead fault hAdd =>
      rw [walk_of_read (Chunk.read_append hRead tail), hAdd]
  | case4 s offset bs _ c rest hRead t hAdd hEnding =>
      rw [walk_of_read (Chunk.read_append hRead tail), hAdd]
      exact if_pos hEnding
  | case5 s offset bs _ c rest hRead t hAdd hEnding ih =>
      rw [walk_of_read (Chunk.read_append hRead tail), hAdd]
      exact (if_neg hEnding).trans (ih h)

theorem inspect_append (h : Settled (inspect bs)) (tail : Bytes) :
    inspect (bs ++ tail) = inspect bs := by
  unfold inspect at h ⊢
  split at h
  · rename_i hSignature
    obtain ⟨rest, rfl⟩ := List.isPrefixOf_iff_prefix.mp hSignature
    have hLonger : signature.isPrefixOf (signature ++ rest ++ tail) = true := by
      rw [List.append_assoc]
      exact List.isPrefixOf_iff_prefix.mpr (List.prefix_append ..)
    rw [List.drop_left] at h
    rw [if_pos hLonger, if_pos hSignature, List.append_assoc, List.drop_left, List.drop_left]
    exact Survey.walk_append h tail
  · exact absurd h id

/-- An image from which nothing can be cut off is made of its chunks alone. -/
theorem exists_datastream_eq {header : Header} (h : inspect bs = .ok header)
    (hAlone : ∀ front tail, bs = front ++ tail → inspect front = .ok header → tail = []) :
    ∃ stream : Datastream, stream.Describes header ∧ bs = stream.bytes := by
  obtain ⟨stream, tail, shown, rfl⟩ := exists_datastream h
  have hFront : inspect stream.bytes = .ok header := by
    rw [← List.append_nil stream.bytes]
    exact shown.inspect_eq []
  refine ⟨stream, shown, ?_⟩
  rw [hAlone _ tail rfl hFront, List.append_nil]

theorem decode_of_inspect (h : inspect bs = .error fault) :
    decode bs = .error fault.toDecodeError := by
  rw [decode, h]
  rfl

end ImagePlacement.Png
