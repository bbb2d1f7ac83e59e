import ImagePlacement.Jpeg.Decoder
import ImagePlacement.Proofs.Jpeg.Stream

/-! What the walk over markers makes of a stream that goes on. A verdict is final once the end of
the first scan has been read, or a frame header without pixels; all else is put down to
corruption. -/
namespace ImagePlacement.Jpeg

variable {bs rest payload : Bytes} {m : UInt8} {offset : Nat} {fault : Fault}

/-- A verdict that more bytes cannot change: an image, or one without pixels. -/
def Settled : Except Fault Header → Prop
  | .ok _ => True
  | .error (.noPixels ..) => True
  | .error _ => False

theorem toDecodeError_of_not_settled (h : ¬ Settled (.error fault)) :
    fault.toDecodeError = .corrupt .jpeg fault.message := by
  cases fault with
  | noPixels width height => exact absurd trivial h
  | _ => rfl

/-! Markers and segments -/

theorem Marker.read_append (h : read offset bs = .ok (m, rest)) (tail : Bytes) :
    read offset (bs ++ tail) = .ok (m, rest ++ tail) := by
  obtain ⟨hZero, hLead, fill, rfl⟩ := read_eq_ok_iff.mp h
  refine read_eq_ok_iff.mpr ⟨hZero, hLead, fill, ?_⟩
  rw [List.append_assoc, List.cons_append]

theorem Marker.not_settled_of_read (h : read offset bs = .error fault) :
    ¬ Settled (.error fault) := by
  unfold read at h
  split at h
  · cases h
    exact id
  · split at h
    · cases h
      exact id
    · dsimp only at h
      split at h
      · cases h
        exact id
      · split at h
        · cases h
          exact id
        · cases h

theorem Segment.read_append (h : read offset bs = .ok (payload, rest)) (tail : Bytes) :
    read offset (bs ++ tail) = .ok (payload, rest ++ tail) := by
  obtain ⟨fits, rfl⟩ := read_eq_ok_iff.mp h
  exact read_eq_ok_iff.mpr ⟨fits, List.append_assoc ..⟩

theorem Segment.not_settled_of_read (h : read offset bs = .error fault) :
    ¬ Settled (.error fault) := by
  unfold read at h
  split at h
  · cases h
    exact id
  · dsimp only at h
    split at h
    · cases h
      exact id
    · split at h
      · cases h
        exact id
      · cases h

/-! Scans -/

theorem not_settled_of_checkScan (h : checkScan offset bs = .error fault) :
    ¬ Settled (.error fault) := by
  fun_induction checkScan offset bs with
  | case1 => cases h; exact id
  | case2 offset b rest hLead ih => exact ih h
  | case3 => cases h; exact id
  | case4 offset b hLead m more hCode ih => exact ih h
  | case5 offset b hLead more _ ih => exact ih h
  | case6 offset b hLead more => cases h
  | case7 => cases h; exact id
  | case8 offset b hLead m more _ _ _ _ fault' hSegment =>
      cases h
      exact Segment.not_settled_of_read hSegment
  | case9 offset b hLead m more _ _ _ _ payload after hSegment ih => exact ih h

theorem ScanUnit.append (h : ScanUnit bs rest) (tail : Bytes) :
    ScanUnit (bs ++ tail) (rest ++ tail) := by
  cases h with
  | plain b rest h => exact .plain b _ h
  | stuffed rest => exact .stuffed _
  | restart m rest h => exact .restart m _ h
  | fill rest => exact .fill _
  | segment m payload rest code fits =>
      have hBytes : 0xFF :: m :: (Segment.bytes payload ++ rest) ++ tail =
          0xFF :: m :: (Segment.bytes payload ++ (rest ++ tail)) := by simp
      rw [hBytes]
      exact .segment m payload _ code fits

theorem Scan.append (h : Scan bs) (tail : Bytes) : Scan (bs ++ tail) := by
  induction h with
  | ending after => exact .ending (after ++ tail)
  | unit first later ih => exact .unit (first.append tail) ih

/-- Units up to the end of the image, and nothing after it. -/
inductive ClosedScan : Bytes → Prop where
  | ending : ClosedScan [0xFF, 0xD9]
  | unit {bs rest : Bytes} (first : ScanUnit bs rest) (later : ClosedScan rest) : ClosedScan bs

theorem ClosedScan.scan (h : ClosedScan bs) : Scan bs := by
  induction h with
  | ending => exact .ending []
  | unit first later ih => exact .unit first ih

theorem ScanUnit.ne_nil (h : ScanUnit bs rest) : bs ≠ [] := by
  cases h <;> simp

theorem ClosedScan.ne_nil (h : ClosedScan bs) : bs ≠ [] := by
  cases h with
  | ending => simp
  | unit first later => exact first.ne_nil

/-- A unit stands before the same bytes, however far they go on. -/
theorem ScanUnit.exists_whole {front tail : Bytes} (h : ScanUnit bs (front ++ tail))
    (hFront : front ≠ []) : ∃ whole, ScanUnit whole front ∧ bs = whole ++ tail := by
  generalize hRest : front ++ tail = rest at h
  cases h with
  | plain b rest h => exact ⟨b :: front, .plain b front h, by rw [← hRest]; rfl⟩
  | stuffed rest => exact ⟨0xFF :: 0x00 :: front, .stuffed front, by rw [← hRest]; rfl⟩
  | restart m rest h => exact ⟨0xFF :: m :: front, .restart m front h, by rw [← hRest]; rfl⟩
  | fill rest =>
      -- the second lead byte belongs to the unit and to what follows it
      cases front with
      | nil => exact absurd rfl hFront
      | cons b front =>
          obtain ⟨rfl, rfl⟩ := List.cons_eq_cons.mp hRest
          exact ⟨0xFF :: 0xFF :: front, .fill front, rfl⟩
  | segment m payload rest code fits =>
      refine ⟨0xFF :: m :: (Segment.bytes payload ++ front), .segment m payload front code fits, ?_⟩
      simp [← hRest]

theorem Scan.exists_closed (h : Scan bs) : ∃ front tail, ClosedScan front ∧ bs = front ++ tail := by
  induction h with
  | ending tail => exact ⟨[0xFF, 0xD9], tail, .ending, rfl⟩
  | unit first later ih =>
      obtain ⟨front, tail, closed, rfl⟩ := ih
      obtain ⟨whole, hFirst, rfl⟩ := first.exists_whole closed.ne_nil
      exact ⟨whole, tail, .unit hFirst closed, rfl⟩

/-! Streams -/

theorem Survey.walk_append {s : Survey} (h : Settled (s.walk offset bs)) (tail : Bytes) :
    s.walk offset (bs ++ tail) = s.walk offset bs := by
  have hPlace {bs rest : Bytes} : (bs ++ tail).length - (rest ++ tail).length =
      bs.length - rest.length := by
    rw [List.length_append, List.length_append, Nat.add_sub_add_right]
  -- a round that fails to read a marker, a segment or the scan gives no verdict
  fun_induction walk s offset bs with
  | case1 s offset bs fault hMarker => exact absurd h (Marker.not_settled_of_read hMarker)
  | case2 s offset bs m rest hMarker place hAlone ih =>
      rw [walk_of_marker (Marker.read_append hMarker tail) hAlone, hPlace]
      exact ih h
  | case3 => exact absurd h id
  | case4 => exact absurd h id
  | case5 s offset bs m rest _ place _ _ _ fault hSegment =>
      exact absurd h (Segment.not_settled_of_read hSegment)
  | case6 => exact absurd h id
  | case7 s offset bs rest place payload after _ next _ fault hScan =>
      exact absurd h (not_settled_of_checkScan hScan)
  | case8 s offset bs rest place payload after hSegment next hSize _ hScan hMarker hAlone =>
      have scan := (checkScan_eq_ok_iff.mp hScan).append tail
      rw [walk_of_segment (Marker.read_append hMarker tail) hAlone (by decide) (by decide)
        (by rw [hPlace]; exact Segment.read_append hSegment tail)]
      dsimp only
      rw [if_pos rfl, if_neg hSize, scan.checkScan_eq_ok]
  | case9 s offset bs m rest hMarker place hAlone hStart hEnding payload after hSegment hScan fault
      hAdd =>
      rw [walk_of_segment (Marker.read_append hMarker tail) hAlone hStart hEnding
        (by rw [hPlace]; exact Segment.read_append hSegment tail)]
      dsimp only
      rw [if_neg hScan, hAdd]
  | case10 s offset bs m rest hMarker place hAlone hStart hEnding payload after hSegment next hScan
      t hAdd ih =>
      rw [walk_of_segment (Marker.read_append hMarker tail) hAlone hStart hEnding
        (by rw [hPlace]; exact Segment.read_append hSegment tail)]
      dsimp only
      rw [if_neg hScan, hAdd, hPlace]
      exact ih h

theorem inspect_append (h : Settled (inspect bs)) (tail : Bytes) :
    inspect (bs ++ tail) = inspect bs := by
  unfold inspect at h ⊢
  split at h
  · rename_i a b rest
    split at h
    · rename_i hStart
      simp only [List.cons_append, if_pos hStart]
      exact Survey.walk_append h tail
    · exact absurd h id
  · exact absurd h id

/-- An image from which nothing can be cut off ends with its first scan. -/
theorem exists_closed_stream {header : Header} (h : inspect bs = .ok header)
    (hAlone : ∀ front tail, bs = front ++ tail → inspect front = .ok header → tail = []) :
    ∃ stream : Stream, stream.Describes header ∧ ClosedScan stream.scan ∧ bs = stream.bytes := by
  obtain ⟨stream, shown, rfl⟩ := exists_stream h
  obtain ⟨front, tail, closed, hScan⟩ := shown.scan.exists_closed
  have hShown : Stream.Describes { stream with scan := front } header :=
    { shown with scan := closed.scan }
  have hBytes : stream.bytes = Stream.bytes { stream with scan := front } ++ tail := by
    simp only [Stream.bytes, hScan, List.append_assoc]
  obtain rfl := hAlone _ tail hBytes hShown.inspect_eq
  rw [List.append_nil] at hScan hBytes
  refine ⟨stream, shown, ?_, rfl⟩
  rwa [hScan]

theorem decode_of_inspect (h : inspect bs = .error fault) :
    decode bs = .error fault.toDecodeError := by
  rw [decode, h]
  rfl

end ImagePlacement.Jpeg
