import ImagePlacement.Jpeg.Layout
import ImagePlacement.Proofs.Digits

/-! Markers, segments and scans as they are written. Reading takes back exactly what can be
written, wherever in a stream it stands. -/
namespace ImagePlacement.Jpeg

variable {bs rest payload : Bytes} {m : UInt8} {offset : Nat}

namespace Marker

theorem dropWhile_lead_iff : bs.dropWhile (· = lead) = m :: rest ↔
    m ≠ lead ∧ ∃ count, bs = List.replicate count lead ++ m :: rest := by
  induction bs with
  | nil =>
      constructor
      · intro h
        cases h
      · rintro ⟨_, count, h⟩
        simp at h
  | cons b bs ih =>
      by_cases hLead : b = lead
      · rw [List.dropWhile_cons_of_pos (by simpa using hLead), ih]
        refine and_congr_right fun hOther => ?_
        constructor
        · rintro ⟨count, rfl⟩
          exact ⟨count + 1, by rw [hLead, List.replicate_succ, List.cons_append]⟩
        · rintro ⟨count, h⟩
          cases count with
          | zero =>
              obtain ⟨rfl, _⟩ := List.cons_eq_cons.mp h
              exact absurd hLead hOther
          | succ count => exact ⟨count, (List.cons_eq_cons.mp h).2⟩
      · rw [List.dropWhile_cons_of_neg (by simpa using hLead)]
        constructor
        · intro h
          obtain ⟨rfl, rfl⟩ := List.cons_eq_cons.mp h
          exact ⟨hLead, 0, rfl⟩
        · rintro ⟨_, count, h⟩
          cases count with
          | zero => exact h
          | succ count => exact absurd (List.cons_eq_cons.mp h).1 hLead

/-- A marker is one lead byte or more and a code that is neither a lead byte nor zero. -/
theorem read_eq_ok_iff : read offset bs = .ok (m, rest) ↔
    m ≠ 0 ∧ m ≠ lead ∧ ∃ fill, bs = List.replicate (fill + 1) lead ++ m :: rest := by
  constructor
  · intro h
    simp only [read] at h
    split at h
    · cases h
    · rename_i b more
      split at h
      · cases h
      · rename_i hLead
        split at h
        · cases h
        · rename_i code tail hDrop
          split at h
          · cases h
          · rename_i hZero
            obtain ⟨rfl, rfl⟩ := Prod.mk.inj (Except.ok.inj h)
            obtain ⟨hOther, count, hBytes⟩ := dropWhile_lead_iff.mp hDrop
            refine ⟨hZero, hOther, ?_⟩
            cases count with
            | zero =>
                obtain ⟨rfl, _⟩ := List.cons_eq_cons.mp hBytes
                exact absurd (not_not.mp hLead) hOther
            | succ fill => exact ⟨fill, hBytes⟩
  · rintro ⟨hZero, hOther, fill, rfl⟩
    have hDrop : (List.replicate (fill + 1) lead ++ m :: rest).dropWhile (· = lead) = m :: rest :=
      dropWhile_lead_iff.mpr ⟨hOther, fill + 1, rfl⟩
    rw [List.replicate_succ, List.cons_append] at hDrop ⊢
    simp only [read, ne_eq, not_true_eq_false, if_false, hDrop, if_neg hZero]

end Marker

/-- A segment after its marker: the length, which counts its own two bytes, and the payload. -/
def Segment.bytes (payload : Bytes) : Bytes := Bytes.digits 2 (payload.length + 2) ++ payload

/-- A payload that is short enough for its length to be written. -/
def Segment.Fits (payload : Bytes) : Prop := payload.length + 2 < UInt16.size

theorem Segment.read_eq_ok_iff : Segment.read offset bs = .ok (payload, rest) ↔
    Segment.Fits payload ∧ bs = Segment.bytes payload ++ rest := by
  unfold Segment.Fits Segment.bytes
  constructor
  · intro h
    simp only [read] at h
    split at h
    · cases h
    · rename_i field tail hField
      obtain ⟨rfl, hTwo⟩ := Bytes.splitAt?_eq_some_iff.mp hField
      have hDigits := Bytes.digits_toNat field
      have hLt := Bytes.toNat_lt field
      rw [hTwo] at hDigits hLt
      split at h
      · cases h
      · rename_i hLength
        split at h
        · cases h
        · rename_i found hFound
          obtain rfl := Except.ok.inj h
          obtain ⟨rfl, hPayload⟩ := Bytes.splitAt?_eq_some_iff.mp hFound
          have hSame : payload.length + 2 = Bytes.toNat field := by omega
          rw [hSame, hDigits, List.append_assoc]
          exact ⟨hLt, rfl⟩
  · rintro ⟨hFits, rfl⟩
    have hField : Bytes.splitAt? 2 (Bytes.digits 2 (payload.length + 2) ++ payload ++ rest) =
        some (Bytes.digits 2 (payload.length + 2), payload ++ rest) :=
      Bytes.splitAt?_eq_some_iff.mpr ⟨List.append_assoc .., Bytes.length_digits ..⟩
    have hPayload : Bytes.splitAt? payload.length (payload ++ rest) = some (payload, rest) :=
      Bytes.splitAt?_eq_some_iff.mpr ⟨rfl, rfl⟩
    have hLength : Bytes.toNat (Bytes.digits 2 (payload.length + 2)) = payload.length + 2 :=
      Bytes.toNat_digits hFits
    have hTwo : ¬ payload.length + 2 < 2 := by omega
    simp only [read, hField, hLength, if_neg hTwo, Nat.add_sub_cancel, hPayload]

/-! Inside a scan -/

/-- A code that a length follows in a scan: neither stuffing nor a restart, neither the start nor
the end of an image, and no lead byte. -/
def Marker.HasLength (m : UInt8) : Prop :=
  m ≠ 0x00 ∧ ¬ (0xD0 ≤ m ∧ m ≤ 0xD7) ∧ m ≠ 0xD8 ∧ m ≠ 0xD9 ∧ m ≠ 0xFF

/-- What a scan is made of, each unit with the bytes after it. -/
inductive ScanUnit : Bytes → Bytes → Prop where
  | plain (b : UInt8) (rest : Bytes) (h : b ≠ 0xFF) : ScanUnit (b :: rest) rest
  | stuffed (rest : Bytes) : ScanUnit (0xFF :: 0x00 :: rest) rest
  | restart (m : UInt8) (rest : Bytes) (h : 0xD0 ≤ m ∧ m ≤ 0xD7) : ScanUnit (0xFF :: m :: rest) rest
  /-- A lead byte before another one. -/
  | fill (rest : Bytes) : ScanUnit (0xFF :: 0xFF :: rest) (0xFF :: rest)
  | segment (m : UInt8) (payload rest : Bytes) (code : Marker.HasLength m)
      (fits : Segment.Fits payload) : ScanUnit (0xFF :: m :: (Segment.bytes payload ++ rest)) rest

/-- Units up to the end of the image, and anything after it. -/
inductive Scan : Bytes → Prop where
  | ending (tail : Bytes) : Scan (0xFF :: 0xD9 :: tail)
  | unit {bs rest : Bytes} (first : ScanUnit bs rest) (later : Scan rest) : Scan bs

theorem Marker.isRestart_iff : Marker.isRestart m = true ↔ 0xD0 ≤ m ∧ m ≤ 0xD7 := by
  simp [Marker.isRestart]

theorem scan_of_checkScan (h : checkScan offset bs = .ok ()) : Scan bs := by
  fun_induction checkScan offset bs with
  | case1 => cases h
  | case2 offset b rest hLead ih => exact .unit (.plain b rest hLead) (ih h)
  | case3 => cases h
  | case4 offset b hLead m more hCode ih =>
      obtain rfl : b = 0xFF := not_not.mp hLead
      rcases hCode with rfl | hRestart
      · exact .unit (.stuffed more) (ih h)
      · exact .unit (.restart m more (Marker.isRestart_iff.mp hRestart)) (ih h)
  | case5 offset b hLead more _ ih =>
      obtain rfl : b = 0xFF := not_not.mp hLead
      exact .unit (.fill more) (ih h)
  | case6 offset b hLead more =>
      obtain rfl : b = 0xFF := not_not.mp hLead
      exact .ending more
  | case7 => cases h
  | case8 => cases h
  | case9 offset b hLead m more hCode hOther hEnding hStart payload after hSegment ih =>
      obtain rfl : b = 0xFF := not_not.mp hLead
      obtain ⟨fits, rfl⟩ := Segment.read_eq_ok_iff.mp hSegment
      rw [not_or, Marker.isRestart_iff] at hCode
      exact .unit (.segment m payload after ⟨hCode.1, hCode.2, hStart, hEnding, hOther⟩ fits) (ih h)

theorem checkScan_of_ne {b : UInt8} (h : b ≠ Marker.lead) (rest : Bytes) :
    checkScan offset (b :: rest) = checkScan (offset + 1) rest := by
  rw [checkScan.eq_def]
  exact if_pos h

theorem checkScan_lead (m : UInt8) (more : Bytes) :
    checkScan offset (Marker.lead :: m :: more) =
      if m = 0 ∨ Marker.isRestart m then checkScan (offset + 2) more
      else if m = Marker.lead then checkScan (offset + 1) (m :: more)
      else if m = Marker.ending then .ok ()
      else if m = Marker.start then .error (.repeatedStart offset)
      else
        match Segment.read (offset + 2) more with
        | .error fault => .error fault
        | .ok (payload, after) => checkScan (offset + 4 + payload.length) after := by
  rw [checkScan.eq_def]
  dsimp only
  rw [if_neg (not_not.mpr rfl)]
  -- the recursion is on what a segment leaves, so the two matches are not the same
  refine if_congr Iff.rfl rfl ?_
  refine if_congr Iff.rfl rfl (if_congr Iff.rfl rfl (if_congr Iff.rfl rfl ?_))
  split
  · rename_i hSegment
    exact hSegment ▸ rfl
  · rename_i hSegment
    exact hSegment ▸ rfl

/-- A check of a scan takes one unit in one round. -/
theorem ScanUnit.checkScan_eq (unit : ScanUnit bs rest) (offset : Nat) :
    ∃ next, checkScan offset bs = checkScan next rest := by
  cases unit with
  | plain b rest h => exact ⟨offset + 1, checkScan_of_ne h rest⟩
  | stuffed rest => exact ⟨offset + 2, checkScan_lead 0x00 rest⟩
  | restart m rest h =>
      have hCode : m = 0 ∨ Marker.isRestart m = true := Or.inr (Marker.isRestart_iff.mpr h)
      exact ⟨offset + 2, (checkScan_lead m rest).trans (if_pos hCode)⟩
  | fill rest => exact ⟨offset + 1, checkScan_lead 0xFF rest⟩
  | segment m payload rest code fits =>
      obtain ⟨hZero, hRestart, hStart, hEnding, hLead⟩ := code
      have hCode : ¬ (m = 0 ∨ Marker.isRestart m = true) := by
        rw [Marker.isRestart_iff]
        exact not_or.mpr ⟨hZero, hRestart⟩
      have hSegment : Segment.read (offset + 2) (Segment.bytes payload ++ rest) =
          .ok (payload, rest) := Segment.read_eq_ok_iff.mpr ⟨fits, rfl⟩
      have hUnit := @checkScan_lead offset m (Segment.bytes payload ++ rest)
      rw [if_neg hCode, if_neg (show m ≠ Marker.lead from hLead),
        if_neg (show m ≠ Marker.ending from hEnding), if_neg (show m ≠ Marker.start from hStart),
        hSegment] at hUnit
      exact ⟨offset + 4 + payload.length, hUnit⟩

theorem Scan.checkScan_eq_ok (scan : Scan bs) (offset : Nat) : checkScan offset bs = .ok () := by
  induction scan generalizing offset with
  | ending tail =>
      rw [checkScan.eq_def]
      rfl
  | unit first later ih =>
      obtain ⟨next, hNext⟩ := first.checkScan_eq offset
      rw [hNext]
      exact ih next

theorem checkScan_eq_ok_iff : checkScan offset bs = .ok () ↔ Scan bs :=
  ⟨scan_of_checkScan, fun scan => scan.checkScan_eq_ok offset⟩

end ImagePlacement.Jpeg
