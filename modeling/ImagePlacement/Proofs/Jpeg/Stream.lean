import ImagePlacement.Proofs.Jpeg.Segment

/-! The streams that pass for images: the start of an image, markers and segments with one frame
header among them, the first scan, and whatever it takes to the end of the image. -/
namespace ImagePlacement.Jpeg

variable {bs rest payload : Bytes} {d : Density} {header : Header}

/-! What the payloads of single segments say -/

/-- A number of two bytes, however it is computed. -/
theorem half_eq (high low : UInt8) : UInt16.ofNat (256 * high.toNat + low.toNat) =
    UInt16.ofNat (Bytes.toNat [high, low]) := by
  simp [Bytes.toNat]

theorem exists_digits_half (n : UInt16) : ∃ high low, Bytes.digits 2 n.toNat = [high, low] ∧
    UInt16.ofNat (Bytes.toNat [high, low]) = n :=
  ⟨UInt8.ofNat (n.toNat / 256), UInt8.ofNat n.toNat, rfl, Bytes.half_digits n⟩

theorem frameSize_eq (precision h₁ h₀ w₁ w₀ components : UInt8) (rest : Bytes) :
    frameSize (precision :: h₁ :: h₀ :: w₁ :: w₀ :: components :: rest) =
      let width := UInt16.ofNat (Bytes.toNat [w₁, w₀])
      let height := UInt16.ofNat (Bytes.toNat [h₁, h₀])
      if width = 0 ∨ height = 0 then .error (.noPixels width height) else .ok (width, height) := by
  rw [← half_eq, ← half_eq]
  rfl

/-- A frame header gives a size: after the precision two numbers that are not zero, the height
first, and something after them. -/
theorem frameSize_eq_ok_iff {width height : UInt16} : frameSize payload = .ok (width, height) ↔
    width ≠ 0 ∧ height ≠ 0 ∧ ∃ precision components rest, payload = precision ::
      (Bytes.digits 2 height.toNat ++ Bytes.digits 2 width.toNat ++ components :: rest) := by
  constructor
  · intro h
    match payload with
    | precision :: h₁ :: h₀ :: w₁ :: w₀ :: components :: rest =>
        rw [frameSize_eq] at h
        dsimp only at h
        split at h
        · cases h
        · rename_i hPixels
          obtain ⟨rfl, rfl⟩ := Prod.mk.inj (Except.ok.inj h)
          rw [not_or] at hPixels
          refine ⟨hPixels.1, hPixels.2, precision, components, rest, ?_⟩
          rw [Bytes.digits_half rfl, Bytes.digits_half rfl]
          rfl
    | [] | [_] | [_, _] | [_, _, _] | [_, _, _, _] | [_, _, _, _, _] => cases h
  · rintro ⟨hWidth, hHeight, precision, components, rest, rfl⟩
    obtain ⟨h₁, h₀, hDigits, hHigh⟩ := exists_digits_half height
    obtain ⟨w₁, w₀, wDigits, hWide⟩ := exists_digits_half width
    rw [hDigits, wDigits]
    change frameSize (precision :: h₁ :: h₀ :: w₁ :: w₀ :: components :: rest) = _
    rw [frameSize_eq, hHigh, hWide]
    exact if_neg (not_or.mpr ⟨hWidth, hHeight⟩)

theorem declaredDensity?_eq (v₁ v₀ unit x₁ x₀ y₁ y₀ : UInt8) (rest : Bytes) :
    declaredDensity? (densityMark ++ v₁ :: v₀ :: unit :: x₁ :: x₀ :: y₁ :: y₀ :: rest) =
      let x := UInt16.ofNat (Bytes.toNat [x₁, x₀])
      let y := UInt16.ofNat (Bytes.toNat [y₁, y₀])
      if x = 0 ∨ y = 0 then none
      else if unit = 1 then some ⟨x.toFloat, y.toFloat⟩
      else if unit = 2 then some ⟨x.toFloat * inch, y.toFloat * inch⟩
      else none := by
  rw [← half_eq, ← half_eq]
  rfl

/-- Only payloads with enough bytes after the mark give a density. -/
theorem exists_of_declaredDensity? (h : declaredDensity? payload = some d) :
    ∃ v₁ v₀ unit x₁ x₀ y₁ y₀ rest,
      payload = densityMark ++ v₁ :: v₀ :: unit :: x₁ :: x₀ :: y₁ :: y₀ :: rest := by
  unfold declaredDensity? at h
  split at h
  · rename_i unit x₁ x₀ y₁ y₀ rest hMark hDrop
    obtain ⟨after, rfl⟩ := List.isPrefixOf_iff_prefix.mp hMark
    match after with
    | v₁ :: v₀ :: after =>
        obtain rfl : after = unit :: x₁ :: x₀ :: y₁ :: y₀ :: rest := hDrop
        exact ⟨v₁, v₀, unit, x₁, x₀, y₁, y₀, rest, rfl⟩
    | [] | [_] => cases hDrop
  · cases h

/-- A payload gives a density: the mark, a version, the unit, and two numbers that are not zero, in
dots per inch or per centimetre. -/
def GivesDensity (payload : Bytes) (d : Density) : Prop :=
  ∃ version unit, ∃ x y : UInt16, ∃ rest, version.length = 2 ∧ x ≠ 0 ∧ y ≠ 0 ∧
    payload = [0x4A, 0x46, 0x49, 0x46, 0x00] ++ version ++
      unit :: (Bytes.digits 2 x.toNat ++ Bytes.digits 2 y.toNat ++ rest) ∧
    (unit = 1 ∧ d = ⟨x.toFloat, y.toFloat⟩ ∨
      unit = 2 ∧ d = ⟨x.toFloat * 2.54, y.toFloat * 2.54⟩)

theorem declaredDensity?_eq_some_iff :
    declaredDensity? payload = some d ↔ GivesDensity payload d := by
  constructor
  · intro h
    obtain ⟨v₁, v₀, unit, x₁, x₀, y₁, y₀, rest, rfl⟩ := exists_of_declaredDensity? h
    rw [declaredDensity?_eq] at h
    dsimp only at h
    split at h
    · cases h
    · rename_i hPositive
      rw [not_or] at hPositive
      refine ⟨[v₁, v₀], unit, _, _, rest, rfl, hPositive.1, hPositive.2, ?_, ?_⟩
      · rw [Bytes.digits_half rfl, Bytes.digits_half rfl]
        rfl
      · split at h
        · rename_i hUnit
          exact Or.inl ⟨hUnit, (Option.some.inj h).symm⟩
        · split at h
          · rename_i hUnit
            exact Or.inr ⟨hUnit, (Option.some.inj h).symm⟩
          · cases h
  · rintro ⟨version, unit, x, y, rest, hVersion, hX, hY, rfl, hUnit⟩
    obtain ⟨x₁, x₀, xDigits, hWide⟩ := exists_digits_half x
    obtain ⟨y₁, y₀, yDigits, hHigh⟩ := exists_digits_half y
    match version with
    | [v₁, v₀] =>
        rw [xDigits, yDigits]
        change declaredDensity?
          (densityMark ++ v₁ :: v₀ :: unit :: x₁ :: x₀ :: y₁ :: y₀ :: rest) = _
        rw [declaredDensity?_eq, hWide, hHigh]
        dsimp only
        rw [if_neg (not_or.mpr ⟨hX, hY⟩)]
        rcases hUnit with ⟨rfl, rfl⟩ | ⟨rfl, rfl⟩
        · rfl
        · rfl

/-! What stands before the first scan -/

/-- A marker or a segment. Any number of lead bytes may stand before its code, besides the one that
must. -/
inductive Item where
  | marker (fill : Nat) (code : UInt8)
  | segment (fill : Nat) (code : UInt8) (payload : Bytes)

namespace Item

def code : Item → UInt8
  | marker _ code => code
  | segment _ code _ => code

def bytes : Item → Bytes
  | marker fill code => List.replicate (fill + 1) 0xFF ++ [code]
  | segment fill code payload => List.replicate (fill + 1) 0xFF ++ code :: Segment.bytes payload

/-- An item that may stand in a stream: a marker without a length, or a segment with one. Neither
the start nor the end of an image may. -/
def IsProper : Item → Prop
  | marker _ code => code = 0x01 ∨ 0xD0 ≤ code ∧ code ≤ 0xD7
  | segment _ code payload => code ≠ 0x01 ∧ Marker.HasLength code ∧ Segment.Fits payload

/-- The payload of a frame header. -/
def frame? : Item → Option Bytes
  | marker .. => none
  | segment _ code payload => if Marker.isFrame code then some payload else none

/-- An application segment gives a density. -/
def Declares : Item → Density → Prop
  | marker .., _ => False
  | segment _ code payload, d => code = Marker.application ∧ GivesDensity payload d

/-- The density that an item gives, if it is one that does. -/
def density? : Item → Option Density
  | marker .. => none
  | segment _ code payload =>
    if code = Marker.application then declaredDensity? payload else none

theorem density?_eq_some_iff {item : Item} : item.density? = some d ↔ item.Declares d := by
  cases item with
  | marker fill code => exact ⟨nofun, nofun⟩
  | segment fill code payload =>
      simp only [density?, Declares]
      split
      · rename_i hCode
        rw [declaredDensity?_eq_some_iff, and_iff_right hCode]
      · rename_i hCode
        exact ⟨nofun, fun h => absurd h.1 hCode⟩

theorem density?_eq_none_iff {item : Item} : item.density? = none ↔ ∀ d, ¬ item.Declares d := by
  simp only [Option.eq_none_iff_forall_ne_some, ne_eq, density?_eq_some_iff]

end Item

/-- The density that items give is that of the first one that gives any. -/
def FirstDensity (items : List Item) : Option Density → Prop
  | none => ∀ item ∈ items, ∀ d, ¬ item.Declares d
  | some d => ∃ before item after, items = before ++ item :: after ∧ item.Declares d ∧
      ∀ other ∈ before, ∀ d', ¬ other.Declares d'

theorem firstDensity_iff {items : List Item} {found : Option Density} :
    FirstDensity items found ↔ items.findSome? Item.density? = found := by
  cases found with
  | none => simp only [FirstDensity, List.findSome?_eq_none_iff, Item.density?_eq_none_iff]
  | some d =>
      simp only [FirstDensity, List.findSome?_eq_some_iff, Item.density?_eq_some_iff,
        Item.density?_eq_none_iff]

/-! The walk over the items -/

namespace Survey

variable {s t : Survey} {item : Item} {offset : Nat}

/-- What is known after one more item. -/
def Adds (s : Survey) (item : Item) (t : Survey) : Prop :=
  match item with
  | .marker .. => t = s
  | .segment _ code payload => ∃ offset, s.add offset code payload = .ok t

/-- A size that is known, or the one frame header of which it is not, come to a size. -/
def Settles : Option (UInt16 × UInt16) → List Bytes → UInt16 × UInt16 → Prop
  | some known, frames, size => frames = [] ∧ known = size
  | none, frames, size => ∃ frame, frames = [frame] ∧ frameSize frame = .ok size

theorem settles_cons {known : Option (UInt16 × UInt16)} {frames : List Bytes}
    {size : UInt16 × UInt16} : Settles known (payload :: frames) size ↔
      known = none ∧ ∃ found, frameSize payload = .ok found ∧ Settles (some found) frames size := by
  cases known with
  | some known => simp [Settles]
  | none =>
      simp only [Settles, List.cons_eq_cons, true_and]
      constructor
      · rintro ⟨_, ⟨rfl, rfl⟩, hSize⟩
        exact ⟨size, hSize, rfl, rfl⟩
      · rintro ⟨_, hSize, rfl, rfl⟩
        exact ⟨payload, ⟨rfl, rfl⟩, hSize⟩

/-- What is known and what items say make up a header: there is one frame header in all, and the
first density counts. -/
def Completes (s : Survey) (items : List Item) (header : Header) : Prop :=
  Settles s.size (items.filterMap Item.frame?) (header.width, header.height) ∧
    header.density = s.density.or (items.findSome? Item.density?)

theorem completes_nil : s.Completes [] header ↔ s.finish = .ok header := by
  obtain ⟨size, density⟩ := s
  obtain ⟨width, height, declared⟩ := header
  cases size with
  | none => simp [Completes, Settles, finish]
  | some size => simp [Completes, Settles, finish, Prod.ext_iff, eq_comm, and_assoc]

theorem add_of_frame {m : UInt8} (hFrame : Marker.isFrame m = true) :
    s.add offset m payload = .ok t ↔ s.size = none ∧ ∃ size, frameSize payload = .ok size ∧
      t = { s with size := some size } := by
  rw [add, if_pos hFrame]
  cases hSize : s.size with
  | some size => simp
  | none =>
      cases frameSize payload with
      | error fault => simp [bind, Except.bind]
      | ok size => simp [bind, Except.bind, pure, Except.pure, eq_comm]

theorem add_of_other {m : UInt8} (hFrame : ¬ Marker.isFrame m = true) (fill : Nat) :
    s.add offset m payload =
      .ok { s with density := s.density.or (Item.segment fill m payload).density? } := by
  rw [add, if_neg hFrame, Item.density?]
  split
  · rfl
  · rw [Option.or_none]

/-- Where a segment stands counts for nothing but the message of a fault. -/
theorem add_of_add {m : UInt8} {other : Nat} (h : s.add other m payload = .ok t) :
    s.add offset m payload = .ok t := by
  by_cases hFrame : Marker.isFrame m = true
  · rwa [add_of_frame hFrame] at h ⊢
  · rwa [add_of_other hFrame 0] at h ⊢

/-- A frame header gives no density. -/
theorem density?_of_frame {m : UInt8} (hFrame : Marker.isFrame m = true) (fill : Nat)
    (payload : Bytes) : (Item.segment fill m payload).density? = none := by
  refine if_neg ?_
  rintro rfl
  cases hFrame

/-- What items say is the same, whether the first of them is counted before or after. -/
theorem completes_cons {items : List Item} :
    s.Completes (item :: items) header ↔ ∃ t, s.Adds item t ∧ t.Completes items header := by
  cases item with
  | marker fill code =>
      simp only [Completes, Adds, exists_eq_left]
      rfl
  | segment fill m payload =>
      by_cases hFrame : Marker.isFrame m = true
      · have hFirst : (Item.segment fill m payload).frame? = some payload := if_pos hFrame
        simp only [Completes, Adds, add_of_frame hFrame, List.filterMap_cons_some hFirst,
          List.findSome?_cons, density?_of_frame hFrame, settles_cons]
        constructor
        · rintro ⟨⟨hNone, size, hSize, hSettles⟩, hDensity⟩
          exact ⟨_, ⟨0, hNone, size, hSize, rfl⟩, hSettles, hDensity⟩
        · rintro ⟨t, ⟨_, hNone, size, hSize, rfl⟩, hSettles, hDensity⟩
          exact ⟨⟨hNone, size, hSize, hSettles⟩, hDensity⟩
      · have hFirst : (Item.segment fill m payload).frame? = none := if_neg hFrame
        simp only [Completes, Adds, add_of_other hFrame fill, List.filterMap_cons_none hFirst,
          List.findSome?_cons, Except.ok.injEq, exists_const, exists_eq_left', Option.or_assoc]
        cases (Item.segment fill m payload).density? with
        | none => rw [Option.none_or]
        | some d => rfl

theorem isStandalone_iff {m : UInt8} :
    Marker.isStandalone m = true ↔ m = 0x01 ∨ 0xD0 ≤ m ∧ m ≤ 0xD7 := by
  simp [Marker.isStandalone, Marker.isRestart_iff]

/-- A walk that comes to an end starts with an item. -/
theorem exists_item_of_walk (h : s.walk offset bs = .ok header) :
    ∃ item : Item, ∃ rest, item.IsProper ∧ bs = item.bytes ++ rest := by
  rw [walk] at h
  split at h
  · cases h
  · rename_i m rest hMarker
    obtain ⟨hZero, hLead, fill, rfl⟩ := Marker.read_eq_ok_iff.mp hMarker
    dsimp only at h
    split at h
    · rename_i hAlone
      refine ⟨.marker fill m, rest, isStandalone_iff.mp hAlone, ?_⟩
      simp only [Item.bytes, List.append_assoc]
      rfl
    · rename_i hAlone
      rw [isStandalone_iff, not_or] at hAlone
      split at h
      · cases h
      · rename_i hStart
        split at h
        · cases h
        · rename_i hEnding
          split at h
          · cases h
          · rename_i payload after hSegment
            obtain ⟨fits, rfl⟩ := Segment.read_eq_ok_iff.mp hSegment
            refine ⟨.segment fill m payload, after,
              ⟨hAlone.1, ⟨hZero, hAlone.2, hStart, hEnding, hLead⟩, fits⟩, ?_⟩
            simp only [Item.bytes, List.append_assoc]
            rfl

/-! One round of the walk, by what it reads -/

theorem walk_of_read_error {fault : Fault} (h : Marker.read offset bs = .error fault) :
    s.walk offset bs = .error fault := by
  rw [walk]
  split
  · rename_i other hOther
    rw [h] at hOther
    rw [Except.error.inj hOther]
  · rename_i hFound
    rw [h] at hFound
    cases hFound

theorem walk_of_read {m : UInt8} (h : Marker.read offset bs = .ok (m, rest)) : s.walk offset bs =
    let place := offset + (bs.length - rest.length)
    if Marker.isStandalone m then s.walk place rest
    else if m = Marker.start then .error (.repeatedStart offset)
    else if m = Marker.ending then .error .endBeforeScan
    else
      match Segment.read place rest with
      | .error fault => .error fault
      | .ok (payload, after) =>
        let next := place + 2 + payload.length
        if m = Marker.scan then
          if s.size.isNone then .error .scanBeforeFrame
          else
            match checkScan next after with
            | .error fault => .error fault
            | .ok _ => s.finish
        else
          match s.add offset m payload with
          | .error fault => .error fault
          | .ok s => s.walk next after := by
  rw [walk]
  split
  · rename_i hFault
    rw [h] at hFault
    cases hFault
  · rename_i hFound
    rw [h] at hFound
    obtain ⟨rfl, rfl⟩ := Prod.mk.inj (Except.ok.inj hFound)
    dsimp only
    refine if_congr Iff.rfl rfl (if_congr Iff.rfl rfl (if_congr Iff.rfl rfl ?_))
    split
    · rename_i hSegment
      exact hSegment ▸ rfl
    · rename_i hSegment
      exact hSegment ▸ rfl

theorem walk_of_marker {m : UInt8} (hMarker : Marker.read offset bs = .ok (m, rest))
    (hAlone : Marker.isStandalone m = true) :
    s.walk offset bs = s.walk (offset + (bs.length - rest.length)) rest := by
  rw [walk_of_read hMarker]
  exact if_pos hAlone

theorem walk_of_segment {m : UInt8} {after : Bytes}
    (hMarker : Marker.read offset bs = .ok (m, rest)) (hAlone : ¬ Marker.isStandalone m = true)
    (hStart : m ≠ Marker.start) (hEnding : m ≠ Marker.ending)
    (hSegment : Segment.read (offset + (bs.length - rest.length)) rest = .ok (payload, after)) :
    s.walk offset bs =
      let next := offset + (bs.length - rest.length) + 2 + payload.length
      if m = Marker.scan then
        if s.size.isNone then .error .scanBeforeFrame
        else
          match checkScan next after with
          | .error fault => .error fault
          | .ok _ => s.finish
      else
        match s.add offset m payload with
        | .error fault => .error fault
        | .ok s => s.walk next after := by
  rw [walk_of_read hMarker]
  dsimp only
  rw [if_neg hAlone, if_neg hStart, if_neg hEnding, hSegment]

theorem walk_marker {fill : Nat} {m : UInt8} (proper : (Item.marker fill m).IsProper) :
    s.walk offset ((Item.marker fill m).bytes ++ rest) =
      s.walk (offset + (Item.marker fill m).bytes.length) rest := by
  have hCode : m = 0x01 ∨ 0xD0 ≤ m ∧ m ≤ 0xD7 := proper
  have hMarker : Marker.read offset ((Item.marker fill m).bytes ++ rest) = .ok (m, rest) := by
    refine Marker.read_eq_ok_iff.mpr ⟨?_, ?_, fill, ?_⟩
    · rintro rfl
      exact absurd hCode (by decide)
    · rintro rfl
      exact absurd hCode (by decide)
    · simp only [Item.bytes, List.append_assoc]
      rfl
  rw [walk_of_marker hMarker (isStandalone_iff.mpr proper), List.length_append,
    Nat.add_sub_cancel]

theorem walk_segment {fill : Nat} {m : UInt8} (proper : (Item.segment fill m payload).IsProper) :
    s.walk offset ((Item.segment fill m payload).bytes ++ rest) =
      let next := offset + (Item.segment fill m payload).bytes.length
      if m = Marker.scan then
        if s.size.isNone then .error .scanBeforeFrame
        else
          match checkScan next rest with
          | .error fault => .error fault
          | .ok _ => s.finish
      else
        match s.add offset m payload with
        | .error fault => .error fault
        | .ok s => s.walk next rest := by
  obtain ⟨hOne, ⟨hZero, hRestart, hStart, hEnding, hLead⟩, fits⟩ := proper
  have hBytes : (Item.segment fill m payload).bytes ++ rest =
      List.replicate (fill + 1) Marker.lead ++ m :: (Segment.bytes payload ++ rest) := by
    simp only [Item.bytes, List.append_assoc]
    rfl
  have hMarker : Marker.read offset ((Item.segment fill m payload).bytes ++ rest) =
      .ok (m, Segment.bytes payload ++ rest) :=
    Marker.read_eq_ok_iff.mpr ⟨hZero, hLead, fill, hBytes⟩
  have hAlone : ¬ Marker.isStandalone m = true := by
    rw [isStandalone_iff]
    exact not_or.mpr ⟨hOne, hRestart⟩
  have hNext : offset + (((Item.segment fill m payload).bytes ++ rest).length -
      (Segment.bytes payload ++ rest).length) + 2 + payload.length =
        offset + (Item.segment fill m payload).bytes.length := by
    simp only [Item.bytes, Segment.bytes, List.length_append, List.length_cons,
      List.length_replicate, Bytes.length_digits]
    omega
  rw [walk_of_segment hMarker hAlone hStart hEnding (Segment.read_eq_ok_iff.mpr ⟨fits, rfl⟩),
    hNext]

/-- An item with the code of a scan is a segment. -/
theorem eq_segment_of_scan (proper : item.IsProper) (hScan : item.code = Marker.scan) :
    ∃ fill payload, item = .segment fill Marker.scan payload ∧ Segment.Fits payload := by
  cases item with
  | marker fill m =>
      obtain rfl : m = Marker.scan := hScan
      have hCode : Marker.scan = 0x01 ∨ 0xD0 ≤ Marker.scan ∧ Marker.scan ≤ 0xD7 := proper
      exact absurd hCode (by decide)
  | segment fill m payload =>
      obtain rfl : m = Marker.scan := hScan
      exact ⟨fill, payload, rfl, proper.2.2⟩

theorem isProper_scan {fill : Nat} (fits : Segment.Fits payload) :
    (Item.segment fill Marker.scan payload).IsProper := by
  have hLength : Marker.HasLength Marker.scan := by
    unfold Marker.HasLength
    decide
  exact ⟨by decide, hLength, fits⟩

/-- At the first scan the walk ends. -/
theorem walk_scan_eq_ok_iff {fill : Nat} (fits : Segment.Fits payload) :
    s.walk offset ((Item.segment fill Marker.scan payload).bytes ++ rest) = .ok header ↔
      Scan rest ∧ s.finish = .ok header := by
  rw [walk_segment (isProper_scan fits)]
  dsimp only
  rw [if_pos rfl]
  cases hSize : s.size with
  | none => simp [finish, hSize]
  | some size =>
      rw [if_neg (by simp)]
      cases hScan : checkScan (offset + (Item.segment fill Marker.scan payload).bytes.length) rest with
      | error fault =>
          have hNone : ¬ Scan rest := by
            intro scan
            rw [scan.checkScan_eq_ok] at hScan
            cases hScan
          exact ⟨nofun, fun h => absurd h.1 hNone⟩
      | ok _ => rw [and_iff_right (checkScan_eq_ok_iff.mp hScan)]

/-- Before the first scan the walk takes one item in one round. -/
theorem walk_item_eq_ok_iff (proper : item.IsProper) (hOther : item.code ≠ Marker.scan) :
    s.walk offset (item.bytes ++ rest) = .ok header ↔
      ∃ t, s.Adds item t ∧ t.walk (offset + item.bytes.length) rest = .ok header := by
  cases item with
  | marker fill m => simp only [walk_marker proper, Adds, exists_eq_left]
  | segment fill m payload =>
      rw [walk_segment proper]
      dsimp only
      rw [if_neg (show m ≠ Marker.scan from hOther)]
      constructor
      · intro h
        cases hAdd : s.add offset m payload with
        | error fault =>
            rw [hAdd] at h
            cases h
        | ok t =>
            rw [hAdd] at h
            exact ⟨t, ⟨offset, hAdd⟩, h⟩
      · rintro ⟨t, ⟨other, hAdd⟩, h⟩
        rw [add_of_add hAdd]
        exact h

theorem length_bytes_pos (item : Item) : 0 < item.bytes.length := by
  cases item with
  | marker fill m => simp [Item.bytes]
  | segment fill m payload =>
      simp only [Item.bytes, List.length_append, List.length_replicate]
      omega

/-- The walk takes items up to the first scan, and then the scan. -/
theorem walk_eq_ok_iff : s.walk offset bs = .ok header ↔
    ∃ items fill payload rest, (∀ item ∈ items, item.IsProper ∧ item.code ≠ Marker.scan) ∧
      Segment.Fits payload ∧ s.Completes items header ∧ Scan rest ∧
      bs = items.flatMap Item.bytes ++ (Item.segment fill Marker.scan payload).bytes ++ rest := by
  constructor
  · intro h
    -- an item takes several bytes at once, so the induction is on how many are left
    induction hLength : bs.length using Nat.strongRecOn generalizing s offset bs with
    | ind n ih =>
        obtain ⟨item, rest, proper, rfl⟩ := exists_item_of_walk h
        by_cases hScan : item.code = Marker.scan
        · obtain ⟨fill, payload, rfl, fits⟩ := eq_segment_of_scan proper hScan
          obtain ⟨scan, hFinish⟩ := (walk_scan_eq_ok_iff fits).mp h
          exact ⟨[], fill, payload, rest, by simp, fits, completes_nil.mpr hFinish, scan, rfl⟩
        · obtain ⟨t, hAdds, hLater⟩ := (walk_item_eq_ok_iff proper hScan).mp h
          have hShorter : rest.length < n := by
            have hPos := length_bytes_pos item
            rw [← hLength, List.length_append]
            omega
          obtain ⟨items, fill, payload, after, hItems, fits, hCompletes, scan, rfl⟩ :=
            ih _ hShorter hLater rfl
          refine ⟨item :: items, fill, payload, after, ?_, fits,
            completes_cons.mpr ⟨t, hAdds, hCompletes⟩, scan, ?_⟩
          · exact List.forall_mem_cons.mpr ⟨⟨proper, hScan⟩, hItems⟩
          · simp only [List.flatMap_cons, List.append_assoc]
  · rintro ⟨items, fill, payload, rest, hItems, fits, hCompletes, scan, rfl⟩
    induction items generalizing s offset with
    | nil => exact (walk_scan_eq_ok_iff fits).mpr ⟨scan, completes_nil.mp hCompletes⟩
    | cons item items ih =>
        obtain ⟨⟨proper, hOther⟩, hLater⟩ := List.forall_mem_cons.mp hItems
        obtain ⟨t, hAdds, hCompletes⟩ := completes_cons.mp hCompletes
        rw [List.flatMap_cons, List.append_assoc, List.append_assoc,
          walk_item_eq_ok_iff proper hOther, ← List.append_assoc]
        exact ⟨t, hAdds, ih hLater hCompletes⟩

end Survey

/-- What an image is made of up to its first scan, and all bytes after the header of that. -/
structure Stream where
  items : List Item
  fill : Nat
  scanHeader : Bytes
  scan : Bytes

namespace Stream

def bytes (stream : Stream) : Bytes :=
  [0xFF, 0xD8] ++ stream.items.flatMap Item.bytes ++
    (Item.segment stream.fill Marker.scan stream.scanHeader).bytes ++ stream.scan

/-- A stream that makes up an image, and what it says about it. -/
structure Describes (stream : Stream) (header : Header) : Prop where
  items_proper : ∀ item ∈ stream.items, item.IsProper ∧ item.code ≠ Marker.scan
  header_fits : Segment.Fits stream.scanHeader
  scan : Scan stream.scan
  /-- There is one frame header: the precision, the size, and something after it. -/
  frame : ∃ precision components rest, stream.items.filterMap Item.frame? =
    [precision :: (Bytes.digits 2 header.height.toNat ++ Bytes.digits 2 header.width.toNat ++
      components :: rest)]
  width_pos : header.width ≠ 0
  height_pos : header.height ≠ 0
  density : FirstDensity stream.items header.density

end Stream

theorem exists_stream (h : inspect bs = .ok header) :
    ∃ stream : Stream, stream.Describes header ∧ bs = stream.bytes := by
  unfold inspect at h
  split at h
  · rename_i a b rest
    split at h
    · rename_i hStart
      obtain ⟨rfl, rfl⟩ := hStart
      obtain ⟨items, fill, scanHeader, scan, hItems, fits, ⟨hSettles, hDensity⟩, hScan, rfl⟩ :=
        Survey.walk_eq_ok_iff.mp h
      obtain ⟨frame, hFrame, hSize⟩ := hSettles
      obtain ⟨hWidth, hHeight, precision, components, rest, rfl⟩ :=
        frameSize_eq_ok_iff.mp hSize
      exact ⟨⟨items, fill, scanHeader, scan⟩, ⟨hItems, fits, hScan,
        ⟨precision, components, rest, hFrame⟩, hWidth, hHeight,
        firstDensity_iff.mpr hDensity.symm⟩, rfl⟩
    · cases h
  · cases h

theorem Stream.Describes.inspect_eq {stream : Stream} (shown : stream.Describes header) :
    inspect stream.bytes = .ok header := by
  obtain ⟨items, fill, scanHeader, scan⟩ := stream
  obtain ⟨precision, components, rest, hFrame⟩ := shown.frame
  have hSize := frameSize_eq_ok_iff.mpr
    ⟨shown.width_pos, shown.height_pos, precision, components, rest, rfl⟩
  have hCompletes : Survey.start.Completes items header :=
    ⟨⟨_, hFrame, hSize⟩, (firstDensity_iff.mp shown.density).symm⟩
  change Survey.start.walk 2 _ = _
  exact Survey.walk_eq_ok_iff.mpr ⟨items, fill, scanHeader, scan, shown.items_proper,
    shown.header_fits, hCompletes, shown.scan, rfl⟩

/-- A byte string passes for an image exactly when it is one of these streams. -/
theorem inspect_iff_stream (bs : Bytes) (header : Header) : inspect bs = .ok header ↔
    ∃ stream : Stream, stream.Describes header ∧ bs = stream.bytes := by
  constructor
  · exact exists_stream
  · rintro ⟨stream, shown, rfl⟩
    exact shown.inspect_eq

end ImagePlacement.Jpeg
