import ImagePlacement.Proofs.Jpeg.Stream
import Mathlib.Logic.Relation

/-! Markers without a length, put into a stream between two items or between two units of a scan.
Before the first scan they count for nothing. Inside a scan this holds of restarts alone: the one
other marker of the kind is read there as if a length followed it. -/
namespace ImagePlacement.Jpeg

variable {front rest entropy bs : Bytes} {header : Header} {offset : Nat} {m : UInt8}

/-! Between the units of a scan -/

/-- A scan goes on to the end of the image exactly if it does so after its first unit. -/
theorem ScanUnit.scan_iff (h : ScanUnit bs rest) : Scan bs ↔ Scan rest := by
  obtain ⟨next, hNext⟩ := h.checkScan_eq 0
  have hHere : checkScan 0 bs = .ok () ↔ Scan bs := checkScan_eq_ok_iff
  rw [← hHere, hNext, checkScan_eq_ok_iff]

theorem scan_iff_of_units (h : Relation.ReflTransGen ScanUnit bs rest) : Scan bs ↔ Scan rest := by
  induction h with
  | refl => rfl
  | tail prior last ih => rw [ih, last.scan_iff]

/-- Units stand before other bytes as well, if those start with a lead byte: a lead byte is a unit
only before another one, and no unit looks further ahead. -/
theorem exists_units (h : Relation.ReflTransGen ScanUnit bs rest) : ∃ entropy, bs = entropy ++ rest ∧
    ∀ after, Relation.ReflTransGen ScanUnit (entropy ++ 0xFF :: after) (0xFF :: after) := by
  induction h using Relation.ReflTransGen.head_induction_on with
  | refl => exact ⟨[], rfl, fun after => .refl⟩
  | head first later ih =>
      obtain ⟨entropy, rfl, hUnits⟩ := ih
      generalize hRest : entropy ++ rest = tail at first
      cases first with
      | plain b _ hOther =>
          exact ⟨b :: entropy, by rw [← hRest, List.cons_append],
            fun after => (hUnits after).head (.plain b _ hOther)⟩
      | stuffed =>
          exact ⟨0xFF :: 0x00 :: entropy, by rw [← hRest]; rfl,
            fun after => (hUnits after).head (.stuffed _)⟩
      | restart m _ hCode =>
          exact ⟨0xFF :: m :: entropy, by rw [← hRest]; rfl,
            fun after => (hUnits after).head (.restart m _ hCode)⟩
      | fill tail =>
          refine ⟨0xFF :: entropy, by rw [← hRest]; rfl, fun after => ?_⟩
          cases entropy with
          | nil => exact (hUnits after).head (.fill after)
          | cons b entropy =>
              obtain ⟨rfl, -⟩ := List.cons_eq_cons.mp hRest
              exact (hUnits after).head (.fill _)
      | segment m payload _ code fits =>
          refine ⟨0xFF :: m :: (Segment.bytes payload ++ entropy), ?_, fun after => ?_⟩
          · simp [← hRest]
          · have hBytes : 0xFF :: m :: (Segment.bytes payload ++ entropy) ++ 0xFF :: after =
                0xFF :: m :: (Segment.bytes payload ++ (entropy ++ 0xFF :: after)) := by simp
            rw [hBytes]
            exact (hUnits after).head (.segment m payload _ code fits)

/-- A scan with a marker put between two of its units goes on as the marker does. -/
theorem scan_insert_iff (h : Relation.ReflTransGen ScanUnit (entropy ++ rest) rest) (m : UInt8) :
    Scan (entropy ++ 0xFF :: m :: rest) ↔ Scan (0xFF :: m :: rest) := by
  obtain ⟨other, hSame, hUnits⟩ := exists_units h
  obtain rfl := List.append_cancel_right hSame
  exact scan_iff_of_units (hUnits (m :: rest))

theorem scan_restart_iff (h : 0xD0 ≤ m ∧ m ≤ 0xD7) : Scan (0xFF :: m :: rest) ↔ Scan rest :=
  (ScanUnit.restart m rest h).scan_iff

/-- Inside a scan the marker one is taken for the start of a segment. -/
theorem scan_one_iff : Scan (0xFF :: 0x01 :: rest) ↔ ∃ payload after, Segment.Fits payload ∧
    rest = Segment.bytes payload ++ after ∧ Scan after := by
  constructor
  · intro h
    cases h with
    | unit first later =>
        cases first with
        | plain _ _ hOther => exact absurd rfl hOther
        | restart _ _ hCode => exact absurd hCode (by decide)
        | segment _ payload _ code fits => exact ⟨payload, _, fits, rfl, later⟩
  · rintro ⟨payload, after, fits, rfl, later⟩
    have code : Marker.HasLength 0x01 := by
      unfold Marker.HasLength
      decide
    exact .unit (.segment 0x01 payload after code fits) later

/-! Between the items of the header -/

namespace Survey

variable {s : Survey} {items : List Item}

/-- What is made of the bytes behind items decides what is made of the whole. -/
theorem walk_items_congr {other : Bytes}
    (hItems : ∀ item ∈ items, item.IsProper ∧ item.code ≠ Marker.scan)
    (h : ∀ (t : Survey) offset, t.walk offset bs = .ok header ↔ t.walk offset other = .ok header)
    (s : Survey) (offset : Nat) : s.walk offset (items.flatMap Item.bytes ++ bs) = .ok header ↔
      s.walk offset (items.flatMap Item.bytes ++ other) = .ok header := by
  induction items generalizing s offset with
  | nil => exact h s offset
  | cons item items ih =>
      obtain ⟨⟨proper, hOther⟩, hLater⟩ := List.forall_mem_cons.mp hItems
      simp only [List.flatMap_cons, List.append_assoc, walk_item_eq_ok_iff proper hOther]
      exact exists_congr fun t => and_congr_right fun _ => ih hLater t _

/-- A walk over items goes on with the bytes behind them. -/
theorem exists_walk_of_items (hItems : ∀ item ∈ items, item.IsProper ∧ item.code ≠ Marker.scan)
    (h : s.walk offset (items.flatMap Item.bytes ++ bs) = .ok header) :
    ∃ (t : Survey) (next : Nat), t.walk next bs = .ok header := by
  induction items generalizing s offset with
  | nil => exact ⟨s, offset, h⟩
  | cons item items ih =>
      obtain ⟨⟨proper, hOther⟩, hLater⟩ := List.forall_mem_cons.mp hItems
      rw [List.flatMap_cons, List.append_assoc, walk_item_eq_ok_iff proper hOther] at h
      obtain ⟨t, -, hRest⟩ := h
      exact ih hLater hRest

/-- Where the walk starts counts for nothing but the messages of faults. -/
theorem walk_offset_iff (other : Nat) :
    s.walk offset bs = .ok header ↔ s.walk other bs = .ok header := by
  rw [walk_eq_ok_iff, walk_eq_ok_iff]

theorem walk_standalone_iff (h : m = 0x01 ∨ 0xD0 ≤ m ∧ m ≤ 0xD7) :
    s.walk offset (0xFF :: m :: rest) = .ok header ↔ s.walk offset rest = .ok header := by
  have proper : (Item.marker 0 m).IsProper := h
  have hMarker : s.walk offset ((Item.marker 0 m).bytes ++ rest) = _ := walk_marker proper
  change s.walk offset ((Item.marker 0 m).bytes ++ rest) = _ ↔ _
  rw [hMarker]
  exact walk_offset_iff offset

end Survey

/-- The start of an image and whole items, none of them a scan. -/
def EndsAtItem (front : Bytes) : Prop :=
  ∃ items : List Item, (∀ item ∈ items, item.IsProper ∧ item.code ≠ Marker.scan) ∧
    front = [0xFF, 0xD8] ++ items.flatMap Item.bytes

/-- The start of an image, whole items, the header of the first scan and whole units of it, as they
are with the rest behind them. None of these is the end of the image. -/
def EndsAtUnit (front rest : Bytes) : Prop :=
  ∃ lead fill scanHeader entropy, EndsAtItem lead ∧ Segment.Fits scanHeader ∧
    front = lead ++ (Item.segment fill Marker.scan scanHeader).bytes ++ entropy ∧
    Relation.ReflTransGen ScanUnit (entropy ++ rest) rest

theorem EndsAtItem.inspect_congr (h : EndsAtItem front) {bs other : Bytes}
    (hSame : ∀ (s : Survey) offset, s.walk offset bs = .ok header ↔ s.walk offset other = .ok header) :
    inspect (front ++ bs) = .ok header ↔ inspect (front ++ other) = .ok header := by
  obtain ⟨items, hItems, rfl⟩ := h
  simp only [List.append_assoc]
  exact Survey.walk_items_congr hItems hSame .start 2

/-- A stream that passes for an image has a scan that goes on to its end. -/
theorem EndsAtItem.scan_of_inspect (h : EndsAtItem front) {fill : Nat} {payload bs : Bytes}
    (fits : Segment.Fits payload)
    (hSome : inspect (front ++ ((Item.segment fill Marker.scan payload).bytes ++ bs)) =
      .ok header) : Scan bs := by
  obtain ⟨items, hItems, rfl⟩ := h
  rw [List.append_assoc] at hSome
  have hWalk : Survey.start.walk 2 (items.flatMap Item.bytes ++
      ((Item.segment fill Marker.scan payload).bytes ++ bs)) = .ok header := hSome
  obtain ⟨t, offset, hLater⟩ := Survey.exists_walk_of_items hItems hWalk
  exact ((Survey.walk_scan_eq_ok_iff fits).mp hLater).1

namespace EndsAtUnit

variable {found : Header}

theorem scan_rest (h : EndsAtUnit front rest) (hSome : inspect (front ++ rest) = .ok header) :
    Scan rest := by
  obtain ⟨lead, fill, payload, entropy, hLead, fits, rfl, hUnits⟩ := h
  simp only [List.append_assoc] at hSome
  exact (scan_iff_of_units hUnits).mp (hLead.scan_of_inspect fits hSome)

/-- A marker in the scan of an image leaves the header as it is, if the scan goes on from there. -/
theorem inspect_insert_iff (h : EndsAtUnit front rest)
    (hSome : inspect (front ++ rest) = .ok header) :
    inspect (front ++ 0xFF :: m :: rest) = .ok found ↔
      found = header ∧ Scan (0xFF :: m :: rest) := by
  have hRest := h.scan_rest hSome
  obtain ⟨lead, fill, payload, entropy, hLead, fits, rfl, hUnits⟩ := h
  simp only [List.append_assoc] at hSome ⊢
  have hSame (hMarked : Scan (entropy ++ 0xFF :: m :: rest)) :
      inspect (lead ++ ((Item.segment fill Marker.scan payload).bytes ++
        (entropy ++ 0xFF :: m :: rest))) = .ok header := by
    refine (hLead.inspect_congr fun s offset => ?_).mp hSome
    rw [Survey.walk_scan_eq_ok_iff fits, Survey.walk_scan_eq_ok_iff fits,
      and_iff_right ((scan_iff_of_units hUnits).mpr hRest), and_iff_right hMarked]
  rw [← scan_insert_iff hUnits]
  constructor
  · intro hFound
    have hMarked := hLead.scan_of_inspect fits hFound
    exact ⟨Except.ok.inj (hFound.symm.trans (hSame hMarked)), hMarked⟩
  · rintro ⟨rfl, hMarked⟩
    exact hSame hMarked

end EndsAtUnit

/-- A marker without a length that is put between two items before the first scan of an image
changes nothing, nor does a restart that is put between two units of the scan. The one other marker
of the kind takes the bytes after it along there: the image is refused unless they make up a segment
and the scan goes on behind it. -/
theorem inspect_insert (h : inspect (front ++ rest) = .ok header) :
    (EndsAtItem front → ∀ m : UInt8, (m = 0x01 ∨ 0xD0 ≤ m ∧ m ≤ 0xD7) →
      inspect (front ++ 0xFF :: m :: rest) = .ok header) ∧
    (EndsAtUnit front rest → ∀ m : UInt8, 0xD0 ≤ m ∧ m ≤ 0xD7 →
      inspect (front ++ 0xFF :: m :: rest) = .ok header) ∧
    (EndsAtUnit front rest → ∀ found, inspect (front ++ 0xFF :: 0x01 :: rest) = .ok found ↔
      found = header ∧ ∃ payload after, Segment.Fits payload ∧
        rest = Segment.bytes payload ++ after ∧ Scan after) := by
  refine ⟨fun hItem m hCode => ?_, fun hUnit m hCode => ?_, fun hUnit found => ?_⟩
  · exact (hItem.inspect_congr fun s offset => Survey.walk_standalone_iff hCode).mpr h
  · rw [hUnit.inspect_insert_iff h, and_iff_right rfl, scan_restart_iff hCode]
    exact hUnit.scan_rest h
  · rw [hUnit.inspect_insert_iff h, scan_one_iff]

/-! An image of one pixel, cut open behind the frame header and behind a byte of its scan. -/
namespace Speck

def frame : Item := .segment 0 0xC0 [0x08, 0x00, 0x01, 0x00, 0x01, 0x01]

/-- The start of the image and its frame header. -/
def opening : Bytes := [0xFF, 0xD8] ++ [frame].flatMap Item.bytes

/-- The header of the scan and its two bytes. -/
def scan : Bytes := (Item.segment 0 Marker.scan []).bytes ++ [0x2A, 0x2A]

def ending : Bytes := [0xFF, 0xD9]

theorem proper_frame : ∀ item ∈ [frame], item.IsProper ∧ item.code ≠ Marker.scan := by
  have hFrame : frame.IsProper ∧ frame.code ≠ Marker.scan := by
    unfold frame Item.IsProper Marker.HasLength Segment.Fits
    decide
  simpa using hFrame

theorem fits_nil : Segment.Fits [] := by
  unfold Segment.Fits
  decide

theorem unit_cons (bs : Bytes) : ScanUnit (0x2A :: bs) bs := .plain 0x2A bs (by decide)

theorem endsAtItem_opening : EndsAtItem opening := ⟨[frame], proper_frame, rfl⟩

theorem endsAtUnit_scan : EndsAtUnit (opening ++ scan) ending :=
  ⟨opening, 0, [], [0x2A, 0x2A], endsAtItem_opening, fits_nil, rfl,
    .head (unit_cons _) (.single (unit_cons _))⟩

theorem inspect_eq_ok : inspect (opening ++ scan ++ ending) = .ok ⟨1, 1, none⟩ := by
  have hScan : Scan (0x2A :: 0x2A :: ending) := .unit (unit_cons _) (.unit (unit_cons _) (.ending []))
  have hCompletes : Survey.start.Completes [frame] ⟨1, 1, none⟩ := ⟨⟨_, rfl, rfl⟩, rfl⟩
  have hWalk : Survey.start.walk 2 ([frame].flatMap Item.bytes ++ (scan ++ ending)) =
      .ok ⟨1, 1, none⟩ :=
    Survey.walk_eq_ok_iff.mpr ⟨[frame], 0, [], _, proper_frame, fits_nil, hCompletes, hScan, rfl⟩
  exact hWalk

/-- The two bytes at the end are no segment, taken as a length. -/
theorem ending_ne_segment (payload after : Bytes) : ending ≠ Segment.bytes payload ++ after := by
  intro h
  have hLength := congrArg List.length h
  simp only [ending, Segment.bytes, List.length_append, Bytes.length_digits, List.length_cons,
    List.length_nil] at hLength
  obtain rfl : payload = [] := List.eq_nil_of_length_eq_zero (by omega)
  exact absurd (List.cons_eq_cons.mp h).1 (by decide)

end Speck

open Speck in
/-- The marker one counts for nothing behind the frame header. Behind the bytes of the scan a
restart counts for nothing, and the marker one takes the end of the image along. -/
theorem inspect_insert_speck :
    inspect (opening ++ (scan ++ ending)) = .ok ⟨1, 1, none⟩ ∧
    EndsAtItem opening ∧ EndsAtUnit (opening ++ scan) ending ∧
    inspect (opening ++ 0xFF :: 0x01 :: (scan ++ ending)) = .ok ⟨1, 1, none⟩ ∧
    inspect (opening ++ scan ++ 0xFF :: 0xD3 :: ending) = .ok ⟨1, 1, none⟩ ∧
    ∀ header, inspect (opening ++ scan ++ 0xFF :: 0x01 :: ending) ≠ .ok header := by
  have hWhole : inspect (opening ++ (scan ++ ending)) = .ok ⟨1, 1, none⟩ := inspect_eq_ok
  obtain ⟨hItem, -, -⟩ := inspect_insert hWhole
  obtain ⟨-, hRestart, hOne⟩ := inspect_insert inspect_eq_ok
  refine ⟨hWhole, endsAtItem_opening, endsAtUnit_scan, hItem endsAtItem_opening 0x01 (Or.inl rfl),
    hRestart endsAtUnit_scan 0xD3 (by decide), fun header hFound => ?_⟩
  obtain ⟨-, payload, after, -, hBytes, -⟩ := (hOne endsAtUnit_scan header).mp hFound
  exact ending_ne_segment payload after hBytes

open Speck in
/-- A marker without a length between two units of a scan can cost an image its end. -/
theorem not_inspect_insert_unit : ¬ ∀ (front rest : Bytes) (header : Header) (m : UInt8),
    inspect (front ++ rest) = .ok header → EndsAtItem front ∨ EndsAtUnit front rest →
      (m = 0x01 ∨ 0xD0 ≤ m ∧ m ≤ 0xD7) → inspect (front ++ 0xFF :: m :: rest) = .ok header := by
  intro hAll
  have hFound : inspect (opening ++ scan ++ 0xFF :: 0x01 :: ending) = .ok ⟨1, 1, none⟩ :=
    hAll _ _ _ _ inspect_eq_ok (Or.inr endsAtUnit_scan) (Or.inl rfl)
  have hScan := ((endsAtUnit_scan.inspect_insert_iff inspect_eq_ok).mp hFound).2
  obtain ⟨payload, after, -, hBytes, -⟩ := scan_one_iff.mp hScan
  exact ending_ne_segment payload after hBytes

end ImagePlacement.Jpeg
