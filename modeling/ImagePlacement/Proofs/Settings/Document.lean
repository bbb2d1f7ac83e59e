import ImagePlacement.Proofs.Json.Document
import ImagePlacement.Proofs.Text.Utf8
import ImagePlacement.Settings.File
import Mathlib.Data.List.Nodup

/-! Settings that a file gives by the names of their fields. Neither the order of the members nor
the layout of the text matters, nor what else the object holds. -/
namespace ImagePlacement.Settings

/-- The value of a field, as a document gives it. -/
def json (s : Settings) : Field → Json
  | .maxFileSize => .number (some s.maxFileSize.toNat)
  | .maxPixels => .number (some s.maxPixels.toNat)
  | .maxDecodedBytes => .number (some s.maxDecodedBytes.toNat)
  | .warnOnMismatch => .bool s.warnOnMismatch

/-- Values for some of the fields. -/
structure Assignment where
  maxFileSize : Option UInt64
  maxPixels : Option UInt64
  maxDecodedBytes : Option UInt64
  warnOnMismatch : Option Bool

namespace Assignment

/-- What a document gives for a field, if the field has a value. -/
def json? (a : Assignment) : Field → Option Json
  | .maxFileSize => a.maxFileSize.map fun n => .number (some n.toNat)
  | .maxPixels => a.maxPixels.map fun n => .number (some n.toNat)
  | .maxDecodedBytes => a.maxDecodedBytes.map fun n => .number (some n.toNat)
  | .warnOnMismatch => a.warnOnMismatch.map .bool

/-- The settings with these values, and the standard ones for the other fields. -/
def settings (a : Assignment) : Settings where
  maxFileSize := a.maxFileSize.getD standard.maxFileSize
  maxPixels := a.maxPixels.getD standard.maxPixels
  maxDecodedBytes := a.maxDecodedBytes.getD standard.maxDecodedBytes
  warnOnMismatch := a.warnOnMismatch.getD standard.warnOnMismatch

/-- All the values of some settings. -/
def whole (s : Settings) : Assignment :=
  ⟨some s.maxFileSize, some s.maxPixels, some s.maxDecodedBytes, some s.warnOnMismatch⟩

theorem json_settings (a : Assignment) (f : Field) :
    a.settings.json f = (a.json? f).getD (standard.json f) := by
  cases f with
  | maxFileSize => cases hGiven : a.maxFileSize <;> simp [json, json?, settings, hGiven]
  | maxPixels => cases hGiven : a.maxPixels <;> simp [json, json?, settings, hGiven]
  | maxDecodedBytes => cases hGiven : a.maxDecodedBytes <;> simp [json, json?, settings, hGiven]
  | warnOnMismatch => cases hGiven : a.warnOnMismatch <;> simp [json, json?, settings, hGiven]

end Assignment

/-- The members of an object, with their keys. A key that is no text is none. -/
abbrev Members := List (Option String × Json)

/-- The values that an object gives for a key. -/
def valuesOf (members : Members) (key : String) : List Json :=
  members.filterMap fun member => if member.1 = some key then some member.2 else none

/-- An object gives a field its value once, if the field has one, and otherwise not at all. Members
with other keys may stand anywhere and hold anything, as long as their keys are texts. -/
structure Gives (members : Members) (a : Assignment) : Prop where
  keys : ∀ member ∈ members, member.1 ≠ none
  values : ∀ f : Field, valuesOf members f.name = (a.json? f).toList

/-- A file holds a text that writes a value. -/
def Documents (view : FileView) (path : String) (value : Json) : Prop :=
  ∃ text, (view path).isThere = true ∧
    (view path).content = .ok (Bytes.ofText (String.ofList text)) ∧ Json.Writes text value

/-! What is made of the members -/

theorem ofName?_eq_some_iff {key : String} {f : Field} :
    Field.ofName? key = some f ↔ f.name = key := by
  constructor
  · intro h
    simpa using List.find?_some h
  · rintro rfl
    cases f <;> decide

/-- The field that a member gives, with its value. -/
def given? (member : Option String × Json) : Option (Field × Json) :=
  (member.1.bind Field.ofName?).map fun f => (f, member.2)

theorem assignments?_cons (key : String) (value : Json) (rest : Members) :
    assignments? ((some key, value) :: rest) =
      (assignments? rest).map ((given? (some key, value)).toList ++ ·) := by
  rw [assignments?]
  cases hName : Field.ofName? key with
  | none =>
      simp only [given?, Option.bind_some, hName]
      exact (Option.map_id_apply ..).symm
  | some f =>
      simp only [given?, Option.bind_some, hName]
      rfl

theorem assignments?_of_keys {members : Members} (h : ∀ member ∈ members, member.1 ≠ none) :
    assignments? members = some (members.filterMap given?) := by
  induction members with
  | nil => rfl
  | cons member rest ih =>
      obtain ⟨key, value⟩ := member
      obtain ⟨key, rfl⟩ := Option.ne_none_iff_exists'.mp (h _ List.mem_cons_self)
      rw [assignments?_cons, ih fun member hMem => h member (List.mem_cons_of_mem _ hMem),
        List.filterMap_cons]
      cases given? (some key, value) <;> rfl

theorem keys_of_assignments? {members : Members} {given : List (Field × Json)}
    (h : assignments? members = some given) : ∀ member ∈ members, member.1 ≠ none := by
  induction members generalizing given with
  | nil => nofun
  | cons member rest ih =>
      obtain ⟨key, value⟩ := member
      cases key with
      | none => cases h
      | some key =>
          rw [assignments?_cons] at h
          obtain ⟨more, hRest, -⟩ := Option.map_eq_some_iff.mp h
          intro other hOther
          rcases List.mem_cons.mp hOther with rfl | hMem
          · exact Option.some_ne_none key
          · exact ih hRest other hMem

/-- What is made of the members gives a field the values that they give it. -/
theorem valuesOf_given (members : Members) (f : Field) :
    (members.filterMap given?).filterMap (fun entry => if entry.1 = f then some entry.2 else none) =
      valuesOf members f.name := by
  rw [List.filterMap_filterMap, valuesOf]
  congr 1
  funext ⟨key, value⟩
  cases key with
  | none => rfl
  | some key =>
      -- A key that is not the name of this field may still be that of another one.
      by_cases hKey : f.name = key
      · simp only [given?, Option.bind_some, ofName?_eq_some_iff.mpr hKey, Option.map_some,
          hKey]
      · have hOther : ∀ g, Field.ofName? key = some g → g ≠ f := by
          rintro g hName rfl
          exact hKey (ofName?_eq_some_iff.mp hName)
        rw [if_neg fun hSame => hKey (Option.some.inj hSame).symm]
        cases hName : Field.ofName? key with
        | none => simp only [given?, Option.bind_some, hName, Option.map_none, Option.bind_none]
        | some g =>
            simp only [given?, Option.bind_some, hName, Option.map_some, if_neg (hOther g hName)]

theorem count_given (members : Members) (f : Field) :
    ((members.filterMap given?).map Prod.fst).count f = (valuesOf members f.name).length := by
  rw [← valuesOf_given, List.length_filterMap_eq_countP, List.count, List.countP_map]
  congr 1
  funext entry
  by_cases hField : entry.1 = f <;> simp [hField]

theorem mem_valuesOf {members : Members} {f : Field} {value : Json}
    (h : (f, value) ∈ members.filterMap given?) : value ∈ valuesOf members f.name := by
  rw [← valuesOf_given]
  exact List.mem_filterMap.mpr ⟨(f, value), h, if_pos rfl⟩

/-! What is made of the settings -/

theorem json_injective {s t : Settings} (h : ∀ f, s.json f = t.json f) : s = t := by
  have hSize := h .maxFileSize
  have hPixels := h .maxPixels
  have hBytes := h .maxDecodedBytes
  have hWarn := h .warnOnMismatch
  simp only [json, Json.number.injEq, Json.bool.injEq, Option.some.injEq, UInt64.toNat_inj]
    at hSize hPixels hBytes hWarn
  cases s
  cases t
  simp_all

/-- The settings with one field from others. -/
def withField (s t : Settings) : Field → Settings
  | .maxFileSize => { s with maxFileSize := t.maxFileSize }
  | .maxPixels => { s with maxPixels := t.maxPixels }
  | .maxDecodedBytes => { s with maxDecodedBytes := t.maxDecodedBytes }
  | .warnOnMismatch => { s with warnOnMismatch := t.warnOnMismatch }

theorem json_withField (s t : Settings) (f g : Field) :
    (s.withField t f).json g = if g = f then t.json g else s.json g := by
  cases f <;> cases g <;> rfl

theorem assign?_json (s t : Settings) (f : Field) :
    s.assign? f (t.json f) = some (s.withField t f) := by
  have hWord (n : UInt64) :
      (if n.toNat < UInt64.size then some (UInt64.ofNat n.toNat) else none) = some n := by
    rw [if_pos n.toNat_lt, UInt64.ofNat_toNat]
  cases f with
  | warnOnMismatch => rfl
  | _ => exact congrArg (Option.map _) (hWord _)

/-- Fields that are assigned the values of some settings, one after the other, end up with them. -/
theorem foldlM_assign? {given : List (Field × Json)} {s t : Settings}
    (hGiven : ∀ f value, (f, value) ∈ given → value = t.json f)
    (hOther : ∀ f, f ∉ given.map Prod.fst → s.json f = t.json f) :
    given.foldlM (fun s a => s.assign? a.1 a.2) s = some t := by
  induction given generalizing s with
  | nil =>
      obtain rfl : s = t := json_injective fun f => hOther f List.not_mem_nil
      rfl
  | cons entry rest ih =>
      obtain ⟨f, value⟩ := entry
      obtain rfl := hGiven f value List.mem_cons_self
      rw [List.foldlM_cons, assign?_json]
      refine ih (fun g value hMem => hGiven g value (List.mem_cons_of_mem _ hMem)) fun g hRest => ?_
      rw [json_withField]
      split
      case isTrue => rfl
      case isFalse hField => exact hOther g (by simpa [hField] using hRest)

theorem ofJson?_of_gives {members : Members} {a : Assignment} (h : Gives members a) :
    ofJson? (.object members) = some a.settings := by
  have hDistinct : ((members.filterMap given?).map Prod.fst).Nodup := by
    rw [List.nodup_iff_count_le_one]
    intro f
    rw [count_given, h.values]
    cases a.json? f <;> simp
  have hFold : (members.filterMap given?).foldlM (fun s a => s.assign? a.1 a.2) standard =
      some a.settings := by
    refine foldlM_assign? (fun f value hMem => ?_) fun f hMissing => ?_
    · have hGiven := mem_valuesOf hMem
      rw [h.values, Option.mem_toList] at hGiven
      rw [Assignment.json_settings, hGiven]
      rfl
    · have hNothing : (a.json? f).toList = [] := by
        rw [← List.length_eq_zero_iff, ← h.values, ← count_given, List.count_eq_zero]
        exact hMissing
      rw [Assignment.json_settings, Option.toList_eq_nil_iff.mp hNothing]
      rfl
  rw [ofJson?, assignments?_of_keys h.keys]
  exact (if_pos hDistinct).trans hFold

/-- Whatever else an object holds, it gives no settings if it gives a field twice. -/
theorem ofJson?_of_twice {members : Members} {f : Field}
    (h : 1 < (valuesOf members f.name).length) : ofJson? (.object members) = none := by
  rw [ofJson?]
  cases hGiven : assignments? members with
  | none => rfl
  | some given =>
      rw [assignments?_of_keys (keys_of_assignments? hGiven), Option.some.injEq] at hGiven
      have hRepeats : ¬ (given.map Prod.fst).Nodup := by
        rw [List.nodup_iff_count_le_one, not_forall]
        refine ⟨f, ?_⟩
        rw [← hGiven, count_given]
        omega
      exact if_neg hRepeats

/-! What is made of the file -/

variable {view : FileView} {path : String} {value : Json}

theorem ofContent_of_writes {text : List Char} (h : Json.Writes text value) :
    ofContent (Bytes.ofText (String.ofList text)) =
      ((ofJson? value).elim (.error .notSettings) .ok) := by
  rw [ofContent, Utf8.decode?_ofText, String.toList_ofList]
  simp only [Json.ofText?_of_writes h, Option.bind_some]
  cases ofJson? value <;> rfl

theorem load_of_some {s : Settings} (h : Documents view path value)
    (hJson : ofJson? value = some s) : load view path = s.check := by
  obtain ⟨text, hThere, hContent, hText⟩ := h
  rw [load_of_content hThere hContent, ofContent_of_writes hText, hJson, Option.elim_some]

theorem load_of_none (h : Documents view path value) (hJson : ofJson? value = none) :
    load view path = .error (.unreadable path FileFault.notSettings.message) := by
  obtain ⟨text, hThere, hContent, hText⟩ := h
  rw [load_of_content hThere hContent, ofContent_of_writes hText, hJson, Option.elim_none]

theorem exists_documents (path : String) (value : Json) : ∃ view, Documents view path value := by
  obtain ⟨text, hText⟩ := Json.exists_writes value
  exact ⟨fun _ => .file (Bytes.ofText (String.ofList text)), text, rfl, rfl, hText⟩

/-- The members that give all values of some settings, and nothing else. -/
def members (s : Settings) : Members := Field.all.map fun f => (some f.name, s.json f)

theorem gives_members (s : Settings) : Gives s.members (.whole s) where
  keys := by
    intro member hMem
    obtain ⟨f, -, rfl⟩ := List.mem_map.mp hMem
    exact Option.some_ne_none _
  values := by
    intro f
    cases f <;> rfl

theorem Assignment.settings_whole (s : Settings) : (whole s).settings = s := rfl

/-- Settings are read from a file by the names of their fields. Whatever the order and the layout
of the members are, and whatever other members stand between them, the fields that are given have
the values that are given and the others the standard ones; if those settings are valid they are
what is loaded, and if not the error that refuses them. So valid settings that are written as an
object are loaded as they were, and they can be written. An object that gives a field twice is never
loaded. -/
theorem load_by_field (path : String) :
    (∀ view members a, Documents view path (.object members) → Gives members a →
      load view path = a.settings.check) ∧
    (∀ s : Settings, s.IsValid → (∃ view, Documents view path (.object s.members)) ∧
      Gives s.members (.whole s) ∧
      ∀ view members, Documents view path (.object members) → Gives members (.whole s) →
        load view path = .ok s) ∧
    ∀ view members (f : Field), Documents view path (.object members) →
      1 < (valuesOf members f.name).length →
      load view path = .error (.unreadable path FileFault.notSettings.message) := by
  refine ⟨fun view members a hFile hGives => load_of_some hFile (ofJson?_of_gives hGives), ?_, ?_⟩
  · intro s hValid
    refine ⟨exists_documents path _, gives_members s, fun view members hFile hGives => ?_⟩
    rw [load_of_some hFile (ofJson?_of_gives hGives), Assignment.settings_whole,
      check_of_isValid hValid]
  · intro view members f hFile hTwice
    exact load_of_none hFile (ofJson?_of_twice hTwice)

/-! A field that also stands inside another member -/
namespace Nested

def given : Assignment := ⟨some 18446744073709551615, none, none, none⟩

def members : Members :=
  [(some "x", .array [.object [(some "max_file_size", .number (some 1))], .string none]),
    (some "max_file_size", .number (some 18446744073709551615))]

theorem gives : Gives members given where
  keys := by decide
  values := by
    intro f
    cases f <;> rfl

end Nested

/-- The greatest number is loaded; after it, the same field may not stand again. -/
theorem load_by_field_nested : ∃ view other,
    Documents view "config" (.object Nested.members) ∧
    load view "config" = .ok { standard with maxFileSize := 18446744073709551615 } ∧
    Documents other "config" (.object (Nested.members ++ [(some "max_file_size", .null)])) ∧
    load other "config" = .error (.unreadable "config" FileFault.notSettings.message) := by
  obtain ⟨hGiven, -, hTwice⟩ := load_by_field "config"
  obtain ⟨view, hView⟩ := exists_documents "config" (.object Nested.members)
  obtain ⟨other, hOther⟩ := exists_documents "config"
    (.object (Nested.members ++ [(some "max_file_size", .null)]))
  refine ⟨view, other, hView, ?_, hOther, hTwice _ _ .maxFileSize hOther (by decide)⟩
  exact hGiven _ _ _ hView Nested.gives

end ImagePlacement.Settings
