import ImagePlacement.Svg.Prologue
import Mathlib.Logic.Basic

/-! The texts that start like an SVG document. The readings of a text, which are computed from its
end, find a way to read it as white space, prologue items and a root whenever there is one: a
comment or an internal subset may end at any of its terminators. -/
namespace ImagePlacement.Svg.Prologue

section Parts

variable {text rest : List Char} {c : Char}

/-- What can be read at the front of a text. -/
def front (text : List Char) : Readings := (readings text).headD .none

theorem drop_readings (n : Nat) (text : List Char) :
    (readings text).drop n = readings (text.drop n) := by
  induction n generalizing text with
  | zero => rfl
  | succ n ih =>
      cases text with
      | nil => rfl
      | cons c rest => exact ih rest

/-- The readings that one place refers to are those at the front of what follows it. -/
theorem headD_drop_readings (n : Nat) (text : List Char) :
    ((readings text).drop n).headD .none = front (text.drop n) := by
  rw [drop_readings, front]

/-! Reading on for as long as a class of characters lasts -/

/-- Characters of a class, and then something of a kind. -/
def Skips (skipped : Char → Prop) (goal : List Char → Prop) (text : List Char) : Prop :=
  ∃ before rest, (∀ c ∈ before, skipped c) ∧ text = before ++ rest ∧ goal rest

variable {skipped : Char → Prop} {goal : List Char → Prop}

theorem skips_nil : Skips skipped goal [] ↔ goal [] := by
  constructor
  · rintro ⟨before, rest, _, h, hGoal⟩
    obtain ⟨rfl, rfl⟩ := List.append_eq_nil_iff.mp h.symm
    exact hGoal
  · intro hGoal
    exact ⟨[], [], by simp, rfl, hGoal⟩

theorem skips_cons : Skips skipped goal (c :: rest) ↔
    goal (c :: rest) ∨ skipped c ∧ Skips skipped goal rest := by
  constructor
  · rintro ⟨before, after, hSkipped, h, hGoal⟩
    cases before with
    | nil =>
        obtain rfl : c :: rest = after := h
        exact Or.inl hGoal
    | cons b before =>
        obtain ⟨rfl, rfl⟩ := List.cons_eq_cons.mp h
        obtain ⟨hFirst, hLater⟩ := List.forall_mem_cons.mp hSkipped
        exact Or.inr ⟨hFirst, before, after, hLater, rfl, hGoal⟩
  · rintro (hGoal | ⟨hFirst, before, after, hLater, rfl, hGoal⟩)
    · exact ⟨[], c :: rest, by simp, rfl, hGoal⟩
    · exact ⟨c :: before, after, List.forall_mem_cons.mpr ⟨hFirst, hLater⟩, rfl, hGoal⟩

/-- What is read at once or after one more character is read after some characters. -/
theorem skips_iff (reads : List Char → Bool) (hNil : reads [] = true ↔ goal [])
    (hCons : ∀ c rest, reads (c :: rest) = true ↔
      goal (c :: rest) ∨ skipped c ∧ reads rest = true) (text : List Char) :
    reads text = true ↔ Skips skipped goal text := by
  induction text with
  | nil => rw [hNil, skips_nil]
  | cons c rest ih => rw [hCons, skips_cons, ih]

/-- A fixed text, and then something of a kind. -/
def Leads (mark : List Char) (goal : List Char → Prop) (text : List Char) : Prop :=
  ∃ rest, text = mark ++ rest ∧ goal rest

theorem leads_iff {mark : List Char} :
    mark.isPrefixOf text = true ∧ goal (text.drop mark.length) ↔ Leads mark goal text := by
  constructor
  · rintro ⟨hMark, hGoal⟩
    obtain ⟨rest, rfl⟩ := List.isPrefixOf_iff_prefix.mp hMark
    rw [List.drop_left] at hGoal
    exact ⟨rest, rfl, hGoal⟩
  · rintro ⟨rest, rfl, hGoal⟩
    rw [List.drop_left]
    exact ⟨List.isPrefixOf_iff_prefix.mpr (List.prefix_append ..), hGoal⟩

theorem not_leads_nil {mark : List Char} (h : mark ≠ []) : ¬ Leads mark goal [] := by
  rintro ⟨rest, hText, _⟩
  exact h (List.append_eq_nil_iff.mp hText.symm).1

theorem leads_singleton_cons {a : Char} : Leads [a] goal (c :: rest) ↔ c = a ∧ goal rest := by
  constructor
  · rintro ⟨after, hText, hGoal⟩
    obtain ⟨rfl, rfl⟩ := List.cons_eq_cons.mp hText
    exact ⟨rfl, hGoal⟩
  · rintro ⟨rfl, hGoal⟩
    exact ⟨rest, rfl, hGoal⟩

/-- A prologue can be read: white space and items up to a root. -/
def Starts (text : List Char) : Prop := (front text).prologue = true

theorem instruction_iff (text : List Char) : (front text).instruction = true ↔
    Skips (· ≠ '>') (Leads ['?', '>'] Starts) text := by
  refine skips_iff (fun text => (front text).instruction) ?_ (fun c rest => ?_) text
  · exact ⟨nofun, fun h => absurd h (not_leads_nil (by simp))⟩
  · have hCons : (front (c :: rest)).instruction =
        ((['?', '>'].isPrefixOf (c :: rest) && (front (rest.drop 1)).prologue) ||
          (c != '>' && (front rest).instruction)) := by
      rw [← headD_drop_readings 1]
      rfl
    rw [← leads_iff, hCons, Bool.or_eq_true, Bool.and_eq_true, Bool.and_eq_true, bne_iff_ne]
    rfl

theorem comment_iff (text : List Char) : (front text).comment = true ↔
    Skips (fun _ => True) (Leads "-->".toList Starts) text := by
  refine skips_iff (fun text => (front text).comment) ?_ (fun c rest => ?_) text
  · exact ⟨nofun, fun h => absurd h (not_leads_nil (by simp))⟩
  · have hCons : (front (c :: rest)).comment =
        (("-->".toList.isPrefixOf (c :: rest) && (front (rest.drop 2)).prologue) ||
          (front rest).comment) := by
      rw [← headD_drop_readings 2]
      rfl
    rw [← leads_iff, hCons, Bool.or_eq_true, Bool.and_eq_true, true_and]
    rfl

theorem closing_iff (text : List Char) : (front text).closing = true ↔
    Skips (isBlank · = true) (Leads ['>'] Starts) text := by
  refine skips_iff (fun text => (front text).closing) ?_ (fun c rest => ?_) text
  · exact ⟨nofun, fun h => absurd h (not_leads_nil (by simp))⟩
  · have hCons : (front (c :: rest)).closing =
        ((c == '>' && (front rest).prologue) || (isBlank c && (front rest).closing)) := rfl
    rw [leads_singleton_cons, hCons, Bool.or_eq_true, Bool.and_eq_true, Bool.and_eq_true,
      beq_iff_eq]
    rfl

theorem subset_iff (text : List Char) : (front text).subset = true ↔
    Skips (fun _ => True) (Leads [']'] fun rest => (front rest).closing = true) text := by
  refine skips_iff (fun text => (front text).subset) ?_ (fun c rest => ?_) text
  · exact ⟨nofun, fun h => absurd h (not_leads_nil (by simp))⟩
  · have hCons : (front (c :: rest)).subset =
        ((c == ']' && (front rest).closing) || (front rest).subset) := rfl
    rw [leads_singleton_cons, hCons, Bool.or_eq_true, Bool.and_eq_true, beq_iff_eq, true_and]

theorem doctype_iff (text : List Char) : (front text).doctype = true ↔
    Skips (fun c => c ≠ '>' ∧ c ≠ '[') (fun rest => Leads ['>'] Starts rest ∨
      Leads ['['] (fun rest => (front rest).subset = true) rest) text := by
  refine skips_iff (fun text => (front text).doctype) ?_ (fun c rest => ?_) text
  · exact ⟨nofun, fun h => h.elim (absurd · (not_leads_nil (by simp)))
      (absurd · (not_leads_nil (by simp)))⟩
  · have hCons : (front (c :: rest)).doctype =
        if c = '>' then (front rest).prologue
        else if c = '[' then (front rest).subset
        else (front rest).doctype := rfl
    rw [leads_singleton_cons, leads_singleton_cons, hCons]
    split
    case isTrue hClose => simp [hClose, Starts]
    case isFalse hClose =>
      split
      case isTrue hOpen => simp [hOpen]
      case isFalse hOpen => simp [hClose, hOpen]

/-! The language of the openings of SVG documents -/

/-- One item before the root element. -/
inductive IsItem : List Char → Prop
  | instruction (body : List Char) (h : ∀ c ∈ body, c ≠ '>') :
      IsItem ("<?".toList ++ body ++ "?>".toList)
  | comment (body : List Char) : IsItem ("<!--".toList ++ body ++ "-->".toList)
  | plainDoctype (name blanks : List Char) (hName : ∀ c ∈ name, c ≠ '>' ∧ c ≠ '[')
      (hBlanks : ∀ c ∈ blanks, isBlank c = true) :
      IsItem ("<!DOCTYPE".toList ++ name ++ blanks ++ ['>'])
  | doctype (name subset blanks : List Char) (hName : ∀ c ∈ name, c ≠ '>' ∧ c ≠ '[')
      (hBlanks : ∀ c ∈ blanks, isBlank c = true) :
      IsItem ("<!DOCTYPE".toList ++ name ++ '[' :: subset ++ ']' :: blanks ++ ['>'])

/-- An item, and then something of a kind. -/
def Passes (goal : List Char → Prop) (text : List Char) : Prop :=
  ∃ item rest, IsItem item ∧ text = item ++ rest ∧ goal rest

/-- The three readings after the mark that opens an item are those of an item. -/
theorem passes_iff (text : List Char) : Passes Starts text ↔
    Leads "<?".toList (fun rest => (front rest).instruction = true) text ∨
    Leads "<!--".toList (fun rest => (front rest).comment = true) text ∨
    Leads "<!DOCTYPE".toList (fun rest => (front rest).doctype = true) text := by
  simp only [instruction_iff, comment_iff, doctype_iff, subset_iff, closing_iff]
  constructor
  · rintro ⟨_, rest, hItem, rfl, hRest⟩
    cases hItem with
    | instruction body h =>
        exact Or.inl ⟨body ++ ("?>".toList ++ rest), by simp, body, _, h, rfl, rest, rfl, hRest⟩
    | comment body =>
        exact Or.inr (Or.inl ⟨body ++ ("-->".toList ++ rest), by simp,
          body, _, by simp, rfl, rest, rfl, hRest⟩)
    | plainDoctype name blanks hName hBlanks =>
        refine Or.inr (Or.inr ⟨name ++ blanks ++ '>' :: rest, by simp,
          name ++ blanks, _, ?_, rfl, Or.inl ⟨rest, rfl, hRest⟩⟩)
        rintro c hc
        rcases List.mem_append.mp hc with hc | hc
        · exact hName c hc
        · have hBlank := hBlanks c hc
          constructor <;> rintro rfl <;> exact absurd hBlank (by decide)
    | doctype name subset blanks hName hBlanks =>
        exact Or.inr (Or.inr ⟨name ++ '[' :: (subset ++ ']' :: (blanks ++ '>' :: rest)), by simp,
          name, _, hName, rfl, Or.inr ⟨_, rfl, subset, _, by simp, rfl, _, rfl,
            blanks, _, hBlanks, rfl, rest, rfl, hRest⟩⟩)
  · rintro (h | h | h)
    · obtain ⟨_, rfl, body, _, hBody, rfl, rest, rfl, hRest⟩ := h
      exact ⟨_, rest, .instruction body hBody, by simp, hRest⟩
    · obtain ⟨_, rfl, body, _, _, rfl, rest, rfl, hRest⟩ := h
      exact ⟨_, rest, .comment body, by simp, hRest⟩
    · obtain ⟨_, rfl, name, _, hName, rfl, hEnd | hEnd⟩ := h
      · obtain ⟨rest, rfl, hRest⟩ := hEnd
        exact ⟨_, rest, .plainDoctype name [] hName (by simp), by simp, hRest⟩
      · obtain ⟨_, rfl, subset, _, _, rfl, _, rfl, blanks, _, hBlanks, rfl, rest, rfl, hRest⟩ :=
          hEnd
        exact ⟨_, rest, .doctype name subset blanks hName hBlanks, by simp, hRest⟩

theorem not_starts_nil : ¬ Starts [] := nofun

/-- One step of the reading: a root, a blank, or an item. -/
theorem starts_cons : Starts (c :: rest) ↔ startsRoot (c :: rest) = true ∨
    (isBlank c = true ∧ Starts rest) ∨ Passes Starts (c :: rest) := by
  have hCons : (front (c :: rest)).prologue =
      (startsRoot (c :: rest) || (isBlank c && (front rest).prologue) ||
      ("<?".toList.isPrefixOf (c :: rest) && (front (rest.drop 1)).instruction) ||
      ("<!--".toList.isPrefixOf (c :: rest) && (front (rest.drop 3)).comment) ||
      ("<!DOCTYPE".toList.isPrefixOf (c :: rest) && (front (rest.drop 8)).doctype)) := by
    simp only [← headD_drop_readings]
    rfl
  rw [passes_iff, ← leads_iff, ← leads_iff, ← leads_iff, Starts, hCons]
  simp only [Bool.or_eq_true, Bool.and_eq_true, or_assoc]
  rfl

theorem starts_blanks {blanks : List Char} (hBlanks : ∀ c ∈ blanks, isBlank c = true)
    (h : Starts text) : Starts (blanks ++ text) := by
  induction blanks with
  | nil => exact h
  | cons c blanks ih =>
      obtain ⟨hFirst, hLater⟩ := List.forall_mem_cons.mp hBlanks
      exact starts_cons.mpr (Or.inr (Or.inl ⟨hFirst, ih hLater⟩))

theorem starts_of_passes (h : Passes Starts text) : Starts text := by
  cases text with
  | nil =>
      obtain ⟨item, rest, _, hText, hRest⟩ := h
      obtain ⟨_, rfl⟩ := List.append_eq_nil_iff.mp hText.symm
      exact hRest
  | cons c rest => exact starts_cons.mpr (Or.inr (Or.inr h))

theorem IsItem.length_pos {item : List Char} (h : IsItem item) : 0 < item.length := by
  cases h <;> simp

/-- Each item with the white space after it. -/
def joined (items : List (List Char × List Char)) : List Char :=
  items.flatMap fun part => part.1 ++ part.2

/-- A text reads as an opening exactly when it splits into white space, items and a root. -/
theorem starts_iff (text : List Char) : Starts text ↔ ∃ blanks items root,
    (∀ c ∈ blanks, isBlank c = true) ∧
    (∀ part ∈ items, IsItem part.1 ∧ ∀ c ∈ part.2, isBlank c = true) ∧
    startsRoot root = true ∧ text = blanks ++ joined items ++ root := by
  constructor
  · intro h
    -- an item takes several characters at once, so the induction is on the length
    induction hLength : text.length using Nat.strongRecOn generalizing text with
    | ind n ih =>
      cases text with
      | nil => exact absurd h not_starts_nil
      | cons c rest =>
        rcases starts_cons.mp h with hRoot | ⟨hBlank, hRest⟩ | ⟨item, rest', hItem, hText, hRest⟩
        · exact ⟨[], [], c :: rest, by simp, by simp, hRoot, rfl⟩
        · obtain ⟨blanks, items, root, hBlanks, hItems, hRoot, rfl⟩ :=
            ih rest.length (by simp [← hLength]) rest hRest rfl
          exact ⟨c :: blanks, items, root, List.forall_mem_cons.mpr ⟨hBlank, hBlanks⟩, hItems,
            hRoot, rfl⟩
        · have hShort : rest'.length < n := by
            have := hItem.length_pos
            rw [← hLength, hText, List.length_append]
            omega
          obtain ⟨blanks, items, root, hBlanks, hItems, hRoot, rfl⟩ :=
            ih rest'.length hShort rest' hRest rfl
          refine ⟨[], (item, blanks) :: items, root, by simp,
            List.forall_mem_cons.mpr ⟨⟨hItem, hBlanks⟩, hItems⟩, hRoot, ?_⟩
          simp [hText, joined]
  · rintro ⟨blanks, items, root, hBlanks, hItems, hRoot, rfl⟩
    rw [List.append_assoc]
    refine starts_blanks hBlanks ?_
    induction items with
    | nil =>
        cases root with
        | nil => exact absurd hRoot (by decide)
        | cons c rest => exact starts_cons.mpr (Or.inl hRoot)
    | cons part items ih =>
        obtain ⟨⟨hItem, hBlanks⟩, hItems⟩ := List.forall_mem_cons.mp hItems
        exact starts_of_passes ⟨part.1, part.2 ++ (joined items ++ root), hItem, by simp [joined],
          starts_blanks hBlanks (ih hItems)⟩

/-- The characters that may follow the name of the root. -/
def EndsName (c : Char) : Prop := isBlank c = true ∨ c = '>' ∨ c = '/'

theorem startsRoot_iff (text : List Char) : startsRoot text = true ↔
    ∃ ending rest, EndsName ending ∧ text = "<svg".toList ++ ending :: rest := by
  constructor
  · intro h
    unfold startsRoot at h
    split at h
    case h_1 ending rest =>
      refine ⟨ending, rest, ?_, rfl⟩
      simpa [EndsName, or_assoc] using h
    case h_2 => exact absurd h (by decide)
  · rintro ⟨ending, rest, hEnding, rfl⟩
    simpa [startsRoot, EndsName, or_assoc] using hEnding

end Parts

/-- How a text opens an SVG document: its parts up to the root, and what follows. -/
structure Opening where
  /-- A byte order mark stands first. -/
  marked : Bool
  blanks : List Char
  /-- Items, each with the white space after it. -/
  items : List (List Char × List Char)
  /-- The character after the name of the root. -/
  ending : Char
  rest : List Char
  blanks_blank : ∀ c ∈ blanks, isBlank c = true
  items_proper : ∀ part ∈ items, IsItem part.1 ∧ ∀ c ∈ part.2, isBlank c = true
  ending_ends : EndsName ending

def Opening.body (opening : Opening) : List Char :=
  opening.blanks ++ joined opening.items ++ "<svg".toList ++ opening.ending :: opening.rest

def Opening.text (opening : Opening) : List Char :=
  (if opening.marked then ['\uFEFF'] else []) ++ opening.body

/-- A mark makes no difference to the body. -/
theorem starts_iff_body (marked : Bool) (text : List Char) :
    Starts text ↔ ∃ opening : Opening, opening.marked = marked ∧ text = opening.body := by
  rw [starts_iff]
  constructor
  · rintro ⟨blanks, items, root, hBlanks, hItems, hRoot, rfl⟩
    obtain ⟨ending, rest, hEnding, rfl⟩ := (startsRoot_iff root).mp hRoot
    exact ⟨⟨marked, blanks, items, ending, rest, hBlanks, hItems, hEnding⟩, rfl,
      by simp [Opening.body]⟩
  · rintro ⟨opening, _, rfl⟩
    exact ⟨opening.blanks, opening.items, _, opening.blanks_blank, opening.items_proper,
      (startsRoot_iff _).mpr ⟨opening.ending, opening.rest, opening.ending_ends, rfl⟩,
      by simp [Opening.body]⟩

/-- A byte order mark is no white space, so it stands only before a body. -/
theorem not_starts_mark (rest : List Char) : ¬ Starts ('\uFEFF' :: rest) := by
  rw [starts_cons, passes_iff]
  rintro (h | ⟨h, _⟩ | ⟨_, h, _⟩ | ⟨_, h, _⟩ | ⟨_, h, _⟩)
  · exact absurd h (by simp [startsRoot])
  · exact absurd h (by decide)
  all_goals exact absurd (List.cons_eq_cons.mp h).1 (by decide)

/-- The texts that are accepted are the openings. -/
theorem accepts_iff (text : List Char) :
    accepts text = true ↔ ∃ opening : Opening, text = opening.text := by
  unfold accepts
  dsimp only
  split
  case h_1 rest =>
    change Starts rest ↔ _
    rw [starts_iff_body true]
    constructor
    · rintro ⟨opening, hMarked, rfl⟩
      exact ⟨opening, by simp [Opening.text, hMarked]⟩
    · rintro ⟨opening, hText⟩
      cases hMarked : opening.marked with
      | true => exact ⟨opening, hMarked, by simpa [Opening.text, hMarked] using hText⟩
      | false =>
          have hBody : '\uFEFF' :: rest = opening.body := by
            simpa [Opening.text, hMarked] using hText
          exact absurd ((starts_iff_body false _).mpr ⟨opening, hMarked, hBody⟩)
            (not_starts_mark rest)
  case h_2 _ hPlain =>
    change Starts text ↔ _
    rw [starts_iff_body false]
    constructor
    · rintro ⟨opening, hMarked, rfl⟩
      exact ⟨opening, by simp [Opening.text, hMarked]⟩
    · rintro ⟨opening, rfl⟩
      cases hMarked : opening.marked with
      | true => exact absurd (by simp [Opening.text, hMarked]) (hPlain opening.body)
      | false => exact ⟨opening, hMarked, by simp [Opening.text, hMarked]⟩

-- The comment may end at its second terminator.
example : accepts "<!-- a --> b -->\n<svg>".toList = true := by decide

end ImagePlacement.Svg.Prologue
