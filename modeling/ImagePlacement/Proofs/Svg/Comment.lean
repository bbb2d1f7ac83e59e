import ImagePlacement.Proofs.Svg.Prologue

/-! A comment before the root. It may end at its first terminator or at any later one, so it can
pass over text that is not white space. -/
namespace ImagePlacement.Svg.Prologue

variable {body rest text : List Char}

/-- A document opens behind a terminator in the text. -/
def Resumes (text : List Char) : Prop :=
  ∃ (skipped : List Char) (opening : Opening),
    opening.marked = false ∧ text = skipped ++ "-->".toList ++ opening.text

theorem resumes_iff :
    Resumes text ↔ Skips (fun _ => True) (Leads "-->".toList Starts) text := by
  constructor
  · rintro ⟨skipped, opening, hMarked, rfl⟩
    have hStarts : Starts opening.text :=
      (starts_iff_body false _).mpr ⟨opening, hMarked, by simp [Opening.text, hMarked]⟩
    exact ⟨skipped, _, by simp, List.append_assoc .., _, rfl, hStarts⟩
  · rintro ⟨skipped, _, _, rfl, after, rfl, hAfter⟩
    obtain ⟨opening, hMarked, rfl⟩ := (starts_iff_body false after).mp hAfter
    exact ⟨skipped, opening, hMarked, by simp [Opening.text, hMarked]⟩

/-- Only a comment can be read where its mark stands. -/
theorem starts_mark_iff : Starts ("<!--".toList ++ text) ↔ Resumes text := by
  have hText : "<!--".toList ++ text = '<' :: '!' :: '-' :: '-' :: text := rfl
  have hRoot : startsRoot ('<' :: '!' :: '-' :: '-' :: text) = false := rfl
  have hBlank : isBlank '<' = false := by decide
  have hInstruction (goal : List Char → Prop) :
      ¬ Leads "<?".toList goal ('<' :: '!' :: '-' :: '-' :: text) := by
    rintro ⟨_, h, _⟩
    exact absurd h (by simp)
  have hDoctype (goal : List Char → Prop) :
      ¬ Leads "<!DOCTYPE".toList goal ('<' :: '!' :: '-' :: '-' :: text) := by
    rintro ⟨_, h, _⟩
    exact absurd h (by simp)
  rw [hText, starts_cons, passes_iff, resumes_iff, ← comment_iff]
  simp only [hRoot, hBlank, hInstruction, hDoctype, Bool.false_eq_true, false_and, false_or,
    or_false]
  constructor
  · rintro ⟨after, hAfter, h⟩
    obtain rfl : text = after := by simpa using hAfter
    exact h
  · intro h
    exact ⟨text, rfl, h⟩

/-- No terminator begins inside a text without one, not even where that text ends. -/
theorem not_leads_inside {goal : List Char → Prop} {c : Char}
    (h : ¬ "-->".toList <:+: c :: body) :
    ¬ Leads "-->".toList goal (c :: body ++ ("-->".toList ++ rest)) := by
  rintro ⟨after, hText, _⟩
  match body with
  | [] => simp at hText
  | [_] => simp at hText
  | b :: b' :: body =>
      obtain ⟨rfl, rfl, rfl, -⟩ : c = '-' ∧ b = '-' ∧ b' = '>' ∧ _ := by simpa using hText
      exact h ⟨[], body, rfl⟩

/-- Behind a text without terminators the document opens after the first terminator or later. -/
theorem resumes_append_iff (hBody : ¬ "-->".toList <:+: body) :
    Resumes (body ++ ("-->".toList ++ rest)) ↔ Starts rest ∨ Resumes rest := by
  induction body with
  | nil =>
      have hHere : Leads "-->".toList Starts ('-' :: '-' :: '>' :: rest) ↔ Starts rest := by
        constructor
        · rintro ⟨after, hText, hAfter⟩
          obtain rfl : rest = after := by simpa using hText
          exact hAfter
        · intro h
          exact ⟨rest, rfl, h⟩
      have hSecond : ¬ Leads "-->".toList Starts ('-' :: '>' :: rest) := by
        rintro ⟨_, hText, _⟩
        simp at hText
      have hThird : ¬ Leads "-->".toList Starts ('>' :: rest) := by
        rintro ⟨_, hText, _⟩
        simp at hText
      change Resumes ('-' :: '-' :: '>' :: rest) ↔ _
      simp only [resumes_iff, skips_cons, hHere, hSecond, hThird, true_and, false_or]
  | cons c body ih =>
      have hLater : ¬ "-->".toList <:+: body := fun h => hBody (List.infix_cons h)
      rw [← ih hLater, resumes_iff, resumes_iff, List.cons_append, skips_cons, true_and]
      exact or_iff_right (not_leads_inside hBody)

/-- A text behind a comment opens a document when it does so by itself, and also when what stands
behind a later terminator does. -/
theorem starts_comment_iff (hBody : ¬ "-->".toList <:+: body) :
    Starts ("<!--".toList ++ (body ++ ("-->".toList ++ rest))) ↔ Starts rest ∨ Resumes rest := by
  rw [starts_mark_iff, resumes_append_iff hBody]

theorem accepts_eq_true_iff_starts (h : text.head? ≠ some '\uFEFF') :
    accepts text = true ↔ Starts text := by
  unfold accepts
  dsimp only
  split
  case h_1 => exact absurd rfl h
  case h_2 => rfl

end ImagePlacement.Svg.Prologue
