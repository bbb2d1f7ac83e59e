import ImagePlacement.Text.Blank
import Mathlib.Data.List.Basic

/-! Blanks around a text. Trimming takes away all of them and nothing else. -/
namespace ImagePlacement

variable {text body before : List Char}

/-- What remains of a text without the blanks around it. -/
def Trims (text body : List Char) : Prop :=
  ∃ before after, text = before ++ body ++ after ∧ (∀ c ∈ before, isBlank c = true) ∧
    (∀ c ∈ after, isBlank c = true) ∧ (∀ c ∈ body.head?, isBlank c = false) ∧
    ∀ c ∈ body.getLast?, isBlank c = false

theorem skipBlanks_append (h : ∀ c ∈ before, isBlank c = true) (rest : List Char) :
    skipBlanks (before ++ rest) = skipBlanks rest := List.dropWhile_append_of_pos h

theorem skipBlanks_eq_self (h : ∀ c ∈ text.head?, isBlank c = false) : skipBlanks text = text := by
  cases text with
  | nil => rfl
  | cons c text =>
      have hShown : ¬ isBlank c = true := Bool.not_eq_true _ ▸ h c rfl
      exact List.dropWhile_cons_of_neg hShown

theorem exists_skipBlanks (text : List Char) : ∃ before, text = before ++ skipBlanks text ∧
    (∀ c ∈ before, isBlank c = true) ∧ ∀ c ∈ (skipBlanks text).head?, isBlank c = false := by
  refine ⟨text.takeWhile isBlank, List.takeWhile_append_dropWhile.symm,
    List.all_eq_true.mp List.all_takeWhile, ?_⟩
  intro c hc
  have hHead := List.head?_dropWhile_not isBlank text
  rw [skipBlanks] at hc
  rw [hc] at hHead
  simpa using hHead

theorem trims_trimBlanks (text : List Char) : Trims text (trimBlanks text) := by
  obtain ⟨before, hText, hBefore, hHead⟩ := exists_skipBlanks text
  obtain ⟨after, hBack, hAfter, hLast⟩ := exists_skipBlanks (skipBlanks text).reverse
  have hFront : skipBlanks text = trimBlanks text ++ after.reverse := by
    rw [trimBlanks, ← List.reverse_append, ← hBack, List.reverse_reverse]
  refine ⟨before, after.reverse, ?_, hBefore, ?_, ?_, ?_⟩
  · rw [List.append_assoc, ← hFront]
    exact hText
  · intro c hc
    exact hAfter c (List.mem_reverse.mp hc)
  · intro c hc
    apply hHead c
    rw [hFront, List.head?_append, hc]
    rfl
  · rwa [trimBlanks, List.getLast?_reverse]

theorem trimBlanks_of_trims (h : Trims text body) : trimBlanks text = body := by
  obtain ⟨before, after, rfl, hBefore, hAfter, hHead, hLast⟩ := h
  have hReverse : ∀ c ∈ after.reverse, isBlank c = true := fun c hc =>
    hAfter c (List.mem_reverse.mp hc)
  rw [trimBlanks, List.append_assoc, skipBlanks_append hBefore]
  cases body with
  | nil =>
      have hSkipped : skipBlanks after = [] := by
        rw [← List.append_nil after, skipBlanks_append hAfter]
        rfl
      rw [List.nil_append, hSkipped]
      rfl
  | cons c body =>
      have hFront : skipBlanks (c :: body ++ after) = c :: body ++ after :=
        skipBlanks_eq_self fun d hd => hHead d hd
      rw [hFront, List.reverse_append, skipBlanks_append hReverse, skipBlanks_eq_self,
        List.reverse_reverse]
      rwa [List.head?_reverse]

theorem trimBlanks_eq_iff : trimBlanks text = body ↔ Trims text body := by
  constructor
  · rintro rfl
    exact trims_trimBlanks text
  · exact trimBlanks_of_trims

end ImagePlacement
