import ImagePlacement.Proofs.Sizing.NaturalFit

/-! The box of an image that extents are asked for. They are taken as they are, whatever room there
is; computed without rounding, one of them keeps the proportions of the image, and the two axes are
treated alike. -/
namespace ImagePlacement

open Exact

/-! The axes exchanged -/

section Swap

variable {α : Type}

def Size.swap (s : Size α) : Size α := ⟨s.height, s.width⟩

def Extents.swap (e : Extents α) : Extents α := ⟨e.height, e.width⟩

def Region.swap (r : Region α) : Region α := ⟨r.height, r.width⟩

def Box.swap (b : Box α) : Box α := ⟨b.height, b.width, b.scaleY, b.scaleX⟩

variable [Arithmetic α] {s : Size α} {e : Extents α} {r : Region α}

theorem Size.isPositive_swap (s : Size α) : s.swap.isPositive = s.isPositive := Bool.and_comm ..

theorem Extents.isValid_swap (e : Extents α) : e.swap.isValid = e.isValid := Bool.and_comm ..

/-- Only where no extent is given does anything depend on the order of the axes: on whether the
smaller of two scales is the same in both orders. -/
theorem Size.drawn_swap (hScale : s.swap.fitScale r.swap = s.fitScale r) (e : Extents α) :
    s.swap.drawn e.swap r.swap = (s.drawn e r).swap := by
  obtain ⟨width, height⟩ := e
  cases width with
  | none =>
      cases height with
      | none =>
          simp only [Size.drawn, Extents.swap, hScale]
          rfl
      | some h => rfl
  | some w =>
      cases height with
      | none => rfl
      | some h => rfl

theorem Box.fit_swap (s : Size α) (e : Extents α) (r : Region α)
    (hScale : s.isPositive = true → s.swap.fitScale r.swap = s.fitScale r) :
    Box.fit s.swap e.swap r.swap = (Box.fit s e r).map Box.swap := by
  simp only [Box.fit, Size.isPositive_swap, Extents.isValid_swap]
  cases hPositive : s.isPositive with
  | false => rfl
  | true =>
      cases e.isValid with
      | false => rfl
      | true =>
          simp only [Size.drawn_swap (hScale hPositive) e]
          rfl

end Swap

namespace Exact

/-- Of two numbers neither of which is smaller there is only one. -/
theorem eq_of_not_less {x y : Exact} (hx : x.isNumber = true) (hy : y.isNumber = true)
    (hLess : Arithmetic.less x y ≠ true) (hMore : Arithmetic.less y x ≠ true) : x = y := by
  change x.less y ≠ true at hLess
  change y.less x ≠ true at hMore
  cases x <;> cases y <;> grind [less, isNumber]

theorem least_comm {x y : Exact} (hx : x.isNumber = true) (hy : y.isNumber = true) :
    Arithmetic.least x y = Arithmetic.least y x := by
  have hFirst : Arithmetic.least x y = if Arithmetic.less y x then y else x := if_pos hx
  have hSecond : Arithmetic.least y x = if Arithmetic.less x y then x else y := if_pos hy
  rw [hFirst, hSecond]
  split
  · rename_i hMore
    split
    · rename_i hLess
      change y.less x = true at hMore
      change x.less y = true at hLess
      cases x <;> cases y <;> grind [less]
    · rfl
  · rename_i hMore
    split
    · rfl
    · rename_i hLess
      exact eq_of_not_less hx hy hLess hMore

/-- What an axis allows for a positive natural extent is a number. -/
theorem isNumber_limit_div (extent : Option Exact) {x : Exact}
    (hPositive : Arithmetic.less Arithmetic.zero x = true) :
    (((Region.limit? extent).map (· / x)).getD Arithmetic.unlimited).isNumber = true := by
  match extent with
  | none | some (.infinite _) | some .nan => rfl
  | some (.finite c) =>
      rw [limit?_finite]
      cases x with
      | finite b =>
          have hQuotient : finite (max c 0) / finite b = finite (max c 0 / b) :=
            finite_div _ (less_finite.mp hPositive).ne'
          simp only [Option.map_some, Option.getD_some, hQuotient]
          rfl
      | infinite negative => rfl
      | nan => cases hPositive

end Exact

theorem Size.fitScale_swap {s : Size Exact} (hPositive : s.isPositive = true) (r : Region Exact) :
    s.swap.fitScale r.swap = s.fitScale r := by
  obtain ⟨hWidth, hHeight⟩ := Bool.and_eq_true_iff.mp hPositive
  exact congrArg (Arithmetic.least · Arithmetic.one)
    (least_comm (isNumber_limit_div r.height hHeight) (isNumber_limit_div r.width hWidth))

/-! Given extents -/

section Given

variable {α : Type} [Arithmetic α] {s : Size α} {e : Extents α}

theorem Box.fit_eq_ok (hPositive : s.isPositive = true) (hValid : e.isValid = true)
    (r : Region α) : Box.fit s e r = .ok ⟨(s.drawn e r).width, (s.drawn e r).height,
      (s.drawn e r).width / s.width, (s.drawn e r).height / s.height⟩ := by
  simp only [Box.fit, hPositive, hValid, Bool.not_true, Bool.false_eq_true, if_false]

/-- The room counts for nothing once an extent is given. -/
theorem Size.drawn_eq_of_given (hGiven : e ≠ .natural) (r other : Region α) :
    s.drawn e r = s.drawn e other := by
  obtain ⟨width, height⟩ := e
  cases width with
  | none =>
      cases height with
      | none => exact absurd rfl hGiven
      | some h => rfl
  | some w =>
      cases height with
      | none => rfl
      | some h => rfl

theorem Size.drawn_width {w : α} (hWidth : e.width = some w) (r : Region α) :
    (s.drawn e r).width = w := by
  obtain ⟨width, height⟩ := e
  obtain rfl : width = some w := hWidth
  cases height with
  | none => rfl
  | some h => rfl

theorem Size.drawn_height {h : α} (hHeight : e.height = some h) (r : Region α) :
    (s.drawn e r).height = h := by
  obtain ⟨width, height⟩ := e
  obtain rfl : height = some h := hHeight
  cases width with
  | none => rfl
  | some w => rfl

theorem Box.exists_fit_of_given (hPositive : s.isPositive = true) (hValid : e.isValid = true)
    (hGiven : e ≠ .natural) : ∃ b, (∀ r, Box.fit s e r = .ok b) ∧
      (∀ w, e.width = some w → b.width = w) ∧ ∀ h, e.height = some h → b.height = h := by
  have hFit (r : Region α) : Box.fit s e r = .ok ⟨(s.drawn e .unbounded).width,
      (s.drawn e .unbounded).height, (s.drawn e .unbounded).width / s.width,
      (s.drawn e .unbounded).height / s.height⟩ := by
    rw [Box.fit_eq_ok hPositive hValid, Size.drawn_eq_of_given hGiven r .unbounded]
  exact ⟨_, hFit, fun _ hWidth => Size.drawn_width hWidth _,
    fun _ hHeight => Size.drawn_height hHeight _⟩

end Given

/-! One extent, computed without rounding -/

section Proportions

variable {width height w h : ℚ} {e : Extents Exact}

theorem isValid_width_iff : Extents.isValid ⟨some (finite w), none⟩ = true ↔ 0 ≤ w := by
  rw [← atMost_finite]
  exact Bool.and_eq_true_iff.trans (and_iff_left rfl)

theorem isValid_height_iff : Extents.isValid ⟨none, some (finite h)⟩ = true ↔ 0 ≤ h := by
  rw [← atMost_finite]
  exact Bool.and_eq_true_iff.trans (and_iff_right rfl)

/-- A valid request for one extent gives a finite one. -/
theorem exists_of_one (hValid : e.isValid = true) (hOne : e.width.isSome ≠ e.height.isSome) :
    (∃ w : ℚ, 0 ≤ w ∧ e = ⟨some (finite w), none⟩) ∨
      ∃ h : ℚ, 0 ≤ h ∧ e = ⟨none, some (finite h)⟩ := by
  match e with
  | ⟨none, none⟩ | ⟨some _, some _⟩ => exact absurd rfl hOne
  | ⟨some (finite w), none⟩ => exact Or.inl ⟨w, isValid_width_iff.mp hValid, rfl⟩
  | ⟨none, some (finite h)⟩ => exact Or.inr ⟨h, isValid_height_iff.mp hValid, rfl⟩
  | ⟨some (infinite _), none⟩ | ⟨some nan, none⟩ | ⟨none, some (infinite _)⟩ | ⟨none, some nan⟩ =>
      cases hValid

theorem fit_width (hWidth : 0 < width) (hHeight : 0 < height) (hw : 0 ≤ w) (r : Region Exact) :
    Box.fit ⟨finite width, finite height⟩ ⟨some (finite w), none⟩ r =
      .ok ⟨finite w, finite (w * height / width), finite (w / width), finite (w / width)⟩ := by
  have hOwn : w / width * width = w := div_mul_cancel₀ w hWidth.ne'
  have hOther : w / width * height = w * height / width := div_mul_eq_mul_div w width height
  have hDrawn : Size.drawn ⟨finite width, finite height⟩ ⟨some (finite w), none⟩ r =
      ⟨finite (w / width * width), finite (w / width * height)⟩ := by
    simp only [Size.drawn, finite_mul, finite_div _ hWidth.ne', hOwn, hOther]
  rw [fit_of_drawn hWidth hHeight (isValid_width_iff.mpr hw) hDrawn, hOwn, hOther]

/-- The same with the axes exchanged. -/
theorem fit_height (hWidth : 0 < width) (hHeight : 0 < height) (hh : 0 ≤ h) (r : Region Exact) :
    Box.fit ⟨finite width, finite height⟩ ⟨none, some (finite h)⟩ r =
      .ok ⟨finite (h * width / height), finite h, finite (h / height), finite (h / height)⟩ := by
  have hSwap : Box.fit ⟨finite width, finite height⟩ ⟨none, some (finite h)⟩ r =
      (Box.fit ⟨finite height, finite width⟩ ⟨some (finite h), none⟩ r.swap).map Box.swap :=
    Box.fit_swap ⟨finite height, finite width⟩ ⟨some (finite h), none⟩ r.swap
      fun hPositive => Size.fitScale_swap hPositive r.swap
  rw [hSwap, fit_width hHeight hWidth hh]
  rfl

/-- One extent keeps the proportions. -/
theorem exists_fit_of_one (hWidth : 0 < width) (hHeight : 0 < height) (hValid : e.isValid = true)
    (hOne : e.width.isSome ≠ e.height.isSome) (r : Region Exact) : ∃ w h t : ℚ,
      Box.fit ⟨finite width, finite height⟩ e r =
        .ok ⟨finite w, finite h, finite t, finite t⟩ ∧ h * width = w * height := by
  rcases exists_of_one hValid hOne with ⟨w, hw, rfl⟩ | ⟨h, hh, rfl⟩
  · exact ⟨w, w * height / width, w / width, fit_width hWidth hHeight hw r,
      div_mul_cancel₀ _ hWidth.ne'⟩
  · exact ⟨h * width / height, h, h / height, fit_height hWidth hHeight hh r,
      (div_mul_cancel₀ _ hHeight.ne').symm⟩

/-- It is the same to ask for a width and for the height that goes with it. -/
theorem fit_width_eq_fit_height (hWidth : 0 < width) (hHeight : 0 < height) (hw : 0 ≤ w)
    (r : Region Exact) : Box.fit ⟨finite width, finite height⟩ ⟨some (finite w), none⟩ r =
      Box.fit ⟨finite width, finite height⟩ ⟨none, some (finite (w * height / width))⟩ r := by
  have hh : 0 ≤ w * height / width := div_nonneg (mul_nonneg hw hHeight.le) hWidth.le
  have hBack : w * height / width * width / height = w := by
    rw [div_mul_cancel₀ _ hWidth.ne', mul_div_cancel_right₀ w hHeight.ne']
  have hScale : w * height / width / height = w / width := by
    rw [div_right_comm, mul_div_cancel_right₀ w hHeight.ne']
  rw [fit_width hWidth hHeight hw, fit_height hWidth hHeight hh, hBack, hScale]

end Proportions

/-- Once an extent is given, the box does not depend on the room, and has the extents that are given;
this in any arithmetic. Computed without rounding, one extent alone keeps the proportions, the width
and the height that goes with it ask for the same box, and exchanging the axes of the image, of the
request and of the room exchanges those of the box, also where no extent is given. -/
theorem fit_given :
    (∀ (α : Type) [Arithmetic α] (s : Size α) (e : Extents α), s.isPositive = true →
      e.isValid = true → e ≠ .natural → ∃ b, (∀ r, Box.fit s e r = .ok b) ∧
        (∀ w, e.width = some w → b.width = w) ∧ ∀ h, e.height = some h → b.height = h) ∧
    (∀ width height : ℚ, 0 < width → 0 < height → ∀ r : Region Exact,
      (∀ e : Extents Exact, e.isValid = true → e.width.isSome ≠ e.height.isSome → ∃ w h t : ℚ,
        Box.fit ⟨finite width, finite height⟩ e r =
          .ok ⟨finite w, finite h, finite t, finite t⟩ ∧ h * width = w * height) ∧
      ∀ w : ℚ, 0 ≤ w → Box.fit ⟨finite width, finite height⟩ ⟨some (finite w), none⟩ r =
        Box.fit ⟨finite width, finite height⟩ ⟨none, some (finite (w * height / width))⟩ r) ∧
    ∀ (s : Size Exact) (e : Extents Exact) (r : Region Exact),
      Box.fit s.swap e.swap r.swap = (Box.fit s e r).map Box.swap := by
  refine ⟨fun α _ s e => Box.exists_fit_of_given, fun width height hWidth hHeight r => ?_,
    fun s e r => Box.fit_swap s e r fun hPositive => Size.fitScale_swap hPositive r⟩
  exact ⟨fun e hValid hOne => exists_fit_of_one hWidth hHeight hValid hOne r,
    fun w hw => fit_width_eq_fit_height hWidth hHeight hw r⟩

/-- An image of 400 by 200 that is asked to be 30 wide, in binary64 and without rounding, and the
same image turned on its side. -/
theorem fit_given_wide :
    (∃ b, (∀ r, Box.fit (⟨400, 200⟩ : Size Float) ⟨some 30, none⟩ r = .ok b) ∧ b.width = 30) ∧
    (∃ w h t : ℚ, Box.fit ⟨finite 400, finite 200⟩ ⟨some (finite 30), none⟩ .unbounded =
      .ok ⟨finite w, finite h, finite t, finite t⟩ ∧ h * 400 = w * 200) ∧
    (∀ r, Box.fit ⟨finite 400, finite 200⟩ ⟨some (finite 30), none⟩ r =
      Box.fit ⟨finite 400, finite 200⟩ ⟨none, some (finite (30 * 200 / 400))⟩ r) ∧
    Box.fit ⟨finite 200, finite 400⟩ ⟨none, some (finite 30)⟩ .unbounded =
      (Box.fit ⟨finite 400, finite 200⟩ ⟨some (finite 30), none⟩ .unbounded).map Box.swap := by
  obtain ⟨hGiven, hOne, hSwap⟩ := fit_given
  have hWidth : (0 : ℚ) < 400 := by norm_num
  have hHeight : (0 : ℚ) < 200 := by norm_num
  have hValid : Extents.isValid ⟨some (finite 30), none⟩ = true :=
    isValid_width_iff.mpr (by norm_num)
  refine ⟨?_, (hOne 400 200 hWidth hHeight _).1 _ hValid (by simp),
    fun r => (hOne 400 200 hWidth hHeight r).2 30 (by norm_num),
    hSwap ⟨finite 400, finite 200⟩ ⟨some (finite 30), none⟩ .unbounded⟩
  have hWide : (⟨some 30, none⟩ : Extents Float) ≠ .natural := by
    intro h
    cases congrArg Extents.width h
  obtain ⟨b, hFit, hTaken, -⟩ :=
    hGiven Float ⟨400, 200⟩ ⟨some 30, none⟩ (by decide) (by decide) hWide
  exact ⟨b, hFit, hTaken 30 rfl⟩

end ImagePlacement
