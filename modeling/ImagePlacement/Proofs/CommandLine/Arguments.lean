import ImagePlacement.CommandLine.Arguments

/-! What an order asks for is what the sizing can work with. An extent is judged where it is read,
and every argument that follows keeps it. -/
namespace ImagePlacement

section Except

variable {ε ε' α β : Type}

theorem exists_of_bind_eq_ok {x : Except ε α} {f : α → Except ε β} {b : β}
    (h : x >>= f = .ok b) : ∃ a, x = .ok a ∧ f a = .ok b := by
  cases x with
  | error e => cases h
  | ok a => exact ⟨a, rfl, h⟩

theorem eq_ok_of_mapError {x : Except ε α} {f : ε → ε'} {a : α} (h : x.mapError f = .ok a) :
    x = .ok a := by
  cases x with
  | error e => cases h
  | ok value => exact congrArg Except.ok (Except.ok.inj h)

end Except

/-- A finite number that is not below zero is at least zero, also if it is the negative zero. -/
theorem zero_le_of_not_lt {x : Float} (hFinite : x.isFinite = true) (h : ¬ x < 0.0) : 0.0 ≤ x := by
  have hZero : (0.0 : Float).toModel.unpack = .zero .positive := rfl
  replace h : (x.toModel.unpack.compare (0.0 : Float).toModel.unpack == some .lt) ≠ true :=
    fun hLess => h (decide_eq_true hLess)
  replace hFinite : x.toModel.unpack.isFinite = true := hFinite
  suffices hLe : ((0.0 : Float).toModel.unpack.compare x.toModel.unpack).any Ordering.isLE = true
    from decide_eq_true hLe
  rw [hZero] at h ⊢
  cases hUnpack : x.toModel.unpack with
  | infinity sign =>
      rw [hUnpack] at hFinite
      cases hFinite
  | notANumber =>
      rw [hUnpack] at hFinite
      cases hFinite
  | zero sign => rfl
  | finite sign mantissa exponent hPositive =>
      rw [hUnpack] at h
      cases sign with
      | positive => rfl
      | negative => exact absurd rfl h

/-- An extent that a document may ask for. -/
def IsExtent (x : Float) : Prop := x.isFinite = true ∧ 0.0 ≤ x

theorem Extents.isValid_iff {e : Extents Float} : e.isValid = true ↔
    (∀ x, e.width = some x → IsExtent x) ∧ ∀ x, e.height = some x → IsExtent x := by
  have hAxis (extent : Option Float) :
      extent.all (fun x => Arithmetic.isFinite x && Arithmetic.atMost Arithmetic.zero x) = true ↔
        ∀ x, extent = some x → IsExtent x := by
    cases extent with
    | none => simp
    | some x => simp [IsExtent, Arithmetic.isFinite, Arithmetic.atMost, Arithmetic.zero]
  simp only [isValid, Bool.and_eq_true, hAxis]

namespace CommandLine

/-- Words for a number that is not finite are refused, and so is everything below zero. -/
theorem isExtent_of_readExtent {text : String} {x : Float} (h : readExtent text = .ok x) :
    IsExtent x := by
  unfold readExtent at h
  split at h
  · cases h
  · rename_i read _
    split at h
    · cases h
    · rename_i hExtent
      obtain rfl := Except.ok.inj h
      simp only [Bool.or_eq_true, Bool.not_eq_true', decide_eq_true_eq, not_or,
        Bool.not_eq_false] at hExtent
      exact ⟨hExtent.1, zero_le_of_not_lt hExtent.1 hExtent.2⟩

namespace Accepted

variable {a b : Accepted}

/-- An option replaces at most one extent, by one that has been judged. -/
theorem isValid_assign (hValid : a.extents.isValid = true) {p : Parameter} {value : String}
    (h : a.assign p value = .ok b) : b.extents.isValid = true := by
  rw [Extents.isValid_iff] at hValid ⊢
  simp only [assign] at h
  split at h
  · cases h
  · cases p with
    | width =>
        obtain ⟨x, hRead, hRest⟩ := exists_of_bind_eq_ok h
        obtain rfl := Except.ok.inj hRest
        refine ⟨?_, hValid.2⟩
        rintro _ ⟨⟩
        exact isExtent_of_readExtent (eq_ok_of_mapError hRead)
    | height =>
        obtain ⟨x, hRead, hRest⟩ := exists_of_bind_eq_ok h
        obtain rfl := Except.ok.inj hRest
        refine ⟨hValid.1, ?_⟩
        rintro _ ⟨⟩
        exact isExtent_of_readExtent (eq_ok_of_mapError hRead)
    | containerWidth =>
        obtain ⟨x, -, hRest⟩ := exists_of_bind_eq_ok h
        obtain rfl := Except.ok.inj hRest
        exact hValid
    | containerHeight =>
        obtain ⟨x, -, hRest⟩ := exists_of_bind_eq_ok h
        obtain rfl := Except.ok.inj hRest
        exact hValid
    | config =>
        dsimp only at h
        split at h
        · cases h
        · obtain rfl := Except.ok.inj h
          exact hValid
    | repeats =>
        dsimp only at h
        split at h
        · obtain rfl := Except.ok.inj h
          exact hValid
        · cases h

theorem isValid_settle (hValid : a.extents.isValid = true) {pending : Option Pending}
    (h : a.settle pending = .ok b) : b.extents.isValid = true := by
  unfold settle at h
  split at h
  · obtain rfl := Except.ok.inj h
    exact hValid
  · exact isValid_assign hValid h
  · cases h
  · cases h
  · obtain rfl := Except.ok.inj h
    exact hValid

end Accepted

namespace Reader

variable {r t : Reader}

theorem isValid_takeOption (hValid : r.accepted.extents.isValid = true) {argument : String}
    {text : List Char} (h : r.takeOption argument text = .ok t) :
    t.accepted.extents.isValid = true := by
  unfold takeOption at h
  dsimp only at h
  split at h
  · cases h
  · obtain ⟨accepted, hSettled, hRest⟩ := exists_of_bind_eq_ok h
    have hKept := Accepted.isValid_settle hValid hSettled
    split at hRest
    · obtain ⟨assigned, hAssigned, hRest⟩ := exists_of_bind_eq_ok hRest
      obtain rfl := Except.ok.inj hRest
      exact Accepted.isValid_assign hKept hAssigned
    · obtain rfl := Except.ok.inj hRest
      exact hKept

/-- A letter only ever asks for a description. -/
theorem takeLetter_ne_ok (r t : Reader) (argument : String) (letter : Char) :
    r.takeLetter argument letter ≠ .ok t := by
  intro h
  unfold takeLetter at h
  split at h
  · obtain ⟨_, _, hRest⟩ := exists_of_bind_eq_ok h
    cases hRest
  · split at h
    · obtain ⟨_, _, hRest⟩ := exists_of_bind_eq_ok h
      cases hRest
    · cases h

theorem isValid_takePlain (hValid : r.accepted.extents.isValid = true) {argument : String}
    (h : r.takePlain argument = .ok t) : t.accepted.extents.isValid = true := by
  unfold takePlain at h
  split at h
  · obtain rfl := Except.ok.inj h
    exact hValid
  · split at h
    · cases h
    · obtain ⟨accepted, hSettled, hRest⟩ := exists_of_bind_eq_ok h
      obtain rfl := Except.ok.inj hRest
      exact Accepted.isValid_settle hValid hSettled

theorem isValid_step (hValid : r.accepted.extents.isValid = true) {argument : String}
    (h : r.step argument = .ok t) : t.accepted.extents.isValid = true := by
  unfold step at h
  split at h
  · obtain rfl := Except.ok.inj h
    exact hValid
  · split at h
    · exact absurd h (takeLetter_ne_ok r t _ _)
    · split at h
      · exact absurd h (takeLetter_ne_ok r t _ _)
      · exact isValid_takeOption hValid h
  · exact absurd h (takeLetter_ne_ok r t _ _)
  · exact isValid_takePlain hValid h

theorem isValid_run {arguments : List String} (hValid : r.accepted.extents.isValid = true)
    (h : arguments.foldlM step r = .ok t) : t.accepted.extents.isValid = true := by
  induction arguments generalizing r with
  | nil =>
      obtain rfl := Except.ok.inj h
      exact hValid
  | cons argument rest ih =>
      rw [List.foldlM_cons] at h
      obtain ⟨next, hNext, hRest⟩ := exists_of_bind_eq_ok h
      exact ih (isValid_step hValid hNext) hRest

end Reader

/-- Whatever the arguments are, the extents of an order that comes of them may be asked for. -/
theorem Order.isValid_of_ofArguments {arguments : List String} {order : Order}
    (h : ofArguments arguments = .ok order) : order.extents.isValid = true := by
  obtain ⟨r, hRun, hRest⟩ := exists_of_bind_eq_ok h
  obtain ⟨accepted, hSettled, hOrder⟩ := exists_of_bind_eq_ok hRest
  have hValid := Accepted.isValid_settle (Reader.isValid_run rfl hRun) hSettled
  unfold Accepted.order at hOrder
  split at hOrder
  · obtain rfl := Except.ok.inj hOrder
    exact hValid
  · cases hOrder

end CommandLine

end ImagePlacement
