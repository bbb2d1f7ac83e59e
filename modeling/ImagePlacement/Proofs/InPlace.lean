import ImagePlacement.Bytes
import ImagePlacement.Failure
import Mathlib.Data.List.Basic

/-! Bytes that are read where they stand. Offsets are words: an access outside the bytes and a sum
that is no word abandon the computation, as does a loop that takes more rounds than it may. -/
namespace ImagePlacement

namespace Outcome

variable {ε α β : Type}

instance : Monad (Outcome ε) where
  pure := done
  bind := bind

@[simp] theorem done_bind (a : α) (f : α → Outcome ε β) : done a >>= f = f a := rfl

@[simp] theorem bind_pure (x : Outcome ε α) : x >>= pure = x := by
  cases x <;> rfl

@[simp] theorem ofExcept_ok (a : α) : (ofExcept (.ok a) : Outcome ε α) = done a := rfl

end Outcome

/-! Bytes that are split off at a place -/

theorem Bytes.splitAt?_of_le {bs : Bytes} {place n : Nat} (h : place + n ≤ bs.length) :
    splitAt? n (bs.drop place) = some ((bs.drop place).take n, bs.drop (place + n)) := by
  have hLength : ((bs.drop place).take n).length = n := by
    rw [List.length_take, List.length_drop]
    omega
  rw [splitAt?, ← List.drop_drop]
  exact if_pos hLength

theorem Bytes.splitAt?_of_lt {bs : Bytes} {place n : Nat} (hPlace : place ≤ bs.length)
    (h : bs.length < place + n) : splitAt? n (bs.drop place) = none := by
  rw [splitAt?_eq_none_iff, List.length_drop]
  omega

namespace InPlace

variable {ε α β σ : Type} {bs : Bytes} {start stop place : Nat}

/-! Access -/

/-- The sum of two offsets. -/
def sum (a b : Nat) : Outcome ε Nat :=
  if a + b < UInt64.size then .done (a + b) else .aborted "attempt to add with overflow"

/-- The bytes from one place up to another, if both are inside. -/
def slice? (bs : Bytes) (start stop : Nat) : Option Bytes :=
  if start ≤ stop ∧ stop ≤ bs.length then some ((bs.drop start).take (stop - start)) else none

/-- The bytes from one place up to another. -/
def slice (bs : Bytes) (start stop : Nat) : Outcome ε Bytes :=
  match slice? bs start stop with
  | some part => .done part
  | none => .aborted "range out of bounds"

/-- The byte at a place. -/
def byte (bs : Bytes) (place : Nat) : Outcome ε UInt8 :=
  match bs[place]? with
  | some b => .done b
  | none => .aborted "index out of bounds"

/-- The number of the first four bytes. -/
def word (bs : Bytes) : Outcome ε UInt32 := do
  let a ← byte bs 0
  let b ← byte bs 1
  let c ← byte bs 2
  let d ← byte bs 3
  return UInt32.ofNat (Bytes.toNat [a, b, c, d])

/-- The number of the first two bytes. -/
def half (bs : Bytes) : Outcome ε UInt16 := do
  let a ← byte bs 0
  let b ← byte bs 1
  return UInt16.ofNat (Bytes.toNat [a, b])

theorem sum_eq {a b : Nat} (h : a + b ≤ 0xFFFFFFFFFFFFFFFF) :
    (sum a b : Outcome ε Nat) = .done (a + b) :=
  if_pos (Nat.lt_succ_of_le h)

theorem slice_eq (hStart : start ≤ stop) (hStop : stop ≤ bs.length) :
    (slice bs start stop : Outcome ε Bytes) = .done ((bs.drop start).take (stop - start)) := by
  rw [slice, slice?, if_pos ⟨hStart, hStop⟩]

theorem byte_eq {b : UInt8} (h : bs[place]? = some b) :
    (byte bs place : Outcome ε UInt8) = .done b := by
  rw [byte, h]

/-- Bytes from a place on are those that can be split off there. -/
theorem slice?_eq (h : start ≤ bs.length) (n : Nat) :
    slice? bs start (start + n) = (Bytes.splitAt? n (bs.drop start)).map Prod.fst := by
  have hCount : start + n - start = n := Nat.add_sub_cancel_left start n
  have hFits : (start ≤ start + n ∧ start + n ≤ bs.length) ↔
      ((bs.drop start).take n).length = n := by
    rw [List.length_take, List.length_drop]
    omega
  simp only [slice?, Bytes.splitAt?, hFits, hCount]
  split <;> rfl

theorem word_eq (h : bs.length = 4) :
    (word bs : Outcome ε UInt32) = .done (UInt32.ofNat (Bytes.toNat bs)) := by
  match bs with
  | [a, b, c, d] => rfl
  | [] | [_] | [_, _] | [_, _, _] | _ :: _ :: _ :: _ :: _ :: _ => simp at h

theorem half_eq (h : bs.length = 2) :
    (half bs : Outcome ε UInt16) = .done (UInt16.ofNat (Bytes.toNat bs)) := by
  match bs with
  | [a, b] => rfl
  | [] | [_] | _ :: _ :: _ :: _ => simp at h

/-- From the place of a byte on the bytes start with it. -/
theorem drop_of_getElem? {b : UInt8} (h : bs[place]? = some b) :
    bs.drop place = b :: bs.drop (place + 1) := by
  obtain ⟨hPlace, rfl⟩ := List.getElem?_eq_some_iff.mp h
  exact List.drop_eq_getElem_cons hPlace

/-! Loops -/

/-- What a round of a loop comes to: another round, or the end of the loop. -/
inductive Round (σ α : Type) where
  | again (state : σ)
  | leave (value : α)

/-- What comes of a round, by what comes of another one and of the end. -/
def Round.elim (again : σ → β) (leave : α → β) : Round σ α → β
  | .again s => again s
  | .leave value => leave value

/-- A loop that goes round again so many times at most. -/
def loop (round : σ → Outcome ε (Round σ α)) : Nat → σ → Outcome ε α
  | 0, s => round s >>= Round.elim (fun _ => .aborted "too many rounds") pure
  | rounds + 1, s => round s >>= Round.elim (loop round rounds) pure

/-- What is known after some rounds of a walk, and the offset at which it goes on. -/
structure Position (κ : Type) where
  survey : κ
  offset : Nat

/-- Exactly so many rounds of a loop, none of them its last. -/
inductive RunsFor (round : σ → Outcome ε (Round σ α)) : σ → σ → Nat → Prop where
  | zero (s : σ) : RunsFor round s s 0
  | succ {s t u : σ} {rounds : Nat} (prior : RunsFor round s t rounds)
      (last : round t = .done (.again u)) : RunsFor round s u (rounds + 1)

/-- Any number of rounds takes the offset further, by one place in each round at least, but not past
the end. -/
def Climbs (round : σ → Outcome ε (Round σ α)) (offset : σ → Nat) (size : Nat) : Prop :=
  ∀ s t rounds, offset s ≤ size → RunsFor round s t rounds →
    offset s + rounds ≤ offset t ∧ offset t ≤ size

/-- What a round may come to, if a result is what the loop comes to: it fails as the result does,
or goes on at a place further to the end from where the result is the same, or ends the loop. -/
inductive Agrees (result : σ → Outcome ε β) (next : α → Outcome ε β) (offset : σ → Nat) (size : Nat)
    (s : σ) : Outcome ε (Round σ α) → Prop where
  | failed {e : ε} (same : result s = .failed e) : Agrees result next offset size s (.failed e)
  | again {t : σ} (same : result s = result t) (further : offset s < offset t)
      (within : offset t ≤ size) : Agrees result next offset size s (.done (.again t))
  | leave {value : α} (same : result s = next value) :
      Agrees result next offset size s (.done (.leave value))

section Loop

variable {round : σ → Outcome ε (Round σ α)} {result : σ → Outcome ε β} {next : α → Outcome ε β}
  {offset : σ → Nat} {size : Nat}

theorem climbs_of_agrees
    (agrees : ∀ s, offset s ≤ size → Agrees result next offset size s (round s)) :
    Climbs round offset size := by
  intro s t rounds hStart run
  induction run with
  | zero => exact ⟨Nat.le_refl _, hStart⟩
  | succ prior last ih =>
      obtain ⟨hPrior, hInside⟩ := ih
      have hLast := agrees _ hInside
      rw [last] at hLast
      cases hLast with
      | again same further within => exact ⟨by omega, within⟩

theorem Agrees.bind_eq {s : σ} {outcome : Outcome ε (Round σ α)}
    (agrees : Agrees result next offset size s outcome) {restart : σ → Outcome ε α}
    (hRestart : ∀ t, offset s < offset t → offset t ≤ size → restart t >>= next = result t) :
    outcome >>= Round.elim restart pure >>= next = result s := by
  cases agrees with
  | failed same => exact same.symm
  | leave same => exact same.symm
  | again same further within => exact (hRestart _ further within).trans same.symm

/-- A round that passes over some places first agrees with the same result. -/
theorem Agrees.of_le {s t : σ} {outcome : Outcome ε (Round σ α)}
    (agrees : Agrees result next offset size t outcome) (hResult : result s = result t)
    (hBefore : offset s ≤ offset t) : Agrees result next offset size s outcome := by
  cases agrees with
  | failed same => exact .failed (hResult.trans same)
  | again same further within =>
      exact .again (hResult.trans same) (Nat.lt_of_le_of_lt hBefore further) within
  | leave same => exact .leave (hResult.trans same)

/-- A round that takes the same decision as the result does. -/
theorem Agrees.ite {s : σ} {p : Prop} [Decidable p] {x y : Outcome ε (Round σ α)}
    {a b : Except ε β} (same : result s = .ofExcept (if p then a else b))
    (hThen : p → result s = .ofExcept a → Agrees result next offset size s x)
    (hElse : ¬ p → result s = .ofExcept b → Agrees result next offset size s y) :
    Agrees result next offset size s (if p then x else y) := by
  split
  · rename_i h
    rw [if_pos h] at same
    exact hThen h same
  · rename_i h
    rw [if_neg h] at same
    exact hElse h same

theorem loop_bind_eq_of_le
    (agrees : ∀ s, offset s ≤ size → Agrees result next offset size s (round s)) {s : σ}
    (hStart : offset s ≤ size) {rounds : Nat} (hRounds : size ≤ offset s + rounds) :
    loop round rounds s >>= next = result s := by
  induction rounds generalizing s with
  | zero => exact (agrees s hStart).bind_eq fun t further within => by omega
  | succ rounds ih =>
      exact (agrees s hStart).bind_eq fun t further within => ih within (by omega)

/-- A loop comes to the result that each of its rounds agrees with, if it may go round again as
often as there are places left. -/
theorem loop_bind_eq (agrees : ∀ s, offset s ≤ size → Agrees result next offset size s (round s))
    (s : σ) (hStart : offset s ≤ size) : loop round (size - offset s) s >>= next = result s :=
  loop_bind_eq_of_le agrees hStart (Nat.le_of_eq (Nat.add_sub_of_le hStart).symm)

end Loop

end InPlace

end ImagePlacement
