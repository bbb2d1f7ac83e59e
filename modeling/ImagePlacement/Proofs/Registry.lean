import ImagePlacement.Registry
import Mathlib.Data.List.Induction
import Mathlib.Data.List.Nodup

/-! Registries that decoders are given to. The last decoder given for a format is the one that is
called, and called once, while bytes of unknown format are never decoded. What is done to one
registry shows in no other, whichever of them is the copy. -/
namespace ImagePlacement.Registry

variable {base : Registry} {given entries table : List (Format × Decoder)} {f g : Format}
  {d : Decoder}

/-- The formats of a registry, in the order of its table. -/
def formats (r : Registry) : List Format := r.table.map Prod.fst

/-- Gives a registry decoders, one after the other. -/
def registerAll (r : Registry) (given : List (Format × Decoder)) : Registry :=
  given.foldl (fun r entry => r.register entry.1 entry.2) r

/-- A decoder is given for a format, and none is after it. -/
def IsLast (entries : List (Format × Decoder)) (f : Format) (d : Decoder) : Prop :=
  ∃ before after, entries = before ++ (f, d) :: after ∧ ∀ entry ∈ after, entry.1 ≠ f

/-- Decoding, where `call` is what the call of a decoder does besides giving a result. -/
def decodeBy {m : Type → Type} [Pure m] (call : Decoder → Bytes → m (Outcome DecodeError Image))
    (r : Registry) (format : Format) (content : Bytes) : m (Outcome DecodeError Image) :=
  match r.decoder? format with
  | some decoder => call decoder content
  | none => pure (.failed .unsupported)

/-- Decoding itself is the case of calls that do nothing else. -/
theorem decode_eq_decodeBy (r : Registry) (format : Format) (content : Bytes) :
    r.decode format content = r.decodeBy (m := Id) (fun d content => d content) format content := by
  unfold decode decodeBy
  cases r.decoder? format <;> rfl

section Calls

variable {m : Type → Type} [Pure m] {call : Decoder → Bytes → m (Outcome DecodeError Image)}
  {r : Registry}

theorem decodeBy_of_some (h : r.decoder? f = some d) (content : Bytes) :
    r.decodeBy call f content = call d content := by
  rw [decodeBy, h]

theorem decodeBy_of_none (h : r.decoder? f = none) (content : Bytes) :
    r.decodeBy call f content = pure (.failed .unsupported) := by
  rw [decodeBy, h]

end Calls

/-! One decoder more -/

theorem lookup_replace :
    (replace f d table).lookup g = if g = f then some d else table.lookup g := by
  induction table with
  | nil =>
      by_cases h : g = f
      · simp [replace, h]
      · simp [replace, h, List.lookup_cons, beq_eq_false_iff_ne.mpr h]
  | cons entry rest ih =>
      obtain ⟨k, old⟩ := entry
      by_cases hHere : k = f
      · subst hHere
        by_cases h : g = k
        · simp [replace, h]
        · simp [replace, h, List.lookup_cons, beq_eq_false_iff_ne.mpr h]
      · rw [replace, if_neg hHere, List.lookup_cons, List.lookup_cons, ih]
        by_cases hKey : g = k
        · subst hKey
          simp [hHere]
        · simp [beq_eq_false_iff_ne.mpr hKey]

theorem keys_replace : (replace f d table).map Prod.fst =
    if f ∈ table.map Prod.fst then table.map Prod.fst else table.map Prod.fst ++ [f] := by
  induction table with
  | nil => rfl
  | cons entry rest ih =>
      obtain ⟨k, old⟩ := entry
      by_cases hHere : k = f
      · simp [replace, hHere]
      · have hMem : f ∈ k :: rest.map Prod.fst ↔ f ∈ rest.map Prod.fst := by
          rw [List.mem_cons]
          exact or_iff_right (Ne.symm hHere)
        rw [replace, if_neg hHere, List.map_cons, List.map_cons, ih, if_congr hMem rfl rfl]
        split <;> rfl

theorem formats_register (r : Registry) (f : Format) (d : Decoder) :
    (r.register f d).formats = if f ∈ r.formats then r.formats else r.formats ++ [f] :=
  keys_replace

theorem nodup_register (r : Registry) (h : r.formats.Nodup) (f : Format) (d : Decoder) :
    (r.register f d).formats.Nodup := by
  rw [formats_register]
  split
  · exact h
  · rename_i hNew
    rw [List.nodup_append]
    refine ⟨h, List.nodup_singleton f, ?_⟩
    intro k hk l hl hSame
    rw [List.mem_singleton.mp hl] at hSame
    exact hNew (hSame ▸ hk)

/-! Any number of decoders more -/

theorem registerAll_append (r : Registry) (given later : List (Format × Decoder)) :
    r.registerAll (given ++ later) = (r.registerAll given).registerAll later :=
  List.foldl_append

theorem nodup_registerAll (h : base.formats.Nodup) (given : List (Format × Decoder)) :
    (base.registerAll given).formats.Nodup := by
  induction given generalizing base with
  | nil => exact h
  | cons entry given ih => exact ih (nodup_register base h entry.1 entry.2)

/-- Formats stand in the order in which they appear first. -/
theorem formats_registerAll (h : base.formats.eraseDups = base.formats)
    (given : List (Format × Decoder)) :
    (base.registerAll given).formats = (base.formats ++ given.map Prod.fst).eraseDups := by
  -- the last decoder stands at the end of the list, so the induction takes it off there
  induction given using List.reverseRecOn with
  | nil => rw [List.map_nil, List.append_nil, h]; rfl
  | append_singleton given entry ih =>
      have hLast : (base.registerAll (given ++ [entry])) =
          (base.registerAll given).register entry.1 entry.2 := registerAll_append ..
      have hSplit : (base.formats ++ given.map Prod.fst ++ [entry].map Prod.fst).eraseDups = _ :=
        List.eraseDups_append
      rw [hLast, formats_register, ih, List.map_append, ← List.append_assoc, hSplit]
      simp only [List.mem_eraseDups, List.map_cons, List.map_nil]
      by_cases hKnown : entry.1 ∈ base.formats ++ given.map Prod.fst
      · simp [List.removeAll, hKnown]
      · simp [List.removeAll, hKnown, List.eraseDups_cons]

theorem lookup_registerAll : (base.registerAll given).table.lookup f =
    (given.reverse.lookup f).or (base.table.lookup f) := by
  induction given generalizing base with
  | nil => rfl
  | cons entry given ih =>
      obtain ⟨k, new⟩ := entry
      have hFirst : base.registerAll ((k, new) :: given) =
          (base.register k new).registerAll given := rfl
      rw [hFirst, ih, register, lookup_replace, List.reverse_cons, List.lookup_append,
        Option.or_assoc]
      by_cases h : f = k
      · simp [h]
      · simp [h, List.lookup_cons, beq_eq_false_iff_ne.mpr h]

theorem isLast_iff_lookup_reverse : IsLast entries f d ↔ entries.reverse.lookup f = some d := by
  rw [List.lookup_eq_some_iff]
  constructor
  · rintro ⟨before, after, rfl, hAfter⟩
    refine ⟨after.reverse, before.reverse, by simp, ?_⟩
    intro entry hEntry
    exact bne_iff_ne.mpr (hAfter entry (List.mem_reverse.mp hEntry)).symm
  · rintro ⟨after, before, hEntries, hAfter⟩
    refine ⟨before.reverse, after.reverse, ?_, ?_⟩
    · rw [← List.reverse_reverse entries, hEntries]
      simp
    · intro entry hEntry
      exact (bne_iff_ne.mp (hAfter entry (List.mem_reverse.mp hEntry))).symm

/-- Where a format stands once, its first entry is its last. -/
theorem lookup_reverse (h : (table.map Prod.fst).Nodup) :
    table.reverse.lookup f = table.lookup f := by
  induction table with
  | nil => rfl
  | cons entry rest ih =>
      obtain ⟨k, old⟩ := entry
      rw [List.map_cons, List.nodup_cons] at h
      rw [List.reverse_cons, List.lookup_append, ih h.2, List.lookup_cons, List.lookup_cons]
      by_cases hKey : f = k
      · have hNone : rest.lookup f = none := by
          rw [List.lookup_eq_none_iff]
          intro other hOther
          refine bne_iff_ne.mpr fun hSame => h.1 ?_
          exact List.mem_map.mpr ⟨other, hOther, hSame.symm.trans hKey⟩
        simp [hKey, hKey ▸ hNone]
      · simp [beq_eq_false_iff_ne.mpr hKey]

/-- What is called for a format is the last decoder given for it, or else the base's. -/
theorem decoder?_registerAll (hBase : base.formats.Nodup) (hKnown : f ≠ .unknown) :
    (base.registerAll given).decoder? f = some d ↔ IsLast (base.table ++ given) f d := by
  rw [decoder?, if_neg hKnown, lookup_registerAll, isLast_iff_lookup_reverse, List.reverse_append,
    List.lookup_append, lookup_reverse hBase]

theorem mem_of_isLast (h : IsLast entries f d) : f ∈ entries.map Prod.fst := by
  obtain ⟨before, after, rfl, -⟩ := h
  simp

theorem exists_isLast (h : f ∈ entries.map Prod.fst) : ∃ d, IsLast entries f d := by
  simp only [isLast_iff_lookup_reverse]
  rw [← Option.isSome_iff_exists, List.lookup_isSome_iff]
  obtain ⟨entry, hEntry, rfl⟩ := List.mem_map.mp h
  exact ⟨entry, List.mem_reverse.mpr hEntry, beq_self_eq_true _⟩

theorem supports_registerAll (hBase : base.formats.Nodup) :
    (base.registerAll given).supports f = true ↔
      f ≠ .unknown ∧ (f ∈ base.formats ∨ f ∈ given.map Prod.fst) := by
  by_cases hKnown : f = .unknown
  · simp [supports, decoder?, hKnown]
  · rw [supports, Option.isSome_iff_exists, and_iff_right hKnown, formats, ← List.mem_append,
      ← List.map_append]
    simp only [decoder?_registerAll hBase hKnown]
    exact ⟨fun ⟨d, h⟩ => mem_of_isLast h, exists_isLast⟩

/-- What can be told of a registry that comes from a base by giving it decoders. -/
structure LastWins (base : Registry) (given : List (Format × Decoder)) (r : Registry) : Prop where
  formats_nodup : r.formats.Nodup
  /-- Formats stand in the order in which they appear first. -/
  formats_eq : r.formats = (base.formats ++ given.map Prod.fst).eraseDups
  supports_iff (f : Format) : r.supports f = true ↔
    f ≠ .unknown ∧ (f ∈ base.formats ∨ f ∈ given.map Prod.fst)
  /-- A format that is supported is decoded by one call, which is of its last decoder. -/
  decodes (f : Format) (h : r.supports f = true) : ∃ d, IsLast (base.table ++ given) f d ∧
    ∀ content, r.decode f content = d content ∧
      ∀ (m : Type → Type) [Pure m] (call : Decoder → Bytes → m (Outcome DecodeError Image)),
        r.decodeBy call f content = call d content
  /-- Any other format is refused without a call. -/
  refuses (f : Format) (h : r.supports f = false) (content : Bytes) :
    r.decode f content = .failed .unsupported ∧
      ∀ (m : Type → Type) [Pure m] (call : Decoder → Bytes → m (Outcome DecodeError Image)),
        r.decodeBy call f content = pure (.failed .unsupported)

theorem lastWins_registerAll (hBase : base = builtin ∨ base = empty)
    (given : List (Format × Decoder)) : LastWins base given (base.registerAll given) := by
  have hNodup : base.formats.Nodup := by rcases hBase with rfl | rfl <;> decide
  have hFirst : base.formats.eraseDups = base.formats := by
    rcases hBase with rfl | rfl <;> decide
  refine ⟨nodup_registerAll hNodup given, formats_registerAll hFirst given,
    fun f => supports_registerAll hNodup, ?_, ?_⟩
  · intro f h
    obtain ⟨d, hDecoder⟩ := Option.isSome_iff_exists.mp h
    have hKnown : f ≠ .unknown := ((supports_registerAll hNodup).mp h).1
    refine ⟨d, (decoder?_registerAll hNodup hKnown).mp hDecoder, fun content => ⟨?_, ?_⟩⟩
    · rw [decode_eq_decodeBy, decodeBy_of_some hDecoder]
    · exact fun m _ call => decodeBy_of_some hDecoder content
  · intro f h content
    have hNone : (base.registerAll given).decoder? f = none :=
      Option.not_isSome_iff_eq_none.mp (Bool.not_eq_true _ ▸ h)
    refine ⟨?_, fun m _ call => decodeBy_of_none hNone content⟩
    rw [decode_eq_decodeBy, decodeBy_of_none hNone]
    rfl

/-! Registries and their copies -/

/-- What is done with registries. They are held under numbers, each new one under the next. -/
inductive Move where
  /-- The built-in decoders are taken. -/
  | builtin
  | empty
  | copy (number : Nat)
  /-- The registry of a number is given a decoder. -/
  | give (number : Nat) (format : Format) (decoder : Decoder)

/-- The registry that the built-in decoders are taken from, and those that are held. -/
structure Shelf where
  shared : Registry
  held : List Registry

namespace Shelf

variable {s : Shelf} {moves : List Move} {number : Nat} {r : Registry}

def start : Shelf := ⟨.builtin, []⟩

def step (s : Shelf) : Move → Shelf
  | .builtin => { s with held := s.held ++ [s.shared] }
  | .empty => { s with held := s.held ++ [.empty] }
  | .copy number => { s with held := s.held ++ s.held[number]?.toList }
  | .give number format decoder =>
    { s with held := s.held.modify number fun r => r.register format decoder }

def run (s : Shelf) (moves : List Move) : Shelf := moves.foldl step s

/-- The decoders that moves give to the registry of a number. -/
def gifts (number : Nat) (moves : List Move) : List (Format × Decoder) :=
  moves.filterMap fun move =>
    match move with
    | .give other format decoder => if other = number then some (format, decoder) else none
    | _ => none

theorem shared_run (s : Shelf) (moves : List Move) : (s.run moves).shared = s.shared := by
  induction moves generalizing s with
  | nil => rfl
  | cons move moves ih => exact (ih (s.step move)).trans (by cases move <;> rfl)

theorem held_append (h : s.held[number]? = some r) (more : List Registry) :
    (s.held ++ more)[number]? = some r := by
  rw [List.getElem?_append_left (List.getElem?_eq_some_iff.mp h).1, h]

theorem held_step (h : s.held[number]? = some r) (move : Move) :
    (s.step move).held[number]? = some (r.registerAll (gifts number [move])) := by
  cases move with
  | builtin => exact held_append h _
  | empty => exact held_append h _
  | copy other => exact held_append h _
  | give other format decoder =>
      simp only [step, List.getElem?_modify, h]
      by_cases hSame : other = number
      · simp [gifts, hSame, registerAll]
      · simp [gifts, hSame, registerAll]

/-- A registry that is held shows what it has been given itself, and nothing else. -/
theorem held_run (h : s.held[number]? = some r) (moves : List Move) :
    (s.run moves).held[number]? = some (r.registerAll (gifts number moves)) := by
  induction moves generalizing s r with
  | nil => exact h
  | cons move moves ih =>
      have hGifts : gifts number (move :: moves) = gifts number [move] ++ gifts number moves :=
        List.filterMap_append (l := [move])
      rw [hGifts, registerAll_append]
      exact ih (held_step h move)

theorem held_copy (h : s.held[number]? = some r) :
    (s.run [.copy number]).held[s.held.length]? = some r := by
  simp [run, step, h]

theorem held_builtin (s : Shelf) : (s.run [.builtin]).held[s.held.length]? = some s.shared := by
  simp [run, step]

/-- Whatever is held comes from the built-in decoders or from none. -/
def IsSound (s : Shelf) : Prop :=
  s.shared = .builtin ∧ ∀ r ∈ s.held, ∃ base given, (base = builtin ∨ base = empty) ∧
    r = base.registerAll given

theorem IsSound.step (sound : s.IsSound) (move : Move) : (s.step move).IsSound := by
  obtain ⟨hShared, hHeld⟩ := sound
  refine ⟨(shared_run s [move]).trans hShared, ?_⟩
  cases move with
  | builtin =>
      refine List.forall_mem_append.mpr ⟨hHeld, List.forall_mem_singleton.mpr ?_⟩
      exact ⟨builtin, [], Or.inl rfl, hShared⟩
  | empty =>
      refine List.forall_mem_append.mpr ⟨hHeld, List.forall_mem_singleton.mpr ?_⟩
      exact ⟨.empty, [], Or.inr rfl, rfl⟩
  | copy number =>
      refine List.forall_mem_append.mpr ⟨hHeld, ?_⟩
      intro r hr
      exact hHeld r (List.mem_of_getElem? (Option.mem_toList.mp hr))
  | give number format decoder =>
      intro r hr
      obtain ⟨other, hOther⟩ := List.getElem?_of_mem hr
      simp only [Shelf.step, List.getElem?_modify, Option.map_eq_map, Option.map_eq_some_iff]
        at hOther
      obtain ⟨old, hOld, hNew⟩ := hOther
      obtain ⟨base, given, hBase, rfl⟩ := hHeld old (List.mem_of_getElem? hOld)
      split at hNew
      · exact ⟨base, given ++ [(format, decoder)], hBase, by rw [← hNew, registerAll_append]; rfl⟩
      · exact ⟨base, given, hBase, hNew.symm⟩

theorem IsSound.run (sound : s.IsSound) (moves : List Move) : (s.run moves).IsSound := by
  induction moves generalizing s with
  | nil => exact sound
  | cons move moves ih => exact ih (sound.step move)

theorem isSound_start : start.IsSound := ⟨rfl, nofun⟩

end Shelf

/-- A registry to which decoders are given decodes by the last that was given for a format, and
never decodes what is of unknown format. Of all registries that are held at once, each shows what
has been given to itself and to what it is a copy of; the built-in decoders stay as they are. -/
theorem last_given_decodes :
    (∀ r f content,
      decode r f content = r.decodeBy (m := Id) (fun d content => d content) f content) ∧
    (∀ base given, base = builtin ∨ base = empty →
      LastWins base given (base.registerAll given)) ∧
    ∀ moves, let s := Shelf.start.run moves
      s.shared = builtin ∧ (s.run [.builtin]).held[s.held.length]? = some builtin ∧
      ∀ number r, s.held[number]? = some r →
        (∃ base given, (base = builtin ∨ base = empty) ∧ r = base.registerAll given) ∧
        (s.run [.copy number]).held[s.held.length]? = some r ∧
        ∀ later, (s.run later).held[number]? = some (r.registerAll (Shelf.gifts number later)) := by
  refine ⟨decode_eq_decodeBy, fun base given hBase => lastWins_registerAll hBase given, ?_⟩
  intro moves
  obtain ⟨hShared, hHeld⟩ := Shelf.isSound_start.run moves
  refine ⟨hShared, hShared ▸ Shelf.held_builtin _, ?_⟩
  intro number r h
  exact ⟨hHeld r (List.mem_of_getElem? h), Shelf.held_copy h, Shelf.held_run h⟩

/-! Two decoders for one format, and one for the format that is never decoded -/
namespace Twice

def first : Decoder := fun _ => .aborted "first"

def second : Decoder := fun _ => .aborted "second"

def decoders : List (Format × Decoder) := [(.unknown, first), (.png, first), (.png, second)]

/-- Counts the calls of decoders. -/
def count (d : Decoder) (content : Bytes) : StateM Nat (Outcome DecodeError Image) := do
  modify (· + 1)
  return d content

end Twice

/-- Of two decoders for PNG the second is called, once. One for unknown format is listed and not
called. A copy of the built-in decoders has none of what the original is given later. -/
theorem last_given_decodes_twice :
    (builtin.registerAll Twice.decoders).formats = [.png, .jpeg, .svg, .unknown] ∧
    ((builtin.registerAll Twice.decoders).decodeBy Twice.count .png []).run 0 =
      (.aborted "second", 1) ∧
    ((builtin.registerAll Twice.decoders).decodeBy Twice.count .unknown []).run 0 =
      (.failed .unsupported, 0) ∧
    (Shelf.start.run [.builtin, .copy 0, .give 0 .png Twice.first]).held[1]? = some builtin := by
  obtain ⟨-, wins, held⟩ := last_given_decodes
  have hWins := wins builtin Twice.decoders (Or.inl rfl)
  have hPng : (builtin.registerAll Twice.decoders).supports .png = true :=
    (hWins.supports_iff .png).mpr ⟨by decide, Or.inl (by decide)⟩
  have hUnknown : (builtin.registerAll Twice.decoders).supports .unknown = false := by
    rw [← Bool.not_eq_true, hWins.supports_iff]
    exact fun h => h.1 rfl
  obtain ⟨d, hLast, hCalls⟩ := hWins.decodes .png hPng
  rw [isLast_iff_lookup_reverse] at hLast
  obtain rfl : Twice.second = d := Option.some.inj hLast
  refine ⟨hWins.formats_eq.trans (by decide), ?_, ?_, ?_⟩
  · rw [(hCalls []).2 (StateM Nat) Twice.count]
    rfl
  · rw [(hWins.refuses .unknown hUnknown []).2 (StateM Nat) Twice.count]
    rfl
  · exact ((held [.builtin, .copy 0]).2.2 1 builtin rfl).2.2 [.give 0 .png Twice.first]

end ImagePlacement.Registry
