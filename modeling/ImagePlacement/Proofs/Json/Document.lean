import ImagePlacement.Json.Reader
import ImagePlacement.Proofs.Json.Token

/-! The text of a JSON value. The words of a value follow from the value; how each of them is
written and what white space stands between them is left open, and does not matter. -/
namespace ImagePlacement.Json

mutual

/-- The words of a value. -/
def tokens : Json → List Token
  | null => [.null]
  | bool value => [.bool value]
  | number natural => [.number natural]
  | string text => [.string text]
  | array items => .openArray :: ([.comma].intercalate (itemTokens items) ++ [.closeArray])
  | object members =>
    .openObject :: ([.comma].intercalate (memberTokens members) ++ [.closeObject])

def itemTokens : List Json → List (List Token)
  | [] => []
  | item :: rest => tokens item :: itemTokens rest

def memberTokens : List (Option String × Json) → List (List Token)
  | [] => []
  | (key, value) :: rest => (.string key :: .colon :: tokens value) :: memberTokens rest

end

/-- A text writes a value. -/
def Writes (text : List Char) (value : Json) : Prop := Token.Laid value.tokens text

namespace Reader

theorem foldlM_singleton (r : Reader) (token : Token) : [token].foldlM step r = r.step token :=
  bind_pure _

theorem foldlM_append_of_some {r s : Reader} {words : List Token} (h : words.foldlM step r = some s)
    (more : List Token) : (words ++ more).foldlM step r = more.foldlM step s := by
  rw [List.foldlM_append, h]
  rfl

/-- The first item of an array is read as every other item. -/
theorem foldlM_firstItem (frames : List Frame) (value : Json) (rest : List Token) :
    (tokens value ++ rest).foldlM step ⟨frames, .firstItem, none⟩ =
      (tokens value ++ rest).foldlM step ⟨frames, .value, none⟩ := by
  cases value <;> rfl

/-- The first key of an object is read as every other key. -/
theorem foldlM_firstKey (frames : List Frame) (key : Option String) (value : Json)
    (rest : List (Option String × Json)) :
    ([.comma].intercalate (memberTokens ((key, value) :: rest))).foldlM step
        ⟨frames, .firstKey, none⟩ =
      ([.comma].intercalate (memberTokens ((key, value) :: rest))).foldlM step
        ⟨frames, .key, none⟩ := by
  cases rest <;> rfl

theorem exists_intercalate_itemTokens (item : Json) (rest : List Json) :
    ∃ more, [.comma].intercalate (itemTokens (item :: rest)) = tokens item ++ more := by
  cases rest with
  | nil => exact ⟨[], by simp only [itemTokens, List.intercalate_singleton, List.append_nil]⟩
  | cons next rest =>
      simp only [itemTokens, List.intercalate_cons_cons, List.append_assoc]
      exact ⟨_, rfl⟩

mutual

/-- The words of a value are read as that value. -/
theorem foldlM_tokens (frames : List Frame) : (value : Json) →
    (tokens value).foldlM step ⟨frames, .value, none⟩ = deliver frames value
  | .null => foldlM_singleton ..
  | .bool _ => foldlM_singleton ..
  | .number _ => foldlM_singleton ..
  | .string _ => foldlM_singleton ..
  | .array [] => foldlM_singleton ⟨.array [] :: frames, .firstItem, none⟩ .closeArray
  | .array (item :: rest) => by
      have hItems := foldlM_items [] frames (item :: rest) (List.cons_ne_nil _ _)
      obtain ⟨more, hFirst⟩ := exists_intercalate_itemTokens item rest
      -- After the bracket an end is allowed as well, but no value starts with one.
      rw [hFirst, ← foldlM_firstItem, ← hFirst, List.append_nil] at hItems
      refine (foldlM_append_of_some hItems [.closeArray]).trans ((foldlM_singleton _ _).trans ?_)
      exact congrArg (fun items => deliver frames (.array items)) (List.reverse_reverse _)
  | .object [] => foldlM_singleton ⟨.object [] :: frames, .firstKey, none⟩ .closeObject
  | .object ((key, value) :: rest) => by
      have hMembers := foldlM_members [] frames ((key, value) :: rest) (List.cons_ne_nil _ _)
      rw [← foldlM_firstKey, List.append_nil] at hMembers
      refine (foldlM_append_of_some hMembers [.closeObject]).trans
        ((foldlM_singleton _ _).trans ?_)
      exact congrArg (fun members => deliver frames (.object members)) (List.reverse_reverse _)

theorem foldlM_items (done : List Json) (outer : List Frame) : (items : List Json) → items ≠ [] →
    ([.comma].intercalate (itemTokens items)).foldlM step ⟨.array done :: outer, .value, none⟩ =
      some ⟨.array (items.reverse ++ done) :: outer, .separator, none⟩
  | [], h => absurd rfl h
  | [item], _ => by
      rw [itemTokens, itemTokens, List.intercalate_singleton, foldlM_tokens]
      rfl
  | item :: next :: rest, _ => by
      have hItem : (tokens item).foldlM step ⟨.array done :: outer, .value, none⟩ =
          some ⟨.array (item :: done) :: outer, .separator, none⟩ :=
        foldlM_tokens (.array done :: outer) item
      have hRest := foldlM_items (item :: done) outer (next :: rest) (List.cons_ne_nil _ _)
      rw [itemTokens, itemTokens, List.intercalate_cons_cons, List.append_assoc,
        foldlM_append_of_some hItem, List.reverse_cons, List.append_assoc, List.singleton_append]
      exact hRest

theorem foldlM_members (done : List (Option String × Json)) (outer : List Frame) :
    (members : List (Option String × Json)) → members ≠ [] →
    ([.comma].intercalate (memberTokens members)).foldlM step ⟨.object done :: outer, .key, none⟩ =
      some ⟨.object (members.reverse ++ done) :: outer, .separator, none⟩
  | [], h => absurd rfl h
  | [(key, value)], _ => by
      rw [memberTokens, memberTokens, List.intercalate_singleton]
      exact foldlM_tokens (.member done key :: outer) value
  | (key, value) :: next :: rest, _ => by
      have hMember : (Token.string key :: .colon :: tokens value).foldlM step
          ⟨.object done :: outer, .key, none⟩ =
            some ⟨.object ((key, value) :: done) :: outer, .separator, none⟩ :=
        foldlM_tokens (.member done key :: outer) value
      have hRest :=
        foldlM_members ((key, value) :: done) outer (next :: rest) (List.cons_ne_nil _ _)
      obtain ⟨nextKey, nextValue⟩ := next
      rw [memberTokens, memberTokens, List.intercalate_cons_cons, List.append_assoc,
        foldlM_append_of_some hMember, List.reverse_cons, List.append_assoc, List.singleton_append]
      exact hRest

end

/-! What stands next to a number -/

variable {r s : Reader} {token : Token}

theorem demand_of_deliver {frames : List Frame} {value : Json} (h : deliver frames value = some s) :
    s.demand = .separator := by
  unfold deliver at h
  split at h
  case h_4 => cases h
  all_goals
    obtain rfl := Option.some.inj h
    rfl

theorem demand_of_number {natural : Option Nat} (h : r.step (.number natural) = some s) :
    s.demand = .separator := by
  obtain ⟨frames, demand, result⟩ := r
  cases demand with
  | value => exact demand_of_deliver h
  | firstItem => exact demand_of_deliver h
  | _ => cases h

theorem isEnding_of_step (hDemand : r.demand = .separator) (h : r.step token = some s) :
    token.isEnding = true := by
  obtain ⟨frames, demand, result⟩ := r
  obtain rfl : demand = .separator := hDemand
  cases token with
  | comma => rfl
  | closeArray => rfl
  | closeObject => rfl
  | _ => cases h

/-- Where words can be read one after the other, no number is followed by a word that could go on
with it. -/
theorem apart_of_foldlM {words : List Token} (h : words.foldlM step r = some s) :
    Token.Apart words := by
  induction words generalizing r with
  | nil => exact .nil
  | cons token rest ih =>
      rw [List.foldlM_cons] at h
      obtain ⟨t, hStep, hRest⟩ := Option.bind_eq_some_iff.mp h
      refine List.isChain_cons.mpr ⟨fun next hNext hNumber => ?_, ih hRest⟩
      cases token with
      | number natural =>
          cases rest with
          | nil => cases hNext
          | cons other rest =>
              obtain rfl : other = next := Option.some.inj hNext
              rw [List.foldlM_cons] at hRest
              obtain ⟨u, hOther, -⟩ := Option.bind_eq_some_iff.mp hRest
              exact isEnding_of_step (demand_of_number hStep) hOther
      | _ => cases hNumber

end Reader

/-- A text is read as the value that it writes. -/
theorem ofText?_of_writes {text : List Char} {value : Json} (h : Writes text value) :
    ofText? text = some value := by
  have hRead : (tokens value).foldlM Reader.step Reader.start =
      some ⟨[], .separator, some value⟩ := Reader.foldlM_tokens [] value
  rw [ofText?, Token.ofText_of_laid h (Reader.apart_of_foldlM hRead), Option.bind_eq_bind,
    Option.bind_some, hRead]
  rfl

theorem exists_writes (value : Json) : ∃ text, Writes text value := Token.exists_laid value.tokens

end ImagePlacement.Json
