import ImagePlacement.Json.Token
import Mathlib.Data.List.Chain
import Mathlib.Data.List.TakeWhile

/-! The words of JSON text, and white space between them. Whatever way a word is written and
whatever white space stands around it, it is read as what it is. -/
namespace ImagePlacement.Json.Token

/-! How words are written -/

/-- One decimal digit or more. -/
def IsDigits (text : List Char) : Prop := text ≠ [] ∧ ∀ c ∈ text, c.isDigit = true

/-- A fraction, or nothing. -/
def IsFraction (text : List Char) : Prop :=
  text = [] ∨ ∃ digits, IsDigits digits ∧ text = '.' :: digits

/-- An exponent, or nothing. -/
def IsExponent (text : List Char) : Prop :=
  text = [] ∨ ∃ letter sign digits, (letter = 'e' ∨ letter = 'E') ∧
    (sign = [] ∨ sign = ['+'] ∨ sign = ['-']) ∧ IsDigits digits ∧ text = letter :: (sign ++ digits)

/-- A hexadecimal digit of a given value, with a small letter or a large one. -/
def IsHex (n : Nat) (c : Char) : Prop :=
  n < 16 ∧ (c = Nat.digitChar n ∨ c = (Nat.digitChar n).toUpper)

/-- The letters that may follow a backslash, with the characters that they stand for. -/
def escapes : List (Char × Char) :=
  [('\x22', '\x22'), ('\\', '\\'), ('/', '/'), ('b', '\x08'), ('f', '\x0c'), ('n', '\n'),
    ('r', '\r'), ('t', '\t')]

/-- What stands between the quotes of a string, and the elements that it writes. -/
inductive Spelled : List Char → List Piece → Prop where
  | nil : Spelled [] []
  | plain {c : Char} {body : List Char} {pieces : List Piece} (hQuote : c ≠ '\x22')
      (hSlash : c ≠ '\\') (hControl : 0x20 ≤ c.toNat) (rest : Spelled body pieces) :
      Spelled (c :: body) (.char c :: pieces)
  | escape {letter c : Char} {body : List Char} {pieces : List Piece}
      (h : (letter, c) ∈ escapes) (rest : Spelled body pieces) :
      Spelled ('\\' :: letter :: body) (.char c :: pieces)
  | code {a b c d : Char} {i j k l : Nat} {body : List Char} {pieces : List Piece}
      (ha : IsHex i a) (hb : IsHex j b) (hc : IsHex k c) (hd : IsHex l d)
      (rest : Spelled body pieces) :
      Spelled ('\\' :: 'u' :: a :: b :: c :: d :: body)
        (.code (((i * 16 + j) * 16 + k) * 16 + l) :: pieces)

/-- The characters that the elements of a string make up. A code unit is a character by itself or
together with the next one; there are none for a surrogate that stands alone. -/
inductive Joins : List Piece → List Char → Prop where
  | nil : Joins [] []
  | char {c : Char} {pieces : List Piece} {chars : List Char} (rest : Joins pieces chars) :
      Joins (.char c :: pieces) (c :: chars)
  | code {n : Nat} {pieces : List Piece} {chars : List Char} (h : n < 0xD800 ∨ 0xDFFF < n)
      (rest : Joins pieces chars) : Joins (.code n :: pieces) (Char.ofNat n :: chars)
  | pair {high low : Nat} {pieces : List Piece} {chars : List Char}
      (hHigh : 0xD800 ≤ high ∧ high ≤ 0xDBFF) (hLow : 0xDC00 ≤ low ∧ low ≤ 0xDFFF)
      (rest : Joins pieces chars) : Joins (.code high :: .code low :: pieces)
        (Char.ofNat (0x10000 + (high - 0xD800) * 1024 + (low - 0xDC00)) :: chars)

/-- The ways to write a word. -/
inductive Writes : Token → List Char → Prop where
  | null : Writes null "null".toList
  | yes : Writes (bool true) "true".toList
  | no : Writes (bool false) "false".toList
  | openArray : Writes openArray ['[']
  | closeArray : Writes closeArray [']']
  | openObject : Writes openObject ['\x7b']
  | closeObject : Writes closeObject ['\x7d']
  | colon : Writes colon [':']
  | comma : Writes comma [',']
  /-- A natural number has one way to be written. -/
  | natural (n : Nat) : Writes (number (some n)) (Nat.toDigits 10 n)
  | number {sign fraction exponent : List Char} (whole : Nat) (hSign : sign = [] ∨ sign = ['-'])
      (hFraction : IsFraction fraction) (hExponent : IsExponent exponent)
      (hMore : sign ++ fraction ++ exponent ≠ []) :
      Writes (number none) (sign ++ (Nat.toDigits 10 whole ++ (fraction ++ exponent)))
  | text {body : List Char} {pieces : List Piece} {chars : List Char} (h : Spelled body pieces)
      (hJoins : Joins pieces chars) :
      Writes (string (some (String.ofList chars))) ('\x22' :: (body ++ ['\x22']))
  | noText {body : List Char} {pieces : List Piece} (h : Spelled body pieces)
      (hBroken : ∀ chars, ¬ Joins pieces chars) :
      Writes (string none) ('\x22' :: (body ++ ['\x22']))

/-- White space, or nothing. -/
def IsBlank (text : List Char) : Prop :=
  ∀ c ∈ text, c = ' ' ∨ c = '\t' ∨ c = '\n' ∨ c = '\r'

/-- Words, with white space before, between and after them. -/
inductive Laid : List Token → List Char → Prop where
  | nil {blanks : List Char} (hBlank : IsBlank blanks) : Laid [] blanks
  | cons {blanks word text : List Char} {token : Token} {tokens : List Token}
      (hBlank : IsBlank blanks) (hWord : Writes token word) (rest : Laid tokens text) :
      Laid (token :: tokens) (blanks ++ (word ++ text))

/-! Strings -/

theorem hexDigit?_of_isHex {n : Nat} {c : Char} (h : IsHex n c) : hexDigit? c = some n := by
  have hAll : ∀ n < 16, hexDigit? (Nat.digitChar n) = some n ∧
      hexDigit? (Nat.digitChar n).toUpper = some n := by decide
  obtain ⟨hSmall, rfl | rfl⟩ := h
  · exact (hAll n hSmall).1
  · exact (hAll n hSmall).2

theorem simpleEscape?_of_mem {letter c : Char} (h : (letter, c) ∈ escapes) :
    letter ≠ 'u' ∧ simpleEscape? letter = some c := by
  have hAll : ∀ entry ∈ escapes, entry.1 ≠ 'u' ∧ simpleEscape? entry.1 = some entry.2 := by decide
  exact hAll _ h

section Pieces

variable {done : List Piece} {rest : List Char}

theorem readPieces_plain {c : Char} (hQuote : c ≠ '\x22') (hSlash : c ≠ '\\')
    (hControl : 0x20 ≤ c.toNat) :
    readPieces done (c :: rest) = readPieces (.char c :: done) rest := by
  simp [readPieces, hSlash, hQuote, Nat.not_lt_of_le hControl]

theorem readPieces_escape {letter c : Char} (hOther : letter ≠ 'u')
    (h : simpleEscape? letter = some c) :
    readPieces done ('\\' :: letter :: rest) = readPieces (.char c :: done) rest := by
  simp [readPieces, hOther, h]

theorem readPieces_code {a b c d : Char} {n : Nat} (h : code? a b c d = some n) :
    readPieces done ('\\' :: 'u' :: a :: b :: c :: d :: rest) =
      readPieces (.code n :: done) rest := by
  simp only [readPieces, h]

theorem readPieces_quote : readPieces done ('\x22' :: rest) = some (done.reverse, rest) := by
  simp [readPieces]

/-- The elements up to the closing quote are those that are written there. -/
theorem readPieces_of_spelled {body : List Char} {pieces : List Piece} (h : Spelled body pieces)
    (done : List Piece) (rest : List Char) :
    readPieces done (body ++ '\x22' :: rest) = some (done.reverse ++ pieces, rest) := by
  induction h generalizing done with
  | nil => rw [List.nil_append, readPieces_quote, List.append_nil]
  | @plain c body pieces hQuote hSlash hControl _ ih =>
      rw [List.cons_append, readPieces_plain hQuote hSlash hControl, ih, List.reverse_cons,
        List.append_assoc, List.singleton_append]
  | @escape letter c body pieces hEscape _ ih =>
      obtain ⟨hOther, hStands⟩ := simpleEscape?_of_mem hEscape
      rw [List.cons_append, List.cons_append, readPieces_escape hOther hStands, ih,
        List.reverse_cons, List.append_assoc, List.singleton_append]
  | @code a b c d i j k l body pieces ha hb hc hd _ ih =>
      have hCode : code? a b c d = some (((i * 16 + j) * 16 + k) * 16 + l) := by
        simp only [code?, hexDigit?_of_isHex ha, hexDigit?_of_isHex hb, hexDigit?_of_isHex hc,
          hexDigit?_of_isHex hd]
        rfl
      simp only [List.cons_append]
      rw [readPieces_code hCode, ih, List.reverse_cons, List.append_assoc, List.singleton_append]

end Pieces

theorem isLowSurrogate_iff {n : Nat} : isLowSurrogate n = true ↔ 0xDC00 ≤ n ∧ n ≤ 0xDFFF := by
  simp [isLowSurrogate]

theorem isHighSurrogate_iff {n : Nat} : isHighSurrogate n = true ↔ 0xD800 ≤ n ∧ n ≤ 0xDBFF := by
  simp [isHighSurrogate]

/-- Elements are read as the characters that they make up. -/
theorem joinPieces_of_joins {pieces : List Piece} {chars : List Char} (h : Joins pieces chars)
    (done : List Char) : joinPieces done pieces = some (done.reverse ++ chars) := by
  induction h generalizing done with
  | nil => rw [joinPieces, List.append_nil]
  | char _ ih => rw [joinPieces, ih, List.reverse_cons, List.append_assoc, List.singleton_append]
  | @code n pieces chars hOther _ ih =>
      have hLow : ¬ isLowSurrogate n = true := by rw [isLowSurrogate_iff]; omega
      have hHigh : ¬ isHighSurrogate n = true := by rw [isHighSurrogate_iff]; omega
      unfold joinPieces
      rw [if_neg hLow, if_neg hHigh, ih, List.reverse_cons, List.append_assoc,
        List.singleton_append]
  | @pair high low pieces chars hHigh hLow _ ih =>
      -- The reader looks for a closing surrogate first, which an opening one is not.
      have hFirst : ¬ isLowSurrogate high = true := by rw [isLowSurrogate_iff]; omega
      simp only [joinPieces, if_neg hFirst, if_pos (isHighSurrogate_iff.mpr hHigh),
        if_pos (isLowSurrogate_iff.mpr hLow)]
      rw [ih, List.reverse_cons, List.append_assoc, List.singleton_append]

/-- Elements that are read as characters make some up. -/
theorem exists_joins {done : List Char} {pieces : List Piece} {text : List Char}
    (h : joinPieces done pieces = some text) : ∃ chars, Joins pieces chars := by
  fun_induction joinPieces done pieces with
  | case1 done => exact ⟨_, .nil⟩
  | case2 done c rest ih =>
      obtain ⟨chars, hRest⟩ := ih h
      exact ⟨_, .char hRest⟩
  | case3 done n rest hLow => cases h
  | case4 done n hOther hHigh m rest hLow ih =>
      obtain ⟨chars, hRest⟩ := ih h
      exact ⟨_, .pair (isHighSurrogate_iff.mp hHigh) (isLowSurrogate_iff.mp hLow) hRest⟩
  | case5 done n hOther hHigh m rest hAlone => cases h
  | case6 done n rest hOther hHigh hAlone => cases h
  | case7 done n rest hLow hHigh ih =>
      obtain ⟨chars, hRest⟩ := ih h
      rw [isLowSurrogate_iff] at hLow
      rw [isHighSurrogate_iff] at hHigh
      exact ⟨_, .code (by omega) hRest⟩

theorem string?_of_spelled {body : List Char} {pieces : List Piece} (h : Spelled body pieces)
    (rest : List Char) : string? (body ++ '\x22' :: rest) =
      some (string ((joinPieces [] pieces).map String.ofList), rest) := by
  rw [string?, readPieces_of_spelled h]
  rfl

theorem string?_of_joins {body : List Char} {pieces : List Piece} {chars : List Char}
    (h : Spelled body pieces) (hJoins : Joins pieces chars) (rest : List Char) :
    string? (body ++ '\x22' :: rest) = some (string (some (String.ofList chars)), rest) := by
  rw [string?_of_spelled h, joinPieces_of_joins hJoins]
  rfl

theorem string?_of_broken {body : List Char} {pieces : List Piece} (h : Spelled body pieces)
    (hBroken : ∀ chars, ¬ Joins pieces chars) (rest : List Char) :
    string? (body ++ '\x22' :: rest) = some (string none, rest) := by
  have hNone : joinPieces [] pieces = none := by
    rw [Option.eq_none_iff_forall_ne_some]
    intro text hSome
    obtain ⟨chars, hJoins⟩ := exists_joins hSome
    exact hBroken chars hJoins
  rw [string?_of_spelled h, hNone]
  rfl

/-! Numbers -/

/-- A number may end before this text. -/
def Ends (text : List Char) : Prop :=
  ∀ c ∈ text.head?, c.isDigit = false ∧ c ≠ '.' ∧ c ≠ 'e' ∧ c ≠ 'E'

/-- No digit comes next. -/
def NoDigit (text : List Char) : Prop := ∀ c ∈ text.head?, c.isDigit = false

theorem IsDigits.exists_cons {digits : List Char} (h : IsDigits digits) :
    ∃ c more, digits = c :: more ∧ c.isDigit = true := by
  obtain ⟨hSome, hDigits⟩ := h
  obtain ⟨c, more, rfl⟩ := List.exists_cons_of_ne_nil hSome
  exact ⟨c, more, rfl, hDigits c List.mem_cons_self⟩

theorem digit?_of_isDigit {c : Char} (h : c.isDigit = true) :
    Decimal.digit? c = some (c.toNat - 48) := by
  have hRange : '0' ≤ c ∧ c ≤ '9' := by
    simpa [Char.isDigit, Char.le_def] using h
  rw [Decimal.digit?, if_pos hRange]

theorem digit?_of_not_isDigit {c : Char} (h : c.isDigit = false) : Decimal.digit? c = none := by
  have hRange : ¬ ('0' ≤ c ∧ c ≤ '9') := by
    simpa [Char.isDigit, Char.le_def] using h
  rw [Decimal.digit?, if_neg hRange]

/-- All digits are taken, and nothing else. -/
theorem takeDigits_append {digits rest : List Char} (h : ∀ c ∈ digits, c.isDigit = true)
    (hRest : NoDigit rest) :
    Decimal.takeDigits (digits ++ rest) = (digits.map fun c => c.toNat - 48, rest) := by
  induction digits with
  | nil =>
      cases rest with
      | nil => rfl
      | cons c rest =>
          rw [List.nil_append, Decimal.takeDigits, digit?_of_not_isDigit (hRest c rfl)]
          rfl
  | cons c digits ih =>
      rw [List.cons_append, Decimal.takeDigits, digit?_of_isDigit (h c List.mem_cons_self),
        ih fun d hd => h d (List.mem_cons_of_mem c hd)]
      rfl

theorem digits?_append {digits rest : List Char} (h : IsDigits digits) (hRest : NoDigit rest) :
    digits? (digits ++ rest) = some (digits.map fun c => c.toNat - 48, rest) := by
  obtain ⟨hSome, hDigits⟩ := h
  rw [digits?, takeDigits_append hDigits hRest]
  cases digits with
  | nil => exact absurd rfl hSome
  | cons c digits => rfl

/-- The digits of a number do not start with a zero, unless it is the only one. -/
theorem toDigits_cases (n : Nat) : n = 0 ∧ Nat.toDigits 10 n = ['0'] ∨
    ∃ c more, Nat.toDigits 10 n = c :: more ∧ c ≠ '0' := by
  induction n using Nat.strongRecOn with
  | ind n ih =>
      by_cases hSmall : n < 10
      · rw [Nat.toDigits_of_lt_base hSmall]
        have hAll : ∀ n < 10, n = 0 ∨ Nat.digitChar n ≠ '0' := by decide
        rcases hAll n hSmall with rfl | hOther
        · exact Or.inl ⟨rfl, rfl⟩
        · exact Or.inr ⟨_, _, rfl, hOther⟩
      · rw [Nat.toDigits_of_base_le (by decide) (by omega)]
        rcases ih (n / 10) (by omega) with ⟨hZero, -⟩ | ⟨c, more, hDigits, hOther⟩
        · omega
        · exact Or.inr ⟨c, more ++ [(n % 10).digitChar], by rw [hDigits, List.cons_append], hOther⟩

theorem isDigits_toDigits (n : Nat) : IsDigits (Nat.toDigits 10 n) :=
  ⟨List.ne_nil_of_length_pos Nat.length_toDigits_pos,
    fun _ hMem => Nat.isDigit_of_mem_toDigits (by decide) (by decide) hMem⟩

theorem ofDigits_toDigits (n : Nat) :
    Decimal.ofDigits ((Nat.toDigits 10 n).map fun c => c.toNat - 48) = n := by
  rw [Decimal.ofDigits, List.foldl_map]
  exact Nat.ofDigitChars_ten_toDigits

theorem integer?_append {rest : List Char} (n : Nat) (hRest : NoDigit rest) :
    integer? (Nat.toDigits 10 n ++ rest) =
      some ((Nat.toDigits 10 n).map fun c => c.toNat - 48, rest) := by
  rcases toDigits_cases n with ⟨-, hDigits⟩ | ⟨c, more, hDigits, hOther⟩
  · rw [hDigits]
    rfl
  · rw [← digits?_append (isDigits_toDigits n) hRest, hDigits, List.cons_append]
    unfold integer?
    split
    case h_1 rest hZero => exact absurd (List.cons.inj hZero).1 hOther
    case h_2 => rfl

theorem fraction?_append {fraction rest : List Char} (h : IsFraction fraction)
    (hRest : NoDigit rest) (hPoint : ∀ c ∈ rest.head?, c ≠ '.') :
    fraction? (fraction ++ rest) = some (!fraction.isEmpty, rest) := by
  obtain rfl | ⟨digits, hDigits, rfl⟩ := h
  · unfold fraction?
    split
    case h_1 more hMore =>
        rw [List.nil_append] at hMore
        exact absurd rfl (hPoint '.' (hMore ▸ rfl))
    case h_2 => rfl
  · rw [List.cons_append, fraction?, digits?_append hDigits hRest]
    rfl

/-- A sign is taken if there is one, and no digit is taken for a sign. -/
theorem takeSign_append {sign digits : List Char} (hSign : sign = [] ∨ sign = ['+'] ∨ sign = ['-'])
    (hDigits : IsDigits digits) (rest : List Char) :
    (Decimal.takeSign (sign ++ (digits ++ rest))).2 = digits ++ rest := by
  rcases hSign with rfl | rfl | rfl
  · obtain ⟨c, more, rfl, hDigit⟩ := hDigits.exists_cons
    unfold Decimal.takeSign
    split
    case h_1 hMinus =>
        obtain rfl := (List.cons.inj hMinus).1
        cases hDigit
    case h_2 hPlus =>
        obtain rfl := (List.cons.inj hPlus).1
        cases hDigit
    case h_3 => rfl
  · rfl
  · rfl

theorem exponent?_append {exponent rest : List Char} (h : IsExponent exponent)
    (hEnds : Ends rest) : exponent? (exponent ++ rest) = some (!exponent.isEmpty, rest) := by
  have hRest : NoDigit rest := fun c hc => (hEnds c hc).1
  obtain rfl | ⟨letter, sign, digits, hLetter, hSign, hDigits, rfl⟩ := h
  · cases rest with
    | nil => rfl
    | cons c rest =>
        obtain ⟨-, -, hSmall, hLarge⟩ := hEnds c rfl
        rw [List.nil_append, exponent?, if_neg (not_or.mpr ⟨hSmall, hLarge⟩)]
        rfl
  · rw [List.cons_append, List.append_assoc, exponent?, if_pos hLetter,
      takeSign_append hSign hDigits, digits?_append hDigits hRest]
    rfl

theorem noDigit_fraction_append {fraction rest : List Char} (h : IsFraction fraction)
    (hRest : NoDigit rest) : NoDigit (fraction ++ rest) := by
  obtain rfl | ⟨digits, -, rfl⟩ := h
  · exact hRest
  · rintro _ ⟨⟩
    rfl

/-- Neither a digit nor a point stands before or instead of an exponent. -/
theorem head_exponent_append {exponent rest : List Char} (h : IsExponent exponent)
    (hEnds : Ends rest) :
    ∀ c ∈ (exponent ++ rest).head?, c.isDigit = false ∧ c ≠ '.' := by
  obtain rfl | ⟨letter, sign, digits, rfl | rfl, -, -, rfl⟩ := h
  · exact fun c hc => ⟨(hEnds c hc).1, (hEnds c hc).2.1⟩
  · rintro _ ⟨⟩
    exact ⟨rfl, by decide⟩
  · rintro _ ⟨⟩
    exact ⟨rfl, by decide⟩

/-- The rest of a number, whose sign has been read. -/
def unsigned? (negative : Bool) (text : List Char) : Option (Token × List Char) := do
  let (digits, rest) ← integer? text
  let (fractional, rest) ← fraction? rest
  let (scaled, rest) ← exponent? rest
  let natural := if negative || fractional || scaled then none else some (Decimal.ofDigits digits)
  return (number natural, rest)

theorem number?_minus (text : List Char) : number? ('-' :: text) = unsigned? true text := rfl

theorem number?_of_isDigit {c : Char} (h : c.isDigit = true) (text : List Char) :
    number? (c :: text) = unsigned? false (c :: text) := by
  unfold number?
  split
  rename_i negative body hSign
  split at hSign
  case h_1 hMinus =>
      obtain rfl := (List.cons.inj hMinus).1
      cases h
  case h_2 =>
      obtain ⟨rfl, rfl⟩ := Prod.mk.inj hSign
      rfl

theorem unsigned?_append {fraction exponent rest : List Char} (negative : Bool) (whole : Nat)
    (hFraction : IsFraction fraction) (hExponent : IsExponent exponent) (hEnds : Ends rest) :
    unsigned? negative (Nat.toDigits 10 whole ++ (fraction ++ (exponent ++ rest))) =
      some (number (if negative || !fraction.isEmpty || !exponent.isEmpty then none
        else some whole), rest) := by
  have hAfter := head_exponent_append hExponent hEnds
  have hDigit : NoDigit (exponent ++ rest) := fun c hc => (hAfter c hc).1
  have hPoint : ∀ c ∈ (exponent ++ rest).head?, c ≠ '.' := fun c hc => (hAfter c hc).2
  have hWhole := integer?_append whole (noDigit_fraction_append hFraction hDigit)
  have hFractional := fraction?_append hFraction hDigit hPoint
  have hScaled := exponent?_append hExponent hEnds
  simp only [unsigned?, hWhole, hFractional, hScaled, ofDigits_toDigits, Option.bind_eq_bind,
    Option.bind_some]
  rfl

/-! Words -/

def isNumber : Token → Bool
  | number _ => true
  | _ => false

/-- Words that end what stands before them. -/
def isEnding : Token → Bool
  | closeArray | closeObject | comma => true
  | _ => false

variable {token : Token} {word rest : List Char}

theorem word?_append (word : String) (token : Token) (rest : List Char) :
    word? word token (word.toList ++ rest) = some (token, rest) := by
  have hPrefix : word.toList.isPrefixOf (word.toList ++ rest) = true :=
    List.isPrefixOf_iff_prefix.mpr (List.prefix_append _ _)
  rw [word?, if_pos hPrefix, ← String.length_toList, List.drop_left]

theorem next?_of_digit {c : Char} (h : c = '-' ∨ c.isDigit = true) (text : List Char) :
    next? (c :: text) = number? (c :: text) := by
  unfold next?
  split
  case h_1 hNil => cases hNil
  case h_12 => rfl
  all_goals
    rename_i hSame
    obtain ⟨rfl, -⟩ := List.cons.inj hSame
    exact absurd h (by decide)

theorem next?_of_number {sign fraction exponent : List Char} (whole : Nat)
    (hSign : sign = [] ∨ sign = ['-']) (hFraction : IsFraction fraction)
    (hExponent : IsExponent exponent) (hEnds : Ends rest) :
    next? (sign ++ (Nat.toDigits 10 whole ++ (fraction ++ (exponent ++ rest)))) =
      some (number (if sign ++ fraction ++ exponent = [] then some whole else none), rest) := by
  have hUnsigned (negative : Bool) := unsigned?_append negative whole hFraction hExponent hEnds
  rcases hSign with rfl | rfl
  · obtain ⟨c, more, hDigits, hDigit⟩ := (isDigits_toDigits whole).exists_cons
    rw [hDigits] at hUnsigned ⊢
    refine (next?_of_digit (Or.inr hDigit) _).trans ((number?_of_isDigit hDigit _).trans ?_)
    refine (hUnsigned false).trans ?_
    cases fraction <;> cases exponent <;> rfl
  · exact (number?_minus _).trans (hUnsigned true)

/-- A word is read as what it is, whatever follows it; after a number no character may follow that
could go on with it. -/
theorem next?_of_writes (h : Writes token word) (hEnds : token.isNumber = true → Ends rest) :
    next? (word ++ rest) = some (token, rest) := by
  cases h with
  | null => exact word?_append "ull" _ rest
  | yes => exact word?_append "rue" _ rest
  | no => exact word?_append "alse" _ rest
  | openArray => rfl
  | closeArray => rfl
  | openObject => rfl
  | closeObject => rfl
  | colon => rfl
  | comma => rfl
  | natural n => exact next?_of_number n (Or.inl rfl) (Or.inl rfl) (Or.inl rfl) (hEnds rfl)
  | number whole hSign hFraction hExponent hMore =>
      have hRead := next?_of_number whole hSign hFraction hExponent (hEnds rfl)
      rw [if_neg hMore] at hRead
      simpa only [List.append_assoc] using hRead
  | text h hJoins =>
      rw [List.cons_append, List.append_assoc]
      exact string?_of_joins h hJoins rest
  | noText h hBroken =>
      rw [List.cons_append, List.append_assoc]
      exact string?_of_broken h hBroken rest

/-! White space between words -/

theorem isSpace_iff {c : Char} :
    isSpace c = true ↔ c = ' ' ∨ c = '\t' ∨ c = '\n' ∨ c = '\r' := by
  simp [isSpace, or_assoc]

theorem isSpace_of_isDigit {c : Char} (h : c.isDigit = true) : isSpace c = false := by
  by_contra hSpace
  rw [Bool.not_eq_false, isSpace_iff] at hSpace
  rcases hSpace with rfl | rfl | rfl | rfl <;> cases h

/-- Every word starts with a character that is no white space. -/
theorem Writes.exists_cons (h : Writes token word) :
    ∃ c more, word = c :: more ∧ isSpace c = false := by
  have hWhole (whole : Nat) (more : List Char) :
      ∃ c rest, Nat.toDigits 10 whole ++ more = c :: rest ∧ isSpace c = false := by
    obtain ⟨c, others, hDigits, hDigit⟩ := (isDigits_toDigits whole).exists_cons
    exact ⟨c, others ++ more, by rw [hDigits, List.cons_append], isSpace_of_isDigit hDigit⟩
  cases h with
  | natural n =>
      rw [← List.append_nil (Nat.toDigits 10 n)]
      exact hWhole n []
  | number whole hSign _ _ _ =>
      rcases hSign with rfl | rfl
      · exact hWhole whole _
      · exact ⟨_, _, rfl, rfl⟩
  | _ => exact ⟨_, _, rfl, rfl⟩

/-- White space before a word is skipped, and nothing of the word. -/
theorem dropWhile_isSpace {blanks : List Char} (hBlank : IsBlank blanks) (h : Writes token word)
    (rest : List Char) : (blanks ++ (word ++ rest)).dropWhile isSpace = word ++ rest := by
  obtain ⟨c, more, rfl, hStarts⟩ := h.exists_cons
  rw [List.dropWhile_append_of_pos fun c hc => isSpace_iff.mpr (hBlank c hc), List.cons_append,
    List.dropWhile_cons_of_neg (by rw [hStarts]; decide)]

theorem Laid.length_le {tokens : List Token} {text : List Char} (h : Laid tokens text) :
    tokens.length ≤ text.length := by
  induction h with
  | nil _ => exact Nat.zero_le _
  | cons _ hWord _ ih =>
      obtain ⟨c, more, rfl, -⟩ := hWord.exists_cons
      simp only [List.length_cons, List.length_append]
      omega

theorem Writes.ends (h : Writes token word) (hEnding : token.isEnding = true) (rest : List Char) :
    Ends (word ++ rest) := by
  cases h with
  | closeArray =>
      rintro _ ⟨⟩
      decide
  | closeObject =>
      rintro _ ⟨⟩
      decide
  | comma =>
      rintro _ ⟨⟩
      decide
  | _ => cases hEnding

/-- What starts with white space, or with a word that ends what stands before it. -/
theorem Laid.ends {tokens : List Token} {text : List Char} (h : Laid tokens text)
    (hEnding : ∀ token ∈ tokens.head?, token.isEnding = true) : Ends text := by
  have hSpace {c : Char} {blanks : List Char} (hBlank : IsBlank (c :: blanks)) (rest : List Char) :
      Ends (c :: blanks ++ rest) := by
    rintro _ ⟨⟩
    rcases hBlank c List.mem_cons_self with rfl | rfl | rfl | rfl <;> decide
  cases h with
  | nil hBlank =>
      cases text with
      | nil => nofun
      | cons c blanks => simpa using hSpace hBlank []
  | @cons blanks word text token tokens hBlank hWord rest =>
      cases blanks with
      | nil => exact hWord.ends (hEnding token rfl) text
      | cons c blanks => exact hSpace hBlank _

/-- No number is followed by a word that could go on with it. -/
abbrev Apart (tokens : List Token) : Prop :=
  tokens.IsChain fun token next => token.isNumber = true → next.isEnding = true

theorem readAll_nil {text : List Char} (h : text.dropWhile isSpace = []) (rounds : Nat)
    (done : List Token) : readAll rounds done text = some done.reverse := by
  rw [readAll.eq_def, h]

theorem readAll_cons {text : List Char} {c : Char} {more : List Char}
    (h : text.dropWhile isSpace = c :: more) (hNext : next? (c :: more) = some (token, rest))
    (rounds : Nat) (done : List Token) :
    readAll (rounds + 1) done text = readAll rounds (token :: done) rest := by
  rw [readAll.eq_def, h]
  simp only [hNext]

theorem readAll_of_laid {tokens : List Token} {text : List Char} (h : Laid tokens text)
    (apart : Apart tokens) {rounds : Nat} (hRounds : tokens.length ≤ rounds) (done : List Token) :
    readAll rounds done text = some (done.reverse ++ tokens) := by
  induction h generalizing rounds done with
  | nil hBlank =>
      have hNothing := List.dropWhile_eq_nil_iff.mpr fun c hc => isSpace_iff.mpr (hBlank c hc)
      rw [readAll_nil hNothing, List.append_nil]
  | @cons blanks word text token tokens hBlank hWord rest ih =>
      obtain ⟨hNext, hApart⟩ := List.isChain_cons.mp apart
      obtain ⟨rounds, rfl⟩ : ∃ before, rounds = before + 1 := Nat.exists_eq_add_one.mpr (by
        rw [List.length_cons] at hRounds
        omega)
      have hRead : next? (word ++ text) = some (token, text) :=
        next?_of_writes hWord fun hNumber => rest.ends fun next hMem => hNext next hMem hNumber
      have hWords := dropWhile_isSpace hBlank hWord text
      obtain ⟨c, more, rfl, -⟩ := hWord.exists_cons
      rw [readAll_cons hWords hRead, ih hApart (Nat.le_of_succ_le_succ hRounds),
        List.reverse_cons, List.append_assoc, List.singleton_append]

/-- Words are read as what they are, whatever white space stands between them. -/
theorem ofText_of_laid {tokens : List Token} {text : List Char} (h : Laid tokens text)
    (apart : Apart tokens) : ofText text = some tokens :=
  readAll_of_laid h apart h.length_le []

/-! Everything can be written -/

theorem exists_spelled (chars : List Char) :
    ∃ body pieces, Spelled body pieces ∧ Joins pieces chars := by
  induction chars with
  | nil => exact ⟨[], [], .nil, .nil⟩
  | cons c chars ih =>
      obtain ⟨body, pieces, hSpelled, hJoins⟩ := ih
      by_cases hPlain : c ≠ '\x22' ∧ c ≠ '\\' ∧ 0x20 ≤ c.toNat
      · obtain ⟨hQuote, hSlash, hControl⟩ := hPlain
        exact ⟨_, _, .plain hQuote hSlash hControl hSpelled, .char hJoins⟩
      · -- What cannot stand for itself is written as a code unit, of two digits at most.
        have hSmall : c.toNat < 128 := by
          by_contra hLarge
          refine hPlain ⟨?_, ?_, by omega⟩
          · rintro rfl
            exact hLarge (by decide)
          · rintro rfl
            exact hLarge (by decide)
        have hHex {n : Nat} (h : n < 16) : IsHex n (Nat.digitChar n) := ⟨h, Or.inl rfl⟩
        have hCode : ((0 * 16 + 0) * 16 + c.toNat / 16) * 16 + c.toNat % 16 = c.toNat := by omega
        have hSpelt := Spelled.code (hHex (by decide : 0 < 16)) (hHex (by decide : 0 < 16))
          (hHex (by omega : c.toNat / 16 < 16)) (hHex (by omega : c.toNat % 16 < 16)) hSpelled
        rw [hCode] at hSpelt
        refine ⟨_, _, hSpelt, ?_⟩
        have hJoined := Joins.code (Or.inl (by omega : c.toNat < 0xD800)) hJoins
        rwa [Char.ofNat_toNat] at hJoined

/-- A surrogate that stands alone. -/
theorem exists_broken : ∃ body pieces, Spelled body pieces ∧ ∀ chars, ¬ Joins pieces chars := by
  have hHex {n : Nat} (h : n < 16) : IsHex n (Nat.digitChar n) := ⟨h, Or.inl rfl⟩
  refine ⟨_, _, .code (hHex (by decide : 13 < 16)) (hHex (by decide : 8 < 16))
    (hHex (by decide : 0 < 16)) (hHex (by decide : 0 < 16)) .nil, ?_⟩
  rintro chars hJoins
  cases hJoins with
  | code h _ => omega

theorem exists_writes (token : Token) : ∃ word, Writes token word := by
  cases token with
  | null => exact ⟨_, .null⟩
  | bool value =>
      cases value with
      | true => exact ⟨_, .yes⟩
      | false => exact ⟨_, .no⟩
  | number natural =>
      cases natural with
      | some n => exact ⟨_, .natural n⟩
      | none => exact ⟨_, .number 0 (Or.inr rfl) (Or.inl rfl) (Or.inl rfl) (by decide)⟩
  | string text =>
      cases text with
      | some text =>
          obtain ⟨body, pieces, hSpelled, hJoins⟩ := exists_spelled text.toList
          have hWrites := Writes.text hSpelled hJoins
          rw [String.ofList_toList] at hWrites
          exact ⟨_, hWrites⟩
      | none =>
          obtain ⟨body, pieces, hSpelled, hBroken⟩ := exists_broken
          exact ⟨_, .noText hSpelled hBroken⟩
  | openArray => exact ⟨_, .openArray⟩
  | closeArray => exact ⟨_, .closeArray⟩
  | openObject => exact ⟨_, .openObject⟩
  | closeObject => exact ⟨_, .closeObject⟩
  | colon => exact ⟨_, .colon⟩
  | comma => exact ⟨_, .comma⟩

theorem exists_laid (tokens : List Token) : ∃ text, Laid tokens text := by
  induction tokens with
  | nil => exact ⟨[], .nil nofun⟩
  | cons token tokens ih =>
      obtain ⟨text, hLaid⟩ := ih
      obtain ⟨word, hWrites⟩ := exists_writes token
      have hBlank : IsBlank [] := nofun
      exact ⟨_, .cons hBlank hWrites hLaid⟩

end ImagePlacement.Json.Token
