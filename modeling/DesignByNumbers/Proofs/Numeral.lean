import Mathlib.Algebra.Group.Int.Defs
import Mathlib.Algebra.Group.Nat.Defs
import DesignByNumbers.Numeral

/-!
# Proofs.Numeral — the integers of plain numerals

A plain numeral stands for an integer whatever its length. Reading it gives that integer
exactly when it has no more digits than `digitLimit`, and the decimal text of an integer is a
plain numeral of its own value.

* `parse?_of_isPlain` — reading a plain numeral.
* `natAbs_lt_of_parse?` — what is read, from whatever text, stays below a power of ten.
* `print?_eq_some_iff` — which integers have a text.
* `integer_decimal`, `integer_negate` — the value of a printed integer and of a negated text.
-/

namespace DesignByNumbers.Numeral

/-- The integer that a plain numeral of any length stands for. -/
def integer (text : String) : Int :=
  match text.toList with
  | '-' :: digits => -(ofAsciiDigits digits : Int)
  | digits => ofAsciiDigits digits

/-- The number of digits of a plain numeral. The sign is not counted. -/
def digitCount (text : String) : Nat :=
  match text.toList with
  | '-' :: digits => digits.length
  | digits => digits.length

/-! ## Shape -/

theorem digit_of_isDigits {digits : List Char} (h : isDigits digits = true) {c : Char}
    (hc : c ∈ digits) : c.isDigit = true := by
  simp only [isDigits, Bool.and_eq_true, List.all_eq_true] at h
  exact h.2 c hc

/-- A text of digits has no sign. -/
theorem ne_minus_cons_of_isDigits {digits : List Char} (h : isDigits digits = true)
    (rest : List Char) : digits ≠ '-' :: rest := by
  rintro rfl
  have hMinus := digit_of_isDigits h (List.mem_cons_self ..)
  exact absurd hMinus (by decide)

/-- A plain numeral is a text of digits, with or without a minus sign in front. -/
theorem isPlain_iff {text : String} :
    isPlain text = true ↔ ∃ digits, isDigits digits = true ∧
      (text = String.ofList ('-' :: digits) ∨ text = String.ofList digits) := by
  constructor
  · intro h
    rw [isPlain] at h
    split at h
    next digits hText => exact ⟨digits, h, .inl (by rw [← hText, String.ofList_toList])⟩
    next digits hText => exact ⟨text.toList, h, .inr (by rw [String.ofList_toList])⟩
  · rintro ⟨digits, hDigits, rfl | rfl⟩
    · simp [isPlain, hDigits]
    · rw [isPlain, String.toList_ofList]
      split
      next rest => exact absurd rfl (ne_minus_cons_of_isDigits hDigits rest)
      next => exact hDigits

section Digits

variable {digits : List Char}

@[simp]
theorem integer_minus : integer (String.ofList ('-' :: digits)) = -(ofAsciiDigits digits : Int) := by
  simp [integer]

@[simp]
theorem digitCount_minus : digitCount (String.ofList ('-' :: digits)) = digits.length := by
  simp [digitCount]

theorem integer_ofList (h : isDigits digits = true) :
    integer (String.ofList digits) = ofAsciiDigits digits := by
  rw [integer, String.toList_ofList]
  split
  next rest => exact absurd rfl (ne_minus_cons_of_isDigits h rest)
  next => rfl

theorem digitCount_ofList (h : isDigits digits = true) :
    digitCount (String.ofList digits) = digits.length := by
  rw [digitCount, String.toList_ofList]
  split
  next rest => exact absurd rfl (ne_minus_cons_of_isDigits h rest)
  next => rfl

@[simp]
theorem negate_minus : negate (String.ofList ('-' :: digits)) = String.ofList digits := by
  simp [negate]

theorem negate_ofList (h : isDigits digits = true) :
    negate (String.ofList digits) = String.ofList ('-' :: digits) := by
  rw [negate, String.toList_ofList]
  split
  next rest => exact absurd rfl (ne_minus_cons_of_isDigits h rest)
  next => rfl

end Digits

/-! ## Negation -/

theorem isPlain_negate {text : String} (h : isPlain text = true) : isPlain (negate text) = true := by
  obtain ⟨digits, hDigits, rfl | rfl⟩ := isPlain_iff.mp h
  · rw [negate_minus]
    exact isPlain_iff.mpr ⟨digits, hDigits, .inr rfl⟩
  · rw [negate_ofList hDigits]
    exact isPlain_iff.mpr ⟨digits, hDigits, .inl rfl⟩

theorem integer_negate {text : String} (h : isPlain text = true) :
    integer (negate text) = -integer text := by
  obtain ⟨digits, hDigits, rfl | rfl⟩ := isPlain_iff.mp h
  · rw [negate_minus, integer_ofList hDigits, integer_minus, Int.neg_neg]
  · rw [negate_ofList hDigits, integer_minus, integer_ofList hDigits]

/-! ## Reading -/

theorem digitValue?_of_isDigit {c : Char} (h : c.isDigit = true) :
    Text.digitValue? c = some (asciiDigitValue c) := by
  simp [Text.digitValue?, Text.asciiDigitValue?, h, asciiDigitValue]

theorem digitsAfterDigit?_of_isDigit {digits : List Char} (h : ∀ c ∈ digits, c.isDigit = true) :
    digitsAfterDigit? digits = some (digits.map asciiDigitValue) := by
  induction digits with
  | nil => rfl
  | cons c rest ih =>
    have hDigit : c.isDigit = true := h c (List.mem_cons_self ..)
    have hRest := ih fun d hd => h d (List.mem_cons_of_mem _ hd)
    have hUnderscore : c ≠ '_' := by
      rintro rfl
      exact absurd hDigit (by decide)
    rw [digitsAfterDigit?.eq_3 _ _ (by simp [hUnderscore]), digitValue?_of_isDigit hDigit, hRest]
    rfl

theorem magnitude?_of_isDigits {digits : List Char} (h : isDigits digits = true) :
    magnitude? digits =
      if digits.length ≤ digitLimit then some (ofAsciiDigits digits) else none := by
  cases digits with
  | nil => simp [isDigits] at h
  | cons c rest =>
    have hDigit := digitValue?_of_isDigit (digit_of_isDigits h (List.mem_cons_self ..))
    have hRest := digitsAfterDigit?_of_isDigit fun d hd =>
      digit_of_isDigits h (List.mem_cons_of_mem c hd)
    simp [magnitude?, digits?, hDigit, hRest, ofAsciiDigits]

/-- The code points of the ASCII digits. -/
theorem toNat_of_isDigit {c : Char} (h : c.isDigit = true) : 48 ≤ c.toNat ∧ c.toNat ≤ 57 := by
  simp only [Char.isDigit, Bool.and_eq_true, decide_eq_true_eq] at h
  exact h

theorem isMargin_of_isDigit {c : Char} (h : c.isDigit = true) : isMargin c = false := by
  have hCode := toNat_of_isDigit h
  have hBlank : Text.isBlank c = false := by
    rw [Bool.eq_false_iff]
    intro hBlank
    simp only [Text.isBlank, Bool.or_eq_true, Bool.and_eq_true, decide_eq_true_eq,
      beq_iff_eq] at hBlank
    omega
  rw [isMargin, hBlank, Bool.false_and]

theorem trimMargins_eq_self {text : List Char} (h : ∀ c ∈ text, isMargin c = false) :
    trimMargins text = text := by
  have hDrop : ∀ chars : List Char, (∀ c ∈ chars, isMargin c = false) →
      chars.dropWhile isMargin = chars := by
    intro chars hChars
    cases chars with
    | nil => rfl
    | cons c rest => rw [List.dropWhile_cons, hChars c (List.mem_cons_self ..)]; rfl
  rw [trimMargins, hDrop text h, hDrop text.reverse fun c hc => h c (List.mem_reverse.mp hc),
    List.reverse_reverse]

/-- A plain numeral within the digit limit denotes its integer, and a longer one denotes
nothing. -/
theorem parse?_of_isPlain {text : String} (h : isPlain text = true) :
    parse? text = if digitCount text ≤ digitLimit then some (integer text) else none := by
  obtain ⟨digits, hDigits, rfl | rfl⟩ := isPlain_iff.mp h
  · have hTrim : trimMargins ('-' :: digits) = '-' :: digits := by
      apply trimMargins_eq_self
      intro c hc
      rcases List.mem_cons.mp hc with rfl | hc
      · decide
      · exact isMargin_of_isDigit (digit_of_isDigits hDigits hc)
    rw [parse?, String.toList_ofList, hTrim, signed?, magnitude?_of_isDigits hDigits,
      digitCount_minus, integer_minus]
    split <;> rfl
  · have hTrim : trimMargins digits = digits :=
      trimMargins_eq_self fun c hc => isMargin_of_isDigit (digit_of_isDigits hDigits hc)
    -- digits start with no sign, so that all of them are the magnitude
    have hSigned : signed? digits = (magnitude? digits).map fun (n : Nat) => (n : Int) := by
      rw [signed?.eq_def]
      split
      next rest => exact absurd rfl (ne_minus_cons_of_isDigits hDigits rest)
      next rest =>
        exact absurd (digit_of_isDigits hDigits (List.mem_cons_self ..)) (by decide)
      next => rfl
    rw [parse?, String.toList_ofList, hTrim, hSigned, magnitude?_of_isDigits hDigits,
      digitCount_ofList hDigits, integer_ofList hDigits]
    split <;> rfl

/-- Digits behind a minus sign denote the negative of their number. -/
theorem parse?_minus {digits : List Char} (hDigits : isDigits digits = true)
    (hLength : digits.length ≤ digitLimit) :
    parse? (String.ofList ('-' :: digits)) = some (-(ofAsciiDigits digits : Int)) := by
  rw [parse?_of_isPlain (isPlain_iff.mpr ⟨digits, hDigits, .inl rfl⟩), digitCount_minus,
    if_pos hLength, integer_minus]

/-! ## Bounds -/

/-- Nines are one short of a power of ten. -/
theorem ofAsciiDigits_nines (n : Nat) : ofAsciiDigits (List.replicate n '9') + 1 = 10 ^ n := by
  induction n with
  | zero => rfl
  | succ n ih =>
    rw [ofAsciiDigits, ofDigits, List.replicate_succ', List.map_append, List.foldl_append]
    show 10 * ofAsciiDigits (List.replicate n '9') + 9 + 1 = 10 ^ (n + 1)
    rw [Nat.pow_succ]
    omega

theorem digit_lt_ten_of_digitValue? {c : Char} {digit : Nat} (h : Text.digitValue? c = some digit) :
    digit < 10 := by
  rw [Text.digitValue?] at h
  split at h
  next value hAscii =>
    simp only [Text.asciiDigitValue?] at hAscii
    split at hAscii
    next hDigit =>
      have hCode := toNat_of_isDigit hDigit
      simp only [Option.some.injEq] at hAscii h
      omega
    next => cases hAscii
  next =>
    obtain ⟨first, hFirst, rfl⟩ := Option.map_eq_some_iff.mp h
    have hRange := List.find?_some hFirst
    simp only [Bool.and_eq_true, decide_eq_true_eq] at hRange
    omega

theorem digits_lt_ten_of_digitsAfterDigit? {text : List Char} {digits : List Nat}
    (h : digitsAfterDigit? text = some digits) : ∀ digit ∈ digits, digit < 10 := by
  have hCons : ∀ {c : Char} {digit : Nat} {others : List Nat}, Text.digitValue? c = some digit →
      (∀ d ∈ others, d < 10) → ∀ d ∈ digit :: others, d < 10 := by
    intro c digit others hDigit hOthers d hd
    rcases List.mem_cons.mp hd with rfl | hd
    · exact digit_lt_ten_of_digitValue? hDigit
    · exact hOthers d hd
  fun_induction digitsAfterDigit? text generalizing digits with
  | case1 => cases h; simp
  | case2 c rest digit others hOthers hDigit ih =>
    cases h
    exact hCons hDigit (ih hOthers)
  | case3 => cases h
  | case4 c rest _ digit others hOthers hDigit ih =>
    cases h
    exact hCons hDigit (ih hOthers)
  | case5 => cases h

theorem digits_lt_ten_of_digits? {text : List Char} {digits : List Nat}
    (h : digits? text = some digits) : ∀ digit ∈ digits, digit < 10 := by
  cases text with
  | nil => cases h
  | cons c rest =>
    rw [digits?] at h
    split at h
    next digit others hDigit hOthers =>
      cases h
      intro d hd
      rcases List.mem_cons.mp hd with rfl | hd
      · exact digit_lt_ten_of_digitValue? hDigit
      · exact digits_lt_ten_of_digitsAfterDigit? hOthers d hd
    next => cases h

/-- A number with as many digits is below that power of ten. -/
theorem ofDigits_lt {digits : List Nat} (h : ∀ digit ∈ digits, digit < 10) :
    ofDigits digits < 10 ^ digits.length := by
  -- the digits are folded from the left, so that the start value is generalised
  have hFold : ∀ (digits : List Nat) (value : Nat), (∀ digit ∈ digits, digit < 10) →
      digits.foldl (fun value digit => 10 * value + digit) value <
        (value + 1) * 10 ^ digits.length := by
    intro digits
    induction digits with
    | nil => intro value _; simp
    | cons digit rest ih =>
      intro value hDigits
      have hDigit : digit < 10 := hDigits digit (List.mem_cons_self ..)
      calc (digit :: rest).foldl (fun value digit => 10 * value + digit) value
          < (10 * value + digit + 1) * 10 ^ rest.length :=
            ih (10 * value + digit) fun d hd => hDigits d (List.mem_cons_of_mem _ hd)
        _ ≤ ((value + 1) * 10) * 10 ^ rest.length := Nat.mul_le_mul_right _ (by omega)
        _ = (value + 1) * 10 ^ (digit :: rest).length := by
            rw [List.length_cons, Nat.pow_succ, Nat.mul_assoc, Nat.mul_comm 10]
  have hAll := hFold digits 0 h
  rwa [Nat.zero_add, Nat.one_mul] at hAll

/-- Whatever text an integer is read from, it has no more digits than the limit. -/
theorem natAbs_lt_of_parse? {text : String} {value : Int} (h : parse? text = some value) :
    value.natAbs < 10 ^ digitLimit := by
  have hMagnitude : ∀ {unsigned : List Char} {n : Nat}, magnitude? unsigned = some n →
      n < 10 ^ digitLimit := by
    intro unsigned n hn
    rw [magnitude?] at hn
    split at hn
    next digits hDigits =>
      split at hn
      next hLength =>
        cases hn
        exact Nat.lt_of_lt_of_le (ofDigits_lt (digits_lt_ten_of_digits? hDigits))
          (Nat.pow_le_pow_right (by decide) hLength)
      next => cases hn
    next => cases hn
  -- the sign makes no difference to the bound
  rw [parse?, signed?.eq_def] at h
  split at h
  all_goals
    obtain ⟨n, hn, rfl⟩ := Option.map_eq_some_iff.mp h
    have hBound := hMagnitude hn
    generalize 10 ^ digitLimit = bound at hBound ⊢
    omega

/-! ## Writing -/

theorem digitLimit_pos : 0 < digitLimit := by decide

/-- The bound of what is read and printed, as an integer. -/
theorem natCast_ten_pow_digitLimit : ((10 ^ digitLimit : Nat) : Int) = 10 ^ digitLimit :=
  Int.natCast_pow 10 digitLimit

/-- An integer has a text when its digits are within the limit. -/
theorem print?_eq_some_iff {value : Int} {text : String} :
    print? value = some text ↔ value.natAbs < 10 ^ digitLimit ∧ text = decimal value := by
  have hLength := Nat.length_toDigits_le_iff (n := value.natAbs) (b := 10) (by decide)
    digitLimit_pos
  rw [print?, ← hLength]
  split
  next h => simp [h, eq_comm]
  next h => simp [h]

theorem ofAsciiDigits_toDigits (n : Nat) : ofAsciiDigits (Nat.toDigits 10 n) = n := by
  rw [ofAsciiDigits, ofDigits, List.foldl_map]
  exact Nat.ofDigitChars_ten_toDigits

theorem isDigits_toDigits (n : Nat) : isDigits (Nat.toDigits 10 n) = true := by
  simp only [isDigits, Bool.and_eq_true, Bool.not_eq_true', List.isEmpty_eq_false_iff,
    List.all_eq_true]
  exact ⟨Nat.toDigits_ne_nil, fun c hc => Nat.isDigit_of_mem_toDigits (by decide) (by decide) hc⟩

/-- The text of an integer is that of its magnitude, with a minus sign below zero. -/
theorem decimal_eq (value : Int) :
    decimal value = String.ofList (if value < 0 then '-' :: Nat.toDigits 10 value.natAbs
      else Nat.toDigits 10 value.natAbs) := by
  cases value with
  | ofNat n =>
    have hNonneg : ¬ Int.ofNat n < 0 := by simp
    rw [if_neg hNonneg]
    rfl
  | negSucc n =>
    rw [if_pos (Int.negSucc_lt_zero n), decimal, Nat.repr_eq_ofList_toDigits, Int.natAbs_negSucc]
    rw [← String.toList_inj]
    simp

theorem isPlain_decimal (value : Int) : isPlain (decimal value) = true := by
  rw [decimal_eq]
  split
  · exact isPlain_iff.mpr ⟨_, isDigits_toDigits _, .inl rfl⟩
  · exact isPlain_iff.mpr ⟨_, isDigits_toDigits _, .inr rfl⟩

/-- The decimal text of an integer stands for that integer. -/
theorem integer_decimal (value : Int) : integer (decimal value) = value := by
  rw [decimal_eq]
  split
  · rw [integer_minus, ofAsciiDigits_toDigits]
    omega
  · rw [integer_ofList (isDigits_toDigits _), ofAsciiDigits_toDigits]
    omega

theorem decimal_injective {value value' : Int} (h : decimal value = decimal value') :
    value = value' := by
  rw [← integer_decimal value, h, integer_decimal]

theorem repr_injective : Function.Injective Nat.repr := by
  intro n n' hSame
  have hDecimal : decimal (n : Int) = decimal (n' : Int) := hSame
  exact Int.ofNat.inj (decimal_injective hDecimal)

/-- The text of an integer is written with digits and the minus sign. -/
theorem eq_minus_or_isDigit_of_mem_decimal {value : Int} {c : Char} (h : c ∈ (decimal value).toList) :
    c = '-' ∨ c.isDigit = true := by
  have hDigit := fun hc => digit_of_isDigits (isDigits_toDigits value.natAbs) (c := c) hc
  rw [decimal_eq, String.toList_ofList] at h
  split at h
  · exact (List.mem_cons.mp h).imp id hDigit
  · exact .inr (hDigit h)

theorem digitCount_decimal (value : Int) :
    digitCount (decimal value) = (Nat.toDigits 10 value.natAbs).length := by
  rw [decimal_eq]
  split
  · exact digitCount_minus
  · exact digitCount_ofList (isDigits_toDigits _)

/-- An integer has a text when that text keeps within the digit limit. -/
theorem print?_eq_some_iff_digitCount {value : Int} {text : String} :
    print? value = some text ↔ digitCount (decimal value) ≤ digitLimit ∧ text = decimal value := by
  rw [digitCount_decimal, print?]
  split
  next h => simp [h, eq_comm]
  next h => simp [h]

end DesignByNumbers.Numeral
