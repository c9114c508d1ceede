import DesignByNumbers.Proofs.Numeral
import Mathlib.Data.List.Induction

/-!
# Proofs.Numeral.Canonical — one text for each integer

A canonical numeral is the text that its integer is printed as. Printing yields nothing else, and
negation yields nothing else either, except that it puts a minus sign in front of zero: it edits the
text and knows nothing of the number. With that one text more, the numerals are closed under all
that a run does with them, and only zero has two texts among them.

* `isCanonical_iff_head?` — digits are canonical when they have no leading zero.
* `isCanonical_iff_print?` — what is converted is canonical when printing gives it back.
* `IsReduced.negate` — canonical numerals and the negative zero are closed under negation.
* `IsReduced.eq_iff` — texts and integers agree up to the sign of zero.
-/

namespace DesignByNumbers.Numeral

/-- A text is the one that its integer is printed as. -/
def IsCanonical (text : String) : Prop :=
  decimal (integer text) = text

instance (text : String) : Decidable (IsCanonical text) :=
  inferInstanceAs (Decidable (decimal (integer text) = text))

/-- A text is canonical, or it is zero with a minus sign. -/
def IsReduced (text : String) : Prop :=
  IsCanonical text ∨ text = "-0"

instance (text : String) : Decidable (IsReduced text) :=
  inferInstanceAs (Decidable (IsCanonical text ∨ text = "-0"))

theorem isCanonical_decimal (value : Int) : IsCanonical (decimal value) := by
  rw [IsCanonical, integer_decimal]

theorem IsCanonical.isPlain {text : String} (h : IsCanonical text) : isPlain text = true := by
  rw [← h]
  exact isPlain_decimal _

/-! ## Leading zeros -/

theorem digitChar_asciiDigitValue {c : Char} (h : c.isDigit = true) :
    (asciiDigitValue c).digitChar = c := by
  obtain ⟨hLower, hUpper⟩ := toNat_of_isDigit h
  obtain ⟨k, hk, hCode⟩ : ∃ k < 10, c.toNat = k + 48 := ⟨c.toNat - 48, by omega, by omega⟩
  have hChar : Char.ofNat (k + 48) = c := by rw [← hCode, Char.ofNat_toNat]
  have hAll : ∀ k < 10, k.digitChar = Char.ofNat (k + 48) := by decide
  rw [asciiDigitValue, hCode, ← hChar]
  exact hAll k hk

theorem asciiDigitValue_lt {c : Char} (h : c.isDigit = true) : asciiDigitValue c < 10 := by
  have hCode := toNat_of_isDigit h
  rw [asciiDigitValue]
  show c.toNat - 48 < 10
  omega

theorem ofAsciiDigits_append (digits : List Char) (c : Char) :
    ofAsciiDigits (digits ++ [c]) = 10 * ofAsciiDigits digits + asciiDigitValue c := by
  rw [ofAsciiDigits, ofDigits, List.map_append, List.foldl_append]
  rfl

/-- Only zero is printed with a zero in front. -/
theorem eq_zero_of_head?_toDigits {n : Nat} (h : (Nat.toDigits 10 n).head? = some '0') : n = 0 := by
  induction n using Nat.strongRecOn with
  | ind n ih =>
    rcases Nat.lt_or_ge n 10 with hSmall | hLarge
    · rw [Nat.toDigits_of_lt_base hSmall] at h
      have hAll : ∀ n < 10, [n.digitChar].head? = some '0' → n = 0 := by decide
      exact hAll n hSmall h
    · -- the first digit is that of the tenth part
      obtain ⟨first, others, hTenth⟩ : ∃ first others, Nat.toDigits 10 (n / 10) = first :: others :=
        List.exists_cons_of_ne_nil Nat.toDigits_ne_nil
      rw [Nat.toDigits_of_base_le (by decide) hLarge, hTenth] at h
      have hNone := ih (n / 10) (by omega) (hTenth ▸ h)
      omega

/-- Digits without a leading zero are those that their number is printed with. -/
theorem toDigits_ofAsciiDigits {digits : List Char} (h : isDigits digits = true)
    (hZero : digits.head? = some '0' → digits = ['0']) :
    Nat.toDigits 10 (ofAsciiDigits digits) = digits := by
  -- the last digit is the remainder by ten, so that the induction is from the right
  induction digits using List.reverseRecOn with
  | nil => cases h
  | append_singleton digits c ih =>
    have hDigit : c.isDigit = true := digit_of_isDigits h (by simp)
    have hLast : Nat.toDigits 10 (asciiDigitValue c) = [c] := by
      rw [Nat.toDigits_of_lt_base (asciiDigitValue_lt hDigit), digitChar_asciiDigitValue hDigit]
    rw [ofAsciiDigits_append]
    cases digits with
    | nil =>
      show Nat.toDigits 10 (10 * 0 + asciiDigitValue c) = [c]
      rw [Nat.mul_zero, Nat.zero_add, hLast]
    | cons first others =>
      have hFirst : first ≠ '0' := by
        rintro rfl
        simpa using hZero rfl
      have hInit : isDigits (first :: others) = true := by
        simp only [isDigits, List.all_append, Bool.and_eq_true] at h
        simp [isDigits, h.2.1]
      have hPrinted := ih hInit fun hHead => absurd (Option.some.inj hHead) hFirst
      have hPositive : 0 < ofAsciiDigits (first :: others) := by
        refine Nat.pos_of_ne_zero fun hNone => ?_
        rw [hNone] at hPrinted
        exact hFirst (List.cons.inj hPrinted).1.symm
      rw [← Nat.toDigits_append_toDigits (by decide) hPositive (asciiDigitValue_lt hDigit), hPrinted,
        hLast]

/-- Digits are canonical when they have no leading zero, or are zero. -/
theorem isCanonical_iff_head? {text : String} (h : isDigits text.toList = true) :
    IsCanonical text ↔ (text.toList.head? = some '0' → text = "0") := by
  have hInteger : integer text = ofAsciiDigits text.toList := by
    rw [← integer_ofList h, String.ofList_toList]
  have hDecimal : decimal (integer text) =
      String.ofList (Nat.toDigits 10 (ofAsciiDigits text.toList)) := by
    rw [hInteger, decimal_eq, if_neg (by omega), Int.natAbs_natCast]
  rw [IsCanonical, hDecimal]
  constructor
  · intro hText hHead
    rw [← hText, String.toList_ofList] at hHead
    rw [← hText, eq_zero_of_head?_toDigits hHead]
    rfl
  · intro hZero
    rw [toDigits_ofAsciiDigits h fun hHead => congrArg String.toList (hZero hHead),
      String.ofList_toList]

/-- What is converted is canonical when printing the integer gives the text back. -/
theorem isCanonical_iff_print? {text : String} (hPlain : isPlain text = true) {value : Int}
    (h : parse? text = some value) : IsCanonical text ↔ print? value = some text := by
  rw [parse?_of_isPlain hPlain] at h
  split at h
  next hDigits =>
    cases h
    rw [print?_eq_some_iff_digitCount, IsCanonical]
    constructor
    · intro hText
      rw [hText]
      exact ⟨hDigits, rfl⟩
    · exact fun hText => hText.2.symm
  next => cases h

/-! ## The sign of zero -/

/-- The negative of a canonical numeral is canonical too, unless it is zero. -/
theorem negate_decimal (value : Int) :
    negate (decimal value) = if value = 0 then "-0" else decimal (-value) := by
  rw [decimal_eq, decimal_eq]
  rcases Int.lt_trichotomy value 0 with hNegative | rfl | hPositive
  · rw [if_pos hNegative, if_neg (by omega), if_neg (by omega), negate_minus, Int.natAbs_neg]
  · rfl
  · rw [if_neg (by omega), if_neg (by omega), if_pos (by omega), negate_ofList (isDigits_toDigits _),
      Int.natAbs_neg]

namespace IsReduced

theorem decimal (value : Int) : IsReduced (decimal value) :=
  .inl (isCanonical_decimal value)

variable {text text' : String}

theorem isPlain (h : IsReduced text) : isPlain text = true := by
  rcases h with hCanonical | rfl
  · exact hCanonical.isPlain
  · decide +kernel

/-- Negation changes the sign of zero, and yields canonical numerals otherwise. -/
theorem negate (h : IsReduced text) : IsReduced (negate text) := by
  rcases h with hCanonical | rfl
  · rw [← hCanonical, negate_decimal]
    split
    · exact .inr rfl
    · exact .decimal _
  · exact .inl (by decide +kernel)

/-- Two texts are the same when their integers are, unless they are zero with and without a sign. -/
theorem eq_iff (h : IsReduced text) (h' : IsReduced text') :
    text = text' ↔ integer text = integer text' ∧
      ¬ (text = "-0" ∧ text' = "0" ∨ text = "0" ∧ text' = "-0") := by
  constructor
  · rintro rfl
    refine ⟨rfl, ?_⟩
    rintro (⟨rfl, hZero⟩ | ⟨rfl, hZero⟩) <;> exact absurd hZero (by decide)
  · rintro ⟨hInteger, hSigns⟩
    have hZero : integer "-0" = 0 := by decide +kernel
    -- a canonical text for the integer zero is the one without a sign
    have hUnsigned : ∀ {text : String}, IsCanonical text → integer text = 0 → text = "0" := by
      intro text hCanonical hNone
      rw [← hCanonical, hNone]
      rfl
    rcases h with hCanonical | rfl
    · rcases h' with hCanonical' | rfl
      · rw [← hCanonical, ← hCanonical', hInteger]
      · exact absurd (.inr ⟨hUnsigned hCanonical (hInteger.trans hZero), rfl⟩) hSigns
    · rcases h' with hCanonical' | rfl
      · exact absurd (.inl ⟨rfl, hUnsigned hCanonical' (hInteger.symm.trans hZero)⟩) hSigns
      · rfl

end IsReduced

end DesignByNumbers.Numeral
