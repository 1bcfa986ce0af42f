import ZCourier.Go.Strconv
import Mathlib.Data.List.Induction
import Mathlib.Tactic.Ring

/-!
# Decimal texts

A decimal text is a text of digits without leading zeros. It is determined by its value
(`IsDecimal.unique`), and `formatNat` writes it, so that arithmetic on decimal texts can be
checked on their values.
-/

namespace ZCourier.Go

theorem is_digit_iff {byte : UInt8} :
    isDigit byte = true ↔ 0x30 ≤ byte.toNat ∧ byte.toNat ≤ 0x39 := by
  rw [isDigit, Bool.and_eq_true, decide_eq_true_eq, decide_eq_true_eq, UInt8.le_iff_toNat_le,
    UInt8.le_iff_toNat_le]
  rfl

theorem digits_value_cons (initial : Nat) (byte : UInt8) (text : GoString) :
    digitsValue initial (byte :: text) = digitsValue (initial * 10 + (byte.toNat - 0x30)) text := by
  simp only [digitsValue, List.foldl_cons]

theorem digits_value_concat (text : GoString) (byte : UInt8) :
    digitsValue 0 (text ++ [byte]) = digitsValue 0 text * 10 + (byte.toNat - 0x30) := by
  simp only [digitsValue, List.foldl_append, List.foldl_cons, List.foldl_nil]

theorem digits_value_eq (initial : Nat) (text : GoString) :
    digitsValue initial text = initial * 10 ^ text.length + digitsValue 0 text := by
  induction text generalizing initial with
  | nil => simp [digitsValue]
  | cons byte text ih =>
    rw [digits_value_cons, digits_value_cons, ih, ih (0 * 10 + _), List.length_cons, Nat.pow_succ]
    ring

theorem digits_value_first (byte : UInt8) (text : GoString) :
    digitsValue 0 (byte :: text) =
      (byte.toNat - 0x30) * 10 ^ text.length + digitsValue 0 text := by
  rw [digits_value_cons, digits_value_eq, Nat.zero_mul, Nat.zero_add]

variable {text : GoString}

theorem digits_value_lt (h : text.all isDigit = true) : digitsValue 0 text < 10 ^ text.length := by
  induction text with
  | nil => exact Nat.one_pos
  | cons byte text ih =>
    rw [List.all_cons, Bool.and_eq_true] at h
    obtain ⟨-, hle⟩ := is_digit_iff.mp h.1
    have hrest := ih h.2
    have hfirst : (byte.toNat - 0x30) * 10 ^ text.length ≤ 9 * 10 ^ text.length :=
      Nat.mul_le_mul_right _ (by omega)
    rw [digits_value_first, List.length_cons, Nat.pow_succ]
    omega

theorem le_digits_value {byte : UInt8} (text : GoString) (h : isDigit byte = true)
    (hne : byte ≠ 0x30) : 10 ^ text.length ≤ digitsValue 0 (byte :: text) := by
  obtain ⟨hge, -⟩ := is_digit_iff.mp h
  have hpos : 1 ≤ byte.toNat - 0x30 := by
    have hdiffer : byte.toNat ≠ 0x30 := fun heq => hne (UInt8.toNat_inj.mp heq)
    omega
  rw [digits_value_first]
  calc 10 ^ text.length = 1 * 10 ^ text.length := (Nat.one_mul _).symm
    _ ≤ (byte.toNat - 0x30) * 10 ^ text.length := Nat.mul_le_mul_right _ hpos
    _ ≤ _ := Nat.le_add_right _ _

/-! ## Texts without leading zeros -/

/-- A decimal text with the given value. -/
structure IsDecimal (text : GoString) (n : Nat) : Prop where
  digits : text.all isDigit = true
  value : digitsValue 0 text = n
  leading : text = [0x30] ∨ ∃ first rest, text = first :: rest ∧ first ≠ 0x30

namespace IsDecimal

variable {text other : GoString} {n m : Nat}

theorem ne_nil (h : IsDecimal text n) : text ≠ [] := by
  rintro rfl
  rcases h.leading with h | ⟨_, _, h, -⟩ <;> contradiction

/-- Only the text of zero starts with a zero. -/
theorem eq_zero_iff (h : IsDecimal text n) : text = [0x30] ↔ n = 0 := by
  constructor
  · rintro rfl
    exact h.value.symm
  · intro hn
    rcases h.leading with hzero | ⟨first, rest, rfl, hne⟩
    · exact hzero
    · have hdigit := h.digits
      rw [List.all_cons, Bool.and_eq_true] at hdigit
      have hle := le_digits_value rest hdigit.1 hne
      have hpos := Nat.pow_pos (n := rest.length) (by decide : 0 < 10)
      rw [h.value, hn] at hle
      omega

theorem pow_le (h : IsDecimal text n) (hn : n ≠ 0) :
    10 ^ (text.length - 1) ≤ n ∧ n < 10 ^ text.length := by
  refine ⟨?_, h.value ▸ digits_value_lt h.digits⟩
  rcases h.leading with hzero | ⟨first, rest, rfl, hne⟩
  · exact absurd (h.eq_zero_iff.mp hzero) hn
  · have hdigit := h.digits
    rw [List.all_cons, Bool.and_eq_true] at hdigit
    rw [← h.value]
    exact le_digits_value rest hdigit.1 hne

end IsDecimal

theorem eq_of_digits_value {text other : GoString} (hlength : text.length = other.length)
    (h : text.all isDigit = true) (h' : other.all isDigit = true)
    (hvalue : digitsValue 0 text = digitsValue 0 other) : text = other := by
  induction text generalizing other with
  | nil => exact (List.eq_nil_of_length_eq_zero hlength.symm).symm
  | cons byte text ih =>
    cases other with
    | nil => contradiction
    | cons byte' other =>
      rw [List.all_cons, Bool.and_eq_true] at h h'
      have hlength' : text.length = other.length := Nat.succ.inj hlength
      have hlt := digits_value_lt h.2
      have hlt' := digits_value_lt h'.2
      obtain ⟨hge, -⟩ := is_digit_iff.mp h.1
      obtain ⟨hge', -⟩ := is_digit_iff.mp h'.1
      rw [digits_value_first, digits_value_first, hlength', Nat.mul_comm, Nat.mul_comm _ (10 ^ _)]
        at hvalue
      rw [hlength'] at hlt
      have hdiv := congrArg (· / 10 ^ other.length) hvalue
      have hmod := congrArg (· % 10 ^ other.length) hvalue
      have hpos := Nat.pow_pos (n := other.length) (by decide : 0 < 10)
      simp only [Nat.mul_add_div hpos, Nat.div_eq_of_lt hlt, Nat.div_eq_of_lt hlt', Nat.add_zero]
        at hdiv
      simp only [Nat.mul_add_mod, Nat.mod_eq_of_lt hlt, Nat.mod_eq_of_lt hlt'] at hmod
      rw [ih hlength' h.2 h'.2 hmod, UInt8.toNat_inj.mp (by omega : byte.toNat = byte'.toNat)]

/-- A decimal text is determined by its value. -/
theorem IsDecimal.unique {text other : GoString} {n : Nat} (h : IsDecimal text n)
    (h' : IsDecimal other n) : text = other := by
  by_cases hn : n = 0
  · rw [h.eq_zero_iff.mpr hn, h'.eq_zero_iff.mpr hn]
  · obtain ⟨hle, hlt⟩ := h.pow_le hn
    obtain ⟨hle', hlt'⟩ := h'.pow_le hn
    have hpos := List.length_pos_of_ne_nil h.ne_nil
    have hpos' := List.length_pos_of_ne_nil h'.ne_nil
    have hshort := (Nat.pow_lt_pow_iff_right (by decide : 1 < 10)).mp (Nat.lt_of_le_of_lt hle hlt')
    have hlong := (Nat.pow_lt_pow_iff_right (by decide : 1 < 10)).mp (Nat.lt_of_le_of_lt hle' hlt)
    exact eq_of_digits_value (by omega) h.digits h'.digits (h.value.trans h'.value.symm)

theorem prepend_digits_leading {fuel n : Nat} (hn : n < 10 ^ fuel) (hpos : n ≠ 0) :
    ∃ first rest, prependDigits fuel n text = first :: rest ∧ first ≠ 0x30 := by
  induction fuel generalizing n text with
  | zero =>
    rw [Nat.pow_zero] at hn
    omega
  | succ fuel ih =>
    simp only [prependDigits]
    split
    · next hsmall =>
      refine ⟨_, _, rfl, fun hzero => hpos ?_⟩
      have hdigit := congrArg UInt8.toNat hzero
      rw [digit_to_nat (Nat.mod_lt _ (by decide))] at hdigit
      have htoNat : (0x30 : UInt8).toNat = 0x30 := rfl
      omega
    · next hlarge =>
      rw [Nat.pow_succ] at hn
      exact ih (by omega) hlarge

theorem is_decimal_format {n : Nat} (h : n < 10 ^ 20) : IsDecimal (formatNat n) n := by
  refine ⟨format_nat_digits n, ?_, ?_⟩
  · rw [formatNat, digits_value_prepend [] h]
    rfl
  · by_cases hn : n = 0
    · subst hn
      exact .inl rfl
    · exact .inr (prepend_digits_leading h hn)

theorem IsDecimal.eq_format {n : Nat} (h : IsDecimal text n) (hn : n < 10 ^ 20) :
    text = formatNat n :=
  h.unique (is_decimal_format hn)

/-! ## Leading zeros -/

/-- A text without its leading zeros. -/
def trimZeros (text : GoString) : GoString :=
  text.dropWhile (· = 0x30)

theorem digits_value_trim (text : GoString) :
    digitsValue 0 (trimZeros text) = digitsValue 0 text := by
  induction text with
  | nil => rfl
  | cons byte text ih =>
    by_cases hzero : byte = 0x30
    · subst hzero
      exact ih
    · rw [trimZeros, List.dropWhile_cons_of_neg (by simpa using hzero)]

theorem is_decimal_trim (h : text.all isDigit = true) :
    IsDecimal (if trimZeros text = [] then [0x30] else trimZeros text) (digitsValue 0 text) := by
  have hsub : (trimZeros text).Sublist text := List.dropWhile_sublist _
  split
  · next hempty =>
    refine ⟨rfl, ?_, .inl rfl⟩
    rw [← digits_value_trim text, hempty]
    rfl
  · next hne =>
    refine ⟨?_, digits_value_trim text, .inr ?_⟩
    · exact List.all_eq_true.mpr fun byte hbyte => List.all_eq_true.mp h byte (hsub.subset hbyte)
    · cases htrim : trimZeros text with
      | nil => exact absurd htrim hne
      | cons first rest =>
        refine ⟨first, rest, rfl, fun hzero => ?_⟩
        have hnot := List.head_dropWhile_not (fun byte : UInt8 => decide (byte = 0x30)) hne
        simp [trimZeros] at htrim
        simp [htrim, hzero] at hnot

theorem trimZeros_eq_nil (h : text.all isDigit = true) :
    trimZeros text = [] ↔ digitsValue 0 text = 0 := by
  constructor
  · intro hempty
    rw [← digits_value_trim text, hempty]
    rfl
  · intro hzero
    by_contra hne
    have htrim := is_decimal_trim h
    rw [if_neg hne] at htrim
    have honly := htrim.eq_zero_iff.mpr hzero
    have hnot := List.head_dropWhile_not (fun byte : UInt8 => decide (byte = 0x30)) hne
    have hfirst : (trimZeros text).head hne = 0x30 := by
      simp only [honly, List.head_cons]
    rw [show (List.dropWhile _ text).head _ = 0x30 from hfirst] at hnot
    exact absurd hnot (by decide)

end ZCourier.Go
