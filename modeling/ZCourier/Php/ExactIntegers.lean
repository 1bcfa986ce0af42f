import Mathlib.Data.List.DropRight
import ZCourier.Php.Integer64

/-!
# Which texts are 64-bit integers

`integers_exact`: the encoders of `Integer64` take exactly the texts of numbers in range
(`Written`) and give their bytes, and encoding undoes decoding. The patterns of `normalizeDecimal`
end with a dollar sign, which also matches before a newline at the end, and the digit loops then
take the newline for a digit (`newline_is_a_digit`).
-/

namespace ZCourier.Php.Integer64

open Go Library

/-- The texts of a number: digits, of which the first may be zeros, or a minus sign and digits where
a sign is allowed. -/
inductive Written (signed : Bool) : GoString → Int → Prop
  | plain {digits : GoString} : digits ≠ [] → digits.all isDigit = true →
      Written signed digits (digitsValue 0 digits)
  | minus {digits : GoString} : signed = true → digits ≠ [] → digits.all isDigit = true →
      Written signed (0x2D :: digits) (-(digitsValue 0 digits : Int))

theorem Written.unique {signed : Bool} {text : GoString} {z z' : Int} (h : Written signed text z)
    (h' : Written signed text z') : z = z' := by
  cases h with
  | plain _ hdigits =>
    cases h' with
    | plain _ _ => rfl
    | minus _ _ _ => exact absurd rfl (head_ne_minus hdigits)
  | minus _ _ _ =>
    cases h' with
    | plain _ hdigits => exact absurd rfl (head_ne_minus hdigits)
    | minus _ _ _ => rfl

/-- The eight bytes of a number, the two's complement of a negative one. -/
def eightBytes (z : Int) : Bytes := beBytes 8 (z % 2 ^ 64).toNat

theorem eightBytes_natCast {n : Nat} (h : n < 2 ^ 64) : eightBytes n = beBytes 8 n := by
  rw [eightBytes]
  congr 1
  omega

theorem eightBytes_neg {n : Nat} (hpos : n ≠ 0) (h : n ≤ 2 ^ 64) :
    eightBytes (-(n : Int)) = beBytes 8 (2 ^ 64 - n) := by
  rw [eightBytes]
  congr 1
  omega

variable {signed : Bool} {text : GoString}

/-! ## Validation -/

theorem getLast_cons_digits {byte : UInt8} {digits : GoString} (hne : digits ≠ [])
    (h : digits.all isDigit = true) : (byte :: digits).getLast? ≠ some 0x0A := by
  have hlast : (byte :: digits).getLast? = digits.getLast? := by
    cases digits with
    | nil => exact absurd rfl hne
    | cons first rest => rfl
  rw [hlast]
  exact getLast_ne_newline h

/-- The pattern of a line: digits, with a sign in front of them where one is allowed. -/
theorem digits_of_line_iff (line : GoString) :
    (!(if signed && line.head? = some 0x2D then line.drop 1 else line).isEmpty &&
        (if signed && line.head? = some 0x2D then line.drop 1 else line).all isDigit) = true ↔
      ∃ z, Written signed line z := by
  rw [Bool.and_eq_true, Bool.not_eq_true', List.isEmpty_eq_false_iff]
  constructor
  · rintro ⟨hne, hdigits⟩
    split at hne
    · next hminus =>
      rw [if_pos hminus] at hdigits
      rw [Bool.and_eq_true, decide_eq_true_eq] at hminus
      obtain ⟨digits, rfl⟩ := List.head?_eq_some_iff.mp hminus.2
      exact ⟨_, .minus hminus.1 hne hdigits⟩
    · next hminus =>
      rw [if_neg hminus] at hdigits
      exact ⟨_, .plain hne hdigits⟩
  · rintro ⟨z, hwritten⟩
    cases hwritten with
    | plain hne hdigits =>
      rw [if_neg (by simp [head_ne_minus hdigits])]
      exact ⟨hne, hdigits⟩
    | minus hsigned hne hdigits => simp [hsigned, hne, hdigits]

theorem matchesInteger_iff (hline : text.getLast? ≠ some 0x0A) :
    matchesInteger signed text = true ↔ ∃ z, Written signed text z := by
  rw [matchesInteger, if_neg hline]
  exact digits_of_line_iff text

/-- The pattern also takes a line that ends with a newline. -/
theorem matchesInteger_newline (line : GoString) :
    matchesInteger signed (line ++ [0x0A]) = true ↔ ∃ z, Written signed line z := by
  rw [matchesInteger, if_pos List.getLast?_concat, List.dropLast_concat]
  exact digits_of_line_iff line

theorem normalizeDecimal_plain (hne : text ≠ []) (hdigits : text.all isDigit = true) :
    ∃ decimal, normalizeDecimal text signed = .ok decimal ∧
      IsDecimal decimal (digitsValue 0 text) := by
  refine ⟨_, ?_, is_decimal_trim hdigits⟩
  rw [normalizeDecimal, matchesInteger_digits signed hdigits hne]
  have hminus := head_ne_minus hdigits
  simp only [hminus, if_false, Bool.not_true, Bool.false_eq_true]
  split <;> rfl

theorem normalizeDecimal_minus (hne : text ≠ []) (hdigits : text.all isDigit = true) :
    ∃ decimal, IsDecimal decimal (digitsValue 0 text) ∧
      normalizeDecimal (0x2D :: text) true =
        .ok (if digitsValue 0 text = 0 then decimal else 0x2D :: decimal) := by
  refine ⟨_, is_decimal_trim hdigits, ?_⟩
  have hmatch : matchesInteger true (0x2D :: text) = true :=
    (matchesInteger_iff (getLast_cons_digits hne hdigits)).mpr ⟨_, .minus rfl hne hdigits⟩
  rw [normalizeDecimal, hmatch]
  simp only [List.head?_cons, if_true, Bool.not_true, Bool.false_eq_true, if_false, List.drop_one,
    List.tail_cons]
  by_cases hempty : trimZeros text = []
  · rw [if_pos hempty, if_pos ((trimZeros_eq_nil hdigits).mp hempty), if_pos hempty]
    rfl
  · rw [if_neg hempty, if_neg (fun hzero => hempty ((trimZeros_eq_nil hdigits).mpr hzero)),
      if_neg hempty]

theorem normalizeDecimal_error (h : matchesInteger signed text = false) :
    normalizeDecimal text signed =
      .error ⟨.invalidInteger, ascii "invalid decimal integer: " ++ text⟩ := by
  rw [normalizeDecimal, h]
  rfl

/-! ## Encoding -/

theorem encodeUnsigned_normal {decimal : GoString} {n : Nat}
    (h : normalizeDecimal text false = .ok decimal) (hdecimal : IsDecimal decimal n)
    (bytes : Bytes) :
    encodeUnsigned text = .ok bytes ↔ n < 2 ^ 64 ∧ bytes = beBytes 8 n := by
  have hcompare := compare_pos_iff hdecimal is_decimal_uint64Max (by decide)
  by_cases hn : n < 2 ^ 64
  · have hnormal : normalizeUnsigned text = .ok decimal := by
      rw [normalizeUnsigned, h]
      dsimp only
      rw [if_neg]
      rw [hcompare]
      omega
    have hencode : encodeUnsigned text = encodeUnsigned decimal := by
      rw [encodeUnsigned, encodeUnsigned, hnormal, normalizeUnsigned_decimal hdecimal hn]
    rw [hencode, encodeUnsigned_decimal hdecimal hn]
    constructor
    · intro heq
      exact ⟨hn, (Except.ok.inj heq).symm⟩
    · rintro ⟨-, rfl⟩
      rfl
  · have hlarge : 0 < compare decimal uint64Max := hcompare.mpr (by omega)
    rw [encodeUnsigned, normalizeUnsigned, h]
    dsimp only
    rw [if_pos hlarge]
    exact ⟨by rintro ⟨⟩, fun hsmall => absurd hsmall.1 hn⟩

theorem encodeUnsigned_iff (hline : text.getLast? ≠ some 0x0A) (bytes : Bytes) :
    encodeUnsigned text = .ok bytes ↔
      ∃ z, Written false text z ∧ 0 ≤ z ∧ z < 2 ^ 64 ∧ bytes = eightBytes z := by
  by_cases hmatch : matchesInteger false text = true
  · obtain ⟨z, hwritten⟩ := (matchesInteger_iff hline).mp hmatch
    cases id hwritten with
    | minus hsigned => cases hsigned
    | plain hne hdigits =>
      obtain ⟨decimal, hnormal, hdecimal⟩ := normalizeDecimal_plain hne hdigits
      rw [encodeUnsigned_normal hnormal hdecimal]
      constructor
      · rintro ⟨hn, rfl⟩
        exact ⟨_, hwritten, by omega, by omega, (eightBytes_natCast hn).symm⟩
      · rintro ⟨z, hwritten', -, hz, rfl⟩
        obtain rfl := hwritten'.unique hwritten
        have hn : digitsValue 0 text < 2 ^ 64 := by omega
        exact ⟨hn, eightBytes_natCast hn⟩
  · have herror := normalizeDecimal_error (Bool.eq_false_iff.mpr hmatch)
    rw [encodeUnsigned, normalizeUnsigned, herror]
    refine ⟨by rintro ⟨⟩, ?_⟩
    rintro ⟨z, hwritten, -⟩
    exact absurd ((matchesInteger_iff hline).mpr ⟨z, hwritten⟩) hmatch

theorem encodeSigned_plain {decimal : GoString} {n : Nat}
    (h : normalizeDecimal text true = .ok decimal) (hdecimal : IsDecimal decimal n)
    (bytes : Bytes) :
    encodeSigned text = .ok bytes ↔ n < 2 ^ 63 ∧ bytes = beBytes 8 n := by
  have hcompare := compare_pos_iff hdecimal is_decimal_int64Max (by decide)
  have hminus := head_ne_minus hdecimal.digits
  rw [encodeSigned, normalizeSigned, h]
  dsimp only
  rw [if_neg hminus]
  by_cases hn : n < 2 ^ 63
  · have hsmall : ¬ 0 < compare decimal int64Max := by
      rw [hcompare]
      omega
    rw [if_neg hsmall]
    dsimp only
    rw [if_pos hminus, encodeUnsigned_decimal hdecimal (by omega)]
    constructor
    · intro heq
      exact ⟨hn, (Except.ok.inj heq).symm⟩
    · rintro ⟨-, rfl⟩
      rfl
  · have hlarge : 0 < compare decimal int64Max := hcompare.mpr (by omega)
    rw [if_pos hlarge]
    exact ⟨by rintro ⟨⟩, fun hsmall => absurd hsmall.1 hn⟩

theorem encodeSigned_minus {decimal : GoString} {n : Nat}
    (h : normalizeDecimal text true = .ok (0x2D :: decimal)) (hdecimal : IsDecimal decimal n)
    (hpos : n ≠ 0) (bytes : Bytes) :
    encodeSigned text = .ok bytes ↔ n ≤ 2 ^ 63 ∧ bytes = beBytes 8 (2 ^ 64 - n) := by
  have hcompare := compare_pos_iff hdecimal is_decimal_int64MinAbs (by decide)
  have hminus : (0x2D :: decimal).head? = some 0x2D := rfl
  rw [encodeSigned, normalizeSigned, h]
  dsimp only
  rw [if_pos hminus, List.drop_one, List.tail_cons]
  by_cases hn : n ≤ 2 ^ 63
  · have hsmall : ¬ 0 < compare decimal int64MinAbs := by
      rw [hcompare]
      omega
    have hsubtract := subtract_decimal is_decimal_uint64Modulus hdecimal (by omega)
    rw [if_neg hsmall]
    dsimp only
    rw [if_neg (not_not.mpr hminus), List.drop_one, List.tail_cons,
      encodeUnsigned_decimal hsubtract (by omega)]
    constructor
    · intro heq
      exact ⟨hn, (Except.ok.inj heq).symm⟩
    · rintro ⟨-, rfl⟩
      rfl
  · have hlarge : 0 < compare decimal int64MinAbs := hcompare.mpr (by omega)
    rw [if_pos hlarge]
    exact ⟨by rintro ⟨⟩, fun hsmall => absurd hsmall.1 hn⟩

theorem encodeSigned_written {z : Int} (hwritten : Written true text z) (bytes : Bytes) :
    encodeSigned text = .ok bytes ↔ -2 ^ 63 ≤ z ∧ z < 2 ^ 63 ∧ bytes = eightBytes z := by
  cases hwritten with
  | plain hne hdigits =>
    obtain ⟨decimal, hnormal, hdecimal⟩ := normalizeDecimal_plain hne hdigits
    rw [encodeSigned_plain hnormal hdecimal]
    constructor
    · rintro ⟨hn, rfl⟩
      exact ⟨by omega, by omega, (eightBytes_natCast (by omega)).symm⟩
    · rintro ⟨-, hz, rfl⟩
      exact ⟨by omega, eightBytes_natCast (by omega)⟩
  | @minus digits _ hne hdigits =>
    obtain ⟨decimal, hdecimal, hnormal⟩ := normalizeDecimal_minus hne hdigits
    by_cases hzero : digitsValue 0 digits = 0
    · -- a negative zero is zero
      rw [if_pos hzero] at hnormal
      rw [encodeSigned_plain hnormal hdecimal, hzero]
      constructor
      · rintro ⟨-, rfl⟩
        exact ⟨by decide, by decide, rfl⟩
      · rintro ⟨-, -, rfl⟩
        exact ⟨by decide, rfl⟩
    · rw [if_neg hzero] at hnormal
      rw [encodeSigned_minus hnormal hdecimal hzero]
      constructor
      · rintro ⟨hn, rfl⟩
        exact ⟨by omega, by omega, (eightBytes_neg hzero (by omega)).symm⟩
      · rintro ⟨hz, -, rfl⟩
        exact ⟨by omega, eightBytes_neg hzero (by omega)⟩

theorem encodeSigned_iff (hline : text.getLast? ≠ some 0x0A) (bytes : Bytes) :
    encodeSigned text = .ok bytes ↔
      ∃ z, Written true text z ∧ -2 ^ 63 ≤ z ∧ z < 2 ^ 63 ∧ bytes = eightBytes z := by
  by_cases hmatch : matchesInteger true text = true
  · obtain ⟨z, hwritten⟩ := (matchesInteger_iff hline).mp hmatch
    rw [encodeSigned_written hwritten]
    constructor
    · exact fun h => ⟨z, hwritten, h⟩
    · rintro ⟨z', hwritten', h⟩
      rwa [hwritten.unique hwritten']
  · have herror := normalizeDecimal_error (Bool.eq_false_iff.mpr hmatch)
    rw [encodeSigned, normalizeSigned, herror]
    refine ⟨by rintro ⟨⟩, ?_⟩
    rintro ⟨z, hwritten, -⟩
    exact absurd ((matchesInteger_iff hline).mpr ⟨z, hwritten⟩) hmatch

/-! ## A newline at the end -/

section Newline

variable {digits : GoString} {n : Nat}

theorem not_written_newline (line : GoString) (z : Int) : ¬ Written signed (line ++ [0x0A]) z := by
  generalize htext : line ++ [0x0A] = text
  have hlast : text.getLast? = some 0x0A := by rw [← htext, List.getLast?_concat]
  intro hwritten
  cases hwritten with
  | plain _ hdigits => exact getLast_ne_newline hdigits hlast
  | minus _ hne hdigits => exact getLast_cons_digits hne hdigits hlast

theorem trimZeros_newline (digits : GoString) :
    trimZeros (digits ++ [0x0A]) = trimZeros digits ++ [0x0A] := by
  rw [trimZeros, List.dropWhile_append]
  split
  · next hempty =>
    rw [trimZeros, List.isEmpty_iff.mp hempty]
    rfl
  · rfl

theorem normalizeDecimal_newline (hne : digits ≠ []) (hdigits : digits.all isDigit = true) :
    normalizeDecimal (digits ++ [0x0A]) signed = .ok (trimZeros digits ++ [0x0A]) := by
  have hminus : (digits ++ [0x0A]).head? ≠ some 0x2D := by
    rw [List.head?_append_of_ne_nil _ hne]
    exact head_ne_minus hdigits
  rw [normalizeDecimal, (matchesInteger_newline digits).mpr ⟨_, .plain hne hdigits⟩]
  simp only [hminus, if_false, Bool.not_true, Bool.false_eq_true, trimZeros_newline]
  rw [if_neg (List.append_ne_nil_of_right_ne_nil _ (List.cons_ne_nil _ _))]

theorem normalizeDecimal_minus_newline (hne : digits ≠ []) (hdigits : digits.all isDigit = true) :
    normalizeDecimal (0x2D :: digits ++ [0x0A]) true =
      .ok (0x2D :: (trimZeros digits ++ [0x0A])) := by
  rw [normalizeDecimal, (matchesInteger_newline (0x2D :: digits)).mpr ⟨_, .minus rfl hne hdigits⟩]
  simp [trimZeros_newline]

/-- The round of the division that takes a newline for a digit, namely for -38: the quotient is that
of a number which is no larger than with a zero as the last digit. -/
theorem Divided.newline {state : GoString × Int} (h : Divided 256 state n) :
    ∃ m ≤ n * 10, ∃ remainder,
      Divided 256 ((divideDigit (256 : Nat) state 0x0A).1, remainder) m := by
  obtain ⟨quotient, remainder⟩ := state
  obtain rfl : remainder = ((n % 256 : Nat) : Int) := h.remainder
  have hround : ∀ (m : Nat) (byte : UInt8), isDigit byte = true → m / 256 = n / 256 →
      (((m % 256 : Nat) : Int) * 10 + (ord byte - 48)).tdiv (256 : Nat) =
        (((n % 256 : Nat) : Int) * 10 + (ord 0x0A - 48)).tdiv (256 : Nat) →
      ∃ remainder, Divided 256
        ((divideDigit (256 : Nat) (quotient, ((n % 256 : Nat) : Int)) 0x0A).1,
        remainder) (m * 10 + (byte.toNat - 0x30)) := by
    intro m byte hbyte hquotient hdigit
    have hm : Divided 256 (quotient, ((m % 256 : Nat) : Int)) m :=
      ⟨h.digits, hquotient ▸ h.value, h.leading, rfl⟩
    have hnext := hm.digit (by decide) hbyte
    rw [divideDigit] at hnext
    dsimp only at hnext
    rw [hdigit] at hnext
    exact ⟨_, hnext⟩
  have hord : ord 0x0A = 10 := rfl
  have htwo : ord 0x32 = 50 := rfl
  by_cases hsmall : n % 256 < 4
  · obtain ⟨remainder, hdivided⟩ := hround (n - n % 256) 0x30 (by decide) (by omega) (by
      rw [show (n - n % 256) % 256 = 0 by omega]
      generalize n % 256 = r at hsmall ⊢
      exact (by decide : ∀ r : Nat, r < 4 →
        (((0 : Nat) : Int) * 10 + (ord 0x30 - 48)).tdiv (256 : Nat) =
        ((r : Int) * 10 + (ord 0x0A - 48)).tdiv (256 : Nat)) r hsmall)
    exact ⟨_, Nat.mul_le_mul_right 10 (Nat.sub_le _ _), remainder, hdivided⟩
  · obtain ⟨remainder, hdivided⟩ := hround (n - 4) 0x32 (by decide) (by omega) (by
      rw [hord, htwo]
      congr 1
      omega)
    exact ⟨_, by rw [show (0x32 : UInt8).toNat - 0x30 = 2 from rfl]; omega, remainder, hdivided⟩

/-- The rounds after it divide a number that is small enough for them to end with a zero. -/
theorem encodeLoop_newline (hdigits : digits.all isDigit = true)
    (hsmall : digitsValue 0 digits * 10 < 2 ^ 64) :
    (encodeLoop 8 (digits ++ [0x0A]) []).1 = ascii "0" := by
  obtain ⟨m, hm, remainder, hdivided⟩ := (Divided.all (by decide) digits hdigits).newline
  have hquotient : IsDecimal (divideBySmall (digits ++ [0x0A]) 256).1 (m / 256) := by
    rw [divideBySmall, List.foldl_append]
    exact hdivided.decimal
  obtain ⟨hrest, -⟩ := encodeLoop_decimal 7 [chr (divideBySmall (digits ++ [0x0A]) 256).2] hquotient
  rw [Nat.div_div_eq_div_mul, Nat.div_eq_of_lt (by omega)] at hrest
  exact hrest.eq_zero_iff.mpr rfl

theorem strcmp_append_pos {left right : GoString} (tail tail' : GoString)
    (hlength : left.length = right.length) (h : 0 < strcmp left right) :
    0 < strcmp (left ++ tail) (right ++ tail') := by
  induction left generalizing right with
  | nil =>
    obtain rfl := List.eq_nil_of_length_eq_zero hlength.symm
    contradiction
  | cons a left ih =>
    cases right with
    | nil => contradiction
    | cons b right =>
      rw [List.cons_append, List.cons_append, strcmp]
      rw [strcmp] at h
      split_ifs at h ⊢ with hless hmore
      · contradiction
      · exact h
      · exact ih (Nat.succ.inj hlength) h

/-- The digits before a newline that is within the bound are within it with a zero in its place. -/
theorem tenfold_lt (hdigits : digits.all isDigit = true)
    (h : ¬ 0 < compare (digits ++ [0x0A]) uint64Max) : digitsValue 0 digits * 10 < 2 ^ 64 := by
  have hlt := digits_value_lt hdigits
  have hmax : uint64Max.length = 20 := by decide
  rw [compare, hmax, List.length_append, List.length_singleton] at h
  split_ifs at h with hshort hlong
  · have hpow : 10 ^ digits.length ≤ 10 ^ 18 := Nat.pow_le_pow_right (by decide) (by omega)
    omega
  · exact absurd (by decide) h
  · have hlength : digits.length = (ascii "1844674407370955161").length := by
      rw [show (ascii "1844674407370955161").length = 19 by decide]
      omega
    have hle := mt (strcmp_append_pos [0x0A] (ascii "5") hlength) h
    rw [strcmp_pos_iff hlength hdigits (by decide)] at hle
    have hvalue : digitsValue 0 (ascii "1844674407370955161") = 1844674407370955161 := by decide
    omega

theorem all_trimZeros (hdigits : digits.all isDigit = true) :
    (trimZeros digits).all isDigit = true := by
  rw [List.all_eq_true] at hdigits ⊢
  exact fun byte hbyte => hdigits byte ((List.dropWhile_sublist _).subset hbyte)

theorem encodeUnsigned_newline (hne : digits ≠ []) (hdigits : digits.all isDigit = true) :
    (∃ bytes, encodeUnsigned (digits ++ [0x0A]) = .ok bytes) ↔
      ¬ 0 < compare (trimZeros digits ++ [0x0A]) uint64Max := by
  rw [encodeUnsigned, normalizeUnsigned, normalizeDecimal_newline hne hdigits]
  dsimp only
  split_ifs with hlarge
  · exact ⟨by rintro ⟨_, ⟨⟩⟩, fun hsmall => absurd hlarge hsmall⟩
  · have htrim := all_trimZeros hdigits
    dsimp only
    rw [if_neg (not_not.mpr (encodeLoop_newline htrim (tenfold_lt htrim hlarge)))]
    exact ⟨fun _ => hlarge, fun _ => ⟨_, rfl⟩⟩

/-- The signed encoder reads the trimmed text a second time and then refuses a newline alone. -/
theorem encodeSigned_newline (hne : digits ≠ []) (hdigits : digits.all isDigit = true) :
    (∃ bytes, encodeSigned (digits ++ [0x0A]) = .ok bytes) ↔
      ¬ 0 < compare (trimZeros digits ++ [0x0A]) int64Max ∧ digitsValue 0 digits ≠ 0 := by
  have htrim := all_trimZeros hdigits
  have hzero := trimZeros_eq_nil hdigits
  have hminus : (trimZeros digits ++ [0x0A]).head? ≠ some 0x2D := by
    cases hcase : trimZeros digits with
    | nil => decide
    | cons first rest => exact @head_ne_minus (first :: rest) (hcase ▸ htrim)
  rw [encodeSigned, normalizeSigned, normalizeDecimal_newline hne hdigits]
  dsimp only
  rw [if_neg hminus]
  split_ifs with hlarge
  · exact ⟨by rintro ⟨_, ⟨⟩⟩, fun hsmall => absurd hlarge hsmall.1⟩
  · dsimp only
    rw [if_pos hminus]
    by_cases hempty : trimZeros digits = []
    · rw [hempty]
      exact ⟨by rintro ⟨_, ⟨⟩⟩, fun hpos => absurd (hzero.mp hempty) hpos.2⟩
    · have hagain : trimZeros (trimZeros digits) = trimZeros digits := List.dropWhile_idempotent _ _
      have hshort : compare (trimZeros digits ++ [0x0A]) uint64Max = -1 := by
        rw [compare] at hlarge ⊢
        rw [show int64Max.length = 19 by decide] at hlarge
        rw [show uint64Max.length = 20 by decide]
        split_ifs at hlarge ⊢ <;> first | rfl | omega
      rw [encodeUnsigned_newline hempty htrim, hagain, hshort]
      exact ⟨fun _ => ⟨hlarge, fun h => hempty (hzero.mpr h)⟩, fun _ => by decide⟩

theorem subtract_newline (digits : GoString) :
    subtract uint64Modulus (digits ++ [0x0A]) =
      trimOrZero (subtractLoop (ascii "1844674407370955161").reverse digits.reverse (0 : Nat)
        (ascii "44")) := by
  have hdigits : formatInt (ord 0x36 - 48 - 0 - (ord 0x0A - 48)) ++ [] = ascii "44" := by decide
  rw [subtract, List.reverse_concat,
    show uint64Modulus.reverse = 0x36 :: (ascii "1844674407370955161").reverse by decide,
    subtractLoop, ← hdigits]
  exact congrArg trimOrZero (if_neg (by decide : ¬ ord 0x36 - 48 - 0 < ord 0x0A - 48))

/-- A minus sign, digits and a newline are refused: the difference that is to be encoded ends with
the two digits 44, and is out of range. -/
theorem encodeSigned_minus_newline (hne : digits ≠ []) (hdigits : digits.all isDigit = true)
    (bytes : Bytes) : encodeSigned (0x2D :: digits ++ [0x0A]) ≠ .ok bytes := by
  have htrim := all_trimZeros hdigits
  have hvalue := digits_value_lt htrim
  have hhead : (0x2D :: (trimZeros digits ++ [0x0A])).head? = some 0x2D := rfl
  rw [encodeSigned, normalizeSigned, normalizeDecimal_minus_newline hne hdigits]
  dsimp only
  rw [if_pos hhead]
  split_ifs with hlarge
  · rintro ⟨⟩
  · have hlength : (trimZeros digits).length ≤ 18 := by
      rw [compare, show int64MinAbs.length = 19 by decide] at hlarge
      simp only [List.drop_one, List.tail_cons, List.length_append, List.length_singleton] at hlarge
      split_ifs at hlarge <;> omega
    have hpow : 10 ^ (trimZeros digits).length ≤ 10 ^ 18 := Nat.pow_le_pow_right (by decide) hlength
    obtain ⟨hall, hdifference⟩ := @subtractLoop_value (ascii "1844674407370955161").reverse
      (trimZeros digits).reverse (ascii "44") 0 (by decide) (by rw [List.all_reverse, htrim])
      (by decide) (by decide) (by
        rw [List.reverse_reverse, List.reverse_reverse,
          show digitsValue 0 (ascii "1844674407370955161") = 1844674407370955161 by decide]
        omega)
    have hdecimal := is_decimal_trimOrZero hall
    rw [hdifference, List.reverse_reverse, List.reverse_reverse, digits_value_eq,
      show digitsValue 0 (ascii "1844674407370955161") = 1844674407370955161 by decide] at hdecimal
    dsimp only
    rw [if_neg (not_not.mpr hhead), List.drop_one, List.tail_cons, subtract_newline]
    rw [Ne, encodeUnsigned_normal (normalizeDecimal_decimal false hdecimal) hdecimal]
    rintro ⟨hsmall, -⟩
    have htwo : (ascii "44").length = 2 := by decide
    rw [htwo] at hsmall
    omega

end Newline

/-! ## The main result -/

/-- The texts with a newline at the end that pass the pattern for unsigned numbers and the
comparison with a bound. -/
def NewlineTaken (max text : GoString) : Prop :=
  text.getLast? = some 0x0A ∧ text.dropLast ≠ [] ∧ text.dropLast.all isDigit = true ∧
    ¬ 0 < compare (trimZeros text) max

theorem newlineTaken_concat {max digits : GoString} :
    NewlineTaken max (digits ++ [0x0A]) ↔
      digits ≠ [] ∧ digits.all isDigit = true ∧ ¬ 0 < compare (trimZeros digits ++ [0x0A]) max := by
  rw [NewlineTaken, List.getLast?_concat, List.dropLast_concat, trimZeros_newline]
  exact ⟨fun h => h.2, fun h => ⟨rfl, h⟩⟩

/-- An encoder is exact on a text that is no number exactly if it refuses the text. -/
theorem exact_iff_refused {result : Except ProtocolException Bytes} {number : Bytes → Int → Prop}
    (h : ∀ z, ¬ Written signed text z) :
    (∀ bytes, result = .ok bytes ↔ ∃ z, Written signed text z ∧ number bytes z) ↔
      ¬ ∃ bytes, result = .ok bytes := by
  constructor
  · rintro hexact ⟨bytes, hresult⟩
    obtain ⟨z, hwritten, -⟩ := (hexact bytes).mp hresult
    exact h z hwritten
  · intro hrefused bytes
    exact ⟨fun hresult => absurd ⟨bytes, hresult⟩ hrefused,
      fun ⟨z, hwritten, _⟩ => absurd hwritten (h z)⟩

theorem encodeUnsigned_error (h : ∀ z, ¬ Written false text z) :
    ¬ ∃ bytes, encodeUnsigned (text ++ [0x0A]) = .ok bytes := by
  have hmatch := (matchesInteger_newline text).not.mpr (not_exists.mpr h)
  rw [encodeUnsigned, normalizeUnsigned, normalizeDecimal_error (Bool.eq_false_iff.mpr hmatch)]
  rintro ⟨_, ⟨⟩⟩

theorem encodeSigned_error (h : ∀ z, ¬ Written true text z) :
    ¬ ∃ bytes, encodeSigned (text ++ [0x0A]) = .ok bytes := by
  have hmatch := (matchesInteger_newline text).not.mpr (not_exists.mpr h)
  rw [encodeSigned, normalizeSigned, normalizeDecimal_error (Bool.eq_false_iff.mpr hmatch)]
  rintro ⟨_, ⟨⟩⟩

theorem encodeUnsigned_newline_iff :
    (∃ bytes, encodeUnsigned (text ++ [0x0A]) = .ok bytes) ↔
      NewlineTaken uint64Max (text ++ [0x0A]) := by
  rw [newlineTaken_concat]
  by_cases hdigits : text ≠ [] ∧ text.all isDigit = true
  · rw [encodeUnsigned_newline hdigits.1 hdigits.2]
    exact ⟨fun h => ⟨hdigits.1, hdigits.2, h⟩, fun h => h.2.2⟩
  · refine iff_of_false (encodeUnsigned_error fun z hwritten => ?_) fun h => hdigits ⟨h.1, h.2.1⟩
    cases hwritten with
    | plain hne hall => exact hdigits ⟨hne, hall⟩
    | minus hsigned => contradiction

theorem encodeSigned_newline_iff :
    (∃ bytes, encodeSigned (text ++ [0x0A]) = .ok bytes) ↔
      NewlineTaken int64Max (text ++ [0x0A]) ∧ digitsValue 0 text ≠ 0 := by
  rw [newlineTaken_concat]
  by_cases hwritten : ∃ z, Written true text z
  · obtain ⟨z, hwritten⟩ := hwritten
    cases hwritten with
    | plain hne hall =>
      rw [encodeSigned_newline hne hall]
      exact ⟨fun h => ⟨⟨hne, hall, h.1⟩, h.2⟩, fun h => ⟨h.1.2.2, h.2⟩⟩
    | minus _ hne hall =>
      refine iff_of_false (fun ⟨bytes, h⟩ => encodeSigned_minus_newline hne hall bytes h) ?_
      exact fun h => head_ne_minus h.1.2.1 rfl
  · refine iff_of_false (encodeSigned_error (not_exists.mp hwritten)) fun h => hwritten ?_
    exact ⟨_, .plain h.1.1 h.1.2.1⟩

theorem newlineTaken_last {max : GoString} (h : text.getLast? ≠ some 0x0A) :
    ¬ NewlineTaken max text :=
  fun htaken => h htaken.1

/-- A text is encoded exactly if it is the text of a number in range, and then as the bytes of that
number, unless it is taken with a newline at its end; there the encoder for signed numbers still
refuses zeros and what has a minus sign. Every eight bytes are decoded to the decimal text of their
value, which is encoded to them again. -/
theorem integers_exact (text : GoString) (bytes : Bytes) :
    ((∀ bytes, encodeUnsigned text = .ok bytes ↔
        ∃ z, Written false text z ∧ 0 ≤ z ∧ z < 2 ^ 64 ∧ bytes = eightBytes z) ↔
      ¬ NewlineTaken uint64Max text) ∧
    ((∀ bytes, encodeSigned text = .ok bytes ↔
        ∃ z, Written true text z ∧ -2 ^ 63 ≤ z ∧ z < 2 ^ 63 ∧ bytes = eightBytes z) ↔
      ¬ (NewlineTaken int64Max text ∧ digitsValue 0 text.dropLast ≠ 0)) ∧
    (bytes.length = 8 →
      decodeUnsigned bytes = .ok (formatNat (beNat bytes)) ∧
      encodeUnsigned (formatNat (beNat bytes)) = .ok bytes ∧
      decodeSigned bytes = .ok (formatInt (signedValue (beNat bytes))) ∧
      encodeSigned (formatInt (signedValue (beNat bytes))) = .ok bytes) := by
  refine ⟨?_, ?_, ?_⟩
  · by_cases hline : text.getLast? = some 0x0A
    · obtain ⟨line, rfl⟩ := List.getLast?_eq_some_iff.mp hline
      rw [exact_iff_refused (not_written_newline line), encodeUnsigned_newline_iff]
    · exact iff_of_true (encodeUnsigned_iff hline) (newlineTaken_last hline)
  · by_cases hline : text.getLast? = some 0x0A
    · obtain ⟨line, rfl⟩ := List.getLast?_eq_some_iff.mp hline
      rw [exact_iff_refused (not_written_newline line), encodeSigned_newline_iff,
        List.dropLast_concat]
    · exact iff_of_true (encodeSigned_iff hline) fun htaken => newlineTaken_last hline htaken.1
  intro hlength
  have hlt := beNat_lt bytes
  rw [hlength] at hlt
  have hbytes : beBytes 8 (beNat bytes) = bytes := hlength ▸ beBytes_beNat bytes
  refine ⟨decodeUnsigned_format hlength, ?_, decodeSigned_format hlength, ?_⟩
  · rw [encodeUnsigned_format hlt, hbytes]
  · rw [encodeSigned_format hlt, hbytes]

theorem integers_exact_seven :
    encodeUnsigned (ascii "007") = .ok (eightBytes 7) ∧
      encodeSigned (ascii "-7") = .ok (eightBytes (-7)) := by
  refine ⟨((integers_exact _ []).1.mpr fun htaken => absurd htaken.1 (by decide)) _ |>.mpr
      ⟨7, ?_, by decide, by decide, rfl⟩,
    ((integers_exact _ []).2.1.mpr fun htaken => absurd htaken.1.1 (by decide)) _ |>.mpr
      ⟨-7, ?_, by decide, by decide, rfl⟩⟩
  · exact @Written.plain _ (ascii "007") (by decide) (by decide)
  · exact @Written.minus _ (ascii "7") rfl (by decide) (by decide)

/-- A newline at the end is taken for a digit: the text of five and a newline is encoded as the
number twelve. -/
theorem newline_is_a_digit :
    encodeUnsigned (ascii "5\n") = .ok (eightBytes 12) ∧
      ∀ z, ¬ Written false (ascii "5\n") z := by
  refine ⟨by decide +kernel, fun z hwritten => ?_⟩
  cases hwritten with
  | plain _ hdigits => exact absurd hdigits (by decide)

end ZCourier.Php.Integer64
