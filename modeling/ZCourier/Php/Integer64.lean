import ZCourier.Go.Decimal
import ZCourier.Library.BigEndian

/-!
# 64-bit integers as decimal texts

`Integer64` of the PHP SDK (`sdk/php/src/Protocol/Integer64.php`). A PHP integer cannot hold every
unsigned 64-bit value, so sequences and timestamps are decimal texts, on which the SDK computes
digit by digit. A PHP string is a byte string, an integer an `Int`; no step leaves the range of a
PHP integer. The bytes of the text of a number are the number's bytes: `encodeUnsigned_format`,
`encodeSigned_format`, `decodeUnsigned_format` and `decodeSigned_format`.
-/

namespace ZCourier.Php

open Go Library

/-- The kinds of `ProtocolException` that the codecs throw. -/
inductive ExceptionKind where
  | packetTooShort
  | invalidMagic
  | unsupportedVersion
  | lengthMismatch
  | bodyTooLarge
  | fieldTooLarge
  | frameTooShort
  | frameTooLarge
  | frameLengthMismatch
  | outerInnerMsgIdMismatch
  | invalidInteger
  deriving DecidableEq

/-- `ProtocolException`. -/
structure ProtocolException where
  kind : ExceptionKind
  message : GoString
  deriving DecidableEq

/-- `chr`. -/
def chr (n : Int) : UInt8 := .ofNat (n % 256).toNat

/-- `ord`. -/
def ord (byte : UInt8) : Int := byte.toNat

/-- `strcmp`, of which only the sign is used. -/
def strcmp : GoString → GoString → Int
  | [], [] => 0
  | [], _ :: _ => -1
  | _ :: _, [] => 1
  | a :: left, b :: right => if a < b then -1 else if b < a then 1 else strcmp left right

namespace Integer64

/-- `UINT64_MAX`. -/
def uint64Max : GoString := ascii "18446744073709551615"

/-- `UINT64_MODULUS`. -/
def uint64Modulus : GoString := ascii "18446744073709551616"

/-- `INT64_MAX`. -/
def int64Max : GoString := ascii "9223372036854775807"

/-- `INT64_MIN_ABS`. -/
def int64MinAbs : GoString := ascii "9223372036854775808"

/-- `preg_match` of the pattern for integers; its `$` also matches before a last newline. -/
def matchesInteger (signed : Bool) (text : GoString) : Bool :=
  let line := if text.getLast? = some 0x0A then text.dropLast else text
  let digits := if signed && line.head? = some 0x2D then line.drop 1 else line
  !digits.isEmpty && digits.all isDigit

/-- `normalizeDecimal`. -/
def normalizeDecimal (decimal : GoString) (signed : Bool) : Except ProtocolException GoString :=
  if !matchesInteger signed decimal then
    .error ⟨.invalidInteger, ascii "invalid decimal integer: " ++ decimal⟩
  else
    let negative := decimal.head? = some 0x2D
    let digits := trimZeros (if negative then decimal.drop 1 else decimal)
    if digits = [] then .ok (ascii "0")
    else .ok (if negative then 0x2D :: digits else digits)

/-- `compare`. -/
def compare (left right : GoString) : Int :=
  if left.length < right.length then -1
  else if right.length < left.length then 1
  else strcmp left right

/-- `normalizeUnsigned`. -/
def normalizeUnsigned (value : GoString) : Except ProtocolException GoString :=
  match normalizeDecimal value false with
  | .error err => .error err
  | .ok decimal =>
    if 0 < compare decimal uint64Max then
      .error ⟨.invalidInteger, ascii "unsigned 64-bit integer is out of range: " ++ decimal⟩
    else .ok decimal

/-- `normalizeSigned`. -/
def normalizeSigned (value : GoString) : Except ProtocolException GoString :=
  match normalizeDecimal value true with
  | .error err => .error err
  | .ok decimal =>
    if decimal.head? = some 0x2D then
      if 0 < compare (decimal.drop 1) int64MinAbs then
        .error ⟨.invalidInteger, ascii "signed 64-bit integer is out of range: " ++ decimal⟩
      else .ok decimal
    else if 0 < compare decimal int64Max then
      .error ⟨.invalidInteger, ascii "signed 64-bit integer is out of range: " ++ decimal⟩
    else .ok decimal

/-- One round of `divideBySmall`. -/
def divideDigit (divisor : Int) (state : GoString × Int) (byte : UInt8) : GoString × Int :=
  let current := state.2 * 10 + (ord byte - 48)
  let digit := current.tdiv divisor
  (if state.1 ≠ [] ∨ digit ≠ 0 then state.1 ++ formatInt digit else state.1, current.tmod divisor)

/-- `divideBySmall`. -/
def divideBySmall (decimal : GoString) (divisor : Int) : GoString × Int :=
  let (quotient, remainder) := decimal.foldl (divideDigit divisor) ([], 0)
  (if quotient = [] then ascii "0" else quotient, remainder)

/-- One round of the first loop of `multiplyAndAdd`. -/
def multiplyDigit (multiplier : Int) (byte : UInt8) (state : GoString × Int) : GoString × Int :=
  let current := (ord byte - 48) * multiplier + state.2
  (formatInt (current.tmod 10) ++ state.1, current.tdiv 10)

/-- The second loop of `multiplyAndAdd`; a PHP integer has at most 19 digits. -/
def flushCarry : Nat → Int → GoString → GoString
  | 0, _, result => result
  | fuel + 1, carry, result =>
    if 0 < carry then flushCarry fuel (carry.tdiv 10) (formatInt (carry.tmod 10) ++ result)
    else result

/-- `ltrim($text, '0') ?: '0'`. -/
def trimOrZero (text : GoString) : GoString :=
  if trimZeros text = [] then ascii "0" else trimZeros text

/-- `multiplyAndAdd`. -/
def multiplyAndAdd (decimal : GoString) (multiplier addend : Int) : GoString :=
  let (result, carry) := decimal.foldr (multiplyDigit multiplier) ([], addend)
  trimOrZero (flushCarry 20 carry result)

/-- The loop of `subtract`, over the digits from the last one on. -/
def subtractLoop : GoString → GoString → Int → GoString → GoString
  | [], _, _, result => result
  | left :: lefts, rights, borrow, result =>
    let leftDigit := ord left - 48 - borrow
    let rightDigit := rights.head?.elim 0 fun right => ord right - 48
    if leftDigit < rightDigit then
      subtractLoop lefts rights.tail 1 (formatInt (leftDigit + 10 - rightDigit) ++ result)
    else subtractLoop lefts rights.tail 0 (formatInt (leftDigit - rightDigit) ++ result)

/-- `subtract`. -/
def subtract (left right : GoString) : GoString :=
  trimOrZero (subtractLoop left.reverse right.reverse 0 [])

/-- The loop of `encodeUnsigned`. -/
def encodeLoop : Nat → GoString → Bytes → GoString × Bytes
  | 0, decimal, bytes => (decimal, bytes)
  | rounds + 1, decimal, bytes =>
    let (quotient, remainder) := divideBySmall decimal 256
    encodeLoop rounds quotient (chr remainder :: bytes)

/-- `encodeUnsigned`. -/
def encodeUnsigned (value : GoString) : Except ProtocolException Bytes :=
  match normalizeUnsigned value with
  | .error err => .error err
  | .ok decimal =>
    let (rest, bytes) := encodeLoop 8 decimal []
    if rest ≠ ascii "0" then
      .error ⟨.invalidInteger, ascii "unsigned 64-bit integer is out of range"⟩
    else .ok bytes

/-- `encodeSigned`. -/
def encodeSigned (value : GoString) : Except ProtocolException Bytes :=
  match normalizeSigned value with
  | .error err => .error err
  | .ok decimal =>
    if decimal.head? ≠ some 0x2D then encodeUnsigned decimal
    else encodeUnsigned (subtract uint64Modulus (decimal.drop 1))

/-- `requireEightBytes`. -/
def requireEightBytes (bytes : Bytes) : Except ProtocolException Unit :=
  if bytes.length ≠ 8 then
    .error ⟨.invalidInteger, ascii "64-bit integer requires exactly 8 bytes"⟩
  else .ok ()

/-- `decodeUnsigned`. -/
def decodeUnsigned (bytes : Bytes) : Except ProtocolException GoString :=
  match requireEightBytes bytes with
  | .error err => .error err
  | .ok () =>
    .ok (bytes.foldl (fun decimal byte => multiplyAndAdd decimal 256 (ord byte)) (ascii "0"))

/-- `decodeSigned`. -/
def decodeSigned (bytes : Bytes) : Except ProtocolException GoString :=
  match requireEightBytes bytes with
  | .error err => .error err
  | .ok () =>
    match decodeUnsigned bytes with
    | .error err => .error err
    | .ok unsigned =>
      if bytes.getD 0 0 &&& 0x80 = 0 then .ok unsigned
      else .ok (0x2D :: subtract uint64Modulus unsigned)

/-! ## Digits -/

variable {text left right : GoString} {n m : Nat}

theorem ord_digit {byte : UInt8} (h : isDigit byte = true) :
    ord byte - 48 = ((byte.toNat - 0x30 : Nat) : Int) := by
  obtain ⟨hge, -⟩ := is_digit_iff.mp h
  rw [ord]
  omega

/-- A number below ten is written with one digit. -/
theorem formatInt_digit (h : n < 10) : formatInt (n : Int) = [digit n] := by
  have hdiv : n / 10 = 0 := Nat.div_eq_of_lt h
  rw [formatInt, if_neg (by omega), Int.natAbs_natCast, formatNat]
  simp only [prependDigits, hdiv, if_true, Nat.mod_eq_of_lt h]

theorem tdiv_ten (n : Nat) : (n : Int).tdiv 10 = ((n / 10 : Nat) : Int) := rfl

theorem tmod_ten (n : Nat) : (n : Int).tmod 10 = ((n % 10 : Nat) : Int) := rfl

theorem digit_value (h : n < 10) : (digit n).toNat - 0x30 = n := by
  rw [digit_to_nat h]
  omega

theorem is_decimal_trimOrZero (h : text.all isDigit = true) :
    IsDecimal (trimOrZero text) (digitsValue 0 text) :=
  is_decimal_trim h

/-! ## Comparison -/

theorem strcmp_pos_iff (hlength : left.length = right.length) (hleft : left.all isDigit = true)
    (hright : right.all isDigit = true) :
    0 < strcmp left right ↔ digitsValue 0 right < digitsValue 0 left := by
  induction left generalizing right with
  | nil =>
    obtain rfl := List.eq_nil_of_length_eq_zero hlength.symm
    simp [strcmp]
  | cons a left ih =>
    cases right with
    | nil => contradiction
    | cons b right =>
      rw [List.all_cons, Bool.and_eq_true] at hleft hright
      have hlength' : left.length = right.length := Nat.succ.inj hlength
      have hlt := digits_value_lt hleft.2
      have hlt' := digits_value_lt hright.2
      obtain ⟨ha, -⟩ := is_digit_iff.mp hleft.1
      obtain ⟨hb, -⟩ := is_digit_iff.mp hright.1
      rw [hlength'] at hlt
      rw [strcmp, digits_value_first, digits_value_first, hlength']
      generalize 10 ^ right.length = power at hlt hlt'
      split
      · next hab =>
        have hab' := UInt8.lt_iff_toNat_lt.mp hab
        have hmul := Nat.mul_le_mul_right power
          (by omega : a.toNat - 0x30 + 1 ≤ b.toNat - 0x30)
        rw [Nat.succ_mul] at hmul
        omega
      · next hab =>
        split
        · next hba =>
          have hba' := UInt8.lt_iff_toNat_lt.mp hba
          have hmul := Nat.mul_le_mul_right power
            (by omega : b.toNat - 0x30 + 1 ≤ a.toNat - 0x30)
          rw [Nat.succ_mul] at hmul
          omega
        · next hba =>
          obtain rfl : a = b :=
            UInt8.le_antisymm (UInt8.not_lt.mp hba) (UInt8.not_lt.mp hab)
          rw [ih hlength' hleft.2 hright.2]
          omega

/-- Decimal texts compare as their values do. -/
theorem compare_pos_iff (hleft : IsDecimal left n) (hright : IsDecimal right m) (hm : m ≠ 0) :
    0 < compare left right ↔ m < n := by
  obtain ⟨hle, hlt⟩ := hright.pow_le hm
  rw [compare]
  split
  · next hshort =>
    have hpow : 10 ^ left.length ≤ 10 ^ (right.length - 1) :=
      Nat.pow_le_pow_right (by decide) (by omega)
    have hsmall := digits_value_lt hleft.digits
    rw [hleft.value] at hsmall
    constructor
    · intro h
      contradiction
    · omega
  · split
    · next hlong =>
      have hn : n ≠ 0 := by
        intro hn
        rw [hleft.eq_zero_iff.mpr hn, List.length_singleton] at hlong
        have := List.length_pos_of_ne_nil hright.ne_nil
        omega
      have hpow : 10 ^ right.length ≤ 10 ^ (left.length - 1) :=
        Nat.pow_le_pow_right (by decide) (by omega)
      have hlarge := (hleft.pow_le hn).1
      constructor
      · intro _
        omega
      · intro _
        decide
    · next hlong =>
      rw [strcmp_pos_iff (by omega) hleft.digits hright.digits, hleft.value, hright.value]

/-! ## Normal texts -/

theorem digit_ne {byte other : UInt8} (h : isDigit byte = true) (hother : isDigit other = false) :
    byte ≠ other := by
  rintro rfl
  rw [h] at hother
  contradiction

theorem getLast_ne_newline (h : text.all isDigit = true) : text.getLast? ≠ some 0x0A := by
  intro hlast
  exact digit_ne (List.all_eq_true.mp h _ (List.mem_of_getLast? hlast)) (by decide) rfl

theorem head_ne_minus (h : text.all isDigit = true) : text.head? ≠ some 0x2D := by
  intro hhead
  exact digit_ne (List.all_eq_true.mp h _ (List.mem_of_head? hhead)) (by decide) rfl

theorem trimZeros_decimal (h : IsDecimal text n) :
    (if trimZeros text = [] then ascii "0" else trimZeros text) = text := by
  have htrim := is_decimal_trim h.digits
  rw [h.value] at htrim
  exact htrim.unique h

theorem matchesInteger_digits (signed : Bool) (h : text.all isDigit = true) (hne : text ≠ []) :
    matchesInteger signed text = true := by
  rw [matchesInteger, if_neg (getLast_ne_newline h), if_neg (by simp [head_ne_minus h])]
  simp [h, hne]

theorem normalizeDecimal_decimal (signed : Bool) (h : IsDecimal text n) :
    normalizeDecimal text signed = .ok text := by
  rw [normalizeDecimal, matchesInteger_digits signed h.digits h.ne_nil]
  have hminus := head_ne_minus h.digits
  have htrim := trimZeros_decimal h
  simp only [hminus, if_false, Bool.not_true, Bool.false_eq_true]
  split
  · next hempty =>
    rw [if_pos hempty] at htrim
    rw [htrim]
  · next hne =>
    rw [if_neg hne] at htrim
    rw [htrim]

theorem normalizeDecimal_negative (h : IsDecimal text n) (hn : n ≠ 0) :
    normalizeDecimal (0x2D :: text) true = .ok (0x2D :: text) := by
  have htrim := trimZeros_decimal h
  have hne : trimZeros text ≠ [] := by
    intro hempty
    rw [if_pos hempty] at htrim
    exact hn (h.eq_zero_iff.mp htrim.symm)
  rw [if_neg hne] at htrim
  have hlast : (0x2D :: text).getLast? = text.getLast? := by
    cases text with
    | nil => exact absurd rfl h.ne_nil
    | cons byte text => rfl
  have hmatch : matchesInteger true (0x2D :: text) = true := by
    rw [matchesInteger, hlast, if_neg (getLast_ne_newline h.digits)]
    simp [h.digits, h.ne_nil]
  rw [normalizeDecimal, hmatch]
  simp [htrim, h.ne_nil]

theorem is_decimal_uint64Max : IsDecimal uint64Max (2 ^ 64 - 1) :=
  ⟨by decide, by decide, .inr ⟨_, _, rfl, by decide⟩⟩

theorem is_decimal_uint64Modulus : IsDecimal uint64Modulus (2 ^ 64) :=
  ⟨by decide, by decide, .inr ⟨_, _, rfl, by decide⟩⟩

theorem is_decimal_int64Max : IsDecimal int64Max (2 ^ 63 - 1) :=
  ⟨by decide, by decide, .inr ⟨_, _, rfl, by decide⟩⟩

theorem is_decimal_int64MinAbs : IsDecimal int64MinAbs (2 ^ 63) :=
  ⟨by decide, by decide, .inr ⟨_, _, rfl, by decide⟩⟩

theorem normalizeUnsigned_decimal (h : IsDecimal text n) (hn : n < 2 ^ 64) :
    normalizeUnsigned text = .ok text := by
  have hcompare := compare_pos_iff h is_decimal_uint64Max (by decide)
  rw [normalizeUnsigned, normalizeDecimal_decimal false h]
  dsimp only
  rw [if_neg]
  rw [hcompare]
  omega

theorem normalizeSigned_decimal (h : IsDecimal text n) (hn : n < 2 ^ 63) :
    normalizeSigned text = .ok text := by
  have hcompare := compare_pos_iff h is_decimal_int64Max (by decide)
  rw [normalizeSigned, normalizeDecimal_decimal true h]
  dsimp only
  rw [if_neg (head_ne_minus h.digits), if_neg]
  rw [hcompare]
  omega

theorem normalizeSigned_negative (h : IsDecimal text n) (hpos : n ≠ 0) (hn : n ≤ 2 ^ 63) :
    normalizeSigned (0x2D :: text) = .ok (0x2D :: text) := by
  have hcompare := compare_pos_iff h is_decimal_int64MinAbs (by decide)
  rw [normalizeSigned, normalizeDecimal_negative h hpos]
  have hminus : (0x2D :: text).head? = some 0x2D := rfl
  dsimp only
  rw [if_pos hminus, if_neg]
  show ¬ 0 < compare text int64MinAbs
  rw [hcompare]
  omega

/-! ## Division -/

/-- The state of the division after the digits of a number: the quotient without leading zeros, and
the remainder. -/
structure Divided (divisor : Nat) (state : GoString × Int) (n : Nat) : Prop where
  digits : state.1.all isDigit = true
  value : digitsValue 0 state.1 = n / divisor
  leading : state.1 = [] ∨ ∃ first rest, state.1 = first :: rest ∧ first ≠ 0x30
  remainder : state.2 = ((n % divisor : Nat) : Int)

variable {state : GoString × Int}

theorem Divided.digit {divisor : Nat} (hdivisor : 0 < divisor) {byte : UInt8}
    (h : Divided divisor state n) (hbyte : isDigit byte = true) :
    Divided divisor (divideDigit divisor state byte) (n * 10 + (byte.toNat - 0x30)) := by
  obtain ⟨hge, hle⟩ := is_digit_iff.mp hbyte
  generalize hd : byte.toNat - 0x30 = d
  have hd10 : d < 10 := by omega
  obtain ⟨quotient, remainder⟩ := state
  obtain rfl : remainder = ((n % divisor : Nat) : Int) := h.remainder
  have hr := Nat.mod_lt n hdivisor
  -- the number is the old quotient times ten divisors, and what the round divides
  have hsplit : n * 10 + d = n / divisor * 10 * divisor + (n % divisor * 10 + d) := by
    have hn := Nat.div_add_mod n divisor
    calc n * 10 + d = (divisor * (n / divisor) + n % divisor) * 10 + d := by rw [hn]
      _ = _ := by ring
  have hdiv : (n * 10 + d) / divisor = n / divisor * 10 + (n % divisor * 10 + d) / divisor := by
    rw [hsplit, Nat.mul_comm _ divisor, Nat.mul_add_div hdivisor]
  have hmod : (n * 10 + d) % divisor = (n % divisor * 10 + d) % divisor := by
    rw [hsplit, Nat.mul_comm _ divisor, Nat.mul_add_mod]
  have hlt : (n % divisor * 10 + d) / divisor < 10 := by
    rw [Nat.div_lt_iff_lt_mul hdivisor]
    omega
  have hcurrent : ((n % divisor : Nat) : Int) * 10 + (ord byte - 48) =
      ((n % divisor * 10 + d : Nat) : Int) := by
    rw [ord_digit hbyte, hd]
    push_cast
    ring
  have hdivide : divideDigit divisor (quotient, ((n % divisor : Nat) : Int)) byte =
      (if quotient ≠ [] ∨ (n % divisor * 10 + d) / divisor ≠ 0 then
          quotient ++ [Go.digit ((n % divisor * 10 + d) / divisor)] else quotient,
        (((n * 10 + d) % divisor : Nat) : Int)) := by
    rw [divideDigit]
    dsimp only
    rw [hcurrent, ← Int.ofNat_tdiv, ← Int.ofNat_tmod, formatInt_digit hlt, hmod]
    simp only [ne_eq, Nat.cast_eq_zero]
  rw [hdivide]
  have hvalue : digitsValue 0 quotient = n / divisor := h.value
  split
  · next hwrite =>
    refine ⟨?_, ?_, ?_, rfl⟩
    · rw [List.all_append, h.digits, List.all_cons, is_digit_digit hlt]
      rfl
    · rw [digits_value_concat, hvalue, digit_value hlt, hdiv]
    · right
      rcases h.leading with hnil | ⟨first, rest, hcons, hne⟩
      · obtain rfl : quotient = [] := hnil
        refine ⟨_, [], rfl, fun hzero => ?_⟩
        have hdigit := digit_value hlt
        rw [hzero] at hdigit
        exact hwrite.resolve_left (fun hnot => hnot rfl) hdigit.symm
      · obtain rfl : quotient = first :: rest := hcons
        exact ⟨first, rest ++ _, rfl, hne⟩
  · next hwrite =>
    rw [not_or, not_not, not_not] at hwrite
    obtain ⟨rfl, hzero⟩ := hwrite
    refine ⟨rfl, ?_, .inl rfl, rfl⟩
    rw [hdiv, hzero, ← hvalue]
    rfl

theorem Divided.all {divisor : Nat} (hdivisor : 0 < divisor) (digits : GoString)
    (hdigits : digits.all isDigit = true) :
    Divided divisor (digits.foldl (divideDigit divisor) ([], 0)) (digitsValue 0 digits) := by
  induction digits using List.reverseRecOn with
  | nil => exact ⟨rfl, by simp [digitsValue], .inl rfl, by simp [digitsValue]⟩
  | append_singleton digits byte ih =>
    rw [List.all_append, Bool.and_eq_true, List.all_cons, Bool.and_eq_true] at hdigits
    rw [List.foldl_append, digits_value_concat]
    exact (ih hdigits.1).digit hdivisor hdigits.2.1

theorem Divided.decimal {divisor : Nat} (h : Divided divisor state n) :
    IsDecimal (if state.1 = [] then ascii "0" else state.1) (n / divisor) := by
  obtain ⟨hdigits, hvalue, hleading, -⟩ := h
  obtain ⟨quotient, remainder⟩ := state
  dsimp only at *
  rcases hleading with rfl | ⟨first, rest, rfl, hne⟩
  · exact ⟨rfl, hvalue, .inl rfl⟩
  · exact ⟨hdigits, hvalue, .inr ⟨first, rest, rfl, hne⟩⟩

theorem divideBySmall_decimal (divisor : Nat) (hdivisor : 0 < divisor) (h : IsDecimal text n) :
    IsDecimal (divideBySmall text divisor).1 (n / divisor) ∧
      (divideBySmall text divisor).2 = ((n % divisor : Nat) : Int) := by
  have hdivided := Divided.all hdivisor text h.digits
  rw [h.value] at hdivided
  exact ⟨hdivided.decimal, hdivided.remainder⟩

theorem encodeLoop_decimal (rounds : Nat) (bytes : Bytes) (h : IsDecimal text n) :
    IsDecimal (encodeLoop rounds text bytes).1 (n / 256 ^ rounds) ∧
      (encodeLoop rounds text bytes).2 = beBytes rounds n ++ bytes := by
  induction rounds generalizing text n bytes with
  | zero => exact ⟨by simpa [encodeLoop] using h, rfl⟩
  | succ rounds ih =>
    obtain ⟨hquotient, hremainder⟩ := divideBySmall_decimal 256 (by decide) h
    have hchr : chr (divideBySmall text 256).2 = UInt8.ofNat (n % 256) := by
      have hremainder' : (divideBySmall text 256).2 = ((n % 256 : Nat) : Int) := hremainder
      rw [chr, hremainder']
      congr 1
      omega
    obtain ⟨hrest, hbytes⟩ := ih (chr (divideBySmall text 256).2 :: bytes) hquotient
    rw [Nat.div_div_eq_div_mul, ← Nat.pow_succ'] at hrest
    refine ⟨hrest, ?_⟩
    rw [encodeLoop]
    dsimp only
    refine hbytes.trans ?_
    rw [hchr, beBytes, List.append_assoc]
    rfl

/-- The bytes of the text of a number are the number's. -/
theorem encodeUnsigned_decimal (h : IsDecimal text n) (hn : n < 2 ^ 64) :
    encodeUnsigned text = .ok (beBytes 8 n) := by
  obtain ⟨hrest, hbytes⟩ := encodeLoop_decimal 8 [] h
  have hzero : n / 256 ^ 8 = 0 := Nat.div_eq_of_lt hn
  rw [hzero] at hrest
  rw [encodeUnsigned, normalizeUnsigned_decimal h hn]
  have hdone : ¬ (encodeLoop 8 text []).1 ≠ ascii "0" := not_not.mpr (hrest.eq_zero_iff.mpr rfl)
  dsimp only
  rw [if_neg hdone, hbytes, List.append_nil]

/-! ## Multiplication -/

theorem flushCarry_value (fuel : Nat) {carry : Nat} (result : GoString) (hcarry : carry < 10 ^ fuel)
    (h : result.all isDigit = true) :
    (flushCarry fuel carry result).all isDigit = true ∧
      digitsValue 0 (flushCarry fuel carry result) = digitsValue carry result := by
  induction fuel generalizing carry result with
  | zero =>
    obtain rfl : carry = 0 := by simpa using hcarry
    exact ⟨h, rfl⟩
  | succ fuel ih =>
    rw [flushCarry]
    split
    · have hlt := Nat.mod_lt carry (by decide : 0 < 10)
      rw [tdiv_ten, tmod_ten, formatInt_digit hlt]
      rw [Nat.pow_succ] at hcarry
      obtain ⟨hdigits, hvalue⟩ := @ih (carry / 10) ([digit (carry % 10)] ++ result) (by omega)
        (by rw [List.all_append, h, List.all_cons, is_digit_digit hlt]; rfl)
      refine ⟨hdigits, hvalue.trans ?_⟩
      show digitsValue (carry / 10 * 10 + ((digit (carry % 10)).toNat - 0x30)) result = _
      rw [digit_value hlt, Nat.div_add_mod']
    · next hzero =>
      obtain rfl : carry = 0 := by omega
      exact ⟨h, rfl⟩

/-- The state of the multiplication after the last digits of a text: their product so far, the carry
in front. -/
structure Multiplied (multiplier addend : Nat) (text : GoString) (state : GoString × Int) :
    Prop where
  carried : ∃ carry : Nat, state.2 = (carry : Int) ∧ carry < multiplier ∧
    digitsValue carry state.1 = digitsValue 0 text * multiplier + addend
  digits : state.1.all isDigit = true
  length : state.1.length = text.length

theorem Multiplied.digit {multiplier addend : Nat} {digits : GoString} {byte : UInt8}
    (h : Multiplied multiplier addend digits state) (hbyte : isDigit byte = true) :
    Multiplied multiplier addend (byte :: digits) (multiplyDigit multiplier byte state) := by
  obtain ⟨hge, hle⟩ := is_digit_iff.mp hbyte
  obtain ⟨⟨carry, hcarry, hlt, hvalue⟩, hdigits, hlength⟩ := h
  obtain ⟨result, carry'⟩ := state
  obtain rfl : carry' = (carry : Int) := hcarry
  generalize hd : byte.toNat - 0x30 = d
  have hd10 : d < 10 := by omega
  have hcurrent : (ord byte - 48) * (multiplier : Int) + (carry : Int) =
      ((d * multiplier + carry : Nat) : Int) := by
    rw [ord_digit hbyte, hd]
    push_cast
    rfl
  have hsmall := Nat.mod_lt (d * multiplier + carry) (by decide : 0 < 10)
  have hmultiply : multiplyDigit multiplier byte (result, (carry : Int)) =
      (Go.digit ((d * multiplier + carry) % 10) :: result,
        (((d * multiplier + carry) / 10 : Nat) : Int)) := by
    rw [multiplyDigit]
    dsimp only
    rw [hcurrent, tdiv_ten, tmod_ten, formatInt_digit hsmall]
    rfl
  rw [hmultiply]
  refine ⟨⟨_, rfl, ?_, ?_⟩, ?_, ?_⟩
  · have hmul : d * multiplier ≤ 9 * multiplier := Nat.mul_le_mul_right _ (by omega)
    omega
  · show digitsValue _ (_ :: result) = _
    rw [digits_value_cons, digit_value hsmall, Nat.div_add_mod', digits_value_eq,
      digits_value_first, hd]
    rw [digits_value_eq] at hvalue
    have hlength' : result.length = digits.length := hlength
    dsimp only at hvalue
    rw [hlength'] at hvalue ⊢
    calc (d * multiplier + carry) * 10 ^ digits.length + digitsValue 0 result
        = d * 10 ^ digits.length * multiplier +
            (carry * 10 ^ digits.length + digitsValue 0 result) := by ring
      _ = _ := by rw [hvalue]; ring
  · rw [List.all_cons, is_digit_digit hsmall]
    exact hdigits
  · exact congrArg Nat.succ hlength

theorem multiplyAndAdd_decimal {multiplier addend : Nat} (hmultiplier : multiplier < 10 ^ 20)
    (haddend : addend < multiplier) (h : IsDecimal text n) :
    IsDecimal (multiplyAndAdd text multiplier addend) (n * multiplier + addend) := by
  have hrun : ∀ digits : GoString, digits.all isDigit = true →
      Multiplied multiplier addend digits
        (digits.foldr (multiplyDigit multiplier) ([], (addend : Int))) := by
    intro digits hdigits
    induction digits with
    | nil => exact ⟨⟨addend, rfl, haddend, by simp [digitsValue]⟩, rfl, rfl⟩
    | cons byte digits ih =>
      rw [List.all_cons, Bool.and_eq_true] at hdigits
      exact (ih hdigits.2).digit hdigits.1
  obtain ⟨⟨carry, hcarry, hlt, hvalue⟩, hdigits, -⟩ := hrun text h.digits
  rw [h.value] at hvalue
  obtain ⟨hflushed, hflushedValue⟩ := flushCarry_value 20 _
    (Nat.lt_trans hlt hmultiplier) hdigits
  rw [← hcarry] at hflushed hflushedValue
  rw [← hvalue, ← hflushedValue]
  exact is_decimal_trimOrZero hflushed

variable {bytes : Bytes}

theorem decodeUnsigned_eq (h : bytes.length = 8) :
    ∃ decimal, decodeUnsigned bytes = .ok decimal ∧ IsDecimal decimal (beNat bytes) := by
  have hrun : ∀ bytes : Bytes, IsDecimal
      (bytes.foldl (fun decimal byte => multiplyAndAdd decimal 256 (ord byte)) (ascii "0"))
      (beNat bytes) := by
    intro bytes
    induction bytes using List.reverseRecOn with
    | nil => exact ⟨by decide, by decide, .inl rfl⟩
    | append_singleton bytes byte ih =>
      rw [List.foldl_append, beNat_concat]
      exact multiplyAndAdd_decimal (by decide) byte.toNat_lt ih
  refine ⟨_, ?_, hrun bytes⟩
  rw [decodeUnsigned, requireEightBytes, if_neg (not_not.mpr h)]

/-! ## Subtraction -/

theorem digits_value_reverse_cons (byte : UInt8) (digits : GoString) :
    digitsValue 0 (byte :: digits).reverse =
      digitsValue 0 digits.reverse * 10 + (byte.toNat - 0x30) := by
  rw [List.reverse_cons, digits_value_concat]

/-- The loop of the subtraction, by induction on the digits from the last one on: what is left of
the first number exceeds what is left of the second one and the borrow. -/
theorem subtractLoop_value {lefts rights : GoString} (result : GoString) (borrow : Nat)
    (hlefts : lefts.all isDigit = true) (hrights : rights.all isDigit = true)
    (hresult : result.all isDigit = true) (hborrow : borrow ≤ 1)
    (h : digitsValue 0 rights.reverse + borrow ≤ digitsValue 0 lefts.reverse) :
    (subtractLoop lefts rights borrow result).all isDigit = true ∧
      digitsValue 0 (subtractLoop lefts rights borrow result) =
        digitsValue (digitsValue 0 lefts.reverse -
          (digitsValue 0 rights.reverse + borrow)) result := by
  induction lefts generalizing rights result borrow with
  | nil =>
    have hzero : digitsValue 0 ([] : GoString).reverse = 0 := rfl
    rw [hzero, Nat.zero_sub]
    exact ⟨hresult, rfl⟩
  | cons left lefts ih =>
    rw [List.all_cons, Bool.and_eq_true] at hlefts
    obtain ⟨hleft, hleftLe⟩ := is_digit_iff.mp hlefts.1
    rw [digits_value_reverse_cons] at h ⊢
    generalize hd : left.toNat - 0x30 = d at h ⊢
    obtain ⟨e, he, hright, hvalue, htail⟩ : ∃ e : Nat, e < 10 ∧
        (rights.head?.elim 0 fun right => ord right - 48) = (e : Int) ∧
        digitsValue 0 rights.reverse = digitsValue 0 rights.tail.reverse * 10 + e ∧
        rights.tail.all isDigit = true := by
      cases rights with
      | nil => exact ⟨0, by decide, rfl, rfl, rfl⟩
      | cons right rights =>
        rw [List.all_cons, Bool.and_eq_true] at hrights
        obtain ⟨hge, hle⟩ := is_digit_iff.mp hrights.1
        exact ⟨right.toNat - 0x30, by omega, ord_digit hrights.1,
          digits_value_reverse_cons right rights, hrights.2⟩
    rw [hvalue] at h ⊢
    have hwritten : ∀ digit : Nat, digit < 10 →
      ([Go.digit digit] ++ result).all isDigit = true := by
      intro digit hdigit
      rw [List.all_append, hresult, List.all_cons, is_digit_digit hdigit]
      rfl
    rw [subtractLoop, hright, ord_digit hlefts.1, hd]
    split
    · next hless =>
      have hdigit : (d : Int) - borrow + 10 - e = ((d + 10 - borrow - e : Nat) : Int) := by omega
      have hlt : d + 10 - borrow - e < 10 := by omega
      obtain ⟨hall, hloop⟩ := ih _ 1 hlefts.2 htail (hwritten _ hlt) (Nat.le_refl 1)
        (by omega)
      rw [hdigit, formatInt_digit hlt]
      refine ⟨hall, hloop.trans ?_⟩
      show digitsValue _ (_ :: result) = _
      rw [digits_value_cons, digit_value hlt]
      congr 1
      omega
    · next hmore =>
      have hdigit : (d : Int) - borrow - e = ((d - borrow - e : Nat) : Int) := by omega
      have hlt : d - borrow - e < 10 := by omega
      obtain ⟨hall, hloop⟩ := ih _ 0 hlefts.2 htail (hwritten _ hlt) (Nat.zero_le 1)
        (by omega)
      rw [hdigit, formatInt_digit hlt]
      refine ⟨hall, hloop.trans ?_⟩
      show digitsValue _ (_ :: result) = _
      rw [digits_value_cons, digit_value hlt]
      congr 1
      omega

theorem subtract_decimal (hleft : IsDecimal left n) (hright : IsDecimal right m) (h : m ≤ n) :
    IsDecimal (subtract left right) (n - m) := by
  have hreverse : ∀ text : GoString, text.all isDigit = true → text.reverse.all isDigit = true :=
    fun text htext => by rw [List.all_reverse, htext]
  obtain ⟨hall, hvalue⟩ := subtractLoop_value [] 0
    (hreverse left hleft.digits) (hreverse right hright.digits) rfl (by decide)
    (by rw [List.reverse_reverse, List.reverse_reverse, hleft.value, hright.value]; exact h)
  rw [List.reverse_reverse, List.reverse_reverse, hleft.value, hright.value] at hvalue
  have htrim := is_decimal_trimOrZero hall
  rw [hvalue] at htrim
  exact htrim

/-! ## Signed numbers -/

theorem sign_bit (h : bytes.length = 8) : bytes.getD 0 0 &&& 0x80 = 0 ↔ beNat bytes < 2 ^ 63 := by
  have hbit : ∀ byte : UInt8, byte &&& 0x80 = 0 ↔ byte.toNat < 128 :=
    forall_byte (by decide +kernel)
  cases bytes with
  | nil => exact absurd h (by decide)
  | cons first rest =>
    have hrest : rest.length = 7 := Nat.succ.inj h
    have hlt := beNat_lt rest
    rw [hrest] at hlt
    rw [beNat_cons, hrest, List.getD_cons_zero, hbit]
    omega

def signedValue (n : Nat) : Int :=
  if n < 2 ^ 63 then n else (n : Int) - 2 ^ 64

theorem formatInt_nonneg {n : Nat} (h : n < 2 ^ 63) : formatInt (signedValue n) = formatNat n := by
  rw [signedValue, if_pos h, formatInt, if_neg (by omega), Int.natAbs_natCast]

theorem formatInt_negative {n : Nat} (hn : n < 2 ^ 64) (h : ¬ n < 2 ^ 63) :
    formatInt (signedValue n) = 0x2D :: formatNat (2 ^ 64 - n) := by
  have habs : ((n : Int) - 2 ^ 64).natAbs = 2 ^ 64 - n := by omega
  rw [signedValue, if_neg h, formatInt, if_pos (by omega), habs]

theorem decodeUnsigned_format (h : bytes.length = 8) :
    decodeUnsigned bytes = .ok (formatNat (beNat bytes)) := by
  obtain ⟨decimal, hdecode, hdecimal⟩ := decodeUnsigned_eq h
  have hlt := beNat_lt bytes
  rw [h] at hlt
  rw [hdecode, hdecimal.eq_format (by omega)]

theorem decodeSigned_format (h : bytes.length = 8) :
    decodeSigned bytes = .ok (formatInt (signedValue (beNat bytes))) := by
  obtain ⟨decimal, hdecode, hdecimal⟩ := decodeUnsigned_eq h
  have hlt := beNat_lt bytes
  rw [h] at hlt
  have hsign := sign_bit h
  rw [decodeSigned, requireEightBytes, if_neg (not_not.mpr h), hdecode]
  dsimp only
  by_cases hpos : beNat bytes < 2 ^ 63
  · rw [if_pos (hsign.mpr hpos), formatInt_nonneg hpos, hdecimal.eq_format (by omega)]
  · have hsubtract := subtract_decimal is_decimal_uint64Modulus hdecimal (by omega)
    rw [if_neg (fun hbit => hpos (hsign.mp hbit)), formatInt_negative hlt hpos,
      hsubtract.eq_format (by omega)]

theorem encodeUnsigned_format (hn : n < 2 ^ 64) :
    encodeUnsigned (formatNat n) = .ok (beBytes 8 n) :=
  encodeUnsigned_decimal (is_decimal_format (by omega)) hn

theorem normalizeSigned_format {t : Int} (hmin : -2 ^ 63 ≤ t) (hmax : t < 2 ^ 63) :
    normalizeSigned (formatInt t) = .ok (formatInt t) := by
  have hdecimal : IsDecimal (formatNat t.natAbs) t.natAbs := is_decimal_format (by omega)
  rw [formatInt]
  split
  · exact normalizeSigned_negative hdecimal (by omega) (by omega)
  · exact normalizeSigned_decimal hdecimal (by omega)

theorem encodeSigned_format {n : Nat} (hn : n < 2 ^ 64) :
    encodeSigned (formatInt (signedValue n)) = .ok (beBytes 8 n) := by
  have hmin : -2 ^ 63 ≤ signedValue n := by
    rw [signedValue]
    split <;> omega
  have hmax : signedValue n < 2 ^ 63 := by
    rw [signedValue]
    split <;> omega
  rw [encodeSigned, normalizeSigned_format hmin hmax]
  dsimp only
  by_cases hpos : n < 2 ^ 63
  · have hdecimal : IsDecimal (formatNat n) n := is_decimal_format (by omega)
    rw [formatInt_nonneg hpos, if_pos (head_ne_minus hdecimal.digits),
      encodeUnsigned_decimal hdecimal hn]
  · have hdecimal : IsDecimal (formatNat (2 ^ 64 - n)) (2 ^ 64 - n) := is_decimal_format (by omega)
    have hsubtract := subtract_decimal is_decimal_uint64Modulus hdecimal (by omega)
    have hback : 2 ^ 64 - (2 ^ 64 - n) = n := by omega
    rw [hback] at hsubtract
    have hminus : ¬ (0x2D :: formatNat (2 ^ 64 - n)).head? ≠ some 0x2D := not_not.mpr rfl
    rw [formatInt_negative hn hpos, if_neg hminus]
    exact encodeUnsigned_decimal hsubtract hn

end Integer64

end ZCourier.Php
