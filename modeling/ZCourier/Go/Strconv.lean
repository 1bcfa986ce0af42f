import Mathlib.Tactic.NormNum
import ZCourier.Go.Values

/-!
# Numbers, times and encodings as text

What `fmt.Sprintf("%d")`, `strconv.ParseInt`, `strings.Cut` and `encoding/base64` do to
the strings of the gateway. `parse_format_int` is the round trip of an `int64`. Base64 is
a parameter (`Base64`) of which only the round trip and the alphabet are used.
-/

namespace ZCourier.Go

/-! ## `strings.TrimSpace` and `strings.Cut` -/

variable {text : GoString}

theorem strip_front_of_no_prefix {words : List GoString} (fuel : Nat)
    (h : ∀ word ∈ words, word.isPrefixOf text = false) : stripFront words fuel text = text := by
  cases fuel with
  | zero => rfl
  | succ fuel =>
    have hnone : words.find? (fun word => word.isPrefixOf text) = none := by
      rw [List.find?_eq_none]
      intro word hword
      rw [h word hword]
      exact Bool.false_ne_true
    rw [stripFront, hnone]

/-- A printable ASCII character other than the space. -/
def graphic (byte : UInt8) : Bool := 0x21 ≤ byte && byte ≤ 0x7E

theorem space_not_graphic :
    ∀ word ∈ spaces ++ spaces.map List.reverse, ∀ byte, word.head? = some byte →
      graphic byte = false := by
  decide +kernel

theorem not_prefix_of_graphic {word text : GoString} {byte : UInt8}
    (hword : ∀ byte, word.head? = some byte → graphic byte = false) (hne : word ≠ [])
    (htext : text.head? = some byte) (hgraphic : graphic byte = true) :
    word.isPrefixOf text = false := by
  cases word with
  | nil => exact absurd rfl hne
  | cons first rest =>
    cases text with
    | nil => cases htext
    | cons byte' text =>
      obtain rfl : byte' = byte := Option.some.inj htext
      have hne : first ≠ byte' := fun heq => by
        rw [heq] at hword
        exact absurd hgraphic (by simp [hword byte' rfl])
      simp [List.isPrefixOf, hne]

theorem trim_space_of_graphic {first last : UInt8} (hhead : text.head? = some first)
    (hfirst : graphic first = true) (hlast : text.getLast? = some last)
    (hgraphic : graphic last = true) : trimSpace text = text := by
  have hnonempty : ∀ word ∈ spaces ++ spaces.map List.reverse, word ≠ [] := by decide
  have hfront : stripFront spaces text.length text = text := by
    refine strip_front_of_no_prefix _ fun word hword => ?_
    have hmem : word ∈ spaces ++ spaces.map List.reverse := List.mem_append_left _ hword
    exact not_prefix_of_graphic (space_not_graphic word hmem) (hnonempty word hmem) hhead hfirst
  have hback : stripFront (spaces.map List.reverse) text.length text.reverse = text.reverse := by
    refine strip_front_of_no_prefix _ fun word hword => ?_
    have hmem : word ∈ spaces ++ spaces.map List.reverse := List.mem_append_right _ hword
    exact not_prefix_of_graphic (space_not_graphic word hmem) (hnonempty word hmem)
      (by rw [List.head?_reverse, hlast]) hgraphic
  unfold trimSpace
  simp only [hfront, hback, List.reverse_reverse]

theorem strip_front_suffix (words : List GoString) (fuel : Nat) (text : GoString) :
    stripFront words fuel text <:+ text := by
  induction fuel generalizing text with
  | zero => exact List.suffix_rfl
  | succ fuel ih =>
    rw [stripFront]
    split
    · exact List.suffix_rfl
    · exact (ih _).trans (List.drop_suffix _ _)

/-- No word is left at the front. By induction on the rounds, each of which removes a byte. -/
theorem strip_front_kept {words : List GoString} (hwords : ∀ word ∈ words, word ≠ [])
    {fuel : Nat} (hfuel : text.length ≤ fuel) :
    ∀ word ∈ words, word.isPrefixOf (stripFront words fuel text) = false := by
  induction fuel generalizing text with
  | zero =>
    obtain rfl := List.eq_nil_of_length_eq_zero (Nat.le_zero.mp hfuel)
    intro word hword
    cases word with
    | nil => exact absurd rfl (hwords _ hword)
    | cons => rfl
  | succ fuel ih =>
    rw [stripFront]
    split
    · next hnone =>
      rw [List.find?_eq_none] at hnone
      exact fun word hword => Bool.eq_false_iff.mpr (hnone word hword)
    · next word hword =>
      have hpos := List.length_pos_of_ne_nil (hwords word (List.mem_of_find?_eq_some hword))
      exact ih (by rw [List.length_drop]; omega)

theorem trim_space_idempotent (text : GoString) : trimSpace (trimSpace text) = trimSpace text := by
  have hnonempty : ∀ word ∈ spaces ++ spaces.map List.reverse, word ≠ [] := by decide
  generalize hstripped : stripFront spaces text.length text = front
  generalize htrimmed :
    stripFront (spaces.map List.reverse) front.length front.reverse = back
  have htrim : trimSpace text = back.reverse := by rw [trimSpace, hstripped, htrimmed]
  -- what is left is the beginning of a text without white space in front
  have hprefix : back.reverse <+: front := by
    rw [← List.reverse_suffix, List.reverse_reverse, ← htrimmed]
    exact strip_front_suffix _ _ _
  have hfront : stripFront spaces back.reverse.length back.reverse = back.reverse := by
    refine strip_front_of_no_prefix _ fun word hword => ?_
    have hstrip := strip_front_kept
      (fun word hword => hnonempty word (List.mem_append_left _ hword))
        (Nat.le_refl text.length) word
      hword
    rw [hstripped, Bool.eq_false_iff, Ne, List.isPrefixOf_iff_prefix] at hstrip
    rw [Bool.eq_false_iff, Ne, List.isPrefixOf_iff_prefix]
    exact fun hword => hstrip (hword.trans hprefix)
  have hback : stripFront (spaces.map List.reverse) back.reverse.length back.reverse.reverse =
      back := by
    rw [List.reverse_reverse, ← htrimmed]
    exact strip_front_of_no_prefix _ (strip_front_kept
      (fun word hword => hnonempty word (List.mem_append_right _ hword)) (by simp))
  rw [htrim, trimSpace, hfront, hback]

/-- `strings.Cut` with a separator of one byte. -/
def cut (separator : UInt8) : GoString → Option (GoString × GoString)
  | [] => none
  | byte :: rest =>
    if byte = separator then some ([], rest)
    else (cut separator rest).map fun (front, back) => (byte :: front, back)

theorem cut_append {separator : UInt8} {front back : GoString} (h : separator ∉ front) :
    cut separator (front ++ separator :: back) = some (front, back) := by
  induction front with
  | nil => simp [cut]
  | cons byte front ih =>
    simp only [List.mem_cons, not_or] at h
    rw [List.cons_append, cut, if_neg (Ne.symm h.1), ih h.2]
    rfl

theorem append_last_inj {separator : UInt8} {front front' back back' : GoString}
    (hback : separator ∉ back) (hback' : separator ∉ back')
    (h : front ++ separator :: back = front' ++ separator :: back') :
    front = front' ∧ back = back' := by
  have hreverse := congrArg List.reverse h
  simp only [List.reverse_append, List.reverse_cons, List.append_assoc, List.singleton_append]
    at hreverse
  have hcut := congrArg (cut separator) hreverse
  rw [cut_append (by simpa using hback), cut_append (by simpa using hback')] at hcut
  obtain ⟨hb, hf⟩ := Prod.mk.inj (Option.some.inj hcut)
  exact ⟨List.reverse_inj.mp hf, List.reverse_inj.mp hb⟩

/-! ## Decimal numbers -/

/-- The digit of a number below ten. -/
def digit (n : Nat) : UInt8 := UInt8.ofNat (0x30 + n)

def isDigit (byte : UInt8) : Bool := 0x30 ≤ byte && byte ≤ 0x39

/-- Write the digits of a number before a text. -/
def prependDigits : Nat → Nat → GoString → GoString
  | 0, _, text => text
  | fuel + 1, n, text =>
    let text := digit (n % 10) :: text
    if n / 10 = 0 then text else prependDigits fuel (n / 10) text

/-- The decimal digits of a number below `10 ^ 20`; an `int64` has at most 19. -/
def formatNat (n : Nat) : GoString := prependDigits 20 n []

/-- `%d` of an `int64`. -/
def formatInt (n : Int) : GoString :=
  if n < 0 then 0x2D :: formatNat n.natAbs else formatNat n.natAbs

/-- The value of a digit string, after digits with the value `initial`. -/
def digitsValue (initial : Nat) (text : GoString) : Nat :=
  text.foldl (fun value byte => value * 10 + (byte.toNat - 0x30)) initial

/-- The magnitude of a digit string. -/
def parseNat (text : GoString) : Option Nat :=
  if text = [] || !text.all isDigit then none else some (digitsValue 0 text)

/-- `strconv.ParseInt(text, 10, 64)`. -/
def parseInt (text : GoString) : Option Int :=
  let magnitude :=
    match text with
    | 0x2D :: digits => (parseNat digits).map Int.negOfNat
    | 0x2B :: digits => (parseNat digits).map Int.ofNat
    | digits => (parseNat digits).map Int.ofNat
  magnitude.filter fun n => -2 ^ 63 ≤ n && n < 2 ^ 63

theorem parseInt_bounds {n : Int} (h : parseInt text = some n) : -2 ^ 63 ≤ n ∧ n < 2 ^ 63 := by
  have hrange := (Option.filter_eq_some_iff.mp h).2
  rwa [Bool.and_eq_true, decide_eq_true_eq, decide_eq_true_eq] at hrange

theorem digit_to_nat {n : Nat} (h : n < 10) : (digit n).toNat = 0x30 + n := by
  rw [digit, UInt8.toNat_ofNat']
  omega

theorem is_digit_digit {n : Nat} (h : n < 10) : isDigit (digit n) = true := by
  simp only [isDigit, Bool.and_eq_true, decide_eq_true_eq, UInt8.le_iff_toNat_le, digit_to_nat h]
  constructor
  · show 48 ≤ 48 + n
    omega
  · show 48 + n ≤ 57
    omega

theorem digits_value_prepend {fuel n : Nat} (text : GoString) (h : n < 10 ^ fuel) :
    digitsValue 0 (prependDigits fuel n text) = digitsValue n text := by
  induction fuel generalizing n text with
  | zero =>
    obtain rfl : n = 0 := by simpa using h
    rfl
  | succ fuel ih =>
    have hdigit : (digit (n % 10)).toNat - 0x30 = n % 10 := by
      rw [digit_to_nat (Nat.mod_lt _ (by decide))]
      omega
    simp only [prependDigits]
    split
    case isTrue hsmall =>
      show digitsValue (0 * 10 + ((digit (n % 10)).toNat - 0x30)) text = digitsValue n text
      rw [hdigit]
      congr 1
      omega
    case isFalse =>
      have hdiv : n / 10 < 10 ^ fuel := by
        rw [Nat.pow_succ] at h
        omega
      rw [ih _ hdiv]
      show digitsValue (n / 10 * 10 + ((digit (n % 10)).toNat - 0x30)) text = digitsValue n text
      rw [hdigit]
      congr 1
      omega

theorem all_digits_prepend {fuel n : Nat} (h : text.all isDigit = true) :
    (prependDigits fuel n text).all isDigit = true := by
  induction fuel generalizing n text with
  | zero => exact h
  | succ fuel ih =>
    have hcons : (digit (n % 10) :: text).all isDigit = true := by
      simp [is_digit_digit (Nat.mod_lt n (by decide : 0 < 10)), h]
    simp only [prependDigits]
    split
    · exact hcons
    · exact ih hcons

theorem prepend_ne_nil {fuel n : Nat} (h : fuel ≠ 0 ∨ text ≠ []) :
    prependDigits fuel n text ≠ [] := by
  induction fuel generalizing n text with
  | zero => exact h.resolve_left (by simp)
  | succ fuel ih =>
    simp only [prependDigits]
    split
    · simp
    · exact ih (.inr (by simp))

theorem format_nat_ne_nil (n : Nat) : formatNat n ≠ [] :=
  prepend_ne_nil (.inl (by decide))

theorem format_nat_digits (n : Nat) : (formatNat n).all isDigit = true :=
  all_digits_prepend rfl

theorem parse_format_nat {n : Nat} (h : n < 10 ^ 20) : parseNat (formatNat n) = some n := by
  rw [parseNat, if_neg]
  · rw [formatNat, digits_value_prepend [] h]
    rfl
  · simp [format_nat_ne_nil n, format_nat_digits n]

theorem parse_format_int {n : Int} (hpos : 0 ≤ n) (hn : n < 2 ^ 63) :
    parseInt (formatInt n) = some n := by
  have hparse : parseNat (formatNat n.natAbs) = some n.natAbs := parse_format_nat (by omega)
  have habs : Int.ofNat n.natAbs = n := Int.natAbs_of_nonneg hpos
  rw [formatInt, if_neg (by omega)]
  unfold parseInt
  cases htext : formatNat n.natAbs with
  | nil => exact absurd htext (format_nat_ne_nil _)
  | cons byte rest =>
    -- a digit is not a sign
    have hdigit : isDigit byte = true := by
      have hall := format_nat_digits n.natAbs
      rw [htext] at hall
      exact (List.all_eq_true.mp hall) byte (by simp)
    have hminus : byte ≠ 0x2D := by
      rintro rfl
      exact absurd hdigit (by decide)
    have hplus : byte ≠ 0x2B := by
      rintro rfl
      exact absurd hdigit (by decide)
    rw [htext] at hparse
    split
    · next heq => exact absurd (List.cons.inj heq).1 hminus
    · next heq => exact absurd (List.cons.inj heq).1 hplus
    · simp only [hparse, Option.map_some, habs]
      rw [Option.filter_some, if_pos]
      simp only [Bool.and_eq_true, decide_eq_true_eq]
      omega

/-! ## Unix times -/

/-- The zero value of `time.Time` lies this many nanoseconds before 1970. -/
def unixEpoch : Int := 62135596800 * second

/-- `time.Time.UnixNano`. -/
def unixNano (t : Int) : Int := int64 (t - unixEpoch)

/-- `time.Unix(0, n)`. -/
def unixTime (n : Int) : Int := unixEpoch + n

/-- A time after 1970 whose nanoseconds fit an `int64`, which they do until 2262. -/
def InUnixRange (t : Int) : Prop := unixEpoch < t ∧ t - unixEpoch < 2 ^ 63

instance (t : Int) : Decidable (InUnixRange t) :=
  inferInstanceAs (Decidable (_ ∧ _))

theorem unix_nano_eq {t : Int} (h : InUnixRange t) : unixNano t = t - unixEpoch := by
  obtain ⟨hlow, hhigh⟩ := h
  rw [unixNano, int64, Int.bmod_eq_of_le]
  · omega
  · omega

/-! ## Base64 -/

/-- A character of the URL alphabet: letters, digits, `-` and `_`. -/
def urlSafe (byte : UInt8) : Bool :=
  (0x41 ≤ byte && byte ≤ 0x5A) || (0x61 ≤ byte && byte ≤ 0x7A) || isDigit byte ||
    byte = 0x2D || byte = 0x5F

/-- `base64.RawURLEncoding`. -/
class Base64 where
  encodeToString : Bytes → GoString
  decodeString : GoString → Option Bytes
  decode_encode : ∀ data, decodeString (encodeToString data) = some data
  decode_empty : decodeString [] = some []
  encode_url_safe : ∀ data, ∀ byte ∈ encodeToString data, urlSafe byte = true

theorem forall_byte {p : UInt8 → Prop} (h : ∀ n < 256, p (UInt8.ofNat n)) (byte : UInt8) :
    p byte := by
  have hbyte := h byte.toNat byte.toNat_lt_size
  rwa [UInt8.ofNat_toNat] at hbyte

theorem graphic_of_digit : ∀ byte, isDigit byte = true → graphic byte = true :=
  forall_byte (by decide +kernel)

theorem graphic_of_url_safe : ∀ byte, urlSafe byte = true → graphic byte = true :=
  forall_byte (by decide +kernel)

theorem Base64.encode_ne_nil [Base64] {data : Bytes} (h : data ≠ []) :
    encodeToString data ≠ [] := by
  intro hempty
  have hdecode := decode_encode data
  rw [hempty, decode_empty] at hdecode
  exact h (Option.some.inj hdecode).symm

/-- Decode pairs of the letters `A` to `P`. -/
def decodeLetters : GoString → Option Bytes
  | [] => some []
  | [_] => none
  | high :: low :: rest =>
    (decodeLetters rest).map fun data =>
      UInt8.ofNat ((high.toNat - 0x41) * 16 + (low.toNat - 0x41)) :: data

/-- A stand-in for base64 that can be evaluated: each byte as two letters `A` to `P`. -/
@[reducible] def Base64.letters : Base64 where
  encodeToString data := data.flatMap fun byte =>
    [UInt8.ofNat (0x41 + byte.toNat / 16), UInt8.ofNat (0x41 + byte.toNat % 16)]
  decodeString := decodeLetters
  decode_encode := by
    intro data
    have hbyte : ∀ byte : UInt8, UInt8.ofNat (((UInt8.ofNat (0x41 + byte.toNat / 16)).toNat - 0x41)
        * 16 + ((UInt8.ofNat (0x41 + byte.toNat % 16)).toNat - 0x41)) = byte :=
      forall_byte (by decide +kernel)
    induction data with
    | nil => rfl
    | cons byte rest ih =>
      rw [List.flatMap_cons, List.cons_append, List.cons_append, List.nil_append, decodeLetters,
        ih, Option.map_some, hbyte]
  decode_empty := rfl
  encode_url_safe := by
    intro data byte hbyte
    have hletter : ∀ byte : UInt8, urlSafe (UInt8.ofNat (0x41 + byte.toNat / 16)) = true ∧
        urlSafe (UInt8.ofNat (0x41 + byte.toNat % 16)) = true :=
      forall_byte (by decide +kernel)
    obtain ⟨source, -, hmem⟩ := List.mem_flatMap.mp hbyte
    rcases List.mem_pair.mp hmem with rfl | rfl
    · exact (hletter source).1
    · exact (hletter source).2

end ZCourier.Go
