import Mathlib.Algebra.Order.Floor.Semiring
import Mathlib.Data.Rat.Floor
import Mathlib.Data.List.Basic

/-!
# Values of the Go language and its standard library

Go strings are byte strings compared bytewise. A `time.Time` is the number of nanoseconds since its
zero value and a `time.Duration` a number of nanoseconds, both plain integers here; arithmetic on
durations that can wrap goes through `int64`. The finite values of a `float64` are exact rationals:
rounding is not modelled, and nothing below depends on it.
-/

namespace ZCourier.Go

abbrev Bytes := List UInt8

/-- A Go string: any byte sequence, not necessarily valid UTF-8. -/
abbrev GoString := Bytes

instance lawfulBEqGoString : LawfulBEq GoString := inferInstance

/-- The Go string of an ASCII literal. -/
def ascii (text : String) : GoString :=
  text.toList.map fun c => UInt8.ofNat c.toNat

/-- `time.Time.IsZero`. -/
def isZero (t : Int) : Bool := t = 0

@[simp] theorem isZero_iff {t : Int} : isZero t = true ↔ t = 0 := by
  simp [isZero]

@[simp] theorem isZero_eq_false {t : Int} : isZero t = false ↔ t ≠ 0 := by
  simp [isZero]

/-- `time.Second`. -/
def second : Int := 1000000000

/-- The result of signed 64-bit arithmetic: the exact result, wrapped. -/
def int64 (n : Int) : Int := n.bmod (2 ^ 64)

/-- The errors of `ctx.Err()`. -/
inductive ContextError where
  | canceled
  | deadlineExceeded
  deriving DecidableEq

/-! ## `strings.TrimSpace` -/

/-- The UTF-8 encodings of the code points for which `unicode.IsSpace` holds. -/
def spaces : List GoString :=
  [[0x09], [0x0A], [0x0B], [0x0C], [0x0D], [0x20], [0xC2, 0x85], [0xC2, 0xA0],
    [0xE1, 0x9A, 0x80]] ++
  (List.range 11).map (fun i => [0xE2, 0x80, 0x80 + UInt8.ofNat i]) ++
  [[0xE2, 0x80, 0xA8], [0xE2, 0x80, 0xA9], [0xE2, 0x80, 0xAF], [0xE2, 0x81, 0x9F],
    [0xE3, 0x80, 0x80]]

/-- Remove any of the given words from the front, at most `fuel` times. -/
def stripFront (words : List GoString) : Nat → GoString → GoString
  | 0, text => text
  | fuel + 1, text =>
    match words.find? fun word => word.isPrefixOf text with
    | none => text
    | some word => stripFront words fuel (text.drop word.length)

/-- `strings.TrimSpace`: no removed word is empty, so `text.length` rounds are enough. -/
def trimSpace (text : GoString) : GoString :=
  let front := stripFront spaces text.length text
  (stripFront (spaces.map List.reverse) front.length front.reverse).reverse

/-! ## `float64` -/

/-- A `float64` up to rounding. -/
inductive Float64 where
  | nan
  | inf (negative : Bool)
  | finite (value : Rat)
  deriving DecidableEq

namespace Float64

/-- `math.IsNaN`. -/
def isNaN : Float64 → Bool
  | nan => true
  | _ => false

/-- `math.IsInf(x, 0)`. -/
def isInf : Float64 → Bool
  | inf _ => true
  | _ => false

/-- The comparison `x >= y`, which is false when either side is NaN. -/
def ge : Float64 → Float64 → Bool
  | nan, _ => false
  | _, nan => false
  | inf false, _ => true
  | inf true, y => y = inf true
  | finite _, inf negative => negative
  | finite x, finite y => y ≤ x

/-- A value's sign, for the product with an infinity. -/
def sign : Float64 → Int
  | nan => 0
  | inf negative => if negative then -1 else 1
  | finite value => if value < 0 then -1 else if 0 < value then 1 else 0

/-- Multiplication. -/
def mul : Float64 → Float64 → Float64
  | finite x, finite y => finite (x * y)
  | nan, _ => nan
  | _, nan => nan
  | x, y => if x.sign * y.sign = 0 then nan else inf (x.sign * y.sign < 0)

/-- `math.Pow` with an integral exponent that is not negative. -/
def pow : Float64 → Nat → Float64
  | _, 0 => finite 1
  | nan, _ => nan
  | inf negative, n => inf (negative && n % 2 = 1)
  | finite value, n => finite (value ^ n)

/-- `time.Duration(x)` for a finite value: truncation towards zero. -/
def truncate : Float64 → Int
  | finite value => if value < 0 then -⌊-value⌋ else ⌊value⌋
  | _ => 0

end Float64

end ZCourier.Go
