import ZCourier.Go.Values

/-!
# Text conversions of the standard library

`strings.ToLower` as far as its result is compared with ASCII text, and
`time.ParseDuration`, which is a parameter: results that depend on it hold for any
function from texts to durations.
-/

namespace ZCourier.Go

/-- `strings.ToLower`. Of the letters outside ASCII only the two that have an ASCII letter as
their lower case are converted, U+0130 and U+212A. -/
def toLower : GoString → GoString
  | 0xC4 :: 0xB0 :: rest => 0x69 :: toLower rest
  | 0xE2 :: 0x84 :: 0xAA :: rest => 0x6B :: toLower rest
  | byte :: rest => (if 0x41 ≤ byte && byte ≤ 0x5A then byte + 0x20 else byte) :: toLower rest
  | [] => []

/-- `time.ParseDuration`: a number of nanoseconds, or nothing for a text it rejects. -/
class ParseDuration where
  parseDuration : GoString → Option Int

/-- A stand-in that reads seconds: a number of decimal digits followed by `s`. -/
@[reducible] def ParseDuration.seconds : ParseDuration where
  parseDuration text :=
    match text.reverse with
    | 0x73 :: digits =>
      if digits.isEmpty || digits.any fun byte => byte < 0x30 || 0x39 < byte then none
      else
        let value : Nat := digits.reverse.foldl (fun acc byte => 10 * acc + (byte.toNat - 48)) 0
        some (second * value)
    | _ => none

end ZCourier.Go
