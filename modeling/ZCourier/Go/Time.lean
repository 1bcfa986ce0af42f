import ZCourier.Go.Strconv

/-!
# Unix seconds and durations that can overflow

`time.Unix`, `Time.Sub` and `Time.Add` over the whole range of their arguments. A `time.Time`
counts its seconds from the year 1 in an `int64`: `time.Unix` wraps, `Sub` and `Add` saturate.
A `time.Duration` is an `Int64` here.
-/

namespace ZCourier.Go

/-- `time.Unix(seconds, 0)`. -/
def unix (seconds : Int) : Int := int64 (seconds + 62135596800) * second

/-- `Time.Sub`. -/
def sub (t u : Int) : Int64 :=
  if t - u < -2 ^ 63 then Int64.minValue
  else if 2 ^ 63 ≤ t - u then Int64.maxValue
  else Int64.ofInt (t - u)

/-- `Time.Add`. -/
def add (t : Int) (d : Int64) : Int :=
  let seconds := (t + d.toInt).fdiv second
  let nanoseconds := (t + d.toInt).fmod second
  if 2 ^ 63 ≤ seconds then (2 ^ 63 - 1) * second + nanoseconds
  else if seconds < -2 ^ 63 then -(2 ^ 63 - 1) * second + nanoseconds
  else t + d.toInt

theorem toInt_sub (t u : Int) :
    (sub t u).toInt = if t - u < -2 ^ 63 then -2 ^ 63 else if 2 ^ 63 ≤ t - u then 2 ^ 63 - 1
      else t - u := by
  rw [sub]
  split
  · rfl
  · split
    · rfl
    · exact Int64.toInt_ofInt_of_le (by omega) (by omega)

/-- The absolute value of a duration, as `if d < 0 { d = -d }` computes it. -/
def absDuration (d : Int64) : Int64 := if d < 0 then -d else d

theorem toInt_absDuration (d : Int64) :
    (absDuration d).toInt = if d.toInt = -2 ^ 63 then -2 ^ 63 else |d.toInt| := by
  have hmin := d.le_toInt
  have hmax := d.toInt_lt
  have hneg : d < 0 ↔ d.toInt < 0 := Int64.lt_iff_toInt_lt
  rw [absDuration]
  split
  · next hlt =>
    rw [hneg] at hlt
    rw [Int64.toInt_neg, abs_of_neg hlt]
    split
    · next heq =>
      rw [heq]
      decide
    · exact Int.bmod_eq_of_le (by omega) (by omega)
  · next hlt =>
    rw [hneg] at hlt
    rw [abs_of_nonneg (by omega)]
    split <;> omega

end ZCourier.Go
