import Mathlib.Data.List.Induction
import Mathlib.Tactic.Ring

/-!
# Big-endian numbers and parts of a byte string

`beBytes w n` is the number `n` in `w` bytes, most significant first, and `beNat` reads bytes back
(`beNat_beBytes`, `beBytes_beNat`). `slice` is a part given by its offset and length; slices one
after another make up the string (`slice_append_drop`). `splitLengths` cuts parts of given lengths
off the front, and undoes `List.flatten`.
-/

namespace ZCourier.Library

/-- The `w` low bytes of a number, most significant first. -/
def beBytes : Nat → Nat → List UInt8
  | 0, _ => []
  | w + 1, n => beBytes w (n / 256) ++ [UInt8.ofNat (n % 256)]

/-- The number with the given bytes. -/
def beNat (bytes : List UInt8) : Nat :=
  bytes.foldl (fun value byte => value * 256 + byte.toNat) 0

@[simp] theorem length_beBytes (w n : Nat) : (beBytes w n).length = w := by
  induction w generalizing n with
  | zero => rfl
  | succ w ih => rw [beBytes, List.length_append, ih, List.length_singleton]

theorem beNat_concat (bytes : List UInt8) (byte : UInt8) :
    beNat (bytes ++ [byte]) = beNat bytes * 256 + byte.toNat := by
  rw [beNat, List.foldl_append]
  rfl

theorem beNat_cons (byte : UInt8) (bytes : List UInt8) :
    beNat (byte :: bytes) = byte.toNat * 256 ^ bytes.length + beNat bytes := by
  induction bytes using List.reverseRecOn with
  | nil => simp [beNat]
  | append_singleton bytes last ih =>
    rw [← List.cons_append, beNat_concat, beNat_concat, ih, List.length_append,
      List.length_singleton, Nat.pow_succ]
    ring

theorem beNat_beBytes (w n : Nat) : beNat (beBytes w n) = n % 256 ^ w := by
  induction w generalizing n with
  | zero => simp [beBytes, beNat, Nat.mod_one]
  | succ w ih =>
    have hbyte : (UInt8.ofNat (n % 256)).toNat = n % 256 := by
      rw [UInt8.toNat_ofNat']
      omega
    rw [beBytes, beNat_concat, ih, hbyte, Nat.pow_succ, Nat.mul_comm (256 ^ w) 256, Nat.mod_mul]
    ring

/-- Writing what was read gives the bytes back. -/
theorem beBytes_beNat (bytes : List UInt8) : beBytes bytes.length (beNat bytes) = bytes := by
  induction bytes using List.reverseRecOn with
  | nil => rfl
  | append_singleton bytes byte ih =>
    have hlt := byte.toNat_lt
    have hdiv : (beNat bytes * 256 + byte.toNat) / 256 = beNat bytes := by omega
    have hmod : (beNat bytes * 256 + byte.toNat) % 256 = byte.toNat := by omega
    rw [List.length_append, List.length_singleton, beBytes, beNat_concat, hdiv, hmod, ih,
      UInt8.ofNat_toNat]

theorem beBytes_mod (w n : Nat) : beBytes w (n % 256 ^ w) = beBytes w n := by
  have hback := beBytes_beNat (beBytes w n)
  rwa [length_beBytes, beNat_beBytes] at hback

theorem beNat_lt (bytes : List UInt8) : beNat bytes < 256 ^ bytes.length := by
  have hmod := beNat_beBytes bytes.length (beNat bytes)
  rw [beBytes_beNat] at hmod
  rw [hmod]
  exact Nat.mod_lt _ (Nat.pow_pos (by decide))

/-! ## Slices -/

variable {α : Type}

/-- The elements from an offset on, as many as given. -/
def slice (data : List α) (offset length : Nat) : List α :=
  (data.drop offset).take length

variable {data : List α}

theorem length_slice {offset length : Nat} (h : offset + length ≤ data.length) :
    (slice data offset length).length = length := by
  rw [slice, List.length_take, List.length_drop]
  omega

theorem slice_one {offset : Nat} (h : offset < data.length) (default : α) :
    slice data offset 1 = [data.getD offset default] := by
  rw [slice, List.take_one, List.head?_drop, List.getElem?_eq_getElem h,
    List.getD_eq_getElem?_getD, List.getElem?_eq_getElem h]
  rfl

theorem slice_append_of_le {front : List α} (back : List α) {offset length : Nat}
    (h : offset + length ≤ front.length) :
    slice (front ++ back) offset length = slice front offset length := by
  rw [slice, slice, List.drop_append_of_le_length (by omega),
    List.take_append_of_le_length (by rw [List.length_drop]; omega)]

theorem slice_take (data : List α) {n offset length : Nat} (h : offset + length ≤ n) :
    slice (data.take n) offset length = slice data offset length := by
  rw [slice, slice, List.drop_take, List.take_take, Nat.min_eq_left (by omega)]

theorem slice_append_drop (data : List α) (offset length : Nat) :
    slice data offset length ++ data.drop (offset + length) = data.drop offset := by
  rw [slice, ← List.drop_drop, List.take_append_drop]

theorem slice_eq_drop {offset length : Nat} (h : data.length ≤ offset + length) :
    slice data offset length = data.drop offset := by
  apply List.take_of_length_le
  rw [List.length_drop]
  omega

/-- Cut parts of the given lengths off the front; what is left comes second. -/
def splitLengths : List Nat → List α → List (List α) × List α
  | [], data => ([], data)
  | length :: lengths, data =>
    let (parts, rest) := splitLengths lengths (data.drop length)
    (data.take length :: parts, rest)

theorem splitLengths_flatten (parts : List (List α)) (rest : List α) :
    splitLengths (parts.map List.length) (parts.flatten ++ rest) = (parts, rest) := by
  induction parts with
  | nil => rfl
  | cons part parts ih =>
    rw [List.map_cons, List.flatten_cons, splitLengths, List.append_assoc, List.drop_left, ih,
      List.take_left]

theorem splitLengths_spec {lengths : List Nat} (h : lengths.sum ≤ data.length) :
    (splitLengths lengths data).1.map List.length = lengths ∧
      (splitLengths lengths data).1.flatten = data.take lengths.sum ∧
      (splitLengths lengths data).2 = data.drop lengths.sum := by
  induction lengths generalizing data with
  | nil => exact ⟨rfl, rfl, rfl⟩
  | cons length lengths ih =>
    rw [List.sum_cons] at h
    have hrest : lengths.sum ≤ (data.drop length).length := by
      rw [List.length_drop]
      omega
    obtain ⟨hlengths, hparts, hleft⟩ := ih hrest
    rw [splitLengths]
    dsimp only
    rw [List.map_cons, List.flatten_cons, hlengths, hparts, hleft, List.sum_cons, List.take_add,
      List.drop_drop, List.length_take, Nat.min_eq_left (by omega)]
    exact ⟨rfl, rfl, rfl⟩

end ZCourier.Library
