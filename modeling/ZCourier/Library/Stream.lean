import Mathlib.Data.List.Basic

/-!
# Streams that arrive and leave in pieces

A `Reader` hands out what is left of a stream in pieces whose sizes it chooses, and a `Writer` takes
as much of what it is given as it chooses. `readFull` and `writeAll` are the loops over them. What
they do does not depend on the pieces: `readFull_eq` and `writeAll_eq`.
-/

namespace ZCourier.Library

variable {α : Type}

/-- What is left of a stream, how much each read returns at most, and whether the end is reported
together with the last piece. -/
structure Reader (α : Type) where
  rest : List α
  sizes : Nat → Nat
  eager : Bool

/-- How a read of several elements can end. -/
inductive ReadError where
  | eof
  | unexpectedEOF
  deriving DecidableEq

namespace Reader

/-- One read into a buffer of the given size: at least one element unless the stream has ended,
and whether the end was reported. -/
def read (r : Reader α) (size : Nat) : (List α × Bool) × Reader α :=
  let piece := r.rest.take (min size (max 1 (r.sizes 0)))
  let r' : Reader α :=
    { r with rest := r.rest.drop piece.length, sizes := fun n => r.sizes (n + 1) }
  ((piece, r.rest.isEmpty || (r.eager && r'.rest.isEmpty)), r')

/-- Read until `missing` elements have come or the end is reported. -/
def readLoop : Nat → Reader α → Nat → List α → (List α × Bool) × Reader α
  | 0, r, _, got => ((got, false), r)
  | fuel + 1, r, missing, got =>
    if missing = 0 then ((got, false), r)
    else
      match r.read missing with
      | ((piece, true), r) => ((got ++ piece, true), r)
      | ((piece, false), r) => readLoop fuel r (missing - piece.length) (got ++ piece)

/-- `io.ReadFull`: each round brings an element or the end. -/
def readFull (r : Reader α) (size : Nat) : (List α × Option ReadError) × Reader α :=
  let ((got, _), r) := readLoop (size + 1) r size []
  if size ≤ got.length then ((got, none), r)
  else if got = [] then ((got, some .eof), r)
  else ((got, some .unexpectedEOF), r)

/-- A stream that is all there: a read returns as much as is asked for. -/
def ofList (data : List α) : Reader α := ⟨data, fun _ => data.length, false⟩

theorem read_spec {r r' : Reader α} {size : Nat} (hsize : size ≠ 0) {piece : List α} {ended : Bool}
    (h : r.read size = ((piece, ended), r')) :
    r.rest = piece ++ r'.rest ∧ piece.length ≤ size ∧ (ended = true → r'.rest = []) ∧
      (ended = false → piece ≠ []) := by
  obtain ⟨hresult, rfl⟩ := Prod.mk.inj h
  obtain ⟨rfl, rfl⟩ := Prod.mk.inj hresult
  have hsplit : ∀ n, r.rest = r.rest.take n ++ r.rest.drop (r.rest.take n).length := by
    intro n
    rw [List.length_take]
    conv_lhs => rw [← List.take_append_drop n r.rest]
    congr 1
    rcases Nat.le_total n r.rest.length with hle | hle
    · rw [Nat.min_eq_left hle]
    · rw [Nat.min_eq_right hle, List.drop_of_length_le hle, List.drop_length]
  refine ⟨hsplit _, ?_, ?_, ?_⟩
  · rw [List.length_take]
    omega
  · intro hended
    rcases Bool.or_eq_true_iff.mp hended with hempty | hlast
    · simp [List.isEmpty_iff.mp hempty]
    · exact List.isEmpty_iff.mp (Bool.and_eq_true_iff.mp hlast).2
  · intro hended hnil
    have hpos : min size (max 1 (r.sizes 0)) ≠ 0 := by omega
    have hempty : r.rest = [] := (List.take_eq_nil_iff.mp hnil).resolve_left hpos
    simp [hempty] at hended

theorem readLoop_eq {fuel missing : Nat} (r : Reader α) (got : List α) (h : missing < fuel) :
    (readLoop fuel r missing got).1.1 = got ++ r.rest.take missing ∧
      (readLoop fuel r missing got).2.rest = r.rest.drop missing := by
  induction fuel generalizing r missing got with
  | zero => omega
  | succ fuel ih =>
    rw [readLoop]
    split
    · next hzero => simp [hzero]
    · next hmissing =>
      split
      · next piece r' hread =>
        obtain ⟨hsplit, hle, hended, -⟩ := read_spec hmissing hread
        rw [hended rfl, List.append_nil] at hsplit
        rw [hsplit, List.take_of_length_le hle, List.drop_of_length_le hle]
        exact ⟨rfl, hended rfl⟩
      · next piece r' hread =>
        obtain ⟨hsplit, hle, -, hne⟩ := read_spec hmissing hread
        have hpos := List.length_pos_of_ne_nil (hne rfl)
        obtain ⟨hgot, hleft⟩ := @ih (missing - piece.length) r' (got ++ piece) (by omega)
        rw [hgot, hleft, hsplit, List.take_append, List.drop_append,
          List.take_of_length_le hle, List.drop_of_length_le hle, List.append_assoc]
        exact ⟨rfl, rfl⟩

theorem readFull_eq (r : Reader α) (size : Nat) :
    (r.readFull size).1 =
        (r.rest.take size,
          if size ≤ r.rest.length then none
          else if r.rest = [] then some .eof else some .unexpectedEOF) ∧
      (r.readFull size).2.rest = r.rest.drop size := by
  obtain ⟨hgot, hleft⟩ := readLoop_eq r [] (Nat.lt_succ_self size)
  rw [List.nil_append] at hgot
  unfold readFull
  dsimp only
  rw [hgot, List.length_take]
  by_cases hle : size ≤ r.rest.length
  · rw [if_pos (by omega), if_pos hle]
    exact ⟨rfl, hleft⟩
  · have hall : r.rest.take size = r.rest := List.take_of_length_le (by omega)
    rw [if_neg (by omega), if_neg hle, hall]
    split
    · exact ⟨rfl, hleft⟩
    · exact ⟨rfl, hleft⟩

theorem readFull_ok {r : Reader α} {size : Nat} (h : size ≤ r.rest.length) :
    ∃ r', r.readFull size = ((r.rest.take size, none), r') ∧ r'.rest = r.rest.drop size := by
  obtain ⟨hresult, hleft⟩ := readFull_eq r size
  rw [if_pos h] at hresult
  exact ⟨_, Prod.ext hresult rfl, hleft⟩

theorem readFull_short {r : Reader α} {size : Nat} (h : r.rest.length < size) :
    ∃ r', r.readFull size =
      ((r.rest, some (if r.rest = [] then .eof else .unexpectedEOF)), r') ∧ r'.rest = [] := by
  obtain ⟨hresult, hleft⟩ := readFull_eq r size
  refine ⟨(r.readFull size).2, Prod.ext ?_ rfl, ?_⟩
  · rw [hresult, if_neg (by omega), List.take_of_length_le (by omega)]
    split <;> rfl
  · rw [hleft, List.drop_of_length_le (by omega)]

end Reader

/-! ## Writing -/

/-- What has been written, and what each write answers to a given number of elements: how many it
took, and whether it failed. -/
structure Writer (α : Type) where
  wire : List α
  answers : Nat → Nat → Int × Bool

/-- How writing can end before everything is written. -/
inductive WriteError where
  | failed
  | shortWrite

namespace Writer

def write (w : Writer α) (data : List α) : (Int × Bool) × Writer α :=
  let answer := w.answers 0 data.length
  (answer, { wire := w.wire ++ data.take answer.1.toNat, answers := fun n => w.answers (n + 1) })

/-- Write until nothing is left. -/
def writeLoop : Nat → Writer α → List α → Option WriteError × Writer α
  | 0, w, _ => (none, w)
  | fuel + 1, w, data =>
    if data = [] then (none, w)
    else
      match w.write data with
      | ((_, true), w) => (some .failed, w)
      | ((written, false), w) =>
        if written ≤ 0 || data.length < written then (some .shortWrite, w)
        else writeLoop fuel w (data.drop written.toNat)

/-- `writeAll`: each round takes an element. -/
def writeAll (w : Writer α) (data : List α) : Option WriteError × Writer α :=
  writeLoop data.length w data

/-- Every write takes at least one element of what it is given, and does not fail. -/
def Progresses (w : Writer α) : Prop :=
  ∀ call size, 0 < size → 0 < (w.answers call size).1 ∧ (w.answers call size).1 ≤ size ∧
    (w.answers call size).2 = false

theorem writeLoop_eq {fuel : Nat} {w : Writer α} (hw : w.Progresses) {data : List α}
    (h : data.length ≤ fuel) :
    (writeLoop fuel w data).1 = none ∧ (writeLoop fuel w data).2.wire = w.wire ++ data ∧
      (writeLoop fuel w data).2.Progresses := by
  induction fuel generalizing w data with
  | zero =>
    obtain rfl : data = [] := List.eq_nil_of_length_eq_zero (by omega)
    exact ⟨rfl, by simp [writeLoop], hw⟩
  | succ fuel ih =>
    rw [writeLoop]
    split
    · next hnil =>
      subst hnil
      exact ⟨rfl, by simp, hw⟩
    · next hne =>
      have hpos := List.length_pos_of_ne_nil hne
      obtain ⟨hsome, hle, hok⟩ := hw 0 data.length hpos
      have hwrite : w.write data = (((w.answers 0 data.length).1, false),
          { wire := w.wire ++ data.take (w.answers 0 data.length).1.toNat,
            answers := fun n => w.answers (n + 1) }) := by
        rw [write, ← hok]
      rw [hwrite]
      dsimp only
      generalize (w.answers 0 data.length).1 = written at hsome hle
      rw [if_neg (by simp; omega)]
      have hrest : (⟨w.wire ++ data.take written.toNat, fun n => w.answers (n + 1)⟩ :
          Writer α).Progresses := fun call => hw (call + 1)
      have hlength : (data.drop written.toNat).length ≤ fuel := by
        rw [List.length_drop]
        omega
      obtain ⟨hnone, hwire, hprogresses⟩ := ih hrest hlength
      refine ⟨hnone, ?_, hprogresses⟩
      rw [hwire, List.append_assoc, List.take_append_drop]

theorem writeAll_eq {w : Writer α} (hw : w.Progresses) (data : List α) :
    (w.writeAll data).1 = none ∧ (w.writeAll data).2.wire = w.wire ++ data ∧
      (w.writeAll data).2.Progresses :=
  writeLoop_eq hw (Nat.le_refl _)

end Writer

end ZCourier.Library
