import ZCourier.Go.Values

/-!
# SQL values and column types

The values a database driver sends and receives, and the column types of PostgreSQL that hold
them. A column type is a structure whose elements are exactly what the column can hold, and its
`ofValue` is the check the server makes when a value is stored. A `Reader` consumes the values of
a row by position, as the column list of an `INSERT` or the destinations of a `Scan` do.
-/

namespace ZCourier.Library.Sql

open Go

/-- Why a statement fails. -/
inductive Error where
  | nullValue
  | outOfRange
  | invalidText
  | wrongType
  | wrongArity
  | constraintViolated
  deriving DecidableEq

/-- A value sent to or received from the database. -/
inductive Value where
  | null
  | boolean (value : Bool)
  | integer (value : Int)
  | double (value : Float64)
  | text (value : GoString)
  | bytes (value : Bytes)
  | time (value : Int)

/-! ## Text -/

/-- A continuation byte of UTF-8. -/
def utf8Tail (byte : UInt8) : Bool :=
  0x80 ≤ byte && byte ≤ 0xBF

/-- The bounds on the second byte of a character of three or four bytes: they exclude overlong
forms, surrogates and code points above U+10FFFF. -/
def utf8Second (first second : UInt8) : Bool :=
  utf8Tail second && (first ≠ 0xE0 || 0xA0 ≤ second) && (first ≠ 0xED || second ≤ 0x9F) &&
    (first ≠ 0xF0 || 0x90 ≤ second) && (first ≠ 0xF4 || second ≤ 0x8F)

/-- Whether a byte string is well-formed UTF-8. -/
def validUTF8 : Bytes → Bool
  | [] => true
  | a :: rest =>
    if a < 0x80 then validUTF8 rest
    else
      match rest with
      | [] => false
      | b :: rest =>
        if 0xC2 ≤ a && a ≤ 0xDF then utf8Tail b && validUTF8 rest
        else
          match rest with
          | [] => false
          | c :: rest =>
            if 0xE0 ≤ a && a ≤ 0xEF then utf8Second a b && utf8Tail c && validUTF8 rest
            else
              match rest with
              | [] => false
              | d :: rest =>
                (0xF0 ≤ a && a ≤ 0xF4) && utf8Second a b && utf8Tail c && utf8Tail d &&
                  validUTF8 rest

/-- What a `TEXT` column accepts: UTF-8 without NUL. -/
def validText (text : GoString) : Bool :=
  validUTF8 text && !text.contains 0

theorem valid_text_of_ascii {text : GoString} (h : ∀ byte ∈ text, byte ≠ 0 ∧ byte < 0x80) :
    validText text = true := by
  have hutf8 : validUTF8 text = true := by
    induction text with
    | nil => rfl
    | cons byte rest ih =>
      unfold validUTF8
      rw [if_pos (h byte (by simp)).2]
      exact ih fun b hb => h b (by simp [hb])
  have hnul : text.contains 0 = false := by
    rw [List.contains_eq_mem, decide_eq_false_iff_not]
    exact fun hmem => (h 0 hmem).1 rfl
  rw [validText, hutf8, hnul]
  rfl

/-- `TEXT`. -/
structure Text where
  val : GoString
  valid : validText val = true
  deriving DecidableEq

/-- A text parameter, as the server accepts it. -/
def Text.of (text : GoString) : Except Error Text :=
  if h : validText text = true then .ok ⟨text, h⟩ else .error .invalidText

def Text.empty : Text := ⟨[], rfl⟩

/-- The value a `TEXT NOT NULL` column keeps. -/
def Text.ofValue : Value → Except Error Text
  | .text text => Text.of text
  | .null => .error .nullValue
  | _ => .error .wrongType

theorem Text.of_valid {text : GoString} (h : validText text = true) :
    Text.of text = .ok ⟨text, h⟩ :=
  dif_pos h

/-! ## Numbers -/

/-- What 32 bits with a sign can hold. -/
def FitsInteger (n : Int) : Prop := -2 ^ 31 ≤ n ∧ n < 2 ^ 31

/-- What 64 bits with a sign can hold. -/
def FitsBigInt (n : Int) : Prop := -2 ^ 63 ≤ n ∧ n < 2 ^ 63

instance (n : Int) : Decidable (FitsInteger n) :=
  inferInstanceAs (Decidable (_ ∧ _))

instance (n : Int) : Decidable (FitsBigInt n) :=
  inferInstanceAs (Decidable (_ ∧ _))

/-- `INTEGER`: signed, 32 bits. -/
structure Integer where
  val : Int
  fits : FitsInteger val

/-- The integer, if it fits. -/
def Integer.of (n : Int) : Except Error Integer :=
  if h : FitsInteger n then .ok ⟨n, h⟩ else .error .outOfRange

def Integer.zero : Integer := ⟨0, by decide⟩

/-- The value an `INTEGER NOT NULL` column keeps. -/
def Integer.ofValue : Value → Except Error Integer
  | .integer n => Integer.of n
  | .null => .error .nullValue
  | _ => .error .wrongType

/-- `BIGINT`: signed, 64 bits. -/
structure BigInt where
  val : Int
  fits : FitsBigInt val

/-- The value a `BIGINT NOT NULL` column keeps. -/
def BigInt.ofValue : Value → Except Error BigInt
  | .integer n =>
    if h : FitsBigInt n then .ok ⟨n, h⟩ else .error .outOfRange
  | .null => .error .nullValue
  | _ => .error .wrongType

/-- The value a `DOUBLE PRECISION NOT NULL` column keeps. -/
def doubleOfValue : Value → Except Error Float64
  | .double x => .ok x
  | .null => .error .nullValue
  | _ => .error .wrongType

/-- The value a `BOOLEAN NOT NULL` column keeps. -/
def booleanOfValue : Value → Except Error Bool
  | .boolean b => .ok b
  | .null => .error .nullValue
  | _ => .error .wrongType

/-- The value a `BYTEA NOT NULL` column keeps. -/
def bytesOfValue : Value → Except Error Bytes
  | .bytes data => .ok data
  | .null => .error .nullValue
  | _ => .error .wrongType

@[simp] theorem double_of_double (x : Float64) : doubleOfValue (.double x) = .ok x := rfl

@[simp] theorem boolean_of_boolean (b : Bool) : booleanOfValue (.boolean b) = .ok b := rfl

@[simp] theorem bytes_of_bytes (data : Bytes) : bytesOfValue (.bytes data) = .ok data := rfl

theorem Text.of_text {text : GoString} (h : validText text = true) :
    Text.ofValue (.text text) = .ok ⟨text, h⟩ :=
  dif_pos h

theorem Integer.of_integer {n : Int} (h : FitsInteger n) :
    Integer.ofValue (.integer n) = .ok ⟨n, h⟩ :=
  dif_pos h

theorem Integer.fits_of_value {n : Int} {stored : Integer}
    (h : Integer.ofValue (.integer n) = .ok stored) : FitsInteger n := by
  by_contra hwide
  rw [Integer.ofValue, Integer.of, dif_neg hwide] at h
  cases h

theorem BigInt.of_integer {n : Int} (h : FitsBigInt n) :
    BigInt.ofValue (.integer n) = .ok ⟨n, h⟩ :=
  dif_pos h

/-! ## Times -/

/-- `TIMESTAMPTZ`: whole microseconds. -/
structure Timestamp where
  val : Int
  whole : 1000 ∣ val

/-- A time parameter, cut to microseconds by the driver. -/
def Timestamp.of (t : Int) : Timestamp :=
  ⟨t / 1000 * 1000, Dvd.intro_left _ rfl⟩

@[simp] theorem Timestamp.of_val {t : Int} (h : 1000 ∣ t) : (Timestamp.of t).val = t := by
  change t / 1000 * 1000 = t
  omega

theorem Timestamp.le_of_iff {t u : Int} (h : 1000 ∣ t) : t ≤ (Timestamp.of u).val ↔ t ≤ u := by
  change t ≤ u / 1000 * 1000 ↔ t ≤ u
  omega

/-- The value a `TIMESTAMPTZ NOT NULL` column keeps. -/
def Timestamp.ofValue : Value → Except Error Timestamp
  | .time t => .ok (Timestamp.of t)
  | .null => .error .nullValue
  | _ => .error .wrongType

@[simp] theorem Timestamp.of_time (t : Int) : Timestamp.ofValue (.time t) = .ok (.of t) := rfl

/-- The value a nullable `TIMESTAMPTZ` column keeps. -/
def Timestamp.ofNullable : Value → Except Error (Option Timestamp)
  | .time t => .ok (some (Timestamp.of t))
  | .null => .ok none
  | _ => .error .wrongType

/-- The value of a nullable `TIMESTAMPTZ` column in a result row. -/
def Value.nullable : Option Timestamp → Value
  | none => .null
  | some t => .time t.val

/-! ## Result values -/

def Value.getText : Value → Except Error GoString
  | .text s => .ok s
  | .null => .error .nullValue
  | _ => .error .wrongType

def Value.getInteger : Value → Except Error Int
  | .integer n => .ok n
  | .null => .error .nullValue
  | _ => .error .wrongType

def Value.getTime : Value → Except Error Int
  | .time t => .ok t
  | .null => .error .nullValue
  | _ => .error .wrongType

/-- Scan a `sql.NullTime`. -/
def Value.getNullTime : Value → Except Error (Option Int)
  | .time t => .ok (some t)
  | .null => .ok none
  | _ => .error .wrongType

/-! ## Reading by position -/

/-- A computation that consumes values from the front of a row. -/
abbrev Reader (α : Type) := StateT (List Value) (Except Error) α

/-- Convert the next value. -/
def column {α : Type} (convert : Value → Except Error α) : Reader α
  | [] => .error .wrongArity
  | value :: rest => (convert value).map fun a => (a, rest)

/-- Read a whole row: no value may be left over. -/
def Reader.read {α : Type} (reader : Reader α) (row : List Value) : Except Error α :=
  match reader row with
  | .ok (a, []) => .ok a
  | .ok (_, _ :: _) => .error .wrongArity
  | .error err => .error err

theorem column_bind {α β : Type} {convert : Value → Except Error α} {next : α → Reader β}
    {value : Value} {rest : List Value} :
    (column convert >>= next) (value :: rest) =
      (convert value).bind fun a => next a rest := by
  change ((convert value).map fun a => (a, rest)).bind (fun p => next p.1 p.2) = _
  cases convert value <;> rfl

/-- Reading on after a value that converts. -/
theorem column_bind_ok {α β : Type} {convert : Value → Except Error α} {next : α → Reader β}
    {value : Value} {rest : List Value} {a : α} (h : convert value = .ok a) :
    (column convert >>= next) (value :: rest) = next a rest := by
  rw [column_bind, h]
  rfl

theorem column_bind_inv {α β : Type} {convert : Value → Except Error α} {next : α → Reader β}
    {value : Value} {rest : List Value} {result : β × List Value}
    (h : (column convert >>= next) (value :: rest) = .ok result) :
    ∃ a, convert value = .ok a ∧ next a rest = .ok result := by
  rw [column_bind] at h
  cases hvalue : convert value with
  | error err =>
    rw [hvalue] at h
    cases h
  | ok a =>
    rw [hvalue] at h
    exact ⟨a, rfl, h⟩

end ZCourier.Library.Sql
