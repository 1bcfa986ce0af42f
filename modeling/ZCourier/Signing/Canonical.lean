import ZCourier.Downlink.Identity
import Mathlib.Data.List.Sort

/-!
# The string that a signature covers

`CanonicalString` of `pkg/sdk/signing/signing.go`: seven lines with the time, the nonce, the
method, the path, the query in a normal form and the digest of the body. The query is parsed
as `url.ParseQuery` does it into a map, whose iteration order is arbitrary, and its pairs are
encoded and sorted. `canonical_string_covers` says which requests have the same string.
-/

namespace ZCourier.Signing

open Go Downlink

/-! ## Queries -/

/-- Why `url.ParseQuery` refuses a query. -/
inductive QueryError where
  | semicolon
  | escape (text : GoString)
  deriving DecidableEq

/-- The value of a hexadecimal digit. -/
def unhex (byte : UInt8) : Option UInt8 :=
  if 0x30 ≤ byte ∧ byte ≤ 0x39 then some (byte - 0x30)
  else if 0x61 ≤ byte ∧ byte ≤ 0x66 then some (byte - 0x61 + 10)
  else if 0x41 ≤ byte ∧ byte ≤ 0x46 then some (byte - 0x41 + 10)
  else none

/-- `url.QueryUnescape`. -/
def queryUnescape : GoString → Except QueryError GoString
  | [] => .ok []
  | 0x25 :: high :: low :: rest =>
    match unhex high, unhex low with
    | some h, some l => (queryUnescape rest).map ((h * 16 + l) :: ·)
    | _, _ => .error (.escape [0x25, high, low])
  | 0x25 :: rest => .error (.escape (0x25 :: rest))
  | 0x2B :: rest => (queryUnescape rest).map (0x20 :: ·)
  | byte :: rest => (queryUnescape rest).map (byte :: ·)

/-- A decoded key and value. -/
abbrev Pair := GoString × GoString

/-- One part of a query between ampersands: nothing, a pair, or an error. -/
def parseSegment (segment : GoString) : Except QueryError (Option Pair) :=
  if 0x3B ∈ segment then .error .semicolon
  else if segment = [] then .ok none
  else
    let (key, value) := (cut 0x3D segment).getD (segment, [])
    match queryUnescape key, queryUnescape value with
    | .ok key, .ok value => .ok (some (key, value))
    | .error err, _ => .error err
    | .ok _, .error err => .error err

/-- The loop of `url.ParseQuery`: a semicolon always sets the error, another mistake only where
there is none yet. -/
def parseSegments : List GoString → List Pair → Option QueryError → List Pair × Option QueryError
  | [], pairs, err => (pairs, err)
  | segment :: segments, pairs, err =>
    match parseSegment segment with
    | .ok none => parseSegments segments pairs err
    | .ok (some pair) => parseSegments segments (pairs ++ [pair]) err
    | .error .semicolon => parseSegments segments pairs (some .semicolon)
    | .error problem => parseSegments segments pairs (some (err.getD problem))

/-- `url.ParseQuery`, with the pairs in the order of the text. -/
def parseQuery (raw : GoString) : Except QueryError (List Pair) :=
  match parseSegments (raw.splitOn 0x26) [] none with
  | (_, some err) => .error err
  | (pairs, none) => .ok pairs

/-- The map with the values of each key. -/
abbrev Values := List (GoString × List GoString)

/-- `m[key] = append(m[key], value)`. -/
def appendValue : Values → Pair → Values
  | [], (key, value) => [(key, [value])]
  | (key', items) :: values, (key, value) =>
    if key' = key then (key', items ++ [value]) :: values
    else (key', items) :: appendValue values (key, value)

structure MapOrder where
  arrange : Values → Values
  perm : ∀ values, (arrange values).Perm values

def MapOrder.inserted : MapOrder := ⟨id, fun _ => .refl _⟩

/-- The bytes that stay as they are. -/
def unreserved (byte : UInt8) : Bool :=
  (0x61 ≤ byte && byte ≤ 0x7A) || (0x41 ≤ byte && byte ≤ 0x5A) || (0x30 ≤ byte && byte ≤ 0x39) ||
    byte = 0x2D || byte = 0x2E || byte = 0x5F || byte = 0x7E

/-- The digit in `hexDigits`. -/
def upperHex (n : UInt8) : UInt8 := if n < 10 then 0x30 + n else 0x41 + (n - 10)

/-- One byte of `percentEncode`. -/
def encodeByte (byte : UInt8) : GoString :=
  if unreserved byte then [byte] else [0x25, upperHex (byte >>> 4), upperHex (byte &&& 0x0F)]

/-- `percentEncode`. -/
def percentEncode (value : GoString) : GoString := value.flatMap encodeByte

def encodedPairs (values : Values) : List Pair :=
  values.flatMap fun entry =>
    (if entry.2 = [] then [[]] else entry.2).map fun value =>
      (percentEncode entry.1, percentEncode value)

/-- The comparison passed to `sort.Slice`. -/
def pairLess (a b : Pair) : Bool :=
  if a.1 ≠ b.1 then a.1 < b.1 else a.2 < b.2

/-- The order of the sorted pairs. -/
def PairLe (a b : Pair) : Prop := ¬ pairLess b a = true

instance : DecidableRel PairLe := fun a b => inferInstanceAs (Decidable (¬ pairLess b a = true))

/-- `canonicalQuery`. -/
def canonicalQuery (order : MapOrder) (raw : GoString) : Except QueryError GoString :=
  match parseQuery raw with
  | .error err => .error err
  | .ok pairs =>
    let sorted :=
      (encodedPairs (order.arrange (pairs.foldl appendValue []))).insertionSort PairLe
    .ok ([0x26].intercalate (sorted.map fun item => item.1 ++ 0x3D :: item.2))

/-! ## Requests -/

/-- `Algorithm`. -/
def algorithm : GoString := ascii "ZCOURIER-HMAC-SHA256"

/-- What `Sign` and `Verify` read of a request: the method, which `net/http` takes only if it is a
token, the results of `EscapedPath` and of `Header.Get`, and the query. -/
structure Request where
  method : GoString
  escapedPath : GoString
  rawQuery : GoString
  keyID : GoString
  timestamp : GoString
  nonce : GoString
  signature : GoString
  method_ascii : method.all (· < 0x80) = true
  path_line : 0x0A ∉ escapedPath

inductive SigningError where
  | invalidRequest
  | invalidQuery (err : QueryError)
  | missingSignature
  | unknownKey
  | invalidTimestamp
  | expired
  | invalidNonce
  | invalidSignature
  | replay
  | nonceStoreFull
  deriving DecidableEq

/-- `strings.ToUpper` of a text of ASCII characters, as the method of a `Request` is. -/
def toUpper (text : GoString) : GoString :=
  text.map fun byte => if 0x61 ≤ byte ∧ byte ≤ 0x7A then byte - 0x20 else byte

/-- A digit of `hex.EncodeToString`. -/
def lowerHex (n : UInt8) : UInt8 := if n < 10 then 0x30 + n else 0x61 + (n - 10)

/-- `hex.EncodeToString`. -/
def hexEncode (data : Bytes) : GoString :=
  data.flatMap fun (byte : UInt8) => [lowerHex (byte >>> 4), lowerHex (byte &&& 0x0F)]

/-- The path in the canonical string. -/
def pathOrSlash (path : GoString) : GoString :=
  if path = [] then [0x2F] else path

/-- `CanonicalString`; a request that is nil or has no URL is `none`. -/
def canonicalString [Sha256] (order : MapOrder) (request : Option Request) (body : Bytes)
    (timestamp nonce : GoString) : Except SigningError GoString :=
  match request with
  | none => .error .invalidRequest
  | some request =>
    if trimSpace request.method = [] then .error .invalidRequest
    else
      match canonicalQuery order request.rawQuery with
      | .error err => .error (.invalidQuery err)
      | .ok query =>
        .ok ([0x0A].intercalate [algorithm, timestamp, nonce, toUpper request.method,
          pathOrSlash request.escapedPath, query, hexEncode (Sha256.sum256 body)])

/-! ## Percent encoding is injective -/

theorem unescape_plain {byte : UInt8} (hpercent : byte ≠ 0x25) (hplus : byte ≠ 0x2B)
    (rest : GoString) : queryUnescape (byte :: rest) = (queryUnescape rest).map (byte :: ·) := by
  rw [queryUnescape]
  · rintro high low rest' rfl
    exact (hpercent rfl).elim
  · exact hpercent
  · exact hplus

theorem unescape_byte (byte : UInt8) (rest : GoString) :
    queryUnescape (encodeByte byte ++ rest) = (queryUnescape rest).map (byte :: ·) := by
  have hdigits : ∀ byte : UInt8, unhex (upperHex (byte >>> 4)) = some (byte >>> 4) ∧
      unhex (upperHex (byte &&& 0x0F)) = some (byte &&& 0x0F) ∧
      (byte >>> 4) * 16 + (byte &&& 0x0F) = byte :=
    forall_byte (by decide +kernel)
  have hplain : ∀ byte : UInt8, unreserved byte = true → byte ≠ 0x25 ∧ byte ≠ 0x2B :=
    forall_byte (by decide +kernel)
  obtain ⟨hhigh, hlow, hbyte⟩ := hdigits byte
  rw [encodeByte]
  split
  · next hunreserved =>
    obtain ⟨hpercent, hplus⟩ := hplain byte hunreserved
    exact unescape_plain hpercent hplus rest
  · show queryUnescape (0x25 :: upperHex (byte >>> 4) :: upperHex (byte &&& 0x0F) :: rest) = _
    rw [queryUnescape, hhigh, hlow]
    dsimp only
    rw [hbyte]

theorem unescape_percentEncode (value : GoString) :
    queryUnescape (percentEncode value) = .ok value := by
  induction value with
  | nil => rfl
  | cons byte value ih =>
    rw [percentEncode, List.flatMap_cons, unescape_byte]
    show (queryUnescape (percentEncode value)).map _ = _
    rw [ih]
    rfl

theorem percentEncode_injective : Function.Injective percentEncode := by
  intro a b h
  have hdecode := congrArg queryUnescape h
  rw [unescape_percentEncode, unescape_percentEncode] at hdecode
  exact Except.ok.inj hdecode

theorem separator_notMem (value : GoString) {separator : UInt8}
    (h : separator = 0x0A ∨ separator = 0x26 ∨ separator = 0x3D) :
    separator ∉ percentEncode value := by
  have hbyte : ∀ byte : UInt8, 0x0A ∉ encodeByte byte ∧ 0x26 ∉ encodeByte byte ∧
      0x3D ∉ encodeByte byte :=
    forall_byte (by decide +kernel)
  rw [percentEncode, List.mem_flatMap]
  rintro ⟨byte, -, hmem⟩
  obtain ⟨hline, hamp, heq⟩ := hbyte byte
  rcases h with rfl | rfl | rfl
  · exact hline hmem
  · exact hamp hmem
  · exact heq hmem

/-! ## The canonical query -/

def encodePair (pair : Pair) : Pair := (percentEncode pair.1, percentEncode pair.2)

theorem encodePair_injective : Function.Injective encodePair := by
  intro a b h
  obtain ⟨hkey, hvalue⟩ := Prod.mk.inj h
  exact Prod.ext (percentEncode_injective hkey) (percentEncode_injective hvalue)

theorem encodedPairs_cons {key : GoString} {items : List GoString} (h : items ≠ [])
    (values : Values) :
    encodedPairs ((key, items) :: values) =
      items.map (fun value => encodePair (key, value)) ++ encodedPairs values := by
  rw [encodedPairs, List.flatMap_cons, if_neg h]
  rfl

theorem encodedPairs_appendValue {values : Values} (h : ∀ entry ∈ values, entry.2 ≠ [])
    (pair : Pair) :
    (∀ entry ∈ appendValue values pair, entry.2 ≠ []) ∧
      (encodedPairs (appendValue values pair)).Perm (encodePair pair :: encodedPairs values) := by
  obtain ⟨key, value⟩ := pair
  induction values with
  | nil => exact ⟨by simp [appendValue], .refl _⟩
  | cons entry values ih =>
    obtain ⟨key', items⟩ := entry
    have hitems : items ≠ [] := h _ List.mem_cons_self
    obtain ⟨hrest, hperm⟩ := ih fun entry hentry => h entry (List.mem_cons_of_mem _ hentry)
    rw [appendValue]
    split
    · next hsame =>
      subst hsame
      refine ⟨?_, ?_⟩
      · intro entry hentry
        rcases List.mem_cons.mp hentry with rfl | hmem
        · simp
        · exact h entry (List.mem_cons_of_mem _ hmem)
      · rw [encodedPairs_cons (by simp), encodedPairs_cons hitems, List.map_append,
          List.append_assoc]
        exact List.perm_middle
    · refine ⟨?_, ?_⟩
      · intro entry hentry
        rcases List.mem_cons.mp hentry with rfl | hmem
        · exact hitems
        · exact hrest entry hmem
      · rw [encodedPairs_cons hitems, encodedPairs_cons hitems]
        exact (hperm.append_left _).trans List.perm_middle

theorem encodedPairs_foldl (pairs : List Pair) :
    (encodedPairs (pairs.foldl appendValue [])).Perm (pairs.map encodePair) := by
  have hrun : ∀ values : Values, (∀ entry ∈ values, entry.2 ≠ []) →
      (encodedPairs (pairs.foldl appendValue values)).Perm
        (pairs.map encodePair ++ encodedPairs values) := by
    induction pairs with
    | nil =>
      intro values _
      exact .refl _
    | cons pair pairs ih =>
      intro values hvalues
      obtain ⟨hnext, hperm⟩ := encodedPairs_appendValue hvalues pair
      refine (ih _ hnext).trans ((hperm.append_left _).trans ?_)
      exact List.perm_middle
  have hempty := hrun [] (by simp)
  rwa [show encodedPairs [] = [] from rfl, List.append_nil] at hempty

theorem pairLe_iff {a b : Pair} : PairLe a b ↔ a.1 < b.1 ∨ a.1 = b.1 ∧ a.2 ≤ b.2 := by
  rw [PairLe, pairLess]
  by_cases h : b.1 = a.1
  · rw [if_neg (not_not.mpr h), decide_eq_true_eq, List.not_lt]
    constructor
    · intro hle
      exact .inr ⟨h.symm, hle⟩
    · rintro (hlt | ⟨-, hle⟩)
      · rw [h] at hlt
        exact absurd hlt (List.lt_irrefl _)
      · exact hle
  · rw [if_pos h, decide_eq_true_eq, List.not_lt]
    constructor
    · intro hle
      left
      rw [← List.not_le]
      intro hge
      exact h (List.le_antisymm hge hle)
    · rintro (hlt | ⟨heq, -⟩)
      · exact List.le_of_lt hlt
      · exact absurd heq.symm h

instance : Std.Total PairLe where
  total a b := by
    rw [pairLe_iff, pairLe_iff]
    by_cases h : a.1 = b.1
    · rcases List.le_total a.2 b.2 with hle | hle
      · exact .inl (.inr ⟨h, hle⟩)
      · exact .inr (.inr ⟨h.symm, hle⟩)
    · by_cases hlt : a.1 < b.1
      · exact .inl (.inl hlt)
      · right
        left
        rw [← List.not_le]
        intro hle
        exact h (List.le_antisymm hle (List.not_lt.mp hlt))

instance : IsTrans Pair PairLe where
  trans a b c hab hbc := by
    rw [pairLe_iff] at *
    rcases hab with hab | ⟨hab, hab'⟩
    · rcases hbc with hbc | ⟨hbc, -⟩
      · exact .inl (List.lt_trans hab hbc)
      · exact .inl (hbc ▸ hab)
    · rcases hbc with hbc | ⟨hbc, hbc'⟩
      · exact .inl (hab ▸ hbc)
      · exact .inr ⟨hab.trans hbc, List.le_trans hab' hbc'⟩

theorem PairLe.antisymm {a b : Pair} (hab : PairLe a b) (hba : PairLe b a) : a = b := by
  rw [pairLe_iff] at *
  rcases hab with hab | ⟨hab, hab'⟩
  · rcases hba with hba | ⟨hba, -⟩
    · exact absurd (List.lt_trans hab hba) (List.lt_irrefl _)
    · rw [hba] at hab
      exact absurd hab (List.lt_irrefl _)
  · rcases hba with hba | ⟨-, hba'⟩
    · rw [hab] at hba
      exact absurd hba (List.lt_irrefl _)
    · exact Prod.ext hab (List.le_antisymm hab' hba')

theorem sorted_eq_iff {l l' : List Pair} :
    l.insertionSort PairLe = l'.insertionSort PairLe ↔ l.Perm l' := by
  constructor
  · intro h
    exact (List.perm_insertionSort PairLe l).symm.trans (h ▸ List.perm_insertionSort PairLe l')
  · intro h
    refine List.Perm.eq_of_pairwise (fun a b _ _ => PairLe.antisymm)
      (List.pairwise_insertionSort PairLe l) (List.pairwise_insertionSort PairLe l') ?_
    exact (List.perm_insertionSort PairLe l).trans
      (h.trans (List.perm_insertionSort PairLe l').symm)

/-- A pair in the canonical query. -/
def pairText (pair : Pair) : GoString := pair.1 ++ 0x3D :: pair.2

/-- Pairs without separators. -/
def Clean (pair : Pair) : Prop :=
  (0x0A ∉ pair.1 ∧ 0x26 ∉ pair.1 ∧ 0x3D ∉ pair.1) ∧ 0x0A ∉ pair.2 ∧ 0x26 ∉ pair.2

theorem clean_encodePair (pair : Pair) : Clean (encodePair pair) :=
  ⟨⟨separator_notMem _ (.inl rfl), separator_notMem _ (.inr (.inl rfl)),
    separator_notMem _ (.inr (.inr rfl))⟩,
    separator_notMem _ (.inl rfl), separator_notMem _ (.inr (.inl rfl))⟩

theorem pairText_inj {a b : Pair} (ha : Clean a) (hb : Clean b) (h : pairText a = pairText b) :
    a = b := by
  have hcut := congrArg (cut 0x3D) h
  rw [pairText, pairText, cut_append ha.1.2.2, cut_append hb.1.2.2] at hcut
  exact Option.some.inj hcut

theorem pairText_clean {pair : Pair} (h : Clean pair) :
    0x26 ∉ pairText pair ∧ 0x0A ∉ pairText pair := by
  obtain ⟨⟨hline, hamp, -⟩, hline', hamp'⟩ := h
  constructor
  · simp [pairText, hamp, hamp']
  · simp [pairText, hline, hline']

theorem joined_inj {l l' : List Pair} (hl : ∀ pair ∈ l, Clean pair) (hl' : ∀ pair ∈ l', Clean pair)
    (h : [0x26].intercalate (l.map pairText) = [0x26].intercalate (l'.map pairText)) : l = l' := by
  have hsplit : ∀ l : List Pair, (∀ pair ∈ l, Clean pair) → l ≠ [] →
      ([0x26].intercalate (l.map pairText)).splitOn 0x26 = l.map pairText := by
    intro l hclean hne
    refine List.splitOn_intercalate 0x26 ?_ (by simpa using hne)
    intro text htext
    obtain ⟨pair, hpair, rfl⟩ := List.mem_map.mp htext
    exact (pairText_clean (hclean pair hpair)).1
  have hne : ∀ l : List Pair, (∀ pair ∈ l, Clean pair) → l ≠ [] →
      [0x26].intercalate (l.map pairText) ≠ [0x26].intercalate (([] : List Pair).map pairText) := by
    intro l hclean hne hempty
    have htexts := hsplit l hclean hne
    rw [hempty] at htexts
    have hnil : ([] : GoString) ∈ l.map pairText := by
      rw [← htexts]
      decide
    obtain ⟨pair, -, htext⟩ := List.mem_map.mp hnil
    exact absurd htext (by simp [pairText])
  by_cases hnil : l = []
  · by_cases hnil' : l' = []
    · rw [hnil, hnil']
    · rw [hnil] at h
      exact absurd h.symm (hne l' hl' hnil')
  · by_cases hnil' : l' = []
    · rw [hnil'] at h
      exact absurd h (hne l hl hnil)
    · have htexts : l.map pairText = l'.map pairText := by
        rw [← hsplit l hl hnil, ← hsplit l' hl' hnil', h]
      have hlength : l.length = l'.length := by simpa using congrArg List.length htexts
      refine List.ext_getElem hlength fun i hi hi' => ?_
      have hi₁ : i < (l.map pairText).length := by simpa using hi
      have hget := List.getElem_of_eq htexts hi₁
      rw [List.getElem_map, List.getElem_map] at hget
      exact pairText_inj (hl _ (List.getElem_mem hi)) (hl' _ (List.getElem_mem hi')) hget

theorem newline_notMem_joined {l : List Pair} (h : ∀ pair ∈ l, Clean pair) :
    0x0A ∉ [0x26].intercalate (l.map pairText) := by
  induction l with
  | nil => simp [List.intercalate]
  | cons pair l ih =>
    have hpair := (pairText_clean (h pair List.mem_cons_self)).2
    have hrest := ih fun pair hmem => h pair (List.mem_cons_of_mem _ hmem)
    cases l with
    | nil => simpa [List.intercalate] using hpair
    | cons next l =>
      rw [List.map_cons] at hrest ⊢
      rw [List.map_cons, List.intercalate_cons_cons, List.mem_append, List.mem_append, not_or,
        not_or]
      exact ⟨⟨hpair, by decide⟩, hrest⟩

theorem canonicalQuery_eq {order : MapOrder} {raw query : GoString}
    (h : canonicalQuery order raw = .ok query) :
    ∃ (pairs l : List Pair), parseQuery raw = .ok pairs ∧ l.Perm (pairs.map encodePair) ∧
      (∀ pair ∈ l.insertionSort PairLe, Clean pair) ∧
      query = [0x26].intercalate ((l.insertionSort PairLe).map pairText) := by
  rw [canonicalQuery] at h
  cases hparse : parseQuery raw with
  | error err =>
    rw [hparse] at h
    cases h
  | ok pairs =>
    rw [hparse] at h
    have hperm : (encodedPairs (order.arrange (pairs.foldl appendValue []))).Perm
        (pairs.map encodePair) :=
      ((order.perm _).flatMap_right _).trans (encodedPairs_foldl pairs)
    refine ⟨pairs, _, rfl, hperm, ?_, (Except.ok.inj h).symm⟩
    intro pair hpair
    have hmem := ((List.perm_insertionSort PairLe _).trans hperm).subset hpair
    obtain ⟨pair', -, rfl⟩ := List.mem_map.mp hmem
    exact clean_encodePair pair'

theorem canonicalQuery_inj {order order' : MapOrder} {raw raw' query query' : GoString}
    {pairs pairs' : List Pair} (h : canonicalQuery order raw = .ok query)
    (h' : canonicalQuery order' raw' = .ok query') (hpairs : parseQuery raw = .ok pairs)
    (hpairs' : parseQuery raw' = .ok pairs') : query = query' ↔ pairs.Perm pairs' := by
  obtain ⟨_, l, hparse, hperm, hclean, rfl⟩ := canonicalQuery_eq h
  obtain ⟨_, l', hparse', hperm', hclean', rfl⟩ := canonicalQuery_eq h'
  obtain rfl := Except.ok.inj (hparse.symm.trans hpairs)
  obtain rfl := Except.ok.inj (hparse'.symm.trans hpairs')
  rw [← List.map_perm_map_iff encodePair_injective]
  constructor
  · intro heq
    exact hperm.symm.trans ((sorted_eq_iff.mp (joined_inj hclean hclean' heq)).trans hperm')
  · intro hpairs
    rw [sorted_eq_iff.mpr (hperm.trans (hpairs.trans hperm'.symm))]

/-! ## The canonical string -/

def tokenByte (byte : UInt8) : Bool :=
  isDigit byte || (0x41 ≤ byte && byte ≤ 0x5A) || (0x61 ≤ byte && byte ≤ 0x7A) ||
    [0x21, 0x23, 0x24, 0x25, 0x26, 0x27, 0x2A, 0x2B, 0x2D, 0x2E, 0x5E, 0x5F, 0x60, 0x7C,
      0x7E].contains
      byte

/-- A method that is an HTTP token. -/
def isToken (method : GoString) : Bool := method ≠ [] && method.all tokenByte

theorem newline_notMem_toUpper {method : GoString} (h : isToken method = true) :
    0x0A ∉ toUpper method := by
  have hbyte : ∀ byte : UInt8, tokenByte byte = true →
      (if 0x61 ≤ byte ∧ byte ≤ 0x7A then byte - 0x20 else byte) ≠ 0x0A :=
    forall_byte (by decide +kernel)
  rw [isToken, Bool.and_eq_true] at h
  rw [toUpper, List.mem_map]
  rintro ⟨byte, hmem, hline⟩
  exact hbyte byte (List.all_eq_true.mp h.2 byte hmem) hline

theorem newline_notMem_digits {text : GoString} {n : Nat} (h : parseNat text = some n) :
    0x0A ∉ text := by
  intro hmem
  rw [parseNat] at h
  split at h
  · contradiction
  · next hdigits =>
    simp only [Bool.or_eq_true, Bool.not_eq_true', not_or, Bool.not_eq_false] at hdigits
    exact absurd (List.all_eq_true.mp hdigits.2 _ hmem) (by decide)

theorem newline_notMem_parseInt {text : GoString} {n : Int} (h : parseInt text = some n) :
    0x0A ∉ text := by
  have hsome : ∀ {f : Nat → Int} {digits : GoString},
      ((parseNat digits).map f).filter (fun n => -2 ^ 63 ≤ n && n < 2 ^ 63) = some n →
      0x0A ∉ digits := by
    intro f digits hfilter
    cases hparse : parseNat digits with
    | none =>
      rw [hparse] at hfilter
      contradiction
    | some m => exact newline_notMem_digits hparse
  unfold parseInt at h
  dsimp only at h
  split at h
  · exact fun hmem => hsome h ((List.mem_cons.mp hmem).resolve_left (by decide))
  · exact fun hmem => hsome h ((List.mem_cons.mp hmem).resolve_left (by decide))
  · exact hsome h

theorem newline_notMem_hexEncode (data : Bytes) : 0x0A ∉ hexEncode data := by
  have hbyte : ∀ byte : UInt8, 0x0A ∉ [lowerHex (byte >>> 4), lowerHex (byte &&& 0x0F)] :=
    forall_byte (by decide +kernel)
  rw [hexEncode, List.mem_flatMap]
  rintro ⟨byte, -, hmem⟩
  exact hbyte byte hmem

theorem hexEncode_injective : Function.Injective hexEncode := by
  have hbyte : ∀ byte : UInt8, unhex (lowerHex (byte >>> 4)) = some (byte >>> 4) ∧
      unhex (lowerHex (byte &&& 0x0F)) = some (byte &&& 0x0F) ∧
      (byte >>> 4) * 16 + (byte &&& 0x0F) = byte :=
    forall_byte (by decide +kernel)
  intro data
  induction data with
  | nil =>
    intro data' h
    cases data' with
    | nil => rfl
    | cons byte data' => exact absurd h (by simp [hexEncode])
  | cons byte data ih =>
    intro data' h
    cases data' with
    | nil => exact absurd h (by simp [hexEncode])
    | cons byte' data' =>
      obtain ⟨hhigh, hrest⟩ := List.cons.inj h
      obtain ⟨hlow, hrest⟩ := List.cons.inj hrest
      obtain ⟨hunhigh, hunlow, hback⟩ := hbyte byte
      obtain ⟨hunhigh', hunlow', hback'⟩ := hbyte byte'
      rw [hhigh, hunhigh'] at hunhigh
      rw [hlow, hunlow'] at hunlow
      rw [← hback, ← hback', Option.some.inj hunhigh, Option.some.inj hunlow, ih hrest]

theorem lines_inj {a t t' n n' m m' p p' q q' d d' : GoString} (ht : 0x0A ∉ t) (ht' : 0x0A ∉ t')
    (hm : 0x0A ∉ m) (hm' : 0x0A ∉ m') (hp : 0x0A ∉ p) (hp' : 0x0A ∉ p') (hq : 0x0A ∉ q)
    (hq' : 0x0A ∉ q') (hd : 0x0A ∉ d) (hd' : 0x0A ∉ d')
    (h : [0x0A].intercalate [a, t, n, m, p, q, d] =
      [0x0A].intercalate [a, t', n', m', p', q', d']) :
    t = t' ∧ n = n' ∧ m = m' ∧ p = p' ∧ q = q' ∧ d = d' := by
  have hlines : ∀ t n m p q d : GoString, [0x0A].intercalate [a, t, n, m, p, q, d] =
      ((((a ++ 0x0A :: (t ++ 0x0A :: n)) ++ 0x0A :: m) ++ 0x0A :: p) ++
        0x0A :: q) ++ 0x0A :: d := by
    intro t n m p q d
    simp [List.intercalate]
  rw [hlines, hlines] at h
  obtain ⟨hfive, hdigest⟩ := append_last_inj hd hd' h
  obtain ⟨hfour, hquery⟩ := append_last_inj hq hq' hfive
  obtain ⟨hthree, hpath⟩ := append_last_inj hp hp' hfour
  obtain ⟨htwo, hmethod⟩ := append_last_inj hm hm' hthree
  have hcut := congrArg (cut 0x0A) (List.cons.inj (List.append_cancel_left htwo)).2
  rw [cut_append ht, cut_append ht'] at hcut
  obtain ⟨htime, hnonce⟩ := Prod.mk.inj (Option.some.inj hcut)
  exact ⟨htime, hnonce, hmethod, hpath, hquery, hdigest⟩

theorem newline_notMem_path (request : Request) : 0x0A ∉ pathOrSlash request.escapedPath := by
  rw [pathOrSlash]
  split
  · decide
  · exact request.path_line

variable [Sha256]

theorem canonicalString_ok {order : MapOrder} {request : Request} {body : Bytes}
    {timestamp nonce canonical : GoString}
    (h : canonicalString order (some request) body timestamp nonce = .ok canonical) :
    ∃ query, canonicalQuery order request.rawQuery = .ok query ∧
      canonical = [0x0A].intercalate [algorithm, timestamp, nonce, toUpper request.method,
        pathOrSlash request.escapedPath, query, hexEncode (Sha256.sum256 body)] := by
  rw [canonicalString] at h
  split at h
  · cases h
  · cases hquery : canonicalQuery order request.rawQuery with
    | error err =>
      rw [hquery] at h
      cases h
    | ok query =>
      rw [hquery] at h
      exact ⟨query, rfl, (Except.ok.inj h).symm⟩

/-- A signature covers exactly the meaning of a request: two canonical strings are equal if and only
if times, nonces, methods up to case, paths, decoded query pairs and body digests are equal. -/
theorem canonical_string_covers {order order' : MapOrder} {request request' : Request}
    {body body' : Bytes} {timestamp timestamp' nonce nonce' canonical canonical' : GoString}
    {pairs pairs' : List Pair} {seconds seconds' : Int}
    (hmethod : isToken request.method = true) (hmethod' : isToken request'.method = true)
    (htimestamp : parseInt timestamp = some seconds)
    (htimestamp' : parseInt timestamp' = some seconds')
    (h : canonicalString order (some request) body timestamp nonce = .ok canonical)
    (h' : canonicalString order' (some request') body' timestamp' nonce' = .ok canonical')
    (hpairs : parseQuery request.rawQuery = .ok pairs)
    (hpairs' : parseQuery request'.rawQuery = .ok pairs') :
    canonical = canonical' ↔
      timestamp = timestamp' ∧ nonce = nonce' ∧ toUpper request.method = toUpper request'.method ∧
        pathOrSlash request.escapedPath = pathOrSlash request'.escapedPath ∧
        pairs.Perm pairs' ∧ Sha256.sum256 body = Sha256.sum256 body' := by
  obtain ⟨query, hquery, rfl⟩ := canonicalString_ok h
  obtain ⟨query', hquery', rfl⟩ := canonicalString_ok h'
  have hline : ∀ {order raw query}, canonicalQuery order raw = .ok query → 0x0A ∉ query := by
    intro order raw query hok
    obtain ⟨_, _, -, -, hclean, rfl⟩ := canonicalQuery_eq hok
    exact newline_notMem_joined hclean
  rw [← canonicalQuery_inj hquery hquery' hpairs hpairs']
  constructor
  · intro heq
    obtain ⟨htime, hnonce, hupper, hpath, hqueries, hdigest⟩ :=
      lines_inj (newline_notMem_parseInt htimestamp) (newline_notMem_parseInt htimestamp')
        (newline_notMem_toUpper hmethod) (newline_notMem_toUpper hmethod')
        (newline_notMem_path request) (newline_notMem_path request') (hline hquery)
        (hline hquery') (newline_notMem_hexEncode _) (newline_notMem_hexEncode _) heq
    exact ⟨htime, hnonce, hupper, hpath, hqueries, hexEncode_injective hdigest⟩
  · rintro ⟨rfl, rfl, hupper, hpath, rfl, hdigest⟩
    rw [hupper, hpath, hdigest]

/-- A request whose query is encoded in one way. -/
def plainRequest : Request :=
  ⟨ascii "GET", ascii "/", ascii "a=1&b=x+y", [], [], [], [], rfl, by decide⟩

/-- The same request written in another way. -/
def reorderedRequest : Request :=
  ⟨ascii "get", [], ascii "&b=x%20y&a=%31", [], [], [], [], rfl, by decide⟩

/-- The canonical string of both. -/
def sharedCanonical : GoString :=
  ascii "ZCOURIER-HMAC-SHA256\n12\nAAAA\nGET\n/\na=1&b=x%20y\n" ++
    hexEncode (@Sha256.sum256 Sha256.polynomial [])

omit [Sha256] in
theorem canonical_string_covers_reordered :
    toUpper plainRequest.method = toUpper reorderedRequest.method ∧
      pathOrSlash plainRequest.escapedPath = pathOrSlash reorderedRequest.escapedPath ∧
      List.Perm [(ascii "a", ascii "1"), (ascii "b", ascii "x y")]
        [(ascii "b", ascii "x y"), (ascii "a", ascii "1")] := by
  have hcovers := (@canonical_string_covers Sha256.polynomial .inserted .inserted plainRequest
    reorderedRequest [] [] (ascii "12") (ascii "12") (ascii "AAAA") (ascii "AAAA") sharedCanonical
    sharedCanonical _ _ 12 12 (by decide) (by decide) (by decide +kernel) (by decide +kernel)
    (by decide +kernel) (by decide +kernel) rfl rfl).mp rfl
  exact ⟨hcovers.2.2.1, hcovers.2.2.2.1, hcovers.2.2.2.2.1⟩

end ZCourier.Signing
