import ZCourier.Library.BigEndian
import ZCourier.Library.Stream
import ZCourier.Protocol.Packet

/-!
# The packet codec

`Encode` and `DecodeWithMaxBodySize` of `pkg/sdk/protocol/codec.go`. A packet is a fixed
header of 41 bytes, six strings and a body, whose lengths the header gives. `Encode` writes
the version into the packet it is given; the model returns that packet next to the bytes.
`decode_eq` says what decoding does without the reader, and `packet_codec_bijective` that
decoding and encoding undo each other.
-/

namespace ZCourier.Protocol

open Go Library Server

/-- `Magic`. -/
def magic : UInt16 := 0x5A43

/-- `Version`. -/
def version : UInt8 := 1

/-- `FixedHeaderSize`. -/
def fixedHeaderSize : Nat := 41

/-- `DefaultMaxBodySize`. -/
def defaultMaxBodySize : UInt32 := 4194304

/-- `math.MaxUint16`. -/
def maxUint16 : Nat := 65535

/-- `math.MaxUint32`. -/
def maxUint32 : Nat := 4294967295

/-- The error values of `errors.go` that the codec wraps. -/
inductive PacketErrorKind where
  | nilPacket
  | invalidMagic
  | unsupportedVersion
  | bodyTooLarge
  | packetTooShort
  | lengthMismatch
  | fieldTooLarge

/-- The errors the codec returns, with what their texts report. -/
inductive PacketError where
  | nilPacket
  | fieldTooLarge (max : Nat)
  | bodyExceeds (max : Nat)
  | packetTooShort (got : Nat)
  | headerRead (err : ReadError)
  | invalidMagic
  | unsupportedVersion (version : UInt8)
  | bodyTooLarge (got max : UInt32)
  | bodyRead (err : ReadError)
  | lengthMismatch (expected got : Nat)

/-- The error value that `errors.Is` finds. -/
def PacketError.kind : PacketError → PacketErrorKind
  | .nilPacket => .nilPacket
  | .fieldTooLarge _ => .fieldTooLarge
  | .bodyExceeds _ => .bodyTooLarge
  | .packetTooShort _ => .packetTooShort
  | .headerRead _ => .packetTooShort
  | .invalidMagic => .invalidMagic
  | .unsupportedVersion _ => .unsupportedVersion
  | .bodyTooLarge _ _ => .bodyTooLarge
  | .bodyRead _ => .lengthMismatch
  | .lengthMismatch _ _ => .lengthMismatch

/-! ## Encoding -/

/-- The fixed header of a packet. -/
def encodeHeader (packet : Packet) : Bytes :=
  beBytes 2 magic.toNat ++ ([packet.version] ++ (beBytes 2 packet.flags.toNat ++
    (beBytes 4 packet.msgID.toNat ++ (beBytes 8 packet.seq.toNat ++
      (beBytes 8 packet.timestamp.toUInt64.toNat ++
        (packet.fields.flatMap (fun field => beBytes 2 field.length) ++
          beBytes 4 packet.body.length))))))

def encodeBytes (packet : Packet) : Bytes :=
  encodeHeader packet ++ (packet.fields.flatten ++ packet.body)

/-- `Encode`: the bytes, and the packet as the call leaves it. -/
def encode : Option Packet → Except PacketError (Bytes × Packet)
  | none => .error .nilPacket
  | some packet =>
    if packet.fields.any fun field => maxUint16 < field.length then
      .error (.fieldTooLarge maxUint16)
    else if maxUint32 < packet.body.length then .error (.bodyExceeds maxUint32)
    else
      let packet := { packet with version := version }
      .ok (encodeBytes packet, packet)

/-! ## Decoding -/

/-- `binary.BigEndian.Uint16`. -/
def uint16 (bytes : Bytes) : UInt16 := .ofNat (beNat bytes)

/-- `binary.BigEndian.Uint32`. -/
def uint32 (bytes : Bytes) : UInt32 := .ofNat (beNat bytes)

/-- `binary.BigEndian.Uint64`. -/
def uint64 (bytes : Bytes) : UInt64 := .ofNat (beNat bytes)

structure FixedHeader where
  version : UInt8
  flags : UInt16
  msgID : UInt32
  seq : UInt64
  timestamp : Int64
  fieldLens : List UInt16
  bodyLen : UInt32

/-- The fields of a fixed header, by their offsets. -/
def parseHeader (fixed : Bytes) : FixedHeader where
  version := fixed.getD 2 0
  flags := uint16 (slice fixed 3 2)
  msgID := uint32 (slice fixed 5 4)
  seq := uint64 (slice fixed 9 8)
  timestamp := (uint64 (slice fixed 17 8)).toInt64
  fieldLens := (List.range 6).map fun i => uint16 (slice fixed (25 + 2 * i) 2)
  bodyLen := uint32 (slice fixed 37 4)

/-- The checks `readPacket` makes on the fixed header. -/
def readHeader (fixed : Bytes) (maxBodySize : UInt32) : Except PacketError FixedHeader :=
  if uint16 (slice fixed 0 2) ≠ magic then .error .invalidMagic
  else
    let header := parseHeader fixed
    if header.version ≠ version then .error (.unsupportedVersion header.version)
    else if maxBodySize < header.bodyLen then .error (.bodyTooLarge header.bodyLen maxBodySize)
    else .ok header

namespace FixedHeader

/-- `varLen`: the length of the strings. -/
def varLen (header : FixedHeader) : Nat :=
  (header.fieldLens.map UInt16.toNat).sum

/-- `expectedLen`. -/
def expectedLen (header : FixedHeader) : Nat :=
  fixedHeaderSize + header.varLen + header.bodyLen.toNat

/-- The packet with the given variable part: `readString` for each string, then the body. -/
def packet (header : FixedHeader) (varPart : Bytes) : Packet :=
  let parts := splitLengths (header.fieldLens.map UInt16.toNat) varPart
  { version := header.version
    flags := header.flags
    msgID := header.msgID
    seq := header.seq
    timestamp := header.timestamp
    clientID := parts.1.getD 0 []
    deviceID := parts.1.getD 1 []
    sessionID := parts.1.getD 2 []
    messageID := parts.1.getD 3 []
    traceID := parts.1.getD 4 []
    token := parts.1.getD 5 []
    body := parts.2.take header.bodyLen.toNat }

end FixedHeader

/-- `readPacket`: the packet and the length its header gives. -/
def readPacket (reader : Reader UInt8) (maxBodySize : UInt32) :
    Except PacketError (Packet × Nat) × Reader UInt8 :=
  match reader.readFull fixedHeaderSize with
  | ((_, some err), reader) => (.error (.headerRead err), reader)
  | ((fixed, none), reader) =>
    match readHeader fixed maxBodySize with
    | .error err => (.error err, reader)
    | .ok header =>
      match reader.readFull (header.varLen + header.bodyLen.toNat) with
      | ((_, some err), reader) => (.error (.bodyRead err), reader)
      | ((varPart, none), reader) => (.ok (header.packet varPart, header.expectedLen), reader)

/-- `DecodeWithMaxBodySize`. -/
def decodeWithMaxBodySize (data : Bytes) (maxBodySize : UInt32) : Except PacketError Packet :=
  if data.length < fixedHeaderSize then .error (.packetTooShort data.length)
  else
    match (readPacket (.ofList data) maxBodySize).1 with
    | .error err => .error err
    | .ok (packet, expectedLen) =>
      if expectedLen ≠ data.length then .error (.lengthMismatch expectedLen data.length)
      else .ok packet

theorem decode_eq (data : Bytes) (maxBodySize : UInt32) :
    decodeWithMaxBodySize data maxBodySize =
      if data.length < fixedHeaderSize then .error (.packetTooShort data.length)
      else
        match readHeader (data.take fixedHeaderSize) maxBodySize with
        | .error err => .error err
        | .ok header =>
          if data.length < header.expectedLen then
            .error (.bodyRead (if data.drop fixedHeaderSize = [] then .eof else .unexpectedEOF))
          else if header.expectedLen ≠ data.length then
            .error (.lengthMismatch header.expectedLen data.length)
          else .ok (header.packet (data.drop fixedHeaderSize)) := by
  rw [decodeWithMaxBodySize]
  split
  · rfl
  next hlong =>
  have hfits : fixedHeaderSize ≤ (Reader.ofList data).rest.length := Nat.le_of_not_lt hlong
  obtain ⟨r, hfixed, hrest⟩ := Reader.readFull_ok hfits
  rw [readPacket, hfixed]
  dsimp only [Reader.ofList] at hrest ⊢
  cases readHeader (data.take fixedHeaderSize) maxBodySize with
  | error err => rfl
  | ok header =>
    dsimp only
    have hvar : r.rest.length = data.length - fixedHeaderSize := by rw [hrest, List.length_drop]
    have hexpected : header.expectedLen =
        fixedHeaderSize + (header.varLen + header.bodyLen.toNat) := by
      rw [FixedHeader.expectedLen, Nat.add_assoc]
    by_cases hshort : data.length < header.expectedLen
    · obtain ⟨r', hread, -⟩ : ∃ r', r.readFull (header.varLen + header.bodyLen.toNat) = _ ∧ _ :=
        Reader.readFull_short (by omega)
      rw [if_pos hshort, hread, hrest]
    · obtain ⟨r', hread, -⟩ : ∃ r', r.readFull (header.varLen + header.bodyLen.toNat) = _ ∧ _ :=
        Reader.readFull_ok (by omega)
      rw [if_neg hshort, hread, hrest]
      dsimp only
      split
      · rfl
      next hexact =>
      rw [not_not] at hexact
      rw [List.take_of_length_le]
      rw [List.length_drop]
      omega

/-! ## Round trips -/

/-- The limits of `Encode`. -/
def WithinLimits (packet : Packet) : Prop :=
  (∀ field ∈ packet.fields, field.length ≤ maxUint16) ∧ packet.body.length ≤ maxUint32

/-- `Encode` succeeds within its limits, and only there. -/
theorem encode_ok_iff {packet stamped : Packet} {data : Bytes} :
    encode (some packet) = .ok (data, stamped) ↔
      WithinLimits packet ∧ stamped = { packet with version := version } ∧
        data = encodeBytes stamped := by
  have hany : (packet.fields.any fun field => maxUint16 < field.length) = false ↔
      ∀ field ∈ packet.fields, field.length ≤ maxUint16 := by
    simp
  rw [encode]
  split
  · next htoo =>
    simp only [reduceCtorEq, false_iff, WithinLimits]
    rintro ⟨⟨hfields, -⟩, -⟩
    rw [hany.mpr hfields] at htoo
    contradiction
  next hfields =>
  split
  · next htoo =>
    simp only [reduceCtorEq, false_iff, WithinLimits]
    rintro ⟨⟨-, hbody⟩, -⟩
    omega
  next hbody =>
  have hlimits : WithinLimits packet :=
    ⟨hany.mp (Bool.eq_false_iff.mpr hfields), Nat.le_of_not_lt hbody⟩
  simp only [Except.ok.injEq, Prod.mk.injEq, hlimits, true_and]
  constructor
  · rintro ⟨rfl, rfl⟩
    exact ⟨rfl, rfl⟩
  · rintro ⟨rfl, rfl⟩
    exact ⟨rfl, rfl⟩

theorem length_encodeHeader (packet : Packet) : (encodeHeader packet).length = fixedHeaderSize :=
  rfl

theorem uint16_beBytes (n : Nat) : uint16 (beBytes 2 n) = UInt16.ofNat n := by
  apply UInt16.toNat_inj.mp
  rw [uint16, beNat_beBytes, UInt16.toNat_ofNat', UInt16.toNat_ofNat']
  omega

theorem uint32_beBytes (n : Nat) : uint32 (beBytes 4 n) = UInt32.ofNat n := by
  apply UInt32.toNat_inj.mp
  rw [uint32, beNat_beBytes, UInt32.toNat_ofNat', UInt32.toNat_ofNat']
  omega

theorem uint64_beBytes (n : Nat) : uint64 (beBytes 8 n) = UInt64.ofNat n := by
  apply UInt64.toNat_inj.mp
  rw [uint64, beNat_beBytes, UInt64.toNat_ofNat', UInt64.toNat_ofNat']
  omega

theorem parseHeader_encodeHeader (packet : Packet) :
    parseHeader (encodeHeader packet) =
      { version := packet.version
        flags := packet.flags
        msgID := packet.msgID
        seq := packet.seq
        timestamp := packet.timestamp
        fieldLens := packet.fields.map fun field => UInt16.ofNat field.length
        bodyLen := UInt32.ofNat packet.body.length } := by
  have hflags : slice (encodeHeader packet) 3 2 = beBytes 2 packet.flags.toNat := rfl
  have hmsgID : slice (encodeHeader packet) 5 4 = beBytes 4 packet.msgID.toNat := rfl
  have hseq : slice (encodeHeader packet) 9 8 = beBytes 8 packet.seq.toNat := rfl
  have htimestamp : slice (encodeHeader packet) 17 8 =
      beBytes 8 packet.timestamp.toUInt64.toNat := rfl
  have hbody : slice (encodeHeader packet) 37 4 = beBytes 4 packet.body.length := rfl
  have hfields : (List.range 6).map (fun i => slice (encodeHeader packet) (25 + 2 * i) 2) =
      packet.fields.map fun field => beBytes 2 field.length := rfl
  have hlens : (List.range 6).map (fun i => uint16 (slice (encodeHeader packet) (25 + 2 * i) 2)) =
      packet.fields.map fun field => UInt16.ofNat field.length := by
    calc (List.range 6).map (fun i => uint16 (slice (encodeHeader packet) (25 + 2 * i) 2))
        = ((List.range 6).map fun i => slice (encodeHeader packet) (25 + 2 * i) 2).map uint16 := by
          rw [List.map_map]
          rfl
      _ = packet.fields.map fun field => uint16 (beBytes 2 field.length) := by
          rw [hfields, List.map_map]
          rfl
      _ = packet.fields.map fun field => UInt16.ofNat field.length := by
          simp only [uint16_beBytes]
  rw [parseHeader, hflags, hmsgID, hseq, htimestamp, hbody, hlens, uint16_beBytes, uint32_beBytes,
    uint32_beBytes, uint64_beBytes, uint64_beBytes]
  simp only [UInt16.ofNat_toNat, UInt32.ofNat_toNat, UInt64.ofNat_toNat, Int64.toInt64_toUInt64]
  rfl

/-! Reading the bytes of a number and writing them again changes nothing. -/

variable {bytes : Bytes}

theorem toNat_uint16 (h : bytes.length = 2) : (uint16 bytes).toNat = beNat bytes := by
  have hlt := beNat_lt bytes
  rw [h] at hlt
  rw [uint16, UInt16.toNat_ofNat']
  omega

theorem beBytes_uint16 (h : bytes.length = 2) : beBytes 2 (uint16 bytes).toNat = bytes := by
  rw [toNat_uint16 h, ← h, beBytes_beNat]

theorem toNat_uint32 (h : bytes.length = 4) : (uint32 bytes).toNat = beNat bytes := by
  have hlt := beNat_lt bytes
  rw [h] at hlt
  rw [uint32, UInt32.toNat_ofNat']
  omega

theorem beBytes_uint32 (h : bytes.length = 4) : beBytes 4 (uint32 bytes).toNat = bytes := by
  rw [toNat_uint32 h, ← h, beBytes_beNat]

theorem toNat_uint64 (h : bytes.length = 8) : (uint64 bytes).toNat = beNat bytes := by
  have hlt := beNat_lt bytes
  rw [h] at hlt
  rw [uint64, UInt64.toNat_ofNat']
  omega

theorem beBytes_uint64 (h : bytes.length = 8) : beBytes 8 (uint64 bytes).toNat = bytes := by
  rw [toNat_uint64 h, ← h, beBytes_beNat]

variable {packet : Packet}

theorem encodeHeader_parseHeader {fixed : Bytes} (hlength : fixed.length = fixedHeaderSize)
    (hmagic : uint16 (slice fixed 0 2) = magic)
    (hversion : packet.version = (parseHeader fixed).version)
    (hflags : packet.flags = (parseHeader fixed).flags)
    (hmsgID : packet.msgID = (parseHeader fixed).msgID)
    (hseq : packet.seq = (parseHeader fixed).seq)
    (htimestamp : packet.timestamp = (parseHeader fixed).timestamp)
    (hfields : packet.fields.map List.length = (parseHeader fixed).fieldLens.map UInt16.toNat)
    (hbody : packet.body.length = (parseHeader fixed).bodyLen.toNat) :
    encodeHeader packet = fixed := by
  have hpart : ∀ offset length, offset + length ≤ 41 →
      (slice fixed offset length).length = length :=
    fun offset length hle => length_slice (hlength ▸ hle)
  have hversion' : [packet.version] = slice fixed 2 1 := by
    rw [hversion, slice_one (by rw [hlength]; decide) 0]
    rfl
  have hlens : packet.fields.flatMap (fun field => beBytes 2 field.length) =
      slice fixed 25 2 ++ (slice fixed 27 2 ++ (slice fixed 29 2 ++ (slice fixed 31 2 ++
        (slice fixed 33 2 ++ slice fixed 35 2)))) := by
    calc packet.fields.flatMap (fun field => beBytes 2 field.length)
        = (packet.fields.map List.length).flatMap (beBytes 2) := by rw [List.flatMap_map]
      _ = (List.range 6).flatMap fun i =>
            beBytes 2 (uint16 (slice fixed (25 + 2 * i) 2)).toNat := by
          rw [hfields, parseHeader, List.map_map, List.flatMap_map]
          rfl
      _ = (List.range 6).flatMap fun i => slice fixed (25 + 2 * i) 2 := by
          refine List.flatMap_congr fun i hi => beBytes_uint16 (hpart _ _ ?_)
          have hlt := List.mem_range.mp hi
          omega
      _ = _ := by simp [List.range_succ]
  rw [encodeHeader, hversion', hlens, hflags, hmsgID, hseq, htimestamp, hbody, ← hmagic,
    parseHeader]
  dsimp only
  rw [UInt64.toUInt64_toInt64, beBytes_uint16 (hpart _ _ (by decide)),
    beBytes_uint16 (hpart _ _ (by decide)), beBytes_uint32 (hpart _ _ (by decide)),
    beBytes_uint64 (hpart _ _ (by decide)), beBytes_uint64 (hpart _ _ (by decide)),
    beBytes_uint32 (hpart _ _ (by decide))]
  simp only [List.append_assoc]
  have hlast : slice fixed 37 4 = fixed.drop 37 := slice_eq_drop (by rw [hlength]; decide)
  rw [hlast, slice_append_drop fixed 35 2, slice_append_drop fixed 33 2,
    slice_append_drop fixed 31 2, slice_append_drop fixed 29 2, slice_append_drop fixed 27 2,
    slice_append_drop fixed 25 2, slice_append_drop fixed 17 8, slice_append_drop fixed 9 8,
    slice_append_drop fixed 5 4, slice_append_drop fixed 3 2, slice_append_drop fixed 2 1,
    slice_append_drop fixed 0 2, List.drop_zero]

/-- What the header of a byte string says. -/
def headerOf (data : Bytes) : FixedHeader :=
  parseHeader (data.take fixedHeaderSize)

variable {maxBodySize : UInt32}

theorem readHeader_ok_iff {fixed : Bytes} {header : FixedHeader} :
    readHeader fixed maxBodySize = .ok header ↔
      uint16 (slice fixed 0 2) = magic ∧ header = parseHeader fixed ∧ header.version = version ∧
        header.bodyLen ≤ maxBodySize := by
  rw [readHeader]
  dsimp only
  split
  · next hmagic => simp [hmagic]
  next hmagic =>
  split
  · next hversion => grind
  next hversion =>
  split
  · next hbody =>
    have hbody' := UInt32.not_le.mpr hbody
    grind
  next hbody =>
  have hbody' := UInt32.not_lt.mp hbody
  grind

theorem decode_ok_iff {data : Bytes} : decodeWithMaxBodySize data maxBodySize = .ok packet ↔
      fixedHeaderSize ≤ data.length ∧ uint16 (slice (data.take fixedHeaderSize) 0 2) = magic ∧
        (headerOf data).version = version ∧ (headerOf data).bodyLen ≤ maxBodySize ∧
        (headerOf data).expectedLen = data.length ∧
        packet = (headerOf data).packet (data.drop fixedHeaderSize) := by
  rw [decode_eq]
  split
  · next hshort =>
    simp only [reduceCtorEq, false_iff, not_and]
    omega
  next hlong =>
  cases hheader : readHeader (data.take fixedHeaderSize) maxBodySize with
  | error err =>
    simp only [reduceCtorEq, false_iff]
    rintro ⟨-, hmagic, hversion, hbody, -⟩
    rw [readHeader_ok_iff.mpr ⟨hmagic, rfl, hversion, hbody⟩] at hheader
    contradiction
  | ok header =>
    obtain ⟨hmagic, hparse, hversion, hbody⟩ := readHeader_ok_iff.mp hheader
    obtain rfl : header = headerOf data := hparse
    dsimp only
    split
    · next hlt =>
      simp only [reduceCtorEq, false_iff]
      rintro ⟨-, -, -, -, hlength, -⟩
      omega
    split
    · next hne =>
      simp only [reduceCtorEq, false_iff]
      rintro ⟨-, -, -, -, hlength, -⟩
      exact hne hlength
    · next heq =>
      rw [not_not] at heq
      simp only [Except.ok.injEq, Nat.le_of_not_lt hlong, hmagic, hversion, hbody, heq, true_and]
      exact eq_comm

theorem encodeBytes_take (packet : Packet) :
    (encodeBytes packet).take fixedHeaderSize = encodeHeader packet := by
  rw [encodeBytes, ← length_encodeHeader packet, List.take_left]

theorem encodeBytes_drop (packet : Packet) :
    (encodeBytes packet).drop fixedHeaderSize = packet.fields.flatten ++ packet.body := by
  rw [encodeBytes, ← length_encodeHeader packet, List.drop_left]

theorem length_encodeBytes (packet : Packet) :
    (encodeBytes packet).length =
      fixedHeaderSize + (packet.fields.map List.length).sum + packet.body.length := by
  rw [encodeBytes, List.length_append, length_encodeHeader, List.length_append, List.length_flatten,
    Nat.add_assoc]

theorem headerOf_encodeBytes (h : WithinLimits packet) :
    (headerOf (encodeBytes packet)).fieldLens.map UInt16.toNat = packet.fields.map List.length ∧
      (headerOf (encodeBytes packet)).bodyLen.toNat = packet.body.length := by
  obtain ⟨hfields, hbody⟩ := h
  rw [headerOf, encodeBytes_take, parseHeader_encodeHeader]
  constructor
  · rw [List.map_map]
    refine List.map_congr_left fun field hfield => ?_
    have hle := hfields field hfield
    rw [maxUint16] at hle
    rw [Function.comp, UInt16.toNat_ofNat']
    omega
  · rw [maxUint32] at hbody
    rw [UInt32.toNat_ofNat']
    omega

theorem decode_encodeBytes (hlimits : WithinLimits packet) (hversion : packet.version = version)
    (hbody : packet.body.length ≤ maxBodySize.toNat) :
    decodeWithMaxBodySize (encodeBytes packet) maxBodySize = .ok packet := by
  obtain ⟨hlens, hbodyLen⟩ := headerOf_encodeBytes hlimits
  have hheader : headerOf (encodeBytes packet) = _ :=
    (congrArg parseHeader (encodeBytes_take packet)).trans (parseHeader_encodeHeader packet)
  refine decode_ok_iff.mpr ⟨?_, ?_, ?_, ?_, ?_, ?_⟩
  · rw [length_encodeBytes]
    omega
  · rw [encodeBytes_take]
    have hmagic : slice (encodeHeader packet) 0 2 = beBytes 2 magic.toNat := rfl
    rw [hmagic, uint16_beBytes, UInt16.ofNat_toNat]
  · rw [hheader]
    exact hversion
  · rw [UInt32.le_iff_toNat_le, hbodyLen]
    exact hbody
  · rw [FixedHeader.expectedLen, FixedHeader.varLen, hlens, hbodyLen, length_encodeBytes]
  · rw [FixedHeader.packet, hlens, hbodyLen, encodeBytes_drop, splitLengths_flatten, hheader]
    dsimp only
    rw [List.take_length]
    rfl

theorem six_fields {header : FixedHeader} {varPart : Bytes} (hsix : header.fieldLens.length = 6)
    (hle : header.varLen ≤ varPart.length) :
    (header.packet varPart).fields =
    (splitLengths (header.fieldLens.map UInt16.toNat) varPart).1 := by
  have hlength : (splitLengths (header.fieldLens.map UInt16.toNat) varPart).1.length = 6 := by
    rw [← List.length_map List.length, (splitLengths_spec hle).1, List.length_map, hsix]
  rw [FixedHeader.packet]
  generalize splitLengths (header.fieldLens.map UInt16.toNat) varPart = parts at hlength
  obtain ⟨fields, rest⟩ := parts
  match fields, hlength with
  | [_, _, _, _, _, _], _ => rfl

theorem encodeBytes_of_decode {data : Bytes}
    (h : decodeWithMaxBodySize data maxBodySize = .ok packet) :
    WithinLimits packet ∧ packet.version = version ∧ packet.body.length ≤ maxBodySize.toNat ∧
      encodeBytes packet = data := by
  obtain ⟨hlong, hmagic, hversion, hbody, hlength, rfl⟩ := decode_ok_iff.mp h
  rw [FixedHeader.expectedLen] at hlength
  have hvar : (headerOf data).varLen ≤ (data.drop fixedHeaderSize).length := by
    rw [List.length_drop]
    omega
  obtain ⟨hlens, hflatten, hrest⟩ := splitLengths_spec hvar
  have hfields : ((headerOf data).packet (data.drop fixedHeaderSize)).fields = _ :=
    six_fields rfl hvar
  have hbodyRest : ((headerOf data).packet (data.drop fixedHeaderSize)).body =
      (data.drop fixedHeaderSize).drop (headerOf data).varLen := by
    rw [FixedHeader.packet]
    dsimp only
    rw [hrest, List.take_of_length_le]
    · rfl
    · rw [List.length_drop, List.length_drop]
      show _ - _ - (headerOf data).varLen ≤ _
      omega
  have hbodyLength : ((headerOf data).packet (data.drop fixedHeaderSize)).body.length =
      (headerOf data).bodyLen.toNat := by
    rw [hbodyRest, List.length_drop, List.length_drop]
    omega
  have hbodyLt := UInt32.toNat_lt (headerOf data).bodyLen
  refine ⟨⟨?_, ?_⟩, hversion, ?_, ?_⟩
  · intro field hfield
    have hmem : field.length ∈ (headerOf data).fieldLens.map UInt16.toNat := by
      rw [← hlens, ← hfields]
      exact List.mem_map_of_mem hfield
    obtain ⟨len, -, hlen⟩ := List.mem_map.mp hmem
    have hlt := UInt16.toNat_lt len
    rw [maxUint16]
    omega
  · rw [hbodyLength, maxUint32]
    omega
  · rw [hbodyLength]
    exact UInt32.le_iff_toNat_le.mp hbody
  · have hheader : encodeHeader ((headerOf data).packet (data.drop fixedHeaderSize)) =
        data.take fixedHeaderSize := by
      refine encodeHeader_parseHeader ?_ hmagic rfl rfl rfl rfl rfl ?_ hbodyLength
      · rw [List.length_take]
        omega
      · rw [hfields]
        exact hlens
    rw [encodeBytes, hheader, hfields, hflatten, hbodyRest]
    show data.take _ ++ ((data.drop _).take (headerOf data).varLen ++ _) = data
    rw [List.take_append_drop, List.take_append_drop]

/-! ## The codec is a bijection -/

/-- The length that the header of a byte string gives. -/
def declaredLength (data : Bytes) : Nat := (headerOf data).expectedLen

theorem rejected_of_length {data : Bytes}
    (h : data.length < fixedHeaderSize ∨ declaredLength data ≠ data.length) :
    ∃ err, decodeWithMaxBodySize data maxBodySize = .error err := by
  cases hdecode : decodeWithMaxBodySize data maxBodySize with
  | error err => exact ⟨err, rfl⟩
  | ok packet =>
    obtain ⟨hlong, -, -, -, hlength, -⟩ := decode_ok_iff.mp hdecode
    rcases h with hshort | hdiffer
    · omega
    · exact absurd hlength hdiffer

theorem declaredLength_encodeBytes (h : WithinLimits packet) :
    declaredLength (encodeBytes packet) = (encodeBytes packet).length := by
  obtain ⟨hlens, hbody⟩ := headerOf_encodeBytes h
  rw [declaredLength, FixedHeader.expectedLen, FixedHeader.varLen, hlens, hbody, length_encodeBytes]

theorem declaredLength_congr (data data' : Bytes)
    (h : data.take fixedHeaderSize = data'.take fixedHeaderSize) :
    declaredLength data = declaredLength data' := by
  rw [declaredLength, declaredLength, headerOf, headerOf, h]

/-- The packet codec is a bijection. Within the limits a packet is encoded, and decoded to the
same packet with the protocol version; what is accepted is what encoding its packet gives; the
accepted byte strings are exactly the encodings with a body within the limit. So an encoding cut
short or extended is refused, and so is one whose lengths are changed to another total. -/
theorem packet_codec_bijective (maxBodySize : UInt32) :
    (∀ packet : Packet, (∀ field ∈ packet.fields, field.length ≤ 65535) →
      packet.body.length ≤ 4294967295 → packet.body.length ≤ maxBodySize.toNat →
      ∃ data, encode (some packet) = .ok (data, { packet with version := version }) ∧
        decodeWithMaxBodySize data maxBodySize = .ok { packet with version := version }) ∧
    (∀ data packet, decodeWithMaxBodySize data maxBodySize = .ok packet →
      encode (some packet) = .ok (data, packet)) ∧
    (∀ data, (∃ packet, decodeWithMaxBodySize data maxBodySize = .ok packet) ↔
      ∃ packet stamped, packet.body.length ≤ maxBodySize.toNat ∧
        encode (some packet) = .ok (data, stamped)) ∧
    (∀ packet data stamped, encode (some packet) = .ok (data, stamped) →
      (∀ n < data.length, ∃ err, decodeWithMaxBodySize (data.take n) maxBodySize = .error err) ∧
      (∀ extra, extra ≠ [] →
        ∃ err, decodeWithMaxBodySize (data ++ extra) maxBodySize = .error err) ∧
      ∀ data', data'.length = data.length → declaredLength data' ≠ declaredLength data →
        ∃ err, decodeWithMaxBodySize data' maxBodySize = .error err) := by
  have hround : ∀ packet data stamped, encode (some packet) = .ok (data, stamped) →
      packet.body.length ≤ maxBodySize.toNat →
      decodeWithMaxBodySize data maxBodySize = .ok stamped := by
    intro packet data stamped hencode hbody
    obtain ⟨hlimits, rfl, rfl⟩ := encode_ok_iff.mp hencode
    exact decode_encodeBytes hlimits rfl hbody
  have hinverse : ∀ data packet, decodeWithMaxBodySize data maxBodySize = .ok packet →
      encode (some packet) = .ok (data, packet) ∧ packet.body.length ≤ maxBodySize.toNat := by
    intro data packet hdecode
    obtain ⟨hlimits, hversion, hbody, hdata⟩ := encodeBytes_of_decode hdecode
    refine ⟨encode_ok_iff.mpr ⟨hlimits, ?_, hdata.symm⟩, hbody⟩
    rw [← hversion]
  refine ⟨?_, fun data packet h => (hinverse data packet h).1, ?_, ?_⟩
  · intro packet hfields hlarge hbody
    have hencode : encode (some packet) = .ok (encodeBytes { packet with version := version },
        { packet with version := version }) :=
      encode_ok_iff.mpr ⟨⟨hfields, hlarge⟩, rfl, rfl⟩
    exact ⟨_, hencode, hround _ _ _ hencode hbody⟩
  · intro data
    constructor
    · rintro ⟨packet, hdecode⟩
      obtain ⟨hencode, hbody⟩ := hinverse data packet hdecode
      exact ⟨packet, packet, hbody, hencode⟩
    · rintro ⟨packet, stamped, hbody, hencode⟩
      exact ⟨stamped, hround packet data stamped hencode hbody⟩
  · intro packet data stamped hencode
    obtain ⟨hlimits, rfl, rfl⟩ := encode_ok_iff.mp hencode
    have hdeclared : declaredLength (encodeBytes { packet with version := version }) = _ :=
      declaredLength_encodeBytes hlimits
    refine ⟨?_, ?_, ?_⟩
    · intro n hn
      apply rejected_of_length
      rw [List.length_take, Nat.min_eq_left (Nat.le_of_lt hn)]
      by_cases hshort : n < fixedHeaderSize
      · exact .inl hshort
      · right
        rw [declaredLength_congr _ (encodeBytes { packet with version := version }),
          hdeclared]
        · omega
        · rw [List.take_take, Nat.min_eq_left (Nat.le_of_not_lt hshort)]
    · intro extra hextra
      have hpos := List.length_pos_of_ne_nil hextra
      apply rejected_of_length
      right
      rw [declaredLength_congr _ (encodeBytes { packet with version := version }),
        hdeclared, List.length_append]
      · omega
      · rw [List.take_append_of_le_length]
        rw [length_encodeBytes]
        omega
    · intro data' hlength hdiffer
      apply rejected_of_length
      right
      rw [hlength, ← hdeclared]
      exact hdiffer

def bindPacket : Packet :=
  ⟨0, 1, 1000, 7, -2, ascii "client", ascii "device", [], ascii "m1", [], ascii "secret", [1, 2]⟩

theorem packet_codec_bijective_bind :
    ∃ data, encode (some bindPacket) = .ok (data, { bindPacket with version := version }) ∧
      decodeWithMaxBodySize data 2 = .ok { bindPacket with version := version } :=
  (packet_codec_bijective 2).1 bindPacket (by decide) (by decide) (by decide)

end ZCourier.Protocol
