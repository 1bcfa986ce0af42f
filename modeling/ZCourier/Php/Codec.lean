import ZCourier.Php.Integer64
import ZCourier.Protocol.Codec

/-!
# The packet codec in PHP

`Packet` and `Codec` of the PHP SDK (`sdk/php/src/Protocol`). PHP computes the length of a packet
before it reads the strings, where Go reads on until the bytes run out; `codecs_agree` says that the
results are the same.
-/

namespace ZCourier.Php

open Go Library

/-- `Packet`. -/
structure Packet where
  msgId : Int
  body : Bytes
  version : Int
  flags : Int
  sequence : GoString
  timestamp : GoString
  clientId : GoString
  deviceId : GoString
  sessionId : GoString
  messageId : GoString
  traceId : GoString
  token : GoString
  deriving DecidableEq

/-- The constructor of `Packet`, which makes the two texts normal. -/
def Packet.construct (arguments : Packet) : Except ProtocolException Packet :=
  match Integer64.normalizeUnsigned arguments.sequence with
  | .error err => .error err
  | .ok sequence =>
    match Integer64.normalizeSigned arguments.timestamp with
    | .error err => .error err
    | .ok timestamp => .ok { arguments with sequence := sequence, timestamp := timestamp }

/-- The strings of a packet, in the order of the wire. -/
def Packet.fields (packet : Packet) : List GoString :=
  [packet.clientId, packet.deviceId, packet.sessionId, packet.messageId, packet.traceId,
    packet.token]

/-- `Packet::DEFAULT_MAX_BODY_SIZE`. -/
def defaultMaxBodySize : Int := 4194304

/-- `pack` of the formats `n` and `N`: a number in the given number of bytes. -/
def pack (width : Nat) (n : Int) : Bytes := beBytes width (n % 256 ^ width).toNat

/-- `unpack` of the format `n`. -/
def unpack16 (data : Bytes) (offset : Nat) : Nat := beNat (slice data offset 2)

/-- `unpack` of the format `N`. -/
def unpack32 (data : Bytes) (offset : Nat) : Nat := beNat (slice data offset 4)

namespace Codec

/-- `Packet::MAGIC`. -/
def magic : Nat := 0x5A43

/-- `Packet::VERSION`. -/
def version : Int := 1

/-- `Packet::FIXED_HEADER_SIZE`. -/
def fixedHeaderSize : Nat := 41

/-- `requireUnsigned`. -/
def requireUnsigned (value maximum : Int) (name : GoString) : Except ProtocolException Unit :=
  if value < 0 ∨ maximum < value then
    .error ⟨.invalidInteger, name ++ ascii " is out of range: " ++ formatInt value⟩
  else .ok ()

/-- `Codec::encode`. -/
def encode (packet : Packet) : Except ProtocolException Bytes := do
  requireUnsigned packet.flags 0xFFFF (ascii "flags")
  requireUnsigned packet.msgId 0xFFFFFFFF (ascii "MsgID")
  if packet.fields.any fun field => 0xFFFF < field.length then
    .error ⟨.fieldTooLarge, ascii "string field exceeds 65535 bytes"⟩
  else if 0xFFFFFFFF < packet.body.length then
    .error ⟨.bodyTooLarge, ascii "body exceeds 4294967295 bytes"⟩
  else
    let sequence ← Integer64.encodeUnsigned packet.sequence
    let timestamp ← Integer64.encodeSigned packet.timestamp
    .ok (pack 2 magic ++ ([chr version] ++ (pack 2 packet.flags ++ (pack 4 packet.msgId ++
      (sequence ++ (timestamp ++
        (packet.fields.flatMap (fun field => pack 2 field.length) ++
          (pack 4 packet.body.length ++ (packet.fields.flatten ++ packet.body)))))))))

/-- The lengths of the strings that the header gives. -/
def fieldLengths (data : Bytes) : List Nat :=
  (List.range 6).map fun index => unpack16 data (25 + 2 * index)

/-- What `Codec::decode` passes to the constructor of `Packet`. -/
def arguments (data : Bytes) (sequence timestamp : GoString) : Packet :=
  let parts := splitLengths (fieldLengths data) (data.drop fixedHeaderSize)
  { msgId := unpack32 data 5
    body := parts.2.take (unpack32 data 37)
    version := ord (data.getD 2 0)
    flags := unpack16 data 3
    sequence := sequence
    timestamp := timestamp
    clientId := parts.1.getD 0 []
    deviceId := parts.1.getD 1 []
    sessionId := parts.1.getD 2 []
    messageId := parts.1.getD 3 []
    traceId := parts.1.getD 4 []
    token := parts.1.getD 5 [] }

/-- `Codec::decode`. -/
def decode (data : Bytes) (maxBodySize : Int) : Except ProtocolException Packet :=
  if maxBodySize < 0 then .error ⟨.bodyTooLarge, ascii "maximum body size cannot be negative"⟩
  else if data.length < fixedHeaderSize then
    .error ⟨.packetTooShort,
      ascii "packet has " ++ formatInt data.length ++ ascii " bytes; expected at least 41"⟩
  else if unpack16 data 0 ≠ magic then .error ⟨.invalidMagic, ascii "invalid packet magic"⟩
  else if ord (data.getD 2 0) ≠ version then
    .error ⟨.unsupportedVersion,
      ascii "unsupported packet version: " ++ formatInt (ord (data.getD 2 0))⟩
  else do
    let sequence ← Integer64.decodeUnsigned (slice data 9 8)
    let timestamp ← Integer64.decodeSigned (slice data 17 8)
    let bodyLength := unpack32 data 37
    if maxBodySize < bodyLength then
      .error ⟨.bodyTooLarge, ascii "body has " ++ formatInt bodyLength ++
        ascii " bytes; maximum is " ++ formatInt maxBodySize⟩
    else
      let expectedLength := fixedHeaderSize + (fieldLengths data).sum + bodyLength
      if expectedLength ≠ data.length then
        .error ⟨.lengthMismatch, ascii "packet length is " ++ formatInt data.length ++
          ascii "; expected " ++ formatInt expectedLength⟩
      else (arguments data sequence timestamp).construct

end Codec

/-! ## The packets of both sides -/

/-- The packet that stands for a packet of the Go side: sequence and timestamp are decimal texts. -/
def ofGo (packet : Server.Packet) : Packet where
  msgId := packet.msgID.toNat
  body := packet.body
  version := packet.version.toNat
  flags := packet.flags.toNat
  sequence := formatNat packet.seq.toNat
  timestamp := formatInt packet.timestamp.toInt
  clientId := packet.clientID
  deviceId := packet.deviceID
  sessionId := packet.sessionID
  messageId := packet.messageID
  traceId := packet.traceID
  token := packet.token

/-- The kind of exception that stands for an error of the Go side; PHP has no null packet. -/
def exceptionKind : Protocol.PacketErrorKind → Option ExceptionKind
  | .nilPacket => none
  | .invalidMagic => some .invalidMagic
  | .unsupportedVersion => some .unsupportedVersion
  | .bodyTooLarge => some .bodyTooLarge
  | .packetTooShort => some .packetTooShort
  | .lengthMismatch => some .lengthMismatch
  | .fieldTooLarge => some .fieldTooLarge

/-- Both sides accept with the same values, or refuse with the same kind of error. -/
def SameDecoding (go : Except Protocol.PacketError Server.Packet)
    (php : Except ProtocolException Packet) : Prop :=
  match go, php with
  | .ok packet, .ok packet' => packet' = ofGo packet
  | .error err, .error err' => exceptionKind err.kind = some err'.kind
  | _, _ => False

theorem signedValue_toUInt64 (t : Int64) : Integer64.signedValue t.toUInt64.toNat = t.toInt := by
  have hcond : t.toInt = if 2 * t.toUInt64.toNat < 2 ^ 64 then (t.toUInt64.toNat : Int)
      else (t.toUInt64.toNat : Int) - ((2 ^ 64 : Nat) : Int) :=
    BitVec.toInt_eq_toNat_cond t.toBitVec
  rw [hcond, Integer64.signedValue]
  split <;> split <;> omega

theorem construct_ofGo (packet : Server.Packet) : (ofGo packet).construct = .ok (ofGo packet) := by
  have hmin := packet.timestamp.le_toInt
  have hmax := packet.timestamp.toInt_lt
  have hseq : Integer64.normalizeUnsigned (formatNat packet.seq.toNat) =
      .ok (formatNat packet.seq.toNat) :=
    Integer64.normalizeUnsigned_decimal (is_decimal_format (by have := packet.seq.toNat_lt; omega))
      packet.seq.toNat_lt
  have htimestamp := Integer64.normalizeSigned_format hmin hmax
  rw [Packet.construct, ofGo]
  dsimp only
  rw [hseq, htimestamp]

/-! ## Decoding -/

section Decoding

open Protocol (headerOf)

variable {data : Bytes}

theorem slice_header (offset length : Nat) (h : offset + length ≤ 41) :
    slice (data.take Protocol.fixedHeaderSize) offset length = slice data offset length :=
  slice_take data h

theorem length_header_slice (hlong : ¬ data.length < 41) (offset length : Nat)
    (h : offset + length ≤ 41) : (slice data offset length).length = length :=
  length_slice (by omega)

theorem header_fields (hlong : ¬ data.length < 41) :
    (Protocol.uint16 (slice (data.take Protocol.fixedHeaderSize) 0 2)).toNat = unpack16 data 0 ∧
      ((headerOf data).version.toNat : Int) = ord (data.getD 2 0) ∧
      (headerOf data).flags.toNat = unpack16 data 3 ∧
      (headerOf data).msgID.toNat = unpack32 data 5 ∧
      (headerOf data).seq.toNat = beNat (slice data 9 8) ∧
      (headerOf data).timestamp.toUInt64.toNat = beNat (slice data 17 8) ∧
      (headerOf data).fieldLens.map UInt16.toNat = Codec.fieldLengths data ∧
      (headerOf data).bodyLen.toNat = unpack32 data 37 := by
  have hlength := length_header_slice hlong
  rw [headerOf, Protocol.parseHeader]
  dsimp only
  refine ⟨?_, ?_, ?_, ?_, ?_, ?_, ?_, ?_⟩
  · rw [slice_header _ _ (by decide), Protocol.toNat_uint16 (hlength _ _ (by decide)), unpack16]
  · rw [ord, List.getD_eq_getElem?_getD, List.getD_eq_getElem?_getD,
      List.getElem?_take_of_lt (by decide)]
  · rw [slice_header _ _ (by decide), Protocol.toNat_uint16 (hlength _ _ (by decide)), unpack16]
  · rw [slice_header _ _ (by decide), Protocol.toNat_uint32 (hlength _ _ (by decide)), unpack32]
  · rw [slice_header _ _ (by decide), Protocol.toNat_uint64 (hlength _ _ (by decide))]
  · rw [slice_header _ _ (by decide), UInt64.toUInt64_toInt64,
      Protocol.toNat_uint64 (hlength _ _ (by decide))]
  · rw [List.map_map, Codec.fieldLengths]
    refine List.map_congr_left fun index hindex => ?_
    have hlt := List.mem_range.mp hindex
    rw [Function.comp, slice_header _ _ (by omega),
      Protocol.toNat_uint16 (hlength _ _ (by omega)), unpack16]
  · rw [slice_header _ _ (by decide), Protocol.toNat_uint32 (hlength _ _ (by decide)), unpack32]

theorem arguments_eq (hlong : ¬ data.length < 41) :
    Codec.arguments data (formatNat (beNat (slice data 9 8)))
        (formatInt (Integer64.signedValue (beNat (slice data 17 8)))) =
      ofGo ((headerOf data).packet (data.drop Protocol.fixedHeaderSize)) := by
  obtain ⟨-, hversion, hflags, hmsgID, hseq, htimestamp, hlens, hbody⟩ := header_fields hlong
  rw [ofGo, Protocol.FixedHeader.packet]
  dsimp only
  rw [hmsgID, hflags, hversion, hseq, ← signedValue_toUInt64, htimestamp, hlens, hbody]
  rfl

theorem decode_agrees (data : Bytes) (maxBodySize : UInt32) :
    SameDecoding (Protocol.decodeWithMaxBodySize data maxBodySize)
      (Codec.decode data maxBodySize.toNat) := by
  have hlimit : ¬ (maxBodySize.toNat : Int) < 0 := by omega
  rw [Protocol.decode_eq, Codec.decode, if_neg hlimit]
  by_cases hshort : data.length < 41
  · have hgo : data.length < Protocol.fixedHeaderSize := hshort
    have hphp : data.length < Codec.fixedHeaderSize := hshort
    rw [if_pos hgo, if_pos hphp]
    rfl
  have hgo : ¬ data.length < Protocol.fixedHeaderSize := hshort
  have hphp : ¬ data.length < Codec.fixedHeaderSize := hshort
  rw [if_neg hgo, if_neg hphp]
  obtain ⟨hmagic, hversion, -, -, -, -, hlens, hbody⟩ := header_fields hshort
  have hheader : Protocol.parseHeader (data.take Protocol.fixedHeaderSize) = headerOf data := rfl
  rw [Protocol.readHeader, hheader]
  by_cases hmagic' : unpack16 data 0 = Codec.magic
  swap
  · have hne : Protocol.uint16 (slice (data.take Protocol.fixedHeaderSize) 0 2) ≠
    Protocol.magic := by
      intro heq
      rw [heq] at hmagic
      exact hmagic' hmagic.symm
    rw [if_pos hne, if_pos hmagic']
    rfl
  have heq : Protocol.uint16 (slice (data.take Protocol.fixedHeaderSize) 0 2) = Protocol.magic :=
    UInt16.toNat_inj.mp (hmagic.trans hmagic')
  rw [if_neg (not_not.mpr heq), if_neg (not_not.mpr hmagic')]
  dsimp only
  by_cases hversion' : ord (data.getD 2 0) = Codec.version
  swap
  · have hne : (headerOf data).version ≠ Protocol.version := by
      intro heq
      rw [heq] at hversion
      exact hversion' hversion.symm
    rw [if_pos hne, if_pos hversion']
    rfl
  have hversionEq : (headerOf data).version = Protocol.version := by
    apply UInt8.toNat_inj.mp
    have hone : ((headerOf data).version.toNat : Int) = 1 := hversion.trans hversion'
    have htoNat : Protocol.version.toNat = 1 := rfl
    omega
  rw [if_neg (not_not.mpr hversionEq), if_neg (not_not.mpr hversion'),
    Integer64.decodeUnsigned_format (length_header_slice hshort 9 8 (by decide)),
    Integer64.decodeSigned_format (length_header_slice hshort 17 8 (by decide))]
  simp only [bind, Except.bind]
  by_cases hlarge : maxBodySize < (headerOf data).bodyLen
  · have hlarge' := UInt32.lt_iff_toNat_lt.mp hlarge
    have hphp : (maxBodySize.toNat : Int) < (unpack32 data 37 : Int) := by omega
    rw [if_pos hlarge, if_pos hphp]
    rfl
  have hlarge' := UInt32.le_iff_toNat_le.mp (UInt32.not_lt.mp hlarge)
  have hexpected : (headerOf data).expectedLen =
      Codec.fixedHeaderSize + (Codec.fieldLengths data).sum + unpack32 data 37 := by
    rw [Protocol.FixedHeader.expectedLen, Protocol.FixedHeader.varLen, hlens, hbody]
    rfl
  have hfits : ¬ (maxBodySize.toNat : Int) < (unpack32 data 37 : Int) := by omega
  rw [if_neg hlarge, if_neg hfits, ← hexpected]
  dsimp only
  by_cases hlength : (headerOf data).expectedLen = data.length
  swap
  · rw [if_pos hlength]
    split
    · rfl
    · rfl
  have hcomplete : ¬ data.length < (headerOf data).expectedLen := by omega
  rw [if_neg hcomplete, if_neg (not_not.mpr hlength), if_neg (not_not.mpr hlength)]
  rw [arguments_eq hshort, construct_ofGo]
  rfl

end Decoding

/-! ## Encoding -/

theorem pack_natCast (width n : Nat) : pack width n = beBytes width n := by
  have hmod : ((n : Int) % 256 ^ width).toNat = n % 256 ^ width := by
    have hcast : (n : Int) % 256 ^ width = ((n % 256 ^ width : Nat) : Int) := by push_cast; rfl
    rw [hcast, Int.toNat_natCast]
  rw [pack, hmod, beBytes_mod]

theorem requireUnsigned_natCast {n : Nat} {maximum : Int} (name : GoString)
    (h : (n : Int) ≤ maximum) :
    Codec.requireUnsigned n maximum name = .ok () := by
  rw [Codec.requireUnsigned, if_neg (by omega)]

theorem encode_agrees {packet : Server.Packet} (h : Protocol.WithinLimits packet) :
    Codec.encode (ofGo packet) =
      .ok (Protocol.encodeBytes { packet with version := Protocol.version }) := by
  obtain ⟨hfields, hbody⟩ := h
  have hflags := packet.flags.toNat_lt
  have hmsgID := packet.msgID.toNat_lt
  have hany : ¬ ((ofGo packet).fields.any fun field => decide (0xFFFF < field.length)) = true := by
    rw [List.any_eq_true]
    rintro ⟨field, hfield, hlarge⟩
    have hle := hfields field hfield
    rw [Protocol.maxUint16] at hle
    exact Nat.not_lt.mpr hle (of_decide_eq_true hlarge)
  have hlarge : ¬ 0xFFFFFFFF < (ofGo packet).body.length := Nat.not_lt.mpr hbody
  have hsequence : Integer64.encodeUnsigned (ofGo packet).sequence =
    .ok (beBytes 8 packet.seq.toNat) :=
    Integer64.encodeUnsigned_format packet.seq.toNat_lt
  have htimestamp : Integer64.encodeSigned (ofGo packet).timestamp =
      .ok (beBytes 8 packet.timestamp.toUInt64.toNat) := by
    rw [ofGo, ← signedValue_toUInt64]
    exact Integer64.encodeSigned_format packet.timestamp.toUInt64.toNat_lt
  rw [Codec.encode]
  have hflagsOk : Codec.requireUnsigned (ofGo packet).flags 0xFFFF (ascii "flags") = .ok () :=
    requireUnsigned_natCast _ (by omega)
  have hmsgIDOk : Codec.requireUnsigned (ofGo packet).msgId 0xFFFFFFFF (ascii "MsgID") = .ok () :=
    requireUnsigned_natCast _ (by omega)
  rw [hflagsOk, hmsgIDOk]
  simp only [bind, Except.bind]
  rw [if_neg hany, if_neg hlarge, hsequence, htimestamp]
  have hflagsBytes : pack 2 (ofGo packet).flags = beBytes 2 packet.flags.toNat := pack_natCast 2 _
  have hmsgIDBytes : pack 4 (ofGo packet).msgId = beBytes 4 packet.msgID.toNat := pack_natCast 4 _
  simp only [hflagsBytes, hmsgIDBytes, pack_natCast]
  rw [Protocol.encodeBytes, Protocol.encodeHeader]
  simp only [List.append_assoc]
  rfl

/-- The Go and the PHP codec are the same codec. Every byte string is accepted by both with the same
values or refused by both with the same kind of error, and a packet within the limits is encoded to
the same bytes. -/
theorem codecs_agree :
    (∀ (data : Bytes) (maxBodySize : UInt32),
      SameDecoding (Protocol.decodeWithMaxBodySize data maxBodySize)
        (Codec.decode data maxBodySize.toNat)) ∧
    ∀ packet : Server.Packet, (∀ field ∈ packet.fields, field.length ≤ 65535) →
      packet.body.length ≤ 4294967295 →
      (ofGo packet).construct = .ok (ofGo packet) ∧
        ∃ data, Protocol.encode (some packet) =
            .ok (data, { packet with version := Protocol.version }) ∧
          Codec.encode (ofGo packet) = .ok data := by
  refine ⟨decode_agrees, fun packet hfields hbody => ⟨construct_ofGo packet, ?_⟩⟩
  have hlimits : Protocol.WithinLimits packet := ⟨hfields, hbody⟩
  exact ⟨_, Protocol.encode_ok_iff.mpr ⟨hlimits, rfl, rfl⟩, encode_agrees hlimits⟩

theorem codecs_agree_bind :
    (ofGo Protocol.bindPacket).construct = .ok (ofGo Protocol.bindPacket) ∧
      ∃ data, Protocol.encode (some Protocol.bindPacket) =
          .ok (data, { Protocol.bindPacket with version := Protocol.version }) ∧
        Codec.encode (ofGo Protocol.bindPacket) = .ok data :=
  codecs_agree.2 Protocol.bindPacket (by decide) (by decide)

end ZCourier.Php
