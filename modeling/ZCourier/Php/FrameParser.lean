import ZCourier.Php.Codec
import ZCourier.Protocol.Frame

/-!
# The frame parser in PHP

`FrameCodec` and `FrameParser` of the PHP SDK. A parser keeps the bytes of an unfinished frame
between calls of `push`. A call that throws does not return the packets it has decoded
(`packet_lost`). The packets returned are those that Go's reader yields before its first error,
however the stream is cut into chunks, exactly if no chunk that brings a bad frame completes a good
one before it (`push_returns`).
-/

namespace ZCourier.Php

open Go Library

namespace FrameCodec

/-- `FrameCodec::HEADER_SIZE`. -/
def headerSize : Nat := 8

/-- `FrameCodec::DEFAULT_MAX_PAYLOAD_SIZE`. -/
def defaultMaxPayloadSize : Int := 8388608

/-- The exception for a payload above the limit. -/
def frameTooLarge (payloadLength : Nat) (limit : Int) : ProtocolException :=
  ⟨.frameTooLarge, ascii "frame payload has " ++ formatInt payloadLength ++
    ascii " bytes; maximum is " ++ formatInt limit⟩

/-- `normalizeLimit`. -/
def normalizeLimit (limit : Int) : Except ProtocolException Int :=
  if limit < 0 then .error ⟨.frameTooLarge, ascii "maximum frame payload cannot be negative"⟩
  else .ok (if limit = 0 then defaultMaxPayloadSize else limit)

/-- `FrameCodec::encode`. -/
def encode (packet : Packet) (maxPayloadSize : Int) : Except ProtocolException Bytes := do
  let payload ← Codec.encode packet
  let limit ← normalizeLimit maxPayloadSize
  if limit < payload.length then .error (frameTooLarge payload.length limit)
  else .ok (pack 4 packet.msgId ++ (pack 4 payload.length ++ payload))

/-- `FrameCodec::payloadLength`. -/
def payloadLength (header : Bytes) : Except ProtocolException Nat :=
  if header.length < headerSize then .error ⟨.frameTooShort, ascii "frame header is incomplete"⟩
  else .ok (unpack32 header 4)

/-- `FrameCodec::decodePayload`. -/
def decodePayload (outerMsgId : Nat) (payload : Bytes) (maxBodySize : Int) :
    Except ProtocolException Packet := do
  let packet ← Codec.decode payload (if maxBodySize = 0 then defaultMaxBodySize else maxBodySize)
  if (outerMsgId : Int) ≠ packet.msgId then
    .error ⟨.outerInnerMsgIdMismatch, ascii "outer MsgID " ++ formatInt outerMsgId ++
      ascii " differs from inner MsgID " ++ formatInt packet.msgId⟩
  else .ok packet

/-- `FrameCodec::decode`. -/
def decode (frame : Bytes) (maxPayloadSize maxBodySize : Int) : Except ProtocolException Packet :=
  if frame.length < headerSize then
    .error ⟨.frameTooShort,
      ascii "frame has " ++ formatInt frame.length ++ ascii " bytes; expected at least 8"⟩
  else do
    let limit ← normalizeLimit maxPayloadSize
    if limit < unpack32 frame 4 then .error (frameTooLarge (unpack32 frame 4) limit)
    else if unpack32 frame 4 + headerSize ≠ frame.length then
      .error ⟨.frameLengthMismatch, ascii "frame length is " ++ formatInt frame.length ++
        ascii "; expected " ++ formatInt (unpack32 frame 4 + headerSize)⟩
    else decodePayload (unpack32 frame 0) (frame.drop headerSize) maxBodySize

end FrameCodec

/-- `FrameParser`. -/
structure FrameParser where
  maxPayloadSize : Int
  maxBodySize : Int
  buffer : Bytes
  deriving DecidableEq

namespace FrameParser

/-- The constructor of `FrameParser`. -/
def construct (maxPayloadSize maxBodySize : Int) : Except ProtocolException FrameParser :=
  if maxPayloadSize < 0 ∨ maxBodySize < 0 then
    .error ⟨.frameTooLarge, ascii "parser limits cannot be negative"⟩
  else .ok ⟨maxPayloadSize, maxBodySize, []⟩

/-- What one round of the loop of `push` does. -/
inductive Round where
  /-- The buffer holds no whole frame. -/
  | stop
  | throw (exception : ProtocolException) (buffer : Bytes)
  | decoded (packet : Packet) (buffer : Bytes)

/-- One round of the loop of `push`. -/
def round (parser : FrameParser) : Round :=
  if parser.buffer.length < FrameCodec.headerSize then .stop
  else
    match FrameCodec.payloadLength parser.buffer with
    | .error exception => .throw exception parser.buffer
    | .ok payloadLength =>
      let limit :=
        if parser.maxPayloadSize = 0 then FrameCodec.defaultMaxPayloadSize
        else parser.maxPayloadSize
      if limit < payloadLength then
        .throw (FrameCodec.frameTooLarge payloadLength limit) parser.buffer
      else
        let frameLength := FrameCodec.headerSize + payloadLength
        if parser.buffer.length < frameLength then .stop
        else
          let buffer := parser.buffer.drop frameLength
          match FrameCodec.decode (parser.buffer.take frameLength) limit parser.maxBodySize with
          | .error exception => .throw exception buffer
          | .ok packet => .decoded packet buffer

/-- How the loop of `push` ends: the packets it has decoded, and the exception if it threw one. -/
structure Outcome where
  packets : List Packet
  exception : Option ProtocolException
  parser : FrameParser

/-- The loop of `push`, in which every round but the last takes a frame off the buffer. -/
def pushLoop : Nat → FrameParser → List Packet → Outcome
  | 0, parser, packets => ⟨packets, none, parser⟩
  | fuel + 1, parser, packets =>
    match parser.round with
    | .stop => ⟨packets, none, parser⟩
    | .throw exception buffer => ⟨packets, some exception, { parser with buffer := buffer }⟩
    | .decoded packet buffer =>
      pushLoop fuel { parser with buffer := buffer } (packets ++ [packet])

/-- The loop of `push` for one chunk. -/
def pushOutcome (parser : FrameParser) (chunk : Bytes) : Outcome :=
  let parser := { parser with buffer := parser.buffer ++ chunk }
  pushLoop (parser.buffer.length + 1) parser []

/-- `FrameParser::push`: an exception takes the place of the packets. -/
def push (parser : FrameParser) (chunk : Bytes) :
    Except ProtocolException (List Packet) × FrameParser :=
  let outcome := parser.pushOutcome chunk
  match outcome.exception with
  | some exception => (.error exception, outcome.parser)
  | none => (.ok outcome.packets, outcome.parser)

/-- Push chunks one after another, up to the first exception: the packets returned. -/
def pushAll : FrameParser → List Bytes → List Packet
  | _, [] => []
  | parser, chunk :: chunks =>
    match parser.push chunk with
    | (.error _, _) => []
    | (.ok packets, parser) => packets ++ parser.pushAll chunks

/-! ## Bad frames -/

/-- An error of a frame that no further byte can mend, other than one of a stream that has ended. -/
def isBad : Protocol.FrameError → Bool
  | .packet _ | .frameTooLarge .. | .frameMsgIDMismatch .. => true
  | _ => false

/-- A stream whose first error is a bad frame: one that is announced with too large a payload, or
one that is complete and not decoded. -/
def hasBadFrame (maxPayloadSize maxBodySize : UInt32) (stream : Bytes) : Bool :=
  (Protocol.splitPackets maxPayloadSize maxBodySize (stream.length + 1) stream).2.any isBad

/-- A stream in chunks: the chunk with which it gets a bad frame does not also complete a good frame
before it. The bytes before the chunks come first. -/
def badApart (maxPayloadSize maxBodySize : UInt32) : Bytes → List Bytes → Bool
  | _, [] => true
  | seen, chunk :: chunks =>
    if hasBadFrame maxPayloadSize maxBodySize (seen ++ chunk) then
      Protocol.packetsOf maxPayloadSize maxBodySize (seen ++ chunk) =
        Protocol.packetsOf maxPayloadSize maxBodySize seen
    else badApart maxPayloadSize maxBodySize (seen ++ chunk) chunks

section BadFrames

variable {maxPayloadSize maxBodySize : UInt32} {stream rest : Bytes}

theorem hasBadFrame_error {err : Protocol.FrameError}
    (h : Protocol.splitPacket maxPayloadSize maxBodySize stream = .error err) :
    hasBadFrame maxPayloadSize maxBodySize stream = isBad err := by
  rw [hasBadFrame, Protocol.splitPackets, h]
  rfl

theorem hasBadFrame_ok {packet : Server.Packet}
    (h : Protocol.splitPacket maxPayloadSize maxBodySize stream = .ok (packet, rest)) :
    hasBadFrame maxPayloadSize maxBodySize stream =
      hasBadFrame maxPayloadSize maxBodySize rest := by
  have hshorter := Protocol.splitPacket_shorter h
  rw [hasBadFrame, hasBadFrame, Protocol.splitPackets, h]
  dsimp only
  rw [Protocol.splitPackets_fuel hshorter (Nat.lt_succ_self rest.length)]

theorem isBad_of_undecoded {frame : Protocol.WireFrame} {err : Protocol.FrameError}
    (h : Protocol.decodePacketFrame frame maxBodySize = .error err) : isBad err = true := by
  rw [Protocol.decodePacketFrame] at h
  split at h
  · cases h
    rfl
  · split at h
    · cases h
      rfl
    · cases h

end BadFrames

/-! ## One round -/

/-- A parser with the limits of a Go reader. -/
def ofLimits (maxPayloadSize maxBodySize : UInt32) (buffer : Bytes) : FrameParser :=
  ⟨maxPayloadSize.toNat, maxBodySize.toNat, buffer⟩

/-- A limit of zero stands for the default in both languages. -/
theorem default_limit (limit default : UInt32) :
    (if (limit.toNat : Int) = 0 then (default.toNat : Int) else (limit.toNat : Int)) =
      ((if limit = 0 then default else limit).toNat : Int) := by
  by_cases hzero : limit = 0
  · subst hzero
    rfl
  · have hne : ¬ (limit.toNat : Int) = 0 := by
      intro hnat
      exact hzero (UInt32.toNat_inj.mp (Int.natCast_eq_zero.mp hnat))
    rw [if_neg hne, if_neg hzero]

theorem limit_eq (maxPayloadSize : UInt32) :
    (if (maxPayloadSize.toNat : Int) = 0 then FrameCodec.defaultMaxPayloadSize
      else (maxPayloadSize.toNat : Int)) =
      ((Protocol.normalizeFrameLimit maxPayloadSize).toNat : Int) :=
  default_limit maxPayloadSize Protocol.defaultMaxFramePayloadSize

theorem bodyLimit_eq (maxBodySize : UInt32) :
    (if (maxBodySize.toNat : Int) = 0 then defaultMaxBodySize else (maxBodySize.toNat : Int)) =
      ((Protocol.normalizeBodyLimit maxBodySize).toNat : Int) :=
  default_limit maxBodySize Protocol.defaultMaxBodySize

theorem limit_ne_zero (maxPayloadSize : UInt32) :
    (Protocol.normalizeFrameLimit maxPayloadSize).toNat ≠ 0 := by
  rw [Protocol.normalizeFrameLimit]
  split
  · decide
  · next hne =>
    intro hzero
    exact hne (UInt32.toNat_inj.mp hzero)

/-- Both languages decode the payload of a frame to the same packet, or both refuse it. -/
theorem decodePayload_agrees (maxBodySize : UInt32) (frame : Protocol.WireFrame) :
    match Protocol.decodePacketFrame frame maxBodySize with
    | .ok packet =>
      FrameCodec.decodePayload frame.msgID.toNat frame.payload maxBodySize.toNat =
        .ok (ofGo packet)
    | .error _ =>
      ∃ exception,
        FrameCodec.decodePayload frame.msgID.toNat frame.payload maxBodySize.toNat =
          .error exception := by
  have hagrees := decode_agrees frame.payload (Protocol.normalizeBodyLimit maxBodySize)
  rw [Protocol.decodePacketFrame, FrameCodec.decodePayload, bodyLimit_eq]
  generalize Codec.decode frame.payload (Protocol.normalizeBodyLimit maxBodySize).toNat = php
    at hagrees
  generalize Protocol.decodeWithMaxBodySize frame.payload (Protocol.normalizeBodyLimit maxBodySize)
    = go at hagrees
  cases go with
  | error err =>
    cases php with
    | error exception => exact ⟨exception, rfl⟩
    | ok packet => exact hagrees.elim
  | ok packet =>
    cases php with
    | error exception => exact hagrees.elim
    | ok packet' =>
      obtain rfl : packet' = ofGo packet := hagrees
      simp only [bind, Except.bind]
      by_cases hid : frame.msgID = packet.msgID
      · have hphp : ¬ (frame.msgID.toNat : Int) ≠ (ofGo packet).msgId := by
          rw [hid]
          exact not_not.mpr rfl
        rw [if_neg (not_not.mpr hid), if_neg hphp]
      · have hphp : (frame.msgID.toNat : Int) ≠ (ofGo packet).msgId := by
          intro heq
          exact hid (UInt32.toNat_inj.mp (Int.ofNat.inj heq))
        rw [if_pos hid, if_pos hphp]
        exact ⟨_, rfl⟩

/-- A complete frame within the limit is decoded by its payload alone. -/
theorem decode_frame {buffer : Bytes} {size : Nat} (hsize : unpack32 buffer 4 = size)
    (hlong : FrameCodec.headerSize + size ≤ buffer.length) {limit : Nat} (hlimit : limit ≠ 0)
    (hle : size ≤ limit) (maxBodySize : Int) :
    FrameCodec.decode (buffer.take (FrameCodec.headerSize + size)) limit maxBodySize =
      FrameCodec.decodePayload (unpack32 buffer 0) (slice buffer FrameCodec.headerSize size)
        maxBodySize := by
  have hlength : (buffer.take (FrameCodec.headerSize + size)).length =
      FrameCodec.headerSize + size := by
    rw [List.length_take]
    omega
  have hfirst : unpack32 (buffer.take (FrameCodec.headerSize + size)) 0 = unpack32 buffer 0 := by
    rw [unpack32, unpack32, slice_take _ (by rw [FrameCodec.headerSize]; omega)]
  have hsecond : unpack32 (buffer.take (FrameCodec.headerSize + size)) 4 = size := by
    rw [← hsize, unpack32, unpack32, slice_take _ (by rw [FrameCodec.headerSize]; omega)]
  have hpayload : (buffer.take (FrameCodec.headerSize + size)).drop FrameCodec.headerSize =
      slice buffer FrameCodec.headerSize size := by
    rw [List.drop_take, Nat.add_sub_cancel_left, slice]
  have hnormal : FrameCodec.normalizeLimit limit = .ok (limit : Int) := by
    rw [FrameCodec.normalizeLimit, if_neg (by omega), if_neg (by omega)]
  rw [FrameCodec.decode, if_neg (by omega), hnormal]
  simp only [bind, Except.bind]
  rw [hfirst, hsecond, hpayload, if_neg (by omega), if_neg (by omega)]

section Round

open Protocol (splitPacket splitFrame normalizeFrameLimit outerFrameHeaderSize)

variable (maxPayloadSize maxBodySize : UInt32) {buffer : Bytes}

/-- A stream that ends in the header of its first frame has no bad frame. -/
theorem splitPacket_short (h : buffer.length < 8) :
    ∃ err, splitPacket maxPayloadSize maxBodySize buffer = .error err ∧ isBad err = false := by
  rw [splitPacket, splitFrame]
  by_cases hnil : buffer = []
  · rw [if_pos hnil]
    exact ⟨_, rfl, rfl⟩
  · have hgo : buffer.length < outerFrameHeaderSize := h
    rw [if_neg hnil, if_pos hgo]
    exact ⟨_, rfl, rfl⟩

/-- Behind a whole header Go reads the size that the parser reads, whatever bytes follow. -/
theorem splitFrame_header (h : ¬ buffer.length < 8) (more : Bytes) :
    splitFrame maxPayloadSize (buffer ++ more) =
      let limit := (normalizeFrameLimit maxPayloadSize).toNat
      let size := unpack32 buffer 4
      let data := buffer ++ more
      if limit < size then .error (.frameTooLarge size limit)
      else if data.length < 8 + size then
        .error (.frameLengthMismatch (data.length - 8) size
          (if data.drop 8 = [] then .eof else .unexpectedEOF))
      else .ok (⟨Protocol.uint32 (slice buffer 0 4), slice data 8 size⟩, data.drop (8 + size)) := by
  have hne : buffer ++ more ≠ [] := by
    intro hnil
    rw [(List.append_eq_nil_iff.mp hnil).1] at h
    exact h (by decide)
  have hlong : ¬ (buffer ++ more).length < outerFrameHeaderSize := by
    rw [List.length_append, outerFrameHeaderSize]
    omega
  have hsize : (Protocol.uint32 (slice buffer 4 4)).toNat = unpack32 buffer 4 :=
    Protocol.toNat_uint32 (length_slice (by omega))
  rw [splitFrame, slice_append_of_le more (by omega), slice_append_of_le more (by omega),
    if_neg hne, if_neg hlong]
  simp only [UInt32.lt_iff_toNat_lt, hsize, outerFrameHeaderSize]
  congr

/-- One round of the loop does what Go does with the first frame, with any bytes behind it. -/
theorem round_agrees (buffer : Bytes) :
    match (ofLimits maxPayloadSize maxBodySize buffer).round with
    | .stop =>
      ∃ err, splitPacket maxPayloadSize maxBodySize buffer = .error err ∧ isBad err = false
    | .throw _ _ =>
      ∀ more, ∃ err, splitPacket maxPayloadSize maxBodySize (buffer ++ more) = .error err ∧
        isBad err = true
    | .decoded packet rest =>
      ∃ packet', packet = ofGo packet' ∧ ∀ more,
        splitPacket maxPayloadSize maxBodySize (buffer ++ more) = .ok (packet', rest ++ more) := by
  rw [round, ofLimits]
  dsimp only
  by_cases hshort : buffer.length < FrameCodec.headerSize
  · rw [if_pos hshort]
    exact splitPacket_short maxPayloadSize maxBodySize hshort
  rw [if_neg hshort, FrameCodec.payloadLength, if_neg hshort, limit_eq]
  dsimp only
  have hheader := splitFrame_header maxPayloadSize hshort
  dsimp only at hheader
  by_cases htoo : (normalizeFrameLimit maxPayloadSize).toNat < unpack32 buffer 4
  · rw [if_pos (Int.ofNat_lt.mpr htoo)]
    intro more
    rw [splitPacket, hheader, if_pos htoo]
    exact ⟨_, rfl, rfl⟩
  rw [if_neg (by omega)]
  simp only [if_neg htoo] at hheader
  by_cases hcut : buffer.length < FrameCodec.headerSize + unpack32 buffer 4
  · rw [if_pos hcut]
    have hnone := hheader []
    rw [List.append_nil, if_pos (show buffer.length < 8 + unpack32 buffer 4 from hcut)] at hnone
    rw [splitPacket, hnone]
    exact ⟨_, rfl, rfl⟩
  have hle : 8 + unpack32 buffer 4 ≤ buffer.length := Nat.le_of_not_lt hcut
  rw [if_neg hcut, decode_frame rfl hle (limit_ne_zero maxPayloadSize) (by omega)]
  -- the frame is complete, and Go cuts it off in the same way
  have hsplit : ∀ more, splitFrame maxPayloadSize (buffer ++ more) =
      .ok (⟨Protocol.uint32 (slice buffer 0 4), slice buffer 8 (unpack32 buffer 4)⟩,
        buffer.drop (8 + unpack32 buffer 4) ++ more) := by
    intro more
    rw [hheader, if_neg (by rw [List.length_append]; omega), slice_append_of_le more hle,
      List.drop_append_of_le_length hle]
  have hagrees := decodePayload_agrees maxBodySize
    ⟨Protocol.uint32 (slice buffer 0 4), slice buffer 8 (unpack32 buffer 4)⟩
  rw [show unpack32 buffer 0 = (Protocol.uint32 (slice buffer 0 4)).toNat from
    (Protocol.toNat_uint32 (length_slice (by omega))).symm, FrameCodec.headerSize]
  cases hgo : Protocol.decodePacketFrame
      ⟨Protocol.uint32 (slice buffer 0 4), slice buffer 8 (unpack32 buffer 4)⟩ maxBodySize with
  | error err =>
    rw [hgo] at hagrees
    obtain ⟨exception, hexception⟩ := hagrees
    rw [hexception]
    intro more
    simp only [splitPacket, hsplit more, hgo]
    exact ⟨_, rfl, isBad_of_undecoded hgo⟩
  | ok packet =>
    rw [hgo] at hagrees
    rw [hagrees]
    refine ⟨packet, rfl, fun more => ?_⟩
    simp only [splitPacket, hsplit more, hgo]

end Round

/-! ## Whole runs -/

section Runs

open Protocol (packetsOf packetsOf_error packetsOf_ok)

/-- The loop takes the packets off the buffer that Go's reader finds there, and stops where Go's
reader finds no further packet. By induction on the rounds, with any bytes following the buffer. -/
theorem pushLoop_agrees (maxPayloadSize maxBodySize : UInt32) {fuel : Nat} {buffer : Bytes}
    (packets : List Packet) (h : buffer.length < fuel) :
    ∃ packets' rest,
      (pushLoop fuel (ofLimits maxPayloadSize maxBodySize buffer) packets).packets =
        packets ++ packets'.map ofGo ∧
      match (pushLoop fuel (ofLimits maxPayloadSize maxBodySize buffer) packets).exception with
      | some _ => ∀ more, packetsOf maxPayloadSize maxBodySize (buffer ++ more) = packets' ∧
          hasBadFrame maxPayloadSize maxBodySize (buffer ++ more) = true
      | none =>
        (pushLoop fuel (ofLimits maxPayloadSize maxBodySize buffer) packets).parser =
          ofLimits maxPayloadSize maxBodySize rest ∧
        packetsOf maxPayloadSize maxBodySize rest = [] ∧
        hasBadFrame maxPayloadSize maxBodySize rest = false ∧
        ∀ more, packetsOf maxPayloadSize maxBodySize (buffer ++ more) =
            packets' ++ packetsOf maxPayloadSize maxBodySize (rest ++ more) ∧
          hasBadFrame maxPayloadSize maxBodySize (buffer ++ more) =
            hasBadFrame maxPayloadSize maxBodySize (rest ++ more) := by
  induction fuel generalizing buffer packets with
  | zero => contradiction
  | succ fuel ih =>
    have hround := round_agrees maxPayloadSize maxBodySize buffer
    rw [pushLoop]
    cases hcase : (ofLimits maxPayloadSize maxBodySize buffer).round with
    | stop =>
      rw [hcase] at hround
      obtain ⟨err, hsplit, hend⟩ := hround
      exact ⟨[], buffer, (List.append_nil _).symm, rfl, packetsOf_error hsplit,
        (hasBadFrame_error hsplit).trans hend, fun _ => ⟨rfl, rfl⟩⟩
    | throw exception rest =>
      rw [hcase] at hround
      refine ⟨[], rest, (List.append_nil _).symm, fun more => ?_⟩
      obtain ⟨err, hsplit, hbad⟩ := hround more
      exact ⟨packetsOf_error hsplit, (hasBadFrame_error hsplit).trans hbad⟩
    | decoded packet rest =>
      rw [hcase] at hround
      obtain ⟨packet', rfl, hsplit⟩ := hround
      have hshorter : rest.length < buffer.length := by
        have hnone := hsplit []
        rw [List.append_nil, List.append_nil] at hnone
        exact Protocol.splitPacket_shorter hnone
      obtain ⟨packets', rest', hpackets, hend⟩ :=
        @ih rest (packets ++ [ofGo packet']) (by omega)
      have hparser : ({ ofLimits maxPayloadSize maxBodySize buffer with buffer := rest } :
          FrameParser) = ofLimits maxPayloadSize maxBodySize rest := rfl
      dsimp only
      rw [hparser]
      refine ⟨packet' :: packets', rest', ?_, ?_⟩
      · rw [hpackets, List.append_assoc]
        rfl
      · generalize (pushLoop fuel (ofLimits maxPayloadSize maxBodySize rest)
          (packets ++ [ofGo packet'])) = outcome at hend
        cases hexception : outcome.exception with
        | some exception =>
          rw [hexception] at hend
          intro more
          rw [packetsOf_ok (hsplit more), hasBadFrame_ok (hsplit more), (hend more).1]
          exact ⟨rfl, (hend more).2⟩
        | none =>
          rw [hexception] at hend
          obtain ⟨hlast, hnothing, hgood, hmore⟩ := hend
          refine ⟨hlast, hnothing, hgood, fun more => ?_⟩
          rw [packetsOf_ok (hsplit more), hasBadFrame_ok (hsplit more), (hmore more).1]
          exact ⟨rfl, (hmore more).2⟩

/-- One call of `push`, as a case of the loop. -/
theorem push_cases (maxPayloadSize maxBodySize : UInt32) (buffer chunk : Bytes) :
    (∃ exception parser packets,
      (ofLimits maxPayloadSize maxBodySize buffer).push chunk = (.error exception, parser) ∧
      ∀ more, packetsOf maxPayloadSize maxBodySize (buffer ++ chunk ++ more) = packets ∧
        hasBadFrame maxPayloadSize maxBodySize (buffer ++ chunk ++ more) = true) ∨
    ∃ packets rest, (ofLimits maxPayloadSize maxBodySize buffer).push chunk =
        (.ok (packets.map ofGo), ofLimits maxPayloadSize maxBodySize rest) ∧
      packetsOf maxPayloadSize maxBodySize rest = [] ∧
      hasBadFrame maxPayloadSize maxBodySize rest = false ∧
      ∀ more, packetsOf maxPayloadSize maxBodySize (buffer ++ chunk ++ more) =
          packets ++ packetsOf maxPayloadSize maxBodySize (rest ++ more) ∧
        hasBadFrame maxPayloadSize maxBodySize (buffer ++ chunk ++ more) =
          hasBadFrame maxPayloadSize maxBodySize (rest ++ more) := by
  obtain ⟨packets, rest, hpackets, hend⟩ := pushLoop_agrees maxPayloadSize maxBodySize []
    (Nat.lt_succ_self (buffer ++ chunk).length)
  have houtcome : (ofLimits maxPayloadSize maxBodySize buffer).pushOutcome chunk =
      pushLoop ((buffer ++ chunk).length + 1)
        (ofLimits maxPayloadSize maxBodySize (buffer ++ chunk)) [] := rfl
  rw [push, houtcome]
  generalize pushLoop ((buffer ++ chunk).length + 1)
    (ofLimits maxPayloadSize maxBodySize (buffer ++ chunk)) [] = outcome at hpackets hend
  cases hexception : outcome.exception with
  | some exception =>
    rw [hexception] at hend
    exact .inl ⟨exception, _, packets, rfl, hend⟩
  | none =>
    rw [hexception] at hend
    obtain ⟨hparser, hrest⟩ := hend
    dsimp only
    rw [hpackets, hparser]
    exact .inr ⟨packets, rest, rfl, hrest⟩

/-- The parser has seen a part of the stream, has returned the packets `done` and keeps a buffer,
with which the rest of the stream goes on as with what it has seen. By induction on the chunks. -/
theorem pushAll_iff {maxPayloadSize maxBodySize : UInt32} {seen buffer : Bytes}
    {done : List Server.Packet} (chunks : List Bytes)
    (hbuffer : packetsOf maxPayloadSize maxBodySize buffer = [])
    (hseen : ∀ more, packetsOf maxPayloadSize maxBodySize (seen ++ more) =
        done ++ packetsOf maxPayloadSize maxBodySize (buffer ++ more) ∧
      hasBadFrame maxPayloadSize maxBodySize (seen ++ more) =
        hasBadFrame maxPayloadSize maxBodySize (buffer ++ more)) :
    (ofLimits maxPayloadSize maxBodySize buffer).pushAll chunks =
        (packetsOf maxPayloadSize maxBodySize (buffer ++ chunks.flatten)).map ofGo ↔
      badApart maxPayloadSize maxBodySize seen chunks = true := by
  induction chunks generalizing seen buffer done with
  | nil =>
    rw [List.flatten_nil, List.append_nil, hbuffer]
    exact iff_of_true rfl rfl
  | cons chunk chunks ih =>
    rw [pushAll, badApart, List.flatten_cons, ← List.append_assoc, (hseen chunk).1, (hseen chunk).2]
    have hdone := (hseen []).1
    rw [List.append_nil, List.append_nil, hbuffer] at hdone
    rcases push_cases maxPayloadSize maxBodySize buffer chunk with
      ⟨exception, parser, packets, hpush, hmore⟩ | ⟨packets, rest, hpush, hrest, hgood, hmore⟩
    · have hend := hmore []
      rw [List.append_nil] at hend
      rw [hpush, (hmore _).1, hend.1, hend.2, hdone]
      simp [eq_comm]
    · have hend := hmore []
      rw [List.append_nil, List.append_nil, hgood] at hend
      rw [hpush, (hmore _).1, hend.2, List.map_append]
      dsimp only
      rw [List.append_cancel_left_eq, if_neg (by decide)]
      refine @ih (seen ++ chunk) rest (done ++ packets) hrest fun more => ?_
      rw [List.append_assoc, (hseen _).1, (hseen _).2, ← List.append_assoc, (hmore _).1,
        (hmore _).2,
        List.append_assoc]
      exact ⟨rfl, rfl⟩

/-- A stream without a bad frame keeps none apart from anything. -/
theorem badApart_of_good {maxPayloadSize maxBodySize : UInt32} {seen : Bytes} {chunks : List Bytes}
    (h : hasBadFrame maxPayloadSize maxBodySize (seen ++ chunks.flatten) = false) :
    badApart maxPayloadSize maxBodySize seen chunks = true := by
  induction chunks generalizing seen with
  | nil => rfl
  | cons chunk chunks ih =>
    rw [List.flatten_cons, ← List.append_assoc] at h
    have hchunk : hasBadFrame maxPayloadSize maxBodySize (seen ++ chunk) ≠ true := by
      intro hbad
      rcases push_cases maxPayloadSize maxBodySize seen chunk with
        ⟨_, _, _, -, hmore⟩ | ⟨_, rest, -, -, hgood, hmore⟩
      · exact absurd (h.symm.trans (hmore _).2) (by decide)
      · have hend := (hmore []).2
        rw [List.append_nil, List.append_nil, hgood, hbad] at hend
        cases hend
    rw [badApart, if_neg hchunk]
    exact ih h

theorem construct_limits (maxPayloadSize maxBodySize : UInt32) :
    construct maxPayloadSize.toNat maxBodySize.toNat =
      .ok (ofLimits maxPayloadSize maxBodySize []) := by
  rw [construct, if_neg (by omega)]
  rfl

end Runs

/-- The packets that a new parser returns do not depend on how the stream is cut into chunks, and
are those that Go's reader yields before its first error, exactly if neither way of cutting has a
chunk that brings a bad frame and completes a good one before it. -/
theorem push_returns {maxPayloadSize maxBodySize : UInt32} {stream : Bytes}
    {chunks chunks' : List Bytes} (hchunks : chunks.flatten = stream)
    (hchunks' : chunks'.flatten = stream) {parser : FrameParser}
    (hparser : construct maxPayloadSize.toNat maxBodySize.toNat = .ok parser)
    {reader : Reader UInt8} (hreader : reader.rest = stream) :
    (parser.pushAll chunks = parser.pushAll chunks' ∧
      parser.pushAll chunks =
        (Protocol.readStream maxPayloadSize maxBodySize reader).1.map ofGo) ↔
    badApart maxPayloadSize maxBodySize [] chunks = true ∧
      badApart maxPayloadSize maxBodySize [] chunks' = true := by
  obtain rfl : parser = ofLimits maxPayloadSize maxBodySize [] := by
    rw [construct_limits] at hparser
    exact (Except.ok.inj hparser).symm
  have hone := @pushAll_iff maxPayloadSize maxBodySize [] [] [] chunks rfl fun _ => ⟨rfl, rfl⟩
  have htwo := @pushAll_iff maxPayloadSize maxBodySize [] [] [] chunks' rfl fun _ => ⟨rfl, rfl⟩
  rw [List.nil_append, hchunks] at hone
  rw [List.nil_append, hchunks'] at htwo
  rw [Protocol.readStream_packets, hreader, ← hone, ← htwo]
  constructor
  · rintro ⟨hsame, hgo⟩
    exact ⟨hgo, hsame ▸ hgo⟩
  · rintro ⟨hgo, hgo'⟩
    exact ⟨hgo.trans hgo'.symm, hgo⟩

def emptyFrame : Bytes := [0, 0, 0, 0, 0, 0, 0, 0]

/-- A good frame in two pieces and a bad one. -/
theorem push_returns_pieces :
    (ofLimits 100 100 []).pushAll [Protocol.packetFrame Protocol.bindPacket, emptyFrame] =
        (ofLimits 100 100 []).pushAll [(Protocol.packetFrame Protocol.bindPacket).take 10,
          (Protocol.packetFrame Protocol.bindPacket).drop 10, emptyFrame] ∧
      (ofLimits 100 100 []).pushAll [Protocol.packetFrame Protocol.bindPacket, emptyFrame] =
        (Protocol.readStream 100 100 ⟨Protocol.packetFrame Protocol.bindPacket ++ emptyFrame,
          fun _ => 5, false⟩).1.map ofGo :=
  (@push_returns 100 100 (Protocol.packetFrame Protocol.bindPacket ++ emptyFrame) _ _
    (by decide +kernel) (by decide +kernel) _ (by decide +kernel) _ rfl).mpr
    ⟨by decide +kernel, by decide +kernel⟩

/-- A good frame and a bad one, in two chunks and in one: the packet of the first frame is returned
only if the frames come in different chunks. -/
theorem packet_lost :
    (ofLimits 100 100 []).pushAll [Protocol.packetFrame Protocol.bindPacket, emptyFrame] =
        [ofGo (Protocol.stamped Protocol.bindPacket)] ∧
      (ofLimits 100 100 []).pushAll [Protocol.packetFrame Protocol.bindPacket ++ emptyFrame] = [] ∧
      (Protocol.readStream 100 100
        (.ofList (Protocol.packetFrame Protocol.bindPacket ++ emptyFrame))).1 =
        [Protocol.stamped Protocol.bindPacket] := by
  decide +kernel

/-! ## Streams of good frames -/

section GoodFrames

variable {maxPayloadSize maxBodySize : Int}

/-- The frames are decoded to the packets. -/
def Decoded (maxPayloadSize maxBodySize : Int) : List Bytes → List Packet → Prop :=
  List.Forall₂ fun frame packet =>
    FrameCodec.decode frame maxPayloadSize maxBodySize = .ok packet

theorem normalizeLimit_ok {limit : Int} (h : FrameCodec.normalizeLimit maxPayloadSize = .ok limit) :
    (if maxPayloadSize = 0 then FrameCodec.defaultMaxPayloadSize else maxPayloadSize) = limit ∧
      FrameCodec.normalizeLimit limit = .ok limit := by
  rw [FrameCodec.normalizeLimit] at h
  split at h
  · cases h
  · have hlimit := Except.ok.inj h
    refine ⟨hlimit, ?_⟩
    have hdefault : FrameCodec.defaultMaxPayloadSize = 8388608 := rfl
    rw [FrameCodec.normalizeLimit, if_neg (by split at hlimit <;> omega),
      if_neg (by split at hlimit <;> omega)]

theorem decode_ok {frame : Bytes} {packet : Packet}
    (h : FrameCodec.decode frame maxPayloadSize maxBodySize = .ok packet) :
    ∃ limit : Int,
      (if maxPayloadSize = 0 then FrameCodec.defaultMaxPayloadSize else maxPayloadSize) = limit ∧
      ¬ limit < unpack32 frame 4 ∧ FrameCodec.headerSize + unpack32 frame 4 = frame.length ∧
      FrameCodec.decode frame limit maxBodySize = .ok packet := by
  have hall := h
  rw [FrameCodec.decode] at h
  split at h
  · cases h
  · next hlong =>
    cases hlimit : FrameCodec.normalizeLimit maxPayloadSize with
    | error exception =>
      rw [hlimit] at h
      cases h
    | ok limit =>
      rw [hlimit] at h
      obtain ⟨heq, hagain⟩ := normalizeLimit_ok hlimit
      have hsame : FrameCodec.decode frame limit maxBodySize =
          FrameCodec.decode frame maxPayloadSize maxBodySize := by
        rw [FrameCodec.decode, FrameCodec.decode, hlimit, hagain]
      refine ⟨limit, heq, ?_, ?_, hsame.trans hall⟩
      · intro hlarge
        simp only [bind, Except.bind, if_pos hlarge] at h
        cases h
      · by_contra hne
        simp only [bind, Except.bind] at h
        split at h
        · cases h
        · rw [if_pos (by omega)] at h
          cases h

/-- A round on the beginning of a good frame and what follows it: the frame is taken off if it is
complete. -/
theorem round_good {parser : FrameParser} {frame rest more : Bytes} {packet : Packet}
    (h : FrameCodec.decode frame parser.maxPayloadSize parser.maxBodySize = .ok packet)
    (hbytes : parser.buffer ++ more = frame ++ rest) :
    if frame.length ≤ parser.buffer.length then
      parser.round = .decoded packet (parser.buffer.drop frame.length)
    else parser.round = .stop := by
  obtain ⟨limit, hlimit, hfits, hlength, hdecode⟩ := decode_ok h
  have height : FrameCodec.headerSize = 8 := rfl
  rw [round]
  by_cases hshort : parser.buffer.length < FrameCodec.headerSize
  · rw [if_neg (by omega), if_pos hshort]
  have hsize : unpack32 parser.buffer 4 = unpack32 frame 4 := by
    rw [unpack32, unpack32, ← slice_append_of_le more (by omega), hbytes,
      slice_append_of_le rest (by omega)]
  rw [if_neg hshort, FrameCodec.payloadLength, if_neg hshort]
  dsimp only
  rw [hlimit, hsize, if_neg hfits, hlength]
  by_cases hcut : frame.length ≤ parser.buffer.length
  · have htake : parser.buffer.take frame.length = frame := by
      have hmore : (parser.buffer ++ more).take frame.length = parser.buffer.take frame.length :=
        List.take_append_of_le_length hcut
      rw [← hmore, hbytes, List.take_left]
    rw [if_pos hcut, if_neg (by omega), htake, hdecode]
  · rw [if_neg hcut, if_pos (by omega)]

/-- The loop of `push` on the beginning of a stream of good frames: it throws nothing, and what it
has not decoded is the beginning of the frames left. By induction on the rounds. -/
theorem pushLoop_good {fuel : Nat} {parser : FrameParser} {frames : List Bytes}
    {packets : List Packet} {more : Bytes} (decoded : List Packet)
    (hfuel : parser.buffer.length < fuel)
    (hframes : Decoded parser.maxPayloadSize parser.maxBodySize frames packets)
    (hbytes : parser.buffer ++ more = frames.flatten) :
    ∃ buffer front frames' packets', pushLoop fuel parser decoded =
        ⟨decoded ++ front, none, { parser with buffer := buffer }⟩ ∧ packets = front ++ packets' ∧
      Decoded parser.maxPayloadSize parser.maxBodySize frames' packets' ∧
      buffer ++ more = frames'.flatten := by
  induction fuel generalizing parser frames packets decoded with
  | zero => contradiction
  | succ fuel ih =>
    have hstop : parser.round = .stop → ∃ buffer front frames' packets',
        pushLoop (fuel + 1) parser decoded =
          ⟨decoded ++ front, none, { parser with buffer := buffer }⟩ ∧
        packets = front ++ packets' ∧
        Decoded parser.maxPayloadSize parser.maxBodySize frames' packets' ∧
        buffer ++ more = frames'.flatten := by
      intro hround
      rw [pushLoop, hround]
      exact ⟨parser.buffer, [], frames, packets, by rw [List.append_nil], rfl, hframes, hbytes⟩
    cases hframes with
    | nil =>
      refine hstop ?_
      rw [round, (List.append_eq_nil_iff.mp hbytes).1]
      rfl
    | @cons frame packet frames packets hframe hframes =>
      have hround := round_good hframe hbytes
      obtain ⟨-, -, -, hlength, -⟩ := decode_ok hframe
      have height : FrameCodec.headerSize = 8 := rfl
      split at hround
      · next hcomplete =>
        have hrest : parser.buffer.drop frame.length ++ more = frames.flatten := by
          rw [← List.drop_append_of_le_length hcomplete, hbytes, List.flatten_cons,
            List.drop_left]
        obtain ⟨buffer, front, frames', packets', hloop, hpackets, hframes', hbytes'⟩ :=
          @ih { parser with buffer := parser.buffer.drop frame.length } frames packets
            (decoded ++ [packet]) (by rw [List.length_drop]; omega) hframes hrest
        refine ⟨buffer, packet :: front, frames', packets', ?_, ?_, hframes', hbytes'⟩
        · rw [pushLoop, hround]
          dsimp only
          rw [hloop, List.append_assoc]
          rfl
        · rw [hpackets]
          rfl
      · exact hstop hround

theorem pushAll_good {parser : FrameParser} {frames : List Bytes} {packets : List Packet}
    {chunks : List Bytes}
    (hframes : Decoded parser.maxPayloadSize parser.maxBodySize frames packets)
    (hbytes : parser.buffer ++ chunks.flatten <+: frames.flatten) :
    parser.pushAll chunks <+: packets := by
  induction chunks generalizing parser frames packets with
  | nil => exact List.nil_prefix
  | cons chunk chunks ih =>
    obtain ⟨more, hmore⟩ := hbytes
    have hbytes : (parser.buffer ++ chunk) ++ (chunks.flatten ++ more) = frames.flatten := by
      rw [← hmore, List.flatten_cons]
      simp only [List.append_assoc]
    obtain ⟨buffer, front, frames', packets', hloop, rfl, hframes', hbytes'⟩ :=
      @pushLoop_good _ { parser with buffer := parser.buffer ++ chunk } _ _ _ []
        (Nat.lt_succ_self _) hframes hbytes
    have hpush : parser.push chunk = (.ok front, { parser with buffer := buffer }) := by
      rw [push, pushOutcome]
      dsimp only
      rw [hloop]
      rfl
    rw [pushAll, hpush]
    refine (List.prefix_append_right_inj front).mpr (ih hframes' ⟨more, ?_⟩)
    rw [List.append_assoc]
    exact hbytes'

end GoodFrames

end FrameParser

end ZCourier.Php
