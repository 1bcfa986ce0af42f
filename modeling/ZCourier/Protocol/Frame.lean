import ZCourier.Protocol.Codec

/-!
# Frames on a connection

`pkg/sdk/client/frame.go`: a packet travels in a frame, eight bytes with the message id and the
length of the payload before the encoded packet. `readFrame_eq` says what reading a frame does,
whatever the pieces the reader hands out. `frames_self_delimiting` is the main result: the packets
written one after another are the packets read, also from a stream that is cut.
-/

namespace ZCourier.Protocol

open Go Library Server

/-- `outerFrameHeaderSize`. -/
def outerFrameHeaderSize : Nat := 8

/-- `DefaultMaxFramePayloadSize`. -/
def defaultMaxFramePayloadSize : UInt32 := 8388608

/-- The errors of reading and writing frames, with what their texts report. -/
inductive FrameError where
  | packet (err : PacketError)
  | eof
  | frameTooShort (read size : Nat) (err : ReadError)
  | frameTooLarge (got max : Nat)
  | frameLengthMismatch (read size : Nat) (err : ReadError)
  | frameMsgIDMismatch (outer inner : UInt32)
  | write (err : WriteError)

/-- `wireFrame`. -/
structure WireFrame where
  msgID : UInt32
  payload : Bytes

/-- `encodeFrame`. -/
def encodeFrame (msgID : UInt32) (payload : Bytes) : Except FrameError Bytes :=
  if maxUint32 < payload.length then .error (.frameTooLarge payload.length maxUint32)
  else .ok (beBytes 4 msgID.toNat ++ (beBytes 4 payload.length ++ payload))

/-- `normalizeFrameLimit`. -/
def normalizeFrameLimit (limit : UInt32) : UInt32 :=
  if limit = 0 then defaultMaxFramePayloadSize else limit

/-- `encodePacketFrame`: the bytes, and the packet as `Encode` leaves it. -/
def encodePacketFrame (packet : Option Packet) (maxPayloadSize : UInt32) :
    Except FrameError (Bytes × Packet) :=
  match encode packet with
  | .error err => .error (.packet err)
  | .ok (payload, packet) =>
    let limit := (normalizeFrameLimit maxPayloadSize).toNat
    if limit < payload.length then .error (.frameTooLarge payload.length limit)
    else
      match encodeFrame packet.msgID payload with
      | .error err => .error err
      | .ok data => .ok (data, packet)

/-- `writePacketFrame`. -/
def writePacketFrame (writer : Writer UInt8) (packet : Option Packet) (maxPayloadSize : UInt32) :
    Option FrameError × Writer UInt8 :=
  match encodePacketFrame packet maxPayloadSize with
  | .error err => (some err, writer)
  | .ok (data, _) =>
    match writer.writeAll data with
    | (some err, writer) => (some (.write err), writer)
    | (none, writer) => (none, writer)

/-- `readFrame`. -/
def readFrame (reader : Reader UInt8) (maxPayloadSize : UInt32) :
    Except FrameError WireFrame × Reader UInt8 :=
  match reader.readFull outerFrameHeaderSize with
  | ((got, some err), reader) =>
    if err = .eof ∧ got.length = 0 then (.error .eof, reader)
    else (.error (.frameTooShort got.length outerFrameHeaderSize err), reader)
  | ((header, none), reader) =>
    let payloadSize := uint32 (slice header 4 4)
    let limit := normalizeFrameLimit maxPayloadSize
    if limit < payloadSize then (.error (.frameTooLarge payloadSize.toNat limit.toNat), reader)
    else
      match reader.readFull payloadSize.toNat with
      | ((got, some err), reader) =>
        (.error (.frameLengthMismatch got.length payloadSize.toNat err), reader)
      | ((payload, none), reader) => (.ok ⟨uint32 (slice header 0 4), payload⟩, reader)

/-- The body limit that `decodePacketFrame` uses. -/
def normalizeBodyLimit (limit : UInt32) : UInt32 :=
  if limit = 0 then defaultMaxBodySize else limit

/-- `decodePacketFrame`. -/
def decodePacketFrame (frame : WireFrame) (maxBodySize : UInt32) : Except FrameError Packet :=
  match decodeWithMaxBodySize frame.payload (normalizeBodyLimit maxBodySize) with
  | .error err => .error (.packet err)
  | .ok packet =>
    if frame.msgID ≠ packet.msgID then .error (.frameMsgIDMismatch frame.msgID packet.msgID)
    else .ok packet

/-- `readPacketFrame`. -/
def readPacketFrame (reader : Reader UInt8) (maxPayloadSize maxBodySize : UInt32) :
    Except FrameError Packet × Reader UInt8 :=
  match readFrame reader maxPayloadSize with
  | (.error err, reader) => (.error err, reader)
  | (.ok frame, reader) => (decodePacketFrame frame maxBodySize, reader)

/-! ## Reading and writing again and again -/

/-- Write packets one after another, up to the first error. -/
def writePackets (writer : Writer UInt8) (maxPayloadSize : UInt32) :
    List Packet → Option FrameError × Writer UInt8
  | [] => (none, writer)
  | packet :: packets =>
    match writePacketFrame writer (some packet) maxPayloadSize with
    | (some err, writer) => (some err, writer)
    | (none, writer) => writePackets writer maxPayloadSize packets

/-- Read packets up to the first error, the end of the stream included. -/
def readPackets (maxPayloadSize maxBodySize : UInt32) :
    Nat → Reader UInt8 → List Packet × Option FrameError
  | 0, _ => ([], none)
  | fuel + 1, reader =>
    match readPacketFrame reader maxPayloadSize maxBodySize with
    | (.error err, _) => ([], some err)
    | (.ok packet, reader) =>
      let (packets, err) := readPackets maxPayloadSize maxBodySize fuel reader
      (packet :: packets, err)

/-- Read the whole stream: no frame is empty, so there are fewer packets than bytes. -/
def readStream (maxPayloadSize maxBodySize : UInt32) (reader : Reader UInt8) :
    List Packet × Option FrameError :=
  readPackets maxPayloadSize maxBodySize (reader.rest.length + 1) reader

/-! ## Frames without a reader -/

/-- The first frame of a stream and what follows it. -/
def splitFrame (maxPayloadSize : UInt32) (data : Bytes) : Except FrameError (WireFrame × Bytes) :=
  let payloadSize := uint32 (slice data 4 4)
  let limit := normalizeFrameLimit maxPayloadSize
  if data = [] then .error .eof
  else if data.length < outerFrameHeaderSize then
    .error (.frameTooShort data.length outerFrameHeaderSize .unexpectedEOF)
  else if limit < payloadSize then .error (.frameTooLarge payloadSize.toNat limit.toNat)
  else if data.length < outerFrameHeaderSize + payloadSize.toNat then
    .error (.frameLengthMismatch (data.length - outerFrameHeaderSize) payloadSize.toNat
      (if data.drop outerFrameHeaderSize = [] then .eof else .unexpectedEOF))
  else
    .ok (⟨uint32 (slice data 0 4), slice data outerFrameHeaderSize payloadSize.toNat⟩,
      data.drop (outerFrameHeaderSize + payloadSize.toNat))

theorem readFrame_eq (reader : Reader UInt8) (maxPayloadSize : UInt32) :
    match splitFrame maxPayloadSize reader.rest with
    | .error err => (readFrame reader maxPayloadSize).1 = .error err
    | .ok (frame, rest) =>
      (readFrame reader maxPayloadSize).1 = .ok frame ∧
        (readFrame reader maxPayloadSize).2.rest = rest := by
  rw [splitFrame, readFrame]
  dsimp only
  by_cases hshort : reader.rest.length < outerFrameHeaderSize
  · obtain ⟨r', hread, -⟩ := Reader.readFull_short hshort
    rw [hread]
    by_cases hempty : reader.rest = []
    · simp [hempty]
    · simp [hempty, hshort]
  · have hne : reader.rest ≠ [] := by
      rintro hnil
      rw [hnil] at hshort
      exact hshort (by decide)
    obtain ⟨r', hread, hrest⟩ := Reader.readFull_ok (Nat.le_of_not_lt hshort)
    have hlength : r'.rest.length = reader.rest.length - outerFrameHeaderSize := by
      rw [hrest, List.length_drop]
    rw [hread, if_neg hne, if_neg hshort]
    dsimp only
    rw [slice_take _ (by decide), slice_take _ (by decide)]
    generalize uint32 (slice reader.rest 4 4) = size
    by_cases hlarge : normalizeFrameLimit maxPayloadSize < size
    · rw [if_pos hlarge, if_pos hlarge]
    · rw [if_neg hlarge, if_neg hlarge]
      by_cases hcut : reader.rest.length < outerFrameHeaderSize + size.toNat
      · obtain ⟨r'', hread', -⟩ : ∃ r'', r'.readFull size.toNat = _ ∧ _ :=
          Reader.readFull_short (by omega)
        rw [hread', if_pos hcut]
        dsimp only
        rw [hlength, hrest]
      · obtain ⟨r'', hread', hrest'⟩ : ∃ r'', r'.readFull size.toNat = _ ∧ _ :=
          Reader.readFull_ok (by omega)
        rw [hread', if_neg hcut]
        dsimp only
        rw [hrest', hrest, List.drop_drop]
        exact ⟨rfl, rfl⟩

/-- The first packet of a stream and what follows its frame. -/
def splitPacket (maxPayloadSize maxBodySize : UInt32) (data : Bytes) :
    Except FrameError (Packet × Bytes) :=
  match splitFrame maxPayloadSize data with
  | .error err => .error err
  | .ok (frame, rest) =>
    match decodePacketFrame frame maxBodySize with
    | .error err => .error err
    | .ok packet => .ok (packet, rest)

/-- The packets of a stream up to the first error. -/
def splitPackets (maxPayloadSize maxBodySize : UInt32) :
    Nat → Bytes → List Packet × Option FrameError
  | 0, _ => ([], none)
  | fuel + 1, data =>
    match splitPacket maxPayloadSize maxBodySize data with
    | .error err => ([], some err)
    | .ok (packet, rest) =>
      let (packets, err) := splitPackets maxPayloadSize maxBodySize fuel rest
      (packet :: packets, err)

variable {maxPayloadSize maxBodySize : UInt32}

theorem readPackets_eq (fuel : Nat) (reader : Reader UInt8) :
    readPackets maxPayloadSize maxBodySize fuel reader =
      splitPackets maxPayloadSize maxBodySize fuel reader.rest := by
  induction fuel generalizing reader with
  | zero => rfl
  | succ fuel ih =>
    have hframe := readFrame_eq reader maxPayloadSize
    rw [readPackets, splitPackets, readPacketFrame, splitPacket]
    generalize readFrame reader maxPayloadSize = result at hframe
    obtain ⟨frame?, after⟩ := result
    cases hsplit : splitFrame maxPayloadSize reader.rest with
    | error err =>
      rw [hsplit] at hframe
      obtain rfl : frame? = .error err := hframe
      rfl
    | ok split =>
      obtain ⟨frame, rest⟩ := split
      rw [hsplit] at hframe
      obtain ⟨rfl, rfl⟩ : frame? = .ok frame ∧ after.rest = rest := hframe
      dsimp only
      cases decodePacketFrame frame maxBodySize with
      | error err => rfl
      | ok packet =>
        dsimp only
        rw [ih]

theorem splitFrame_shorter {data rest : Bytes} {frame : WireFrame}
    (h : splitFrame maxPayloadSize data = .ok (frame, rest)) : rest.length < data.length := by
  rw [splitFrame] at h
  split at h
  · contradiction
  next hne =>
  split at h
  · contradiction
  split at h
  · contradiction
  split at h
  · contradiction
  cases h
  have hpos := List.length_pos_of_ne_nil hne
  rw [List.length_drop, outerFrameHeaderSize]
  omega

variable {packet : Packet}

theorem splitPacket_shorter {data rest : Bytes}
    (h : splitPacket maxPayloadSize maxBodySize data = .ok (packet, rest)) :
    rest.length < data.length := by
  rw [splitPacket] at h
  split at h
  · contradiction
  · next frame after hsplit =>
    split at h
    · contradiction
    · cases h
      exact splitFrame_shorter hsplit

theorem splitPackets_fuel {fuel fuel' : Nat} {data : Bytes} (h : data.length < fuel)
    (h' : data.length < fuel') :
    splitPackets maxPayloadSize maxBodySize fuel data =
      splitPackets maxPayloadSize maxBodySize fuel' data := by
  induction fuel generalizing fuel' data with
  | zero => contradiction
  | succ fuel ih =>
    obtain ⟨fuel', rfl⟩ := Nat.exists_eq_succ_of_ne_zero (Nat.ne_zero_of_lt h')
    rw [splitPackets, splitPackets]
    cases hsplit : splitPacket maxPayloadSize maxBodySize data with
    | error err => rfl
    | ok result =>
      obtain ⟨packet, rest⟩ := result
      have hshorter := splitPacket_shorter hsplit
      dsimp only
      rw [ih (by omega) (Nat.lt_of_lt_of_le hshorter (Nat.le_of_lt_succ h'))]

/-- The packets of a stream up to the first error. -/
def packetsOf (maxPayloadSize maxBodySize : UInt32) (data : Bytes) : List Packet :=
  (splitPackets maxPayloadSize maxBodySize (data.length + 1) data).1

theorem readStream_packets (reader : Reader UInt8) :
    (readStream maxPayloadSize maxBodySize reader).1 =
      packetsOf maxPayloadSize maxBodySize reader.rest := by
  rw [readStream, readPackets_eq, packetsOf]

theorem packetsOf_error {data : Bytes} {err : FrameError}
    (h : splitPacket maxPayloadSize maxBodySize data = .error err) :
    packetsOf maxPayloadSize maxBodySize data = [] := by
  rw [packetsOf, splitPackets, h]

theorem packetsOf_ok {data rest : Bytes}
    (h : splitPacket maxPayloadSize maxBodySize data = .ok (packet, rest)) :
    packetsOf maxPayloadSize maxBodySize data =
      packet :: packetsOf maxPayloadSize maxBodySize rest := by
  have hshorter := splitPacket_shorter h
  rw [packetsOf, packetsOf, splitPackets, h]
  dsimp only
  rw [splitPackets_fuel hshorter (Nat.lt_succ_self rest.length)]

/-! ## Frames are found again -/

def frameBytes (msgID : UInt32) (payload : Bytes) : Bytes :=
  beBytes 4 msgID.toNat ++ (beBytes 4 payload.length ++ payload)

theorem length_frameBytes (msgID : UInt32) (payload : Bytes) :
    (frameBytes msgID payload).length = outerFrameHeaderSize + payload.length := by
  rw [frameBytes, List.length_append, List.length_append, length_beBytes, length_beBytes,
    ← Nat.add_assoc]
  rfl

/-- The packet as `Encode` leaves it. -/
def stamped (packet : Packet) : Packet := { packet with version := version }

/-- The frame that `encodePacketFrame` makes of a packet it accepts. -/
def packetFrame (packet : Packet) : Bytes :=
  frameBytes packet.msgID (encodeBytes (stamped packet))

theorem encodePacketFrame_ok {result : Bytes × Packet}
    (h : encodePacketFrame (some packet) maxPayloadSize = .ok result) : WithinLimits packet ∧
      (encodeBytes (stamped packet)).length ≤ (normalizeFrameLimit maxPayloadSize).toNat ∧
      result = (packetFrame packet, stamped packet) := by
  rw [encodePacketFrame] at h
  cases hencode : encode (some packet) with
  | error err =>
    rw [hencode] at h
    cases h
  | ok encoded =>
    obtain ⟨payload, packet'⟩ := encoded
    obtain ⟨hlimits, rfl, rfl⟩ := encode_ok_iff.mp hencode
    rw [hencode] at h
    dsimp only at h
    split at h
    · cases h
    next hle =>
    rw [encodeFrame] at h
    split at h
    · next hframe =>
      cases h
    · next data hframe =>
      split at hframe
      · cases hframe
      cases hframe
      cases h
      exact ⟨hlimits, Nat.le_of_not_lt hle, rfl⟩

theorem packetFrame_ne_nil (packet : Packet) : 0 < (packetFrame packet).length := by
  rw [packetFrame, length_frameBytes, outerFrameHeaderSize]
  omega

theorem splitFrame_frameBytes {msgID : UInt32} {payload : Bytes} (rest : Bytes)
    (h : payload.length ≤ (normalizeFrameLimit maxPayloadSize).toNat) :
    splitFrame maxPayloadSize (frameBytes msgID payload ++ rest) =
      .ok (⟨msgID, payload⟩, rest) := by
  have hlt := UInt32.toNat_lt (normalizeFrameLimit maxPayloadSize)
  have hid : slice (frameBytes msgID payload ++ rest) 0 4 = beBytes 4 msgID.toNat := rfl
  have hsize : slice (frameBytes msgID payload ++ rest) 4 4 = beBytes 4 payload.length := rfl
  have hpayload : slice (frameBytes msgID payload ++ rest) outerFrameHeaderSize payload.length =
      payload := by
    have hdrop : (frameBytes msgID payload ++ rest).drop outerFrameHeaderSize = payload ++ rest :=
      rfl
    rw [slice, hdrop, List.take_left]
  have htoNat : (UInt32.ofNat payload.length).toNat = payload.length := by
    rw [UInt32.toNat_ofNat']
    omega
  have hne : frameBytes msgID payload ++ rest ≠ [] := by
    rw [← List.length_pos_iff, List.length_append, length_frameBytes, outerFrameHeaderSize]
    omega
  have hlarge : ¬ normalizeFrameLimit maxPayloadSize < UInt32.ofNat payload.length := by
    rw [UInt32.lt_iff_toNat_lt, htoNat]
    omega
  rw [splitFrame, hid, hsize, uint32_beBytes, uint32_beBytes, htoNat, UInt32.ofNat_toNat,
    if_neg hne,
    if_neg (by rw [List.length_append, length_frameBytes]; omega), if_neg hlarge,
    if_neg (by rw [List.length_append, length_frameBytes]; omega), hpayload,
    ← length_frameBytes msgID payload, List.drop_left]

theorem splitFrame_cut {msgID : UInt32} {payload : Bytes} {n : Nat}
    (h : payload.length ≤ (normalizeFrameLimit maxPayloadSize).toNat)
    (hn : n < (frameBytes msgID payload).length) :
    ∃ err, splitFrame maxPayloadSize ((frameBytes msgID payload).take n) = .error err ∧
      (err = .eof ↔ n = 0) := by
  have hlength : ((frameBytes msgID payload).take n).length = n := by
    rw [List.length_take]
    omega
  rw [splitFrame]
  by_cases hzero : n = 0
  · subst hzero
    exact ⟨_, rfl, by simp⟩
  have hne : (frameBytes msgID payload).take n ≠ [] := by
    rw [← List.length_pos_iff, hlength]
    omega
  rw [if_neg hne]
  by_cases hshort : ((frameBytes msgID payload).take n).length < outerFrameHeaderSize
  · rw [if_pos hshort]
    exact ⟨_, rfl, by simp [hzero]⟩
  rw [if_neg hshort]
  rw [hlength] at hshort
  have hlt := UInt32.toNat_lt (normalizeFrameLimit maxPayloadSize)
  have hsize : slice ((frameBytes msgID payload).take n) 4 4 = beBytes 4 payload.length :=
    slice_take _ (by rw [outerFrameHeaderSize] at hshort; omega)
  have htoNat : (UInt32.ofNat payload.length).toNat = payload.length := by
    rw [UInt32.toNat_ofNat']
    omega
  have hlarge : ¬ normalizeFrameLimit maxPayloadSize < UInt32.ofNat payload.length := by
    rw [UInt32.lt_iff_toNat_lt, htoNat]
    omega
  rw [length_frameBytes] at hn
  rw [hsize, uint32_beBytes, htoNat, if_neg hlarge, if_pos (by omega)]
  exact ⟨_, rfl, by simp [hzero]⟩

/-- The packets that can be sent and received under the given limits. -/
def Sendable (maxPayloadSize maxBodySize : UInt32) (packet : Packet) : Prop :=
  WithinLimits packet ∧
    (encodeBytes (stamped packet)).length ≤ (normalizeFrameLimit maxPayloadSize).toNat ∧
    packet.body.length ≤ (normalizeBodyLimit maxBodySize).toNat

theorem splitPacket_frame (h : Sendable maxPayloadSize maxBodySize packet) (rest : Bytes) :
    splitPacket maxPayloadSize maxBodySize (packetFrame packet ++ rest) =
      .ok (stamped packet, rest) := by
  obtain ⟨hlimits, hpayload, hbody⟩ := h
  have hdecode : decodeWithMaxBodySize (encodeBytes (stamped packet))
      (normalizeBodyLimit maxBodySize) = .ok (stamped packet) :=
    decode_encodeBytes hlimits rfl hbody
  rw [splitPacket, packetFrame, splitFrame_frameBytes rest hpayload]
  dsimp only
  rw [decodePacketFrame, hdecode]
  have hsame : ¬ packet.msgID ≠ (stamped packet).msgID := not_not.mpr rfl
  dsimp only
  rw [if_neg hsame]

theorem splitPacket_cut (h : Sendable maxPayloadSize maxBodySize packet) {n : Nat}
    (hn : n < (packetFrame packet).length) :
    ∃ err, splitPacket maxPayloadSize maxBodySize ((packetFrame packet).take n) = .error err ∧
      (err = .eof ↔ n = 0) := by
  obtain ⟨-, hpayload, -⟩ := h
  obtain ⟨err, hsplit, heof⟩ := splitFrame_cut hpayload hn
  refine ⟨err, ?_, heof⟩
  rw [splitPacket, packetFrame, hsplit]

/-- The bytes of the frames of some packets, one after another. -/
def streamOf (packets : List Packet) : Bytes :=
  (packets.map packetFrame).flatten

theorem streamOf_cons (packet : Packet) (packets : List Packet) :
    streamOf (packet :: packets) = packetFrame packet ++ streamOf packets := rfl

/-- The first `k` packets are those whose frames are complete in the first `n` bytes. -/
def Complete (packets : List Packet) (n k : Nat) : Prop :=
  k ≤ packets.length ∧ (streamOf (packets.take k)).length ≤ n ∧
    ∀ j ≤ packets.length, (streamOf (packets.take j)).length ≤ n → j ≤ k

/-- The complete frames of a cut stream, then an error. By induction on the packets: the first
frame is complete or the stream ends in it. -/
theorem splitPackets_cut {packets : List Packet}
    (h : ∀ packet ∈ packets, Sendable maxPayloadSize maxBodySize packet) {fuel n : Nat}
    (hfuel : n < fuel) (hn : n ≤ (streamOf packets).length) :
    ∃ k err, Complete packets n k ∧
      splitPackets maxPayloadSize maxBodySize fuel ((streamOf packets).take n) =
        ((packets.take k).map stamped, some err) ∧
      (err = .eof ↔ n = (streamOf (packets.take k)).length) := by
  induction packets generalizing fuel n with
  | nil =>
    obtain ⟨fuel, rfl⟩ := Nat.exists_eq_succ_of_ne_zero (Nat.ne_zero_of_lt hfuel)
    obtain rfl : n = 0 := Nat.le_zero.mp hn
    exact ⟨0, .eof, ⟨Nat.le_refl 0, Nat.le_refl 0, fun j hj _ => hj⟩, rfl, by simp [streamOf]⟩
  | cons packet packets ih =>
    obtain ⟨fuel, rfl⟩ := Nat.exists_eq_succ_of_ne_zero (Nat.ne_zero_of_lt hfuel)
    have hpacket := h packet List.mem_cons_self
    have hpos := packetFrame_ne_nil packet
    have htake : ∀ j, (streamOf ((packet :: packets).take (j + 1))).length =
        (packetFrame packet).length + (streamOf (packets.take j)).length := by
      intro j
      rw [List.take_succ_cons, streamOf_cons, List.length_append]
    rw [streamOf_cons] at hn ⊢
    rw [splitPackets]
    by_cases hcut : n < (packetFrame packet).length
    · obtain ⟨err, hsplit, heof⟩ := splitPacket_cut hpacket hcut
      refine ⟨0, err, ⟨Nat.zero_le _, Nat.zero_le _, ?_⟩, ?_, heof⟩
      · intro j _ hle
        cases j with
        | zero => exact Nat.le_refl 0
        | succ j =>
          rw [htake] at hle
          omega
      · rw [List.take_append_of_le_length (Nat.le_of_lt hcut), hsplit]
        rfl
    · rw [List.length_append] at hn
      obtain ⟨k, err, ⟨hk, hle, hmax⟩, hsplit, heof⟩ :=
        @ih (fun packet hmem => h packet (List.mem_cons_of_mem _ hmem)) fuel
          (n - (packetFrame packet).length) (by omega) (by omega)
      refine ⟨k + 1, err, ⟨Nat.succ_le_succ hk, ?_, ?_⟩, ?_, ?_⟩
      · rw [htake]
        omega
      · intro j hj hle'
        cases j with
        | zero => omega
        | succ j =>
          rw [htake] at hle'
          exact Nat.succ_le_succ (hmax j (Nat.le_of_succ_le_succ hj) (by omega))
      · rw [List.take_append, List.take_of_length_le (Nat.le_of_not_lt hcut),
          splitPacket_frame hpacket]
        dsimp only
        rw [hsplit]
        rfl
      · rw [heof, htake]
        omega

theorem writePackets_wire {packets : List Packet}
    (h : ∀ packet ∈ packets, ∃ result, encodePacketFrame (some packet) maxPayloadSize = .ok result)
    {writer : Writer UInt8} (hwriter : writer.Progresses) :
    (writePackets writer maxPayloadSize packets).1 = none ∧
      (writePackets writer maxPayloadSize packets).2.wire = writer.wire ++ streamOf packets := by
  induction packets generalizing writer with
  | nil => exact ⟨rfl, by simp [writePackets, streamOf]⟩
  | cons packet packets ih =>
    obtain ⟨result, hencode⟩ := h packet List.mem_cons_self
    obtain ⟨-, -, rfl⟩ := encodePacketFrame_ok hencode
    obtain ⟨hnone, hwire, hprogresses⟩ := Writer.writeAll_eq hwriter (packetFrame packet)
    have hwrite : writePacketFrame writer (some packet) maxPayloadSize =
        (none, (writer.writeAll (packetFrame packet)).2) := by
      rw [writePacketFrame, hencode]
      dsimp only
      generalize writer.writeAll (packetFrame packet) = outcome at hnone
      obtain ⟨err, after⟩ := outcome
      obtain rfl : err = none := hnone
      rfl
    obtain ⟨hrest, hrestWire⟩ :=
      ih (fun packet hmem => h packet (List.mem_cons_of_mem _ hmem)) hprogresses
    rw [writePackets, hwrite]
    refine ⟨hrest, ?_⟩
    rw [hrestWire, hwire, streamOf_cons, List.append_assoc]

/-- Frames are self-delimiting. Packets that `encodePacketFrame` accepts are put on the wire one
after another by a writer that takes them in pieces, and a reader that hands the stream out in
pieces finds the same packets and then the end; from a stream that is cut it finds the packets whose
frames are complete, and the end exactly where a frame ends. -/
theorem frames_self_delimiting {packets : List Packet}
    (haccepted : ∀ packet ∈ packets,
      ∃ result, encodePacketFrame (some packet) maxPayloadSize = .ok result)
    (hlimits : normalizeFrameLimit maxPayloadSize ≤ normalizeBodyLimit maxBodySize) :
    (∀ packet ∈ packets, encodePacketFrame (some packet) maxPayloadSize =
      .ok (packetFrame packet, stamped packet)) ∧
    (∀ writer : Writer UInt8, writer.Progresses →
      (writePackets writer maxPayloadSize packets).1 = none ∧
        (writePackets writer maxPayloadSize packets).2.wire =
          writer.wire ++ (packets.map packetFrame).flatten) ∧
    (∀ reader : Reader UInt8, reader.rest = (packets.map packetFrame).flatten →
      readStream maxPayloadSize maxBodySize reader = (packets.map stamped, some .eof)) ∧
    ∀ n ≤ ((packets.map packetFrame).flatten).length, ∀ reader : Reader UInt8,
      reader.rest = ((packets.map packetFrame).flatten).take n →
      ∃ k err, Complete packets n k ∧
        readStream maxPayloadSize maxBodySize reader = ((packets.take k).map stamped, some err) ∧
        (err = .eof ↔ n = (((packets.take k).map packetFrame).flatten).length) := by
  have hsendable : ∀ packet ∈ packets, Sendable maxPayloadSize maxBodySize packet := by
    intro packet hpacket
    obtain ⟨result, hencode⟩ := haccepted packet hpacket
    obtain ⟨hwithin, hpayload, -⟩ := encodePacketFrame_ok hencode
    refine ⟨hwithin, hpayload, ?_⟩
    have hbody := length_encodeBytes (stamped packet)
    have hle := UInt32.le_iff_toNat_le.mp hlimits
    have hsame : (stamped packet).body = packet.body := rfl
    rw [hsame] at hbody
    omega
  have hcut : ∀ n ≤ (streamOf packets).length, ∀ reader : Reader UInt8,
      reader.rest = (streamOf packets).take n → ∃ k err, Complete packets n k ∧
        readStream maxPayloadSize maxBodySize reader = ((packets.take k).map stamped, some err) ∧
        (err = .eof ↔ n = (streamOf (packets.take k)).length) := by
    intro n hn reader hreader
    have hlength : reader.rest.length = n := by
      rw [hreader, List.length_take]
      omega
    rw [readStream, readPackets_eq, hlength, hreader]
    exact splitPackets_cut hsendable (Nat.lt_succ_self n) hn
  refine ⟨?_, fun writer hwriter => writePackets_wire haccepted hwriter, ?_, hcut⟩
  · intro packet hpacket
    obtain ⟨result, hencode⟩ := haccepted packet hpacket
    obtain ⟨-, -, rfl⟩ := encodePacketFrame_ok hencode
    exact hencode
  · intro reader hreader
    obtain ⟨k, err, ⟨hk, -, hmax⟩, hread, heof⟩ := hcut _ (Nat.le_refl _) reader
      (by rw [List.take_length]; exact hreader)
    have hall : packets.length ≤ k := hmax _ (Nat.le_refl _) (by rw [List.take_length])
    rw [List.take_of_length_le hall] at hread heof
    rw [hread, heof.mpr rfl]

/-- Two frames read three bytes at a time. -/
theorem frames_self_delimiting_twice :
    readStream 100 100 ⟨([bindPacket, bindPacket].map packetFrame).flatten, fun _ => 3, true⟩ =
      ([stamped bindPacket, stamped bindPacket], some .eof) := by
  have haccepted : ∀ packet ∈ [bindPacket, bindPacket],
      ∃ result, encodePacketFrame (some packet) 100 = .ok result := by
    intro packet hpacket
    obtain rfl : packet = bindPacket := by simpa using hpacket
    exact ⟨_, rfl⟩
  exact (frames_self_delimiting haccepted (by decide)).2.2.1 _ rfl

end ZCourier.Protocol
