import ZCourier.Php.FrameParser

/-!
# Streams between Go and PHP

Packets that one side writes and the other reads. `streams_interoperate` says that, however the
bytes come in, the PHP parser returns the packets that Go has written, and Go's reader the packets
whose frames `FrameCodec` has made.
-/

namespace ZCourier.Php

open Go Library Protocol

variable {maxPayloadSize maxBodySize : UInt32}

variable {packets : List Server.Packet}

theorem packetsOf_streamOf (h : ∀ packet ∈ packets, Sendable maxPayloadSize maxBodySize packet)
    (rest : Bytes) : packetsOf maxPayloadSize maxBodySize (streamOf packets ++ rest) =
      packets.map stamped ++ packetsOf maxPayloadSize maxBodySize rest := by
  induction packets with
  | nil => rfl
  | cons packet packets ih =>
    obtain ⟨hpacket, hpackets⟩ := List.forall_mem_cons.mp h
    rw [streamOf_cons, List.append_assoc, packetsOf_ok (splitPacket_frame hpacket _), ih hpackets]
    rfl

theorem hasBadFrame_streamOf (h : ∀ packet ∈ packets, Sendable maxPayloadSize maxBodySize packet) :
    FrameParser.hasBadFrame maxPayloadSize maxBodySize (streamOf packets) = false := by
  induction packets with
  | nil => rfl
  | cons packet packets ih =>
    obtain ⟨hpacket, hpackets⟩ := List.forall_mem_cons.mp h
    rw [streamOf_cons, FrameParser.hasBadFrame_ok (splitPacket_frame hpacket _), ih hpackets]

theorem encode_packetFrame {packet : Server.Packet} {result : Bytes × Server.Packet}
    (h : encodePacketFrame (some packet) maxPayloadSize = .ok result) :
    FrameCodec.encode (ofGo packet) maxPayloadSize.toNat = .ok (packetFrame packet) := by
  obtain ⟨hlimits, hpayload, -⟩ := encodePacketFrame_ok h
  rw [FrameCodec.encode, encode_agrees hlimits, FrameCodec.normalizeLimit, if_neg (by omega),
    FrameParser.limit_eq]
  simp only [bind, Except.bind]
  replace hpayload : ¬ ((normalizeFrameLimit maxPayloadSize).toNat : Int) <
      (encodeBytes { packet with version := Protocol.version }).length := by
    rw [stamped] at hpayload
    omega
  rw [if_neg hpayload, pack_natCast]
  exact congrArg (fun bytes => Except.ok (bytes ++ _)) (pack_natCast 4 packet.msgID.toNat)

theorem frames_eq {frames : List Bytes} (haccepted : ∀ packet ∈ packets,
      ∃ result, encodePacketFrame (some packet) maxPayloadSize = .ok result)
    (hframes : List.Forall₂ (fun packet frame =>
      FrameCodec.encode (ofGo packet) maxPayloadSize.toNat = .ok frame) packets frames) :
    frames = packets.map packetFrame := by
  induction hframes with
  | nil => rfl
  | cons hframe _ ih =>
    obtain ⟨⟨result, hencode⟩, hrest⟩ := List.forall_mem_cons.mp haccepted
    rw [List.map_cons, ← ih hrest, Except.ok.inj (hframe.symm.trans (encode_packetFrame hencode))]

/-- What Go writes through any writer and what reaches a new PHP parser in any pieces are the same
packets, and so are those whose frames PHP makes and those that Go reads. -/
theorem streams_interoperate {packets : List Server.Packet}
    (haccepted : ∀ packet ∈ packets,
      ∃ result, encodePacketFrame (some packet) maxPayloadSize = .ok result)
    (hlimits : normalizeFrameLimit maxPayloadSize ≤ normalizeBodyLimit maxBodySize) :
    (∀ (writer : Writer UInt8) (chunks : List Bytes) (parser : FrameParser), writer.Progresses →
      (writePackets writer maxPayloadSize packets).2.wire = writer.wire ++ chunks.flatten →
      FrameParser.construct maxPayloadSize.toNat maxBodySize.toNat = .ok parser →
      parser.pushAll chunks = packets.map fun packet => ofGo (stamped packet)) ∧
    ∀ (frames : List Bytes) (reader : Reader UInt8),
      List.Forall₂ (fun packet frame =>
        FrameCodec.encode (ofGo packet) maxPayloadSize.toNat = .ok frame) packets frames →
      reader.rest = frames.flatten →
      (readStream maxPayloadSize maxBodySize reader).1 = packets.map stamped := by
  have hsendable : ∀ packet ∈ packets, Sendable maxPayloadSize maxBodySize packet := by
    intro packet hmem
    obtain ⟨result, hencode⟩ := haccepted packet hmem
    obtain ⟨hwithin, hpayload, -⟩ := encodePacketFrame_ok hencode
    have hbody : packet.body.length ≤ (encodeBytes (stamped packet)).length := by
      rw [length_encodeBytes]
      exact Nat.le_add_left _ _
    exact ⟨hwithin, hpayload, hbody.trans (hpayload.trans (UInt32.le_iff_toNat_le.mp hlimits))⟩
  have hstream : packetsOf maxPayloadSize maxBodySize (streamOf packets) = packets.map stamped := by
    have hall := packetsOf_streamOf hsendable []
    rwa [List.append_nil, show packetsOf maxPayloadSize maxBodySize [] = [] from rfl,
      List.append_nil] at hall
  refine ⟨fun writer chunks parser hprogress hwire hparser => ?_,
    fun frames reader hframes hrest => ?_⟩
  · obtain rfl := Except.ok.inj ((FrameParser.construct_limits _ _).symm.trans hparser)
    have hchunks : chunks.flatten = streamOf packets :=
      List.append_cancel_left (hwire.symm.trans (writePackets_wire haccepted hprogress).2)
    have happart : FrameParser.badApart maxPayloadSize maxBodySize [] chunks = true :=
      FrameParser.badApart_of_good (hchunks ▸ hasBadFrame_streamOf hsendable)
    rw [← @FrameParser.pushAll_iff maxPayloadSize maxBodySize [] [] [] chunks rfl
      fun _ => ⟨rfl, rfl⟩] at happart
    rw [happart, List.nil_append, hchunks, hstream, List.map_map]
    rfl
  · rw [readStream_packets, hrest, frames_eq haccepted hframes]
    exact hstream

/-- Two frames, written at once and read in two pieces. -/
theorem streams_interoperate_pieces :
    (FrameParser.ofLimits 100 100 []).pushAll
        [(streamOf [bindPacket, bindPacket]).take 10, (streamOf [bindPacket, bindPacket]).drop 10] =
      [ofGo (stamped bindPacket), ofGo (stamped bindPacket)] := by
  have haccepted : ∀ packet ∈ [bindPacket, bindPacket],
      ∃ result, encodePacketFrame (some packet) 100 = .ok result :=
    List.forall_mem_cons.mpr ⟨⟨_, rfl⟩, List.forall_mem_singleton.mpr ⟨_, rfl⟩⟩
  have hprogress : (⟨[], fun _ size => (size, false)⟩ : Writer UInt8).Progresses :=
    fun _ size hsize => ⟨Int.natCast_pos.mpr hsize, Int.le_refl _, rfl⟩
  refine (streams_interoperate haccepted (by decide)).1 _ _ _ hprogress ?_
    (FrameParser.construct_limits 100 100)
  rw [(writePackets_wire haccepted hprogress).2]
  simp

end ZCourier.Php
