import ZCourier.Go.Values

/-!
# Packets

The packet of `pkg/sdk/protocol`, which `internal/protocol` passes on under its own name. A
body that is nil and one that is empty are the same here: no function of the protocol
treats them differently.
-/

namespace ZCourier.Server

open Go

/-- `MsgIDDownlinkAck`. -/
def msgIDDownlinkAck : UInt32 := 2

/-- `MsgIDBind`. -/
def msgIDBind : UInt32 := 1000

/-- `protocol.Packet`. -/
structure Packet where
  version : UInt8
  flags : UInt16
  msgID : UInt32
  seq : UInt64
  timestamp : Int64
  clientID : GoString
  deviceID : GoString
  sessionID : GoString
  messageID : GoString
  traceID : GoString
  token : GoString
  body : Bytes
  deriving DecidableEq

/-- The strings of a packet, in the order of the wire. -/
def Packet.fields (packet : Packet) : List GoString :=
  [packet.clientID, packet.deviceID, packet.sessionID, packet.messageID, packet.traceID,
    packet.token]

/-- `NewPacket`. -/
def newPacket (msgID : UInt32) (body : Bytes) : Packet where
  version := 1
  flags := 0
  msgID := msgID
  seq := 0
  timestamp := 0
  clientID := []
  deviceID := []
  sessionID := []
  messageID := []
  traceID := []
  token := []
  body := body

end ZCourier.Server
