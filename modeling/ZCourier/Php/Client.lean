import ZCourier.Library.Exceptional
import ZCourier.Php.FrameParser
import ZCourier.Php.MessageDeduper

/-!
# The PHP client

`Client` of the PHP SDK (`sdk/php/src/Client/Client.php`): one connection at a time, no threads, and
three queues of packets. What the surroundings do is given with the state: what each connection
attempt and each read gives (`Connection`, `Chunk`), and what else is asked for (`Input`). Texts of
exceptions and lengths of timeouts are left out; the JSON of acknowledgements is a parameter
(`PhpJson`).
-/

namespace ZCourier.Php

open Go Library

/-! ## Packets and acknowledgements -/

/-- `Packet::MSG_ID_ACK`. -/
def msgIdAck : Int := 1

/-- `Packet::MSG_ID_DOWNLINK_ACK`. -/
def msgIdDownlinkAck : Int := 2

/-- `Packet::MSG_ID_BIND`. -/
def msgIdBind : Int := 1000

/-- `Packet::isReservedMsgId`. -/
def isReservedMsgId (msgId : Int) : Bool :=
  msgId = msgIdAck || msgId = msgIdDownlinkAck || msgId = msgIdBind

/-- Whether `Packet::FLAG_ACK_REQUIRED`, the lowest bit, is set. -/
def flagsAckRequired (flags : Int) : Bool := flags % 2 = 1

/-- Set `Packet::FLAG_ACK_REQUIRED`. -/
def withAckRequired (flags : Int) : Int := if flagsAckRequired flags then flags else flags + 1

/-- A packet with the defaults of the constructor's arguments. -/
def newPacket (msgId : Int) : Packet where
  msgId := msgId
  body := []
  version := Codec.version
  flags := 0
  sequence := ascii "0"
  timestamp := ascii "0"
  clientId := []
  deviceId := []
  sessionId := []
  messageId := []
  traceId := []
  token := []

/-- `Ack`. -/
structure Ack where
  code : GoString
  msgId : Int
  messageId : GoString
  reason : GoString
  deriving DecidableEq

/-- The JSON of the bodies of acknowledgements. -/
class PhpJson where
  /-- The fields of an acknowledgement, if the text is JSON and they have the right types. -/
  decodeAck : Bytes → Option Ack
  /-- `DeliveryAck::toJson`, for the code `delivered`; a text that is not UTF-8 has no JSON. -/
  encodeDeliveryAck : GoString → Option Bytes

/-- `Ack::fromPacket`; `none` is an exception. -/
def Ack.fromPacket [PhpJson] (packet : Packet) : Option Ack :=
  if packet.msgId ≠ msgIdAck then none
  else
    match PhpJson.decodeAck packet.body with
    | none => none
    | some ack => if ack.code = [] then none else some ack

/-- A codec to evaluate the model with: the body is `accepted`, the low byte and the high byte of
the message number, and the message id. -/
@[reducible] def PhpJson.plain : PhpJson where
  decodeAck
    | low :: high :: messageId =>
      some ⟨ascii "accepted", low.toNat + 256 * high.toNat, messageId, []⟩
    | _ => none
  encodeDeliveryAck messageId := some messageId

/-! ## Exceptions -/

/-- The kinds of `ClientException`. -/
inductive ClientErrorKind where
  | invalidConfig
  | closed
  | connectFailed
  | tokenUnavailable
  | bindTimeout
  | authenticationFailed
  | authenticationUnavailable
  | bindRejected
  | unexpectedBindAck
  | pendingOverflow
  | inboundOverflow
  | invalidRequest
  | notReady
  | reservedMsgId
  | ackTimeout
  | ackRejected
  | unexpectedAck
  | receiveTimeout
  | invalidDownlink
  | handlerFailed
  | autoAckFailed
  | reconnectExhausted
  | ioError
  deriving DecidableEq

/-- What can be thrown; `other` stands for the exceptions of PHP itself and of the surroundings. -/
inductive Throwable where
  | client (kind : ClientErrorKind)
  | protocol (exception : ProtocolException)
  | other
  deriving DecidableEq

/-! ## The client and its surroundings -/

/-- `State`. -/
inductive State where
  | disconnected
  | connecting
  | binding
  | ready
  | reconnectWait
  | closing
  | closed
  deriving DecidableEq

/-- `Binding`. -/
structure Binding where
  clientId : GoString
  deviceId : GoString
  sessionId : GoString
  deriving DecidableEq

/-- `ReconnectConfig`, without the delays. -/
structure ReconnectConfig where
  maxAttempts : Nat

/-- `Config`, with what its constructor checks of the limits. -/
structure Config where
  clientId : GoString
  deviceId : GoString
  maxFramePayloadSize : Int
  maxBodySize : Int
  maxPendingBeforeReady : Nat
  inboundBuffer : Nat
  downlinkDedupCapacity : Nat
  reconnect : Option ReconnectConfig
  maxFramePayloadSize_pos : 0 < maxFramePayloadSize
  maxBodySize_nonneg : 0 ≤ maxBodySize

/-- What one `fread` gives. -/
inductive Chunk where
  /-- One byte at least. -/
  | bytes (first : UInt8) (rest : Bytes)
  /-- Nothing, and the stream says that it timed out. -/
  | timedOut
  /-- Nothing, and the stream is at its end. -/
  | ended
  /-- Nothing, and neither of the two. -/
  | nothing

/-- What a connection attempt gives. -/
inductive Connection where
  /-- A stream, and what reading it will give. -/
  | stream (chunks : List Chunk)
  /-- A value that is not a stream. -/
  | invalid
  /-- An exception of the connector. -/
  | failed (err : Throwable)

/-- What the surroundings answer at one point of the code: only the field that is asked for there is
looked at. -/
structure Input where
  /-- The token, if the provider does not throw. -/
  token : Option GoString
  /-- Whether all bytes could be written. -/
  written : Bool
  /-- Whether the timeout of the stream could be set. -/
  timeoutSet : Bool
  /-- `bin2hex(random_bytes(16))`. -/
  random : GoString
  /-- The clock in milliseconds. -/
  now : Int
  /-- After how many turns a loop is left at the latest. -/
  turns : Nat

/-- `Client`. A stream is given by what reading it will give. -/
structure Client where
  stream : Option (List Chunk)
  state : State
  binding : Option Binding
  parser : FrameParser
  wireQueue : List Packet
  inboundQueue : List Packet
  pendingBeforeReady : List Packet
  sequence : Int
  token : GoString
  deduper : MessageDeduper

/-- The constructor of `Client`. -/
def Client.construct (config : Config) : Except ProtocolException Client := do
  let parser ← FrameParser.construct config.maxFramePayloadSize config.maxBodySize
  return {
    stream := none
    state := .disconnected
    binding := none
    parser := parser
    wireQueue := []
    inboundQueue := []
    pendingBeforeReady := []
    sequence := 0
    token := []
    deduper := .new config.downlinkDedupCapacity }

/-- A client, what the surroundings will answer, and what was written to the connections. -/
structure World where
  client : Client
  connections : List Connection
  inputs : Nat → Input
  asked : Nat
  written : List Bytes

abbrev ClientCode := Code World Throwable

def getClient : ClientCode Client := do return (← get).client

/-- Assign to fields of the client. -/
def update (change : Client → Client) : ClientCode Unit :=
  modify fun world => { world with client := change world.client }

def ask : ClientCode Input := do
  let world ← get
  modify fun world => { world with asked := world.asked + 1 }
  return world.inputs world.asked

/-- Throw the exception of a part that does not touch the client. -/
def lift {α : Type} : Except ProtocolException α → ClientCode α
  | .ok value => pure value
  | .error exception => throw (.protocol exception)

/-- A `while (true)`. -/
def forever {α : Type} (body : ClientCode (Unit ⊕ α)) : ClientCode α := do
  let turns := (← ask).turns
  Code.iterate (fun _ => body) turns ()

/-! ## The stream -/

/-- `stream_set_timeout` of `setReadTimeout` and `setBlockingReadTimeout`, and what is checked
around it. -/
def setTimeout : ClientCode Unit := do
  if (← getClient).stream.isNone then throw (.client .ioError)
  else if (← ask).timeoutSet then return ()
  else throw (.client .ioError)

/-- `setReadTimeout`. -/
def setReadTimeout : ClientCode Unit := setTimeout

/-- `setBlockingReadTimeout`. -/
def setBlockingReadTimeout : ClientCode Unit := setTimeout

/-- `writeAll`. -/
def writeAll (data : Bytes) : ClientCode Unit := do
  if (← getClient).stream.isNone then throw (.client .ioError)
  else if data = [] then return ()
  else if (← ask).written then
    modify fun world => { world with written := world.written ++ [data] }
  else throw (.client .ioError)

/-- `closeStream`. -/
def closeStream : ClientCode Unit := update fun client => { client with stream := none }

/-- `fread`; a stream that gives nothing more blocks for ever. -/
def fread : ClientCode Chunk := do
  match (← getClient).stream with
  | none | some [] => Code.stuck
  | some (chunk :: chunks) =>
    update fun client => { client with stream := some chunks }
    return chunk

/-- `$this->parser->push`. -/
def push (chunk : Bytes) : ClientCode (List Packet) := do
  let outcome := (← getClient).parser.push chunk
  update fun client => { client with parser := outcome.2 }
  lift outcome.1

/-- A turn of the loop of `readPacket`. -/
def readTurn (timeoutKind : ClientErrorKind) : ClientCode (Unit ⊕ Packet) := do
  match ← fread with
  | .timedOut => throw (.client timeoutKind)
  | .ended => throw (.client .ioError)
  | .nothing => return .inl ()
  | .bytes first rest =>
    match ← push (first :: rest) with
    | [] => return .inl ()
    | packet :: packets =>
      update fun client => { client with wireQueue := client.wireQueue ++ packets }
      return .inr packet

/-- `readPacket`. -/
def readPacket (timeoutKind : ClientErrorKind) : ClientCode Packet := do
  match (← getClient).wireQueue with
  | packet :: packets =>
    update fun client => { client with wireQueue := packets }
    return packet
  | [] =>
    if (← getClient).stream.isNone then throw (.client .ioError)
    else forever (readTurn timeoutKind)

/-! ## Connecting -/

section Calls

variable [PhpJson] (config : Config)

/-- `enqueueInbound`. -/
def enqueueInbound (packet : Packet) : ClientCode Unit := do
  if config.inboundBuffer ≤ (← getClient).inboundQueue.length then
    throw (.client .inboundOverflow)
  else
    update fun client => { client with inboundQueue := client.inboundQueue ++ [packet] }

/-- `resolveToken`. -/
def resolveToken : ClientCode GoString := do
  match (← ask).token with
  | none => throw (.client .tokenUnavailable)
  | some token => if token = [] then throw (.client .tokenUnavailable) else return token

/-- `$this->stream = $this->config->connector->connect(…)` and the check of what it gives. -/
def openStream : ClientCode Unit := do
  match (← get).connections with
  | [] => Code.stuck
  | connection :: connections =>
    modify fun world => { world with connections := connections }
    match connection with
    | .stream chunks => update fun client => { client with stream := some chunks }
    | .invalid =>
      closeStream
      throw (.client .connectFailed)
    | .failed err => throw err

/-- `$this->sequence++`, and the sequence number after it. -/
def nextSequence : ClientCode Int := do
  update fun client => { client with sequence := client.sequence + 1 }
  return (← getClient).sequence

/-- `newBindPacket`. -/
def newBindPacket (token : GoString) : ClientCode Packet := do
  let messageId := ascii "zc-bind-" ++ (← ask).random
  let sequence ← nextSequence
  let now := (← ask).now
  lift (Packet.construct { newPacket msgIdBind with
    flags := 1
    sequence := formatInt sequence
    timestamp := formatInt now
    clientId := config.clientId
    deviceId := config.deviceId
    messageId := messageId
    traceId := messageId
    token := token })

/-- `acceptedBinding`. -/
def acceptedBinding (packet : Packet) : ClientCode Binding := do
  if packet.sessionId = [] then throw (.client .unexpectedBindAck)
  else return ⟨packet.clientId, packet.deviceId, packet.sessionId⟩

/-- What `waitForBindAck` does with the acknowledgement of its bind. -/
def bindResult (bindMessageId : GoString) (packet : Packet) : ClientCode Binding := do
  match Ack.fromPacket packet with
  | none => throw (.client .unexpectedBindAck)
  | some ack =>
    if ack.messageId ≠ bindMessageId ∨ ack.msgId ≠ msgIdBind then
      throw (.client .unexpectedBindAck)
    else if ack.code = ascii "accepted" then acceptedBinding packet
    else if ack.code = ascii "unauthorized" then throw (.client .authenticationFailed)
    else if ack.code = ascii "auth_unavailable" then
      throw (.client .authenticationUnavailable)
    else if ack.code = ascii "decode_failed" ∨ ack.code = ascii "rejected" then
      throw (.client .bindRejected)
    else throw (.client .unexpectedBindAck)

/-- A turn of the loop of `waitForBindAck`. -/
def bindTurn (bindMessageId : GoString) : ClientCode (Unit ⊕ Binding) := do
  let packet ← readPacket .bindTimeout
  if packet.msgId ≠ msgIdAck ∨ packet.messageId ≠ bindMessageId then
    if config.maxPendingBeforeReady ≤ (← getClient).pendingBeforeReady.length then
      throw (.client .pendingOverflow)
    else
      update fun client =>
        { client with pendingBeforeReady := client.pendingBeforeReady ++ [packet] }
      return .inl ()
  else return .inr (← bindResult bindMessageId packet)

/-- `waitForBindAck`. -/
def waitForBindAck (bindMessageId : GoString) : ClientCode Binding :=
  forever (bindTurn config bindMessageId)

/-- `FrameCodec::encode` with the limit of the client. -/
def encodeFrame (packet : Packet) : ClientCode Bytes :=
  lift (FrameCodec.encode packet config.maxFramePayloadSize)

/-- The client where `connect` begins to work. -/
def Client.connecting (client : Client) : Client :=
  { client with
    state := .connecting
    binding := none
    wireQueue := []
    inboundQueue := []
    pendingBeforeReady := []
    parser := { client.parser with buffer := [] } }

/-- The end of the `try` of `connect`: the client is ready, and what came before moves on. -/
def becomeReady (token : GoString) (binding : Binding) : ClientCode Binding := do
  update fun client => { client with binding := some binding, token := token, state := .ready }
  (← getClient).pendingBeforeReady.forM (enqueueInbound config)
  update fun client => { client with pendingBeforeReady := [] }
  return binding

/-- The `try` of `connect`. -/
def openAndBind : ClientCode Binding := do
  let token ← resolveToken
  openStream
  update fun client => { client with state := .binding }
  setReadTimeout
  let packet ← newBindPacket config token
  writeAll (← encodeFrame config packet)
  let binding ← waitForBindAck config packet.messageId
  setBlockingReadTimeout
  becomeReady config token binding

/-- `mapConnectError`. -/
def mapConnectError : Throwable → ClientErrorKind
  | .client kind => kind
  | .protocol _ => .unexpectedBindAck
  | .other => .connectFailed

/-- The client where `connect` has failed. -/
def Client.connectFailed (client : Client) : Client :=
  { client with
    stream := none
    binding := none
    token := []
    wireQueue := []
    inboundQueue := []
    pendingBeforeReady := []
    state := .disconnected }

/-- `connect`. -/
def connect : ClientCode Binding := do
  let client ← getClient
  if client.state = .closed ∨ client.state = .closing then throw (.client .closed)
  else
    match client.state, client.binding with
    | .ready, some binding => return binding
    | _, _ =>
      update Client.connecting
      tryCatch (openAndBind config) fun err => do
        update Client.connectFailed
        throw (.client (mapConnectError err))

/-- The client that `close` leaves. -/
def Client.closed (client : Client) : Client :=
  { client with
    stream := none
    binding := none
    token := []
    wireQueue := []
    inboundQueue := []
    pendingBeforeReady := []
    parser := { client.parser with buffer := [] }
    state := .closed }

/-- `close`. -/
def close : ClientCode Unit := do
  if (← getClient).state = .closed then return ()
  else update Client.closed

/-! ## Reconnecting -/

/-- `disconnect`. -/
def disconnect : ClientCode Unit :=
  update fun client => { client.closed with state := .disconnected }

/-- `isRetryableReconnectError`. -/
def isRetryableReconnectError : ClientErrorKind → Bool
  | .closed | .invalidConfig | .authenticationFailed | .bindRejected | .unexpectedBindAck => false
  | _ => true

/-- `finishReconnectFailure`. -/
def finishReconnectFailure : ClientCode Unit :=
  update fun client =>
    if client.state = .closed ∨ client.state = .closing then { client with binding := none }
    else { client with binding := none, state := .disconnected }

/-- The end of `waitReconnectDelay`. -/
def waitReconnectDelay : ClientCode Unit := do
  let client ← getClient
  if client.state = .closed ∨ client.state = .closing then throw (.client .closed)
  else return ()

/-- A turn of the loop of `reconnect`, for the attempt with the given number. -/
def reconnectTurn (reconnect : ReconnectConfig) (attempt : Nat) : ClientCode (Nat ⊕ Binding) := do
  if 0 < reconnect.maxAttempts ∧ reconnect.maxAttempts < attempt then
    finishReconnectFailure
    throw (.client .reconnectExhausted)
  else
    update fun client => { client with state := .reconnectWait }
    waitReconnectDelay
    tryCatch (do return .inr (← connect config)) fun
      | .client kind =>
        if isRetryableReconnectError kind then return .inl (attempt + 1)
        else do
          finishReconnectFailure
          throw (.client kind)
      | err => throw err

/-- `reconnect`, for a client that is configured to reconnect. -/
def reconnect (reconnect : ReconnectConfig) : ClientCode Binding := do
  let turns := (← ask).turns
  Code.iterate (reconnectTurn config reconnect) turns 1

/-- `recoverConnection`: the kind of the exception to throw. -/
def recoverConnection (failure : ClientErrorKind) : ClientCode ClientErrorKind := do
  disconnect
  match config.reconnect with
  | none => return failure
  | some settings =>
    tryCatch (do
      let _ ← reconnect config settings
      return failure) fun
    | .client kind => return kind
    | err => throw err

/-- The kinds of exception after which the connection is given up. -/
def isConnectionFailure (kind : ClientErrorKind) : Bool :=
  kind = .ioError || kind = .inboundOverflow

/-- The `catch` clauses of `send`, `receive` and `acknowledgeDownlink`. -/
def recovering {α : Type} (body : ClientCode α) : ClientCode α :=
  tryCatch body fun
    | .protocol _ => do throw (.client (← recoverConnection config .ioError))
    | .client kind =>
      if isConnectionFailure kind then do throw (.client (← recoverConnection config kind))
      else throw (.client kind)
    | .other => throw .other

/-! ## Calls of a client that is ready -/

/-- `ensureReady`. -/
def ensureReady : ClientCode Binding := do
  let client ← getClient
  if client.state = .closed ∨ client.state = .closing then throw (.client .closed)
  else
    match client.state, client.binding, client.stream with
    | .ready, some binding, some _ => return binding
    | _, _, _ => throw (.client .notReady)

/-- What `waitForBusinessAck` does with the acknowledgement it waits for. -/
def ackResult (msgId : Int) (messageId : GoString) (packet : Packet) : ClientCode Ack := do
  match Ack.fromPacket packet with
  | none => throw (.client .unexpectedAck)
  | some ack =>
    if ack.messageId ≠ messageId ∨ ack.msgId ≠ msgId then throw (.client .unexpectedAck)
    else if ack.code = ascii "accepted" then return ack
    else if ack.code = ascii "unauthorized" then throw (.client .authenticationFailed)
    else if ack.code = ascii "auth_unavailable" then
      throw (.client .authenticationUnavailable)
    else throw (.client .ackRejected)

/-- A turn of the loop of `waitForBusinessAck`. -/
def ackTurn (msgId : Int) (messageId : GoString) : ClientCode (Unit ⊕ Ack) := do
  let packet ← readPacket .ackTimeout
  if packet.msgId ≠ msgIdAck ∨ packet.messageId ≠ messageId then
    if packet.msgId ≠ msgIdAck then enqueueInbound config packet
    return .inl ()
  else return .inr (← ackResult msgId messageId packet)

/-- `waitForBusinessAck`. -/
def waitForBusinessAck (msgId : Int) (messageId : GoString) : ClientCode Ack :=
  forever (ackTurn config msgId messageId)

/-- `setBlockingReadTimeout`, if there is a stream. -/
def restoreTimeout : ClientCode Unit := do
  if (← getClient).stream.isSome then setBlockingReadTimeout

/-- `SendRequest`. -/
structure SendRequest where
  msgId : Int
  body : Bytes
  messageId : GoString
  traceId : GoString
  flags : Int
  ackRequired : Bool
  deriving DecidableEq

/-- `SendResult`. -/
structure SendResult where
  messageId : GoString
  ack : Option Ack
  deriving DecidableEq

/-- The `try` of `send`: write the packet and wait for its acknowledgement if one is required. -/
def sendPacket (packet : Packet) (ackRequired : Bool) : ClientCode SendResult := do
  writeAll (← encodeFrame config packet)
  if ackRequired then
    setReadTimeout
    let ack ← Code.ensuring (waitForBusinessAck config packet.msgId packet.messageId)
      setBlockingReadTimeout
    return ⟨packet.messageId, some ack⟩
  else return ⟨packet.messageId, none⟩

/-- A packet of a client that is bound, with a sequence number and the time. -/
def boundPacket (binding : Binding) (sequence : Int) (packet : Packet) : ClientCode Packet := do
  let client ← getClient
  let now := (← ask).now
  lift (Packet.construct { packet with
    sequence := formatInt sequence
    timestamp := formatInt now
    clientId := binding.clientId
    deviceId := binding.deviceId
    sessionId := binding.sessionId
    token := client.token })

/-- `send`. -/
def send (request : SendRequest) : ClientCode SendResult := do
  let binding ← ensureReady
  if request.msgId < 0 ∨ 0xFFFFFFFF < request.msgId ∨ request.flags < 0 ∨
    0xFFFF < request.flags then
    throw (.client .invalidRequest)
  else if isReservedMsgId request.msgId then throw (.client .reservedMsgId)
  else
    let random := (← ask).random
    let messageId :=
      if request.messageId ≠ [] then request.messageId else ascii "zc-msg-" ++ random
    let traceId := if request.traceId ≠ [] then request.traceId else messageId
    let ackRequired := request.ackRequired || flagsAckRequired request.flags
    let flags := if ackRequired then withAckRequired request.flags else request.flags
    let sequence ← nextSequence
    let packet ← boundPacket binding sequence { newPacket request.msgId with
      body := request.body
      flags := flags
      messageId := messageId
      traceId := traceId }
    recovering config (sendPacket config packet ackRequired)

/-- The packet that a turn of the loop of `receive` looks at. -/
def nextPacket : ClientCode Packet := do
  match (← getClient).inboundQueue with
  | packet :: packets =>
    update fun client => { client with inboundQueue := packets }
    return packet
  | [] => readPacket .receiveTimeout

/-- A turn of the loop of `receive`. -/
def receiveTurn : ClientCode (Unit ⊕ Packet) := do
  let packet ← nextPacket
  if packet.msgId ≠ msgIdAck then return .inr packet else return .inl ()

/-- `receive`, with a timeout in seconds or without one. -/
def receive (timeout : Option Rat) : ClientCode Packet := do
  let _ ← ensureReady
  if timeout.any (· ≤ 0) then throw (.client .invalidRequest)
  else
    Code.ensuring
      (recovering config (do
        if timeout.isNone then setBlockingReadTimeout else setReadTimeout
        forever receiveTurn))
      restoreTimeout

/-- `downlinkTarget`: the message id and the trace id. -/
def downlinkTarget (packet : Packet) : ClientCode (GoString × GoString) := do
  if isReservedMsgId packet.msgId || !flagsAckRequired packet.flags || packet.messageId = [] then
    throw (.client .invalidDownlink)
  else return (packet.messageId, packet.traceId)

/-- The `try` of `acknowledgeDownlink`. -/
def sendDeliveryAck (packet : Packet) : ClientCode Ack := do
  writeAll (← encodeFrame config packet)
  setReadTimeout
  Code.ensuring (waitForBusinessAck config msgIdDownlinkAck packet.messageId) restoreTimeout

/-- `acknowledgeDownlink`. -/
def acknowledgeDownlink (packet : Packet) : ClientCode Ack := do
  let binding ← ensureReady
  let (targetId, targetTrace) ← downlinkTarget packet
  update fun client => { client with deduper := client.deduper.mark targetId }
  let messageId := ascii "zc-dack-" ++ (← ask).random
  let sequence ← nextSequence
  match PhpJson.encodeDeliveryAck targetId with
  | none => throw .other
  | some body =>
    let deliveryAck ← boundPacket binding sequence { newPacket msgIdDownlinkAck with
      body := body
      flags := 1
      messageId := messageId
      traceId := if targetTrace ≠ [] then targetTrace else targetId }
    recovering config (sendDeliveryAck config deliveryAck)

/-! ## Sequences of calls -/

inductive Call where
  | connect
  | send (request : SendRequest)
  | receive (timeout : Option Rat)
  | acknowledgeDownlink (packet : Packet)
  | close
  deriving DecidableEq

/-- What a call returns. -/
inductive Result where
  | bound (binding : Binding)
  | sent (result : SendResult)
  | received (packet : Packet)
  | acknowledged (ack : Ack)
  | closed
  deriving DecidableEq

def Call.code : Call → ClientCode Result
  | .connect => do return .bound (← Php.connect config)
  | .send request => do return .sent (← Php.send config request)
  | .receive timeout => do return .received (← Php.receive config timeout)
  | .acknowledgeDownlink packet => do return .acknowledged (← Php.acknowledgeDownlink config packet)
  | .close => do
      Php.close
      return .closed

/-- Make calls one after another: how each of them ended, and what is left. -/
def runCalls : List Call → World → Option (List (Call × Except Throwable Result) × World)
  | [], world => some ([], world)
  | call :: calls, world =>
    match (call.code config).exec world with
    | none => none
    | some (result, world) =>
      match runCalls calls world with
      | none => none
      | some (results, world) => some ((call, result) :: results, world)

end Calls

end ZCourier.Php
