import ZCourier.Php.Client

/-!
# Downlinks come in the order of the stream

`Client.upcoming` gives the packets that reading will still give, `Took` says what reading does to
the client, and `Ahead` is the invariant between calls: which packets are still to be received. Each
part of the client has one lemma that says what it ensures, also where it throws. The result is
`downlinks_in_order`.
-/

namespace ZCourier.Php

open Go Library Code

/-! ## The operations on the world -/

section Operations

variable {α : Type} {world : World} {ok : α → World → Prop} {fails : Throwable → World → Prop}

theorem ensures_getClient_bind {rest : Client → ClientCode α}
    (h : (rest world.client).Ensures ok fails world) :
    (getClient >>= rest).Ensures ok fails world :=
  fun result world' hexec => h result world' hexec

theorem ensures_update_bind {change : Client → Client} {rest : Unit → ClientCode α}
    (h : (rest ()).Ensures ok fails { world with client := change world.client }) :
    (update change >>= rest).Ensures ok fails world :=
  fun result world' hexec => h result world' hexec

theorem ensures_update {change : Client → Client} {ok : Unit → World → Prop}
    (h : ok () { world with client := change world.client }) :
    (update change).Ensures ok fails world :=
  .modify h

/-- What is asked for leaves the client as it is. -/
theorem ensures_ask_bind {rest : Input → ClientCode α}
    (h : ∀ input world', world'.client = world.client → world'.connections = world.connections →
      (rest input).Ensures ok fails world') :
    (ask >>= rest).Ensures ok fails world := by
  intro result world' hexec
  exact h (world.inputs world.asked) { world with asked := world.asked + 1 } rfl rfl result world'
    hexec

theorem ensures_lift {value : Except ProtocolException α} (hok : ∀ value, ok value world)
    (hfails : ∀ exception, fails (.protocol exception) world) :
    (lift value).Ensures ok fails world := by
  cases value with
  | ok value => exact .ret (hok value)
  | error exception => exact .throw (hfails exception)

theorem ensures_lift_bind {β : Type} {value : Except ProtocolException β} {rest : β → ClientCode α}
    (hok : ∀ value, (rest value).Ensures ok fails world)
    (hfails : ∀ exception, fails (.protocol exception) world) :
    (lift value >>= rest).Ensures ok fails world := by
  have hlift : (lift value).Ensures (fun _ world' => world' = world) fails world :=
    ensures_lift (fun _ => rfl) hfails
  refine hlift.bind ?_
  rintro value _ rfl
  exact hok value

theorem ensures_forever {body : ClientCode (Unit ⊕ α)} (inv : Client → Prop)
    (hbody : ∀ world, inv world.client → body.Ensures
      (fun result world' => Sum.elim (fun _ => inv world'.client) (ok · world') result) fails world)
    (h : inv world.client) : (forever body).Ensures ok fails world := by
  refine ensures_ask_bind fun input world' hclient _ => ?_
  rw [← hclient] at h
  exact Ensures.iterate (fun _ world => inv world.client) (fun _ => hbody) input.turns h

end Operations

/-! ## Parts that leave the client as it is -/

section Unchanged

variable (world : World)

def StreamFailed (client : Client) (err : Throwable) (world : World) : Prop :=
  err = .client .ioError ∧ world.client = client

theorem setTimeout_ensures :
    setTimeout.Ensures (fun _ world' => world'.client = world.client) (StreamFailed world.client)
      world := by
  refine ensures_getClient_bind ?_
  split
  · exact .throw ⟨rfl, rfl⟩
  · refine ensures_ask_bind fun input world' hclient _ => ?_
    split
    · exact .ret hclient
    · exact .throw ⟨rfl, hclient⟩

theorem writeAll_ensures (data : Bytes) :
    (writeAll data).Ensures (fun _ world' => world'.client = world.client)
      (StreamFailed world.client) world := by
  refine ensures_getClient_bind ?_
  split
  · exact .throw ⟨rfl, rfl⟩
  · split
    · exact .ret rfl
    · refine ensures_ask_bind fun input world' hclient _ => ?_
      split
      · exact .modify hclient
      · exact .throw ⟨rfl, hclient⟩

theorem restoreTimeout_ensures :
    restoreTimeout.Ensures (fun _ world' => world'.client = world.client)
      (StreamFailed world.client) world := by
  refine ensures_getClient_bind ?_
  split
  · exact setTimeout_ensures world
  · exact .ret rfl

end Unchanged

/-! ## Reading -/

/-- The bytes that one read gives. -/
def Chunk.given : Chunk → Option Bytes
  | .bytes first rest => some (first :: rest)
  | .timedOut | .ended | .nothing => none

/-- The bytes that reading a stream gives, in chunks. -/
def chunksOf (chunks : List Chunk) : List Bytes := chunks.filterMap Chunk.given

/-- The packets that reading will give: those read already, and those of the rest of the stream. -/
def Client.upcoming (client : Client) : List Packet :=
  client.wireQueue ++ client.parser.pushAll (chunksOf (client.stream.getD []))

/-- What reading does to a client: it takes packets from the front, and the queues behind are as
they were. -/
structure Took (before after : Client) (packets : List Packet) : Prop where
  others : after = { before with
    stream := after.stream, parser := after.parser, wireQueue := after.wireQueue }
  isOpen : after.stream.isSome = true
  upcoming : before.upcoming = packets ++ after.upcoming

theorem Took.refl {client : Client} (h : client.stream.isSome = true) : Took client client [] :=
  ⟨rfl, h, rfl⟩

theorem Took.of_fields {before after : Client} {packets wireQueue : List Packet}
    {chunks : List Chunk} {parser : FrameParser}
    (hafter : after = { before with
      stream := some chunks, parser := parser, wireQueue := wireQueue })
    (hupcoming : before.upcoming = packets ++ (wireQueue ++ parser.pushAll (chunksOf chunks))) :
    Took before after packets := by
  subst hafter
  exact ⟨rfl, rfl, hupcoming⟩

theorem fread_ensures (world : World) :
    fread.Ensures (fun chunk world' => ∃ chunks, world.client.stream = some (chunk :: chunks) ∧
      world'.client = { world.client with stream := some chunks }) (fun _ _ => False) world := by
  refine ensures_getClient_bind ?_
  split
  · exact .stuck
  · exact .stuck
  · next chunk chunks hstream =>
    exact ensures_update_bind (.ret ⟨chunks, hstream, rfl⟩)

theorem push_ensures (world : World) (chunk : Bytes) :
    (push chunk).Ensures (fun packets world' => ∃ parser,
        world.client.parser.push chunk = (.ok packets, parser) ∧
        world'.client = { world.client with parser := parser })
      (fun err _ => ∃ exception, err = .protocol exception) world := by
  refine ensures_getClient_bind (ensures_update_bind ?_)
  cases hpush : world.client.parser.push chunk with
  | mk result parser =>
    cases result with
    | ok packets => exact .ret ⟨parser, rfl, rfl⟩
    | error exception => exact .throw ⟨exception, rfl⟩

section Reading

variable {world : World} {before : Client}

theorem readTurn_ensures (timeoutKind : ClientErrorKind)
    (h : Took before world.client [] ∧ world.client.wireQueue = []) :
    (readTurn timeoutKind).Ensures
      (fun result world' => Sum.elim
        (fun _ => Took before world'.client [] ∧ world'.client.wireQueue = [])
        (fun packet => Took before world'.client [packet]) result)
      (fun err world' => ∀ kind, err = .client kind → Took before world'.client []) world := by
  obtain ⟨htook, hwire⟩ := h
  refine (fread_ensures world).andThen (fun _ _ h => h.elim) ?_
  rintro chunk world' ⟨chunks, hstream, hclient⟩
  have hupcoming := htook.upcoming
  rw [List.nil_append, Client.upcoming.eq_def world.client, hwire, List.nil_append, hstream,
    Option.getD_some] at hupcoming
  have hafter : world'.client = { before with
      stream := some chunks, parser := world.client.parser, wireQueue := [] } := by
    rw [hclient, ← hwire, htook.others]
  -- a read without bytes takes nothing
  have hnone : chunk.given = none →
      Took before world'.client [] ∧ world'.client.wireQueue = [] := by
    intro hgiven
    rw [chunksOf, List.filterMap_cons_none hgiven] at hupcoming
    exact ⟨.of_fields hafter hupcoming, by rw [hafter]⟩
  cases chunk with
  | timedOut => exact .throw fun _ _ => (hnone rfl).1
  | ended => exact .throw fun _ _ => (hnone rfl).1
  | nothing => exact .ret (hnone rfl)
  | bytes first rest =>
    refine (push_ensures world' (first :: rest)).andThen ?_ ?_
    · rintro _ _ ⟨exception, rfl⟩ kind hkind
      cases hkind
    · rintro packets world'' ⟨parser, hpush, hclient'⟩
      have hpackets : before.upcoming = packets ++ parser.pushAll (chunksOf chunks) := by
        have hsame : world'.client.parser = world.client.parser := by rw [hafter]
        have hcons : chunksOf (.bytes first rest :: chunks) =
            (first :: rest) :: chunksOf chunks := rfl
        rw [hupcoming, hcons, FrameParser.pushAll, ← hsame, hpush]
      have hafter' : world''.client = { before with
          stream := some chunks, parser := parser, wireQueue := [] } := by
        rw [hclient', hafter]
      cases packets with
      | nil => exact .ret ⟨.of_fields hafter' hpackets, by rw [hafter']⟩
      | cons packet packets =>
        refine ensures_update_bind (.ret (.of_fields ?_ hpackets))
        rw [hafter']
        rfl

theorem readPacket_ensures (timeoutKind : ClientErrorKind)
    (hopen : world.client.stream.isSome = true) :
    (readPacket timeoutKind).Ensures (fun packet world' => Took world.client world'.client [packet])
      (fun err world' => ∀ kind, err = .client kind → Took world.client world'.client [])
      world := by
  refine ensures_getClient_bind ?_
  split
  · next packet packets hwire =>
    refine ensures_update_bind (.ret ⟨rfl, hopen, ?_⟩)
    rw [Client.upcoming, hwire]
    rfl
  · next hwire =>
    refine ensures_getClient_bind ?_
    split
    · exact .throw fun _ _ => .refl hopen
    · exact ensures_forever
        (fun client => Took world.client client [] ∧ client.wireQueue = [])
        (fun _ h => readTurn_ensures timeoutKind h) ⟨.refl hopen, hwire⟩

end Reading

/-! ## The packets that are ahead -/

/-- Whether a packet is something else than an acknowledgement. -/
def isDownlink (packet : Packet) : Bool := packet.msgId ≠ msgIdAck

/-- The client is ready, and these are the packets that `receive` has still to return. -/
structure Ahead (packets : List Packet) (client : Client) : Prop where
  ready : client.state = .ready
  bound : client.binding.isSome = true
  flushed : client.pendingBeforeReady = []
  isOpen : client.stream.isSome = true
  ahead : (client.inboundQueue ++ client.upcoming).filter isDownlink = packets

/-- What is left of a call: an exception that is no reason to give up the connection leaves the
packets that are ahead as they are. -/
def Kept (packets : List Packet) (err : Throwable) (world : World) : Prop :=
  ∀ kind, err = .client kind → isConnectionFailure kind = false → Ahead packets world.client

namespace Ahead

variable {packets : List Packet} {client client' : Client} {packet : Packet}

/-- Reading changes what is ahead only by the packets it takes and the queue they are put into. -/
theorem took (h : Ahead packets client) {taken packets' : List Packet}
    (htook : Took client client' taken) (inboundQueue : List Packet)
    (hahead : (inboundQueue ++ client'.upcoming).filter isDownlink = packets') :
    Ahead packets' { client' with inboundQueue := inboundQueue } := by
  refine ⟨?_, ?_, ?_, htook.isOpen, hahead⟩
  · rw [htook.others]
    exact h.ready
  · rw [htook.others]
    exact h.bound
  · rw [htook.others]
    exact h.flushed

theorem inboundQueue_eq (htook : Took client client' packets) :
    client'.inboundQueue = client.inboundQueue := by
  rw [htook.others]

theorem took_nil (h : Ahead packets client) (htook : Took client client' []) :
    Ahead packets client' := by
  refine h.took htook client'.inboundQueue ?_
  rw [inboundQueue_eq htook, ← List.nil_append client'.upcoming, ← htook.upcoming, h.ahead]

theorem took_ack (h : Ahead packets client) (htook : Took client client' [packet])
    (hack : packet.msgId = msgIdAck) : Ahead packets client' := by
  refine h.took htook client'.inboundQueue ?_
  have hahead := h.ahead
  have hnot : isDownlink packet = false := by
    rw [isDownlink, hack]
    rfl
  rw [htook.upcoming, List.filter_append, List.filter_append, List.filter_cons, hnot] at hahead
  rw [inboundQueue_eq htook, List.filter_append, ← hahead]
  rfl

/-- A packet that is put at the end of the queue comes after those of the queue and before those
that are read later. -/
theorem took_enqueue (h : Ahead packets client) (htook : Took client client' [packet]) :
    Ahead packets { client' with inboundQueue := client'.inboundQueue ++ [packet] } := by
  refine h.took htook _ ?_
  rw [inboundQueue_eq htook, List.append_assoc, ← htook.upcoming, h.ahead]

theorem took_first (h : Ahead packets client) (htook : Took client client' [packet])
    (hempty : client.inboundQueue = []) (hdownlink : isDownlink packet = true) :
    ∃ packets', packets = packet :: packets' ∧ Ahead packets' client' := by
  refine ⟨_, ?_, h.took htook client'.inboundQueue rfl⟩
  rw [← h.ahead, hempty, inboundQueue_eq htook, hempty, List.nil_append, List.nil_append,
    htook.upcoming, List.filter_append, List.filter_cons, if_pos hdownlink]
  rfl

end Ahead

section Waiting

variable (config : Config) {packets : List Packet} {world : World}

theorem kept_of_streamFailed {client : Client} {err : Throwable}
    (h : StreamFailed client err world) : Kept packets err world := by
  rintro kind hkind hfailure
  obtain rfl := h.1
  cases hkind
  cases hfailure

theorem kept_protocol (exception : ProtocolException) :
    Kept packets (.protocol exception) world := by
  rintro kind hkind
  cases hkind

theorem Ahead.kept {err : Throwable} (h : Ahead packets world.client) : Kept packets err world :=
  fun _ _ _ => h

theorem enqueueInbound_ensures (packet : Packet) :
    (enqueueInbound config packet).Ensures
      (fun _ world' => world'.client =
        { world.client with inboundQueue := world.client.inboundQueue ++ [packet] })
      (fun err _ => err = .client .inboundOverflow) world := by
  refine ensures_getClient_bind ?_
  split
  · exact .throw rfl
  · exact ensures_update rfl

theorem nextPacket_ensures (h : Ahead packets world.client) :
    nextPacket.Ensures
      (fun packet world' => if isDownlink packet = true then
          ∃ packets', packets = packet :: packets' ∧ Ahead packets' world'.client
        else Ahead packets world'.client)
      (Kept packets) world := by
  refine ensures_getClient_bind ?_
  split
  · next packet rest hqueue =>
    refine ensures_update_bind (.ret ?_)
    have hahead := h.ahead
    rw [hqueue, List.cons_append, List.filter_cons] at hahead
    split
    · next hdownlink =>
      rw [if_pos hdownlink] at hahead
      exact ⟨_, hahead.symm, h.ready, h.bound, h.flushed, h.isOpen, rfl⟩
    · next hdownlink =>
      rw [if_neg hdownlink] at hahead
      exact ⟨h.ready, h.bound, h.flushed, h.isOpen, hahead⟩
  · next hqueue =>
    refine (readPacket_ensures .receiveTimeout h.isOpen).mono ?_ ?_
    · intro packet world' htook
      split
      · next hdownlink => exact h.took_first htook hqueue hdownlink
      · next hdownlink =>
        refine h.took_ack htook ?_
        rw [isDownlink, decide_eq_true_iff, not_not] at hdownlink
        exact hdownlink
    · intro err world' htook kind hkind _
      exact h.took_nil (htook kind hkind)

theorem receiveTurn_ensures (h : Ahead packets world.client) :
    receiveTurn.Ensures
      (fun result world' => Sum.elim (fun _ => Ahead packets world'.client)
        (fun packet => ∃ packets', packets = packet :: packets' ∧ Ahead packets' world'.client)
        result)
      (Kept packets) world := by
  refine (nextPacket_ensures h).bind ?_
  intro packet world' hnext
  by_cases hack : packet.msgId = msgIdAck
  · rw [if_neg (by rw [isDownlink, hack]; decide)] at hnext
    rw [if_neg (not_not.mpr hack)]
    exact .ret hnext
  · have hdownlink : isDownlink packet = true := decide_eq_true hack
    rw [if_pos hdownlink] at hnext
    rw [if_pos hack]
    exact .ret hnext

theorem ensuring_kept {α : Type} {body : ClientCode α} {cleanup : ClientCode Unit}
    (inv : α → Client → Prop)
    (hbody : body.Ensures (fun value world' => inv value world'.client) (Kept packets) world)
    (hcleanup : ∀ world, cleanup.Ensures (fun _ world' => world'.client = world.client)
      (StreamFailed world.client) world) :
    (Code.ensuring body cleanup).Ensures (fun value world' => inv value world'.client)
      (Kept packets) world := by
  refine hbody.ensuring ?_ ?_
  · intro value world' h
    refine (hcleanup world').mono ?_ fun _ _ => kept_of_streamFailed
    intro _ world'' hclient
    rw [hclient]
    exact h
  · intro err world' h
    refine (hcleanup world').mono ?_ fun _ _ => kept_of_streamFailed
    intro _ world'' hclient kind hkind hfailure
    rw [hclient]
    exact h kind hkind hfailure

theorem write_ensures {α : Type} {rest : ClientCode α} (packet : Packet)
    (h : Ahead packets world.client)
    (hrest : ∀ world', Ahead packets world'.client →
      rest.Ensures (fun _ world'' => Ahead packets world''.client) (Kept packets) world') :
    (encodeFrame config packet >>= fun frame => writeAll frame >>= fun _ => rest).Ensures
      (fun _ world' => Ahead packets world'.client) (Kept packets) world := by
  refine ensures_lift_bind (fun frame => ?_) kept_protocol
  refine (writeAll_ensures world frame).andThen (fun _ _ => kept_of_streamFailed) ?_
  intro _ world' hclient
  rw [← hclient] at h
  exact hrest world' h

section Acknowledgements

variable [PhpJson]

theorem ackResult_ensures (msgId : Int) (messageId : GoString) (packet : Packet) :
    (ackResult msgId messageId packet).Ensures (fun _ world' => world' = world)
      (fun _ world' => world' = world) world := by
  rw [ackResult]
  split
  · exact .throw rfl
  · next ack _ =>
    by_cases hother : ack.messageId ≠ messageId ∨ ack.msgId ≠ msgId
    · rw [if_pos hother]
      exact .throw rfl
    rw [if_neg hother]
    by_cases haccepted : ack.code = ascii "accepted"
    · rw [if_pos haccepted]
      exact .ret rfl
    rw [if_neg haccepted]
    split
    · exact .throw rfl
    · split
      · exact .throw rfl
      · exact .throw rfl

/-- A turn of the wait for an acknowledgement keeps the packets that are ahead: others than
acknowledgements go to the end of the queue. -/
theorem ackTurn_ensures (msgId : Int) (messageId : GoString) (h : Ahead packets world.client) :
    (ackTurn config msgId messageId).Ensures
      (fun result world' => Sum.elim (fun _ => Ahead packets world'.client)
        (fun _ => Ahead packets world'.client) result)
      (Kept packets) world := by
  refine (readPacket_ensures .ackTimeout h.isOpen).andThen ?_ ?_
  · intro err world' htook kind hkind _
    exact h.took_nil (htook kind hkind)
  intro packet world' htook
  by_cases hack : packet.msgId = msgIdAck
  · have hahead := h.took_ack htook hack
    split
    · rw [if_neg (not_not.mpr hack)]
      exact .ret hahead
    · refine (ackResult_ensures msgId messageId packet).andThen ?_ ?_
      · rintro _ _ rfl
        exact hahead.kept
      · rintro _ _ rfl
        exact .ret hahead
  · rw [if_pos (.inl hack), if_pos hack]
    refine (enqueueInbound_ensures config packet).andThen ?_ ?_
    · rintro _ _ rfl kind hkind hfailure
      cases hkind
      cases hfailure
    · intro _ world'' hclient
      refine .ret ?_
      show Ahead packets world''.client
      rw [hclient]
      exact h.took_enqueue htook

theorem waitForBusinessAck_ensures (msgId : Int) (messageId : GoString)
    (h : Ahead packets world.client) :
    (waitForBusinessAck config msgId messageId).Ensures
    (fun _ world' => Ahead packets world'.client)
      (Kept packets) world :=
  ensures_forever (Ahead packets) (fun _ h => ackTurn_ensures config msgId messageId h) h

theorem sendPacket_ensures (packet : Packet) (ackRequired : Bool) (h : Ahead packets world.client) :
    (sendPacket config packet ackRequired).Ensures (fun _ world' => Ahead packets world'.client)
      (Kept packets) world := by
  refine write_ensures config packet h fun world' h' => ?_
  split
  · refine (setTimeout_ensures world').andThen (fun _ _ => kept_of_streamFailed) ?_
    intro _ world'' hclient
    rw [← hclient] at h'
    refine (ensuring_kept (fun _ => Ahead packets)
      (waitForBusinessAck_ensures config packet.msgId packet.messageId h')
      setTimeout_ensures).bind ?_
    exact fun _ _ h'' => .ret h''
  · exact .ret h'

theorem sendDeliveryAck_ensures (packet : Packet) (h : Ahead packets world.client) :
    (sendDeliveryAck config packet).Ensures (fun _ world' => Ahead packets world'.client)
      (Kept packets) world := by
  refine write_ensures config packet h fun world' h' => ?_
  refine (setTimeout_ensures world').andThen (fun _ _ => kept_of_streamFailed) ?_
  intro _ world'' hclient
  rw [← hclient] at h'
  exact ensuring_kept (fun _ => Ahead packets)
    (waitForBusinessAck_ensures config msgIdDownlinkAck packet.messageId h') restoreTimeout_ensures

end Acknowledgements

end Waiting

/-! ## Giving up a connection -/

/-- The kinds of exception that say that a wait took too long. -/
def IsTimeout (kind : ClientErrorKind) : Prop := kind = .ackTimeout ∨ kind = .receiveTimeout
  deriving Decidable

/-- An exception of a client that says that a wait took too long. -/
def TimedOut (packets : List Packet) (err : Throwable) (world : World) : Prop :=
  ∀ kind, err = .client kind → IsTimeout kind → Ahead packets world.client

section Recovery

variable {packets : List Packet} {world : World}

variable {kind : ClientErrorKind}

theorem not_isTimeout_of_not_retryable (h : ¬ isRetryableReconnectError kind = true) :
    ¬ IsTimeout kind := by
  rintro (rfl | rfl)
  · exact h rfl
  · exact h rfl

theorem not_isTimeout_of_connectionFailure (h : isConnectionFailure kind = true) :
    ¬ IsTimeout kind := by
  rintro (rfl | rfl) <;> cases h

/-- An exception with a kind that is not a timeout. -/
theorem timedOut_of_kind (h : ¬ IsTimeout kind) : TimedOut packets (.client kind) world := by
  intro kind' hkind htimeout
  cases hkind
  exact absurd htimeout h

/-- No exception of a client that says that a wait took too long. -/
def NoTimeout (err : Throwable) (_ : World) : Prop :=
  ∀ kind, err = .client kind → ¬ IsTimeout kind

theorem noTimeout_of_kind (h : ¬ IsTimeout kind) : NoTimeout (.client kind) world := by
  intro kind' hkind
  cases hkind
  exact h

theorem waitReconnectDelay_ensures :
    waitReconnectDelay.Ensures (fun _ _ => True) NoTimeout world := by
  refine ensures_getClient_bind ?_
  split
  · exact .throw (noTimeout_of_kind (by decide))
  · exact .ret trivial

variable [PhpJson] (config : Config)

theorem reconnectTurn_ensures (settings : ReconnectConfig) (attempt : Nat) :
    (reconnectTurn config settings attempt).Ensures (fun _ _ => True) NoTimeout world := by
  rw [reconnectTurn]
  split
  · exact ensures_update_bind (.throw (noTimeout_of_kind (by decide)))
  refine ensures_update_bind (waitReconnectDelay_ensures.bind fun _ _ _ => ?_)
  refine Ensures.trivial.tryCatch fun err world' _ => ?_
  cases err with
  | protocol exception => exact .throw fun _ hkind => by cases hkind
  | other => exact .throw fun _ hkind => by cases hkind
  | client kind =>
    dsimp only
    split
    · exact .ret trivial
    · next hretry =>
      exact ensures_update_bind
        (.throw (noTimeout_of_kind (not_isTimeout_of_not_retryable hretry)))

theorem reconnect_ensures (settings : ReconnectConfig) :
    (reconnect config settings).Ensures (fun _ _ => True) NoTimeout world := by
  refine ensures_ask_bind fun input world' _ _ => ?_
  refine Ensures.iterate (fun _ _ => True) (fun attempt _ _ => ?_) input.turns trivial
  refine (reconnectTurn_ensures config settings attempt).mono ?_ fun _ _ h => h
  rintro (next | binding) _ _
  · exact trivial
  · exact trivial

theorem recoverConnection_ensures {failure : ClientErrorKind} (hfailure : ¬ IsTimeout failure) :
    (recoverConnection config failure).Ensures (fun kind _ => ¬ IsTimeout kind)
      (TimedOut packets) world := by
  refine ensures_update_bind ?_
  split
  · exact .ret hfailure
  · next settings _ =>
    have hbody : (do
        let _ ← reconnect config settings
        return failure : ClientCode ClientErrorKind).Ensures (fun kind _ => ¬ IsTimeout kind)
        NoTimeout { world with client := { world.client.closed with state := .disconnected } } :=
      (reconnect_ensures config settings).bind fun _ _ _ => .ret hfailure
    refine hbody.tryCatch fun err world' herr => ?_
    cases err with
    | protocol exception => exact .throw fun _ hkind => by cases hkind
    | other => exact .throw fun _ hkind => by cases hkind
    | client kind => exact .ret (herr kind rfl)

/-- Where the connection is given up, no timeout is thrown: a timeout leaves the packets that are
ahead as they are. -/
theorem recovering_ensures {α : Type} {body : ClientCode α} {ok : α → World → Prop}
    (h : body.Ensures ok (Kept packets) world) :
    (recovering config body).Ensures ok (TimedOut packets) world := by
  have hrecover : ∀ {kind world'}, ¬ IsTimeout kind →
      (do throw (.client (← recoverConnection config kind)) : ClientCode α).Ensures ok
        (TimedOut packets) world' := by
    intro kind world' hkind
    exact (recoverConnection_ensures config hkind).bind fun _ _ h' => .throw (timedOut_of_kind h')
  refine h.tryCatch fun err world' hkept => ?_
  cases err with
  | protocol exception => exact hrecover (by decide)
  | other => exact .throw fun _ hkind => by cases hkind
  | client kind =>
    dsimp only
    split
    · next hfailure => exact hrecover (not_isTimeout_of_connectionFailure hfailure)
    · next hfailure =>
      refine .throw fun kind' hkind _ => ?_
      cases hkind
      exact hkept kind rfl (Bool.eq_false_iff.mpr hfailure)

end Recovery

/-! ## The calls of a client that is ready -/

section Calls

variable {packets : List Packet} {world : World}

theorem ensureReady_ensures :
    ensureReady.Ensures (fun _ world' => world' = world ∧ world.client.state = .ready)
      (fun err _ => err = .client .closed ∨ err = .client .notReady) world := by
  refine ensures_getClient_bind ?_
  split
  · exact .throw (.inl rfl)
  · split
    · next hstate _ _ => exact .ret ⟨rfl, hstate⟩
    · exact .throw (.inr rfl)

theorem timedOut_of_not_ready {err : Throwable}
    (h : err = .client .closed ∨ err = .client .notReady) : TimedOut packets err world := by
  rcases h with rfl | rfl
  · exact timedOut_of_kind (by decide)
  · exact timedOut_of_kind (by decide)

theorem nextSequence_ensures :
    nextSequence.Ensures (fun _ world' =>
        world'.client = { world.client with sequence := world.client.sequence + 1 })
      (fun _ _ => False) world :=
  ensures_update_bind (ensures_getClient_bind (.ret rfl))

theorem Ahead.with_sequence {client : Client} (h : Ahead packets client) (sequence : Int) :
    Ahead packets { client with sequence := sequence } :=
  ⟨h.ready, h.bound, h.flushed, h.isOpen, h.ahead⟩

theorem Ahead.with_deduper {client : Client} (h : Ahead packets client)
    (deduper : MessageDeduper) : Ahead packets { client with deduper := deduper } :=
  ⟨h.ready, h.bound, h.flushed, h.isOpen, h.ahead⟩

theorem boundPacket_ensures (binding : Binding) (sequence : Int) (packet : Packet) :
    (boundPacket binding sequence packet).Ensures (fun _ world' => world'.client = world.client)
      (fun err _ => ∃ exception, err = .protocol exception) world := by
  refine ensures_getClient_bind (ensures_ask_bind fun input world' hclient _ => ?_)
  exact ensures_lift (fun _ => hclient) fun exception => ⟨exception, rfl⟩

theorem timedOut_protocol {err : Throwable} (h : ∃ exception, err = .protocol exception) :
    TimedOut packets err world := by
  obtain ⟨exception, rfl⟩ := h
  intro kind hkind
  cases hkind

theorem downlinkTarget_ensures (packet : Packet) :
    (downlinkTarget packet).Ensures (fun _ world' => world' = world)
      (fun err _ => err = .client .invalidDownlink) world := by
  rw [downlinkTarget]
  split
  · exact .throw rfl
  · exact .ret rfl

theorem receiveLoop_ensures (timeout : Option Rat) (h : Ahead packets world.client) :
    (do
      if timeout.isNone then setBlockingReadTimeout else setReadTimeout
      forever receiveTurn : ClientCode Packet).Ensures
      (fun packet world' => ∃ packets', packets = packet :: packets' ∧ Ahead packets' world'.client)
      (Kept packets) world := by
  have hloop : (setTimeout >>= fun _ => forever receiveTurn).Ensures
      (fun packet world' => ∃ packets', packets = packet :: packets' ∧ Ahead packets' world'.client)
      (Kept packets) world := by
    refine (setTimeout_ensures world).andThen (fun _ _ => kept_of_streamFailed) ?_
    intro _ world' hclient
    rw [← hclient] at h
    exact ensures_forever (Ahead packets) (fun _ => receiveTurn_ensures) h
  split
  · exact hloop
  · exact hloop

variable [PhpJson] (config : Config)

theorem send_ensures (request : SendRequest) (h : Ahead packets world.client) :
    (send config request).Ensures (fun _ world' => Ahead packets world'.client)
      (TimedOut packets) world := by
  refine ensureReady_ensures.andThen (fun _ _ => timedOut_of_not_ready) ?_
  rintro binding _ ⟨rfl, -⟩
  split
  · exact .throw (timedOut_of_kind (by decide))
  split
  · exact .throw (timedOut_of_kind (by decide))
  refine ensures_ask_bind fun input world' hclient _ => ?_
  rw [← hclient] at h
  refine nextSequence_ensures.andThen (fun _ _ h => h.elim) ?_
  intro sequence _ hsequence
  refine (boundPacket_ensures binding sequence _).andThen (fun _ _ => timedOut_protocol) ?_
  intro packet _ hpacket
  refine recovering_ensures config (sendPacket_ensures config packet _ ?_)
  rw [hpacket, hsequence]
  exact h.with_sequence _

theorem receive_ensures (timeout : Option Rat) (h : Ahead packets world.client) :
    (receive config timeout).Ensures
      (fun packet world' => ∃ packets', packets = packet :: packets' ∧ Ahead packets' world'.client)
      (TimedOut packets) world := by
  refine ensureReady_ensures.andThen (fun _ _ => timedOut_of_not_ready) ?_
  rintro binding _ ⟨rfl, -⟩
  split
  · exact .throw (timedOut_of_kind (by decide))
  have hcleanup : ∀ {err : Throwable} {client : Client} {world' : World},
      StreamFailed client err world' → TimedOut packets err world' := by
    rintro _ client world' ⟨rfl, -⟩
    exact timedOut_of_kind (by decide)
  refine (recovering_ensures config (receiveLoop_ensures timeout h)).ensuring ?_ ?_
  · intro packet world' hreceived
    refine (restoreTimeout_ensures world').mono ?_ fun _ _ => hcleanup
    intro _ world'' hclient
    rw [hclient]
    exact hreceived
  · intro err world' htimedOut
    refine (restoreTimeout_ensures world').mono ?_ fun _ _ => hcleanup
    intro _ world'' hclient kind hkind htimeout
    rw [hclient]
    exact htimedOut kind hkind htimeout

theorem acknowledgeDownlink_ensures (packet : Packet) (h : Ahead packets world.client) :
    (acknowledgeDownlink config packet).Ensures (fun _ world' => Ahead packets world'.client)
      (TimedOut packets) world := by
  refine ensureReady_ensures.andThen (fun _ _ => timedOut_of_not_ready) ?_
  rintro binding _ ⟨rfl, -⟩
  refine (downlinkTarget_ensures packet).andThen ?_ ?_
  · rintro _ _ rfl
    exact timedOut_of_kind (by decide)
  rintro ⟨targetId, targetTrace⟩ _ rfl
  refine ensures_update_bind (ensures_ask_bind fun input world' hclient _ => ?_)
  refine nextSequence_ensures.andThen (fun _ _ h => h.elim) ?_
  intro sequence _ hsequence
  split
  · refine .throw ?_
    intro kind hkind
    cases hkind
  refine (boundPacket_ensures binding sequence _).andThen (fun _ _ => timedOut_protocol) ?_
  intro deliveryAck _ hpacket
  refine recovering_ensures config (sendDeliveryAck_ensures config deliveryAck ?_)
  rw [hpacket, hsequence, hclient]
  exact (h.with_deduper _).with_sequence _

end Calls

/-! ## Connecting -/

/-- A client that waits for the acknowledgement of its bind, and the packets that are ahead of it.
-/
structure BindingAhead (packets : List Packet) (client : Client) : Prop where
  empty : client.inboundQueue = []
  isOpen : client.stream.isSome = true
  ahead : (client.pendingBeforeReady ++ client.upcoming).filter isDownlink = packets

section Connecting

variable (config : Config) {packets : List Packet} {world : World}

theorem BindingAhead.took {client client' : Client} {taken : List Packet}
    (h : BindingAhead packets client) (htook : Took client client' taken)
    (pendingBeforeReady : List Packet)
    (hahead : (pendingBeforeReady ++ client'.upcoming).filter isDownlink = packets) :
    BindingAhead packets { client' with pendingBeforeReady := pendingBeforeReady } := by
  refine ⟨?_, htook.isOpen, hahead⟩
  rw [htook.others]
  exact h.empty

theorem enqueueAll_ensures (pending : List Packet) :
    (pending.forM (enqueueInbound config)).Ensures
      (fun _ world' => world'.client =
        { world.client with inboundQueue := world.client.inboundQueue ++ pending })
      (fun _ _ => True) world := by
  have hstart : world.client =
      { world.client with inboundQueue := world.client.inboundQueue ++ [] } := by
    rw [List.append_nil]
  refine Ensures.forM (fun done (world' : World) => world'.client =
    { world.client with inboundQueue := world.client.inboundQueue ++ done }) ?_ pending hstart
  intro done packet world' hclient
  refine (enqueueInbound_ensures config packet).mono ?_ fun _ _ _ => trivial
  intro _ world'' hclient'
  rw [hclient', hclient, List.append_assoc]

theorem becomeReady_ensures (token : GoString) (binding : Binding)
    (h : BindingAhead packets world.client) :
    (becomeReady config token binding).Ensures (fun _ world' => Ahead packets world'.client)
      (fun _ _ => True) world := by
  refine ensures_update_bind (ensures_getClient_bind ?_)
  refine (enqueueAll_ensures config _).bind ?_
  intro _ world' hclient
  refine ensures_update_bind (.ret ?_)
  have hqueue : world.client.inboundQueue ++ world.client.pendingBeforeReady =
      world.client.pendingBeforeReady := by
    rw [h.empty, List.nil_append]
  show Ahead packets { world'.client with pendingBeforeReady := [] }
  rw [hclient]
  refine ⟨rfl, rfl, rfl, h.isOpen, ?_⟩
  show (world.client.inboundQueue ++ world.client.pendingBeforeReady ++
    world.client.upcoming).filter isDownlink = packets
  rw [hqueue, h.ahead]

theorem resolveToken_ensures :
    resolveToken.Ensures
      (fun _ world' => world'.client = world.client ∧ world'.connections = world.connections)
      (fun _ _ => True) world := by
  refine ensures_ask_bind fun input world' hclient hconnections => ?_
  split
  · exact .throw trivial
  · split
    · exact .throw trivial
    · exact .ret ⟨hclient, hconnections⟩

variable {connections : List Connection}

theorem openStream_ensures {chunks : List Chunk}
    (hconnections : world.connections = .stream chunks :: connections) :
    openStream.Ensures (fun _ world' => world'.client = { world.client with stream := some chunks })
      (fun _ _ => True) world := by
  have hopen : (openStream : ClientCode Unit).exec world = some (.ok (),
      { world with
        connections := connections
        client := { world.client with stream := some chunks } }) := by
    obtain ⟨client, opened, inputs, asked, written⟩ := world
    cases hconnections
    rfl
  intro result world' hexec
  rw [hopen] at hexec
  cases hexec
  rfl

theorem newBindPacket_ensures (token : GoString) :
    (newBindPacket config token).Ensures (fun _ world' =>
        world'.client = { world.client with sequence := world.client.sequence + 1 })
      (fun _ _ => True) world := by
  refine ensures_ask_bind fun input world' hclient _ => ?_
  refine nextSequence_ensures.andThen (fun _ _ h => h.elim) ?_
  intro sequence world'' hsequence
  refine ensures_ask_bind fun input' world₃ hclient' _ => ?_
  refine ensures_lift (fun _ => ?_) fun _ => trivial
  rw [hclient', hsequence, hclient]

variable [PhpJson]

theorem bindResult_ensures (bindMessageId : GoString) (packet : Packet) :
    (bindResult bindMessageId packet).Ensures (fun _ world' => world' = world)
      (fun _ _ => True) world := by
  rw [bindResult]
  split
  · exact .throw trivial
  · next ack _ =>
    by_cases hother : ack.messageId ≠ bindMessageId ∨ ack.msgId ≠ msgIdBind
    · rw [if_pos hother]
      exact .throw trivial
    rw [if_neg hother]
    by_cases haccepted : ack.code = ascii "accepted"
    · rw [if_pos haccepted, acceptedBinding]
      split
      · exact .throw trivial
      · exact .ret rfl
    · rw [if_neg haccepted]
      split
      · exact .throw trivial
      · split
        · exact .throw trivial
        · split
          · exact .throw trivial
          · exact .throw trivial

theorem bindTurn_ensures (bindMessageId : GoString) (h : BindingAhead packets world.client) :
    (bindTurn config bindMessageId).Ensures
      (fun result world' => Sum.elim (fun _ => BindingAhead packets world'.client)
        (fun _ => BindingAhead packets world'.client) result)
      (fun _ _ => True) world := by
  refine (readPacket_ensures .bindTimeout h.isOpen).andThen (fun _ _ _ => trivial) ?_
  intro packet world' htook
  have hpending : world'.client.pendingBeforeReady = world.client.pendingBeforeReady := by
    rw [htook.others]
  have hahead := h.ahead
  rw [htook.upcoming] at hahead
  split
  · refine ensures_getClient_bind ?_
    split
    · exact .throw trivial
    · refine ensures_update_bind (.ret (h.took htook _ ?_))
      rw [hpending, List.append_assoc]
      exact hahead
  · next hack =>
    rw [not_or, not_not, not_not] at hack
    have hnot : isDownlink packet = false := by
      rw [isDownlink, hack.1]
      rfl
    refine (bindResult_ensures bindMessageId packet).andThen (fun _ _ h => h) ?_
    rintro binding world'' rfl
    refine .ret (h.took htook world''.client.pendingBeforeReady ?_)
    rw [List.filter_append, List.filter_append, List.filter_cons, hnot] at hahead
    rw [hpending, List.filter_append, ← hahead]
    rfl

theorem waitForBindAck_ensures (bindMessageId : GoString) (h : BindingAhead packets world.client) :
    (waitForBindAck config bindMessageId).Ensures
      (fun _ world' => BindingAhead packets world'.client) (fun _ _ => True) world :=
  ensures_forever (BindingAhead packets) (fun _ => bindTurn_ensures config bindMessageId) h

theorem openAndBind_ensures {chunks : List Chunk} (hwire : world.client.wireQueue = [])
    (hinbound : world.client.inboundQueue = []) (hpending : world.client.pendingBeforeReady = [])
    (hconnections : world.connections = .stream chunks :: connections) :
    (openAndBind config).Ensures (fun _ world' =>
        Ahead ((world.client.parser.pushAll (chunksOf chunks)).filter isDownlink) world'.client)
      (fun _ _ => True) world := by
  refine resolveToken_ensures.bind ?_
  rintro token world₁ ⟨hclient₁, hconnections₁⟩
  refine (openStream_ensures (hconnections₁.trans hconnections)).bind ?_
  intro _ world₂ hclient₂
  refine ensures_update_bind ((setTimeout_ensures _).andThen (fun _ _ _ => trivial) ?_)
  intro _ world₃ hclient₃
  refine (newBindPacket_ensures config token).bind ?_
  intro packet world₄ hclient₄
  refine ensures_lift_bind (fun frame => ?_) fun _ => trivial
  refine (writeAll_ensures world₄ frame).andThen (fun _ _ _ => trivial) ?_
  intro _ world₅ hclient₅
  -- all of the stream is ahead when the client begins to wait
  have hahead : BindingAhead ((world.client.parser.pushAll (chunksOf chunks)).filter isDownlink)
      world₅.client := by
    rw [hclient₅, hclient₄, hclient₃, hclient₂, hclient₁]
    refine ⟨hinbound, rfl, ?_⟩
    show (world.client.pendingBeforeReady ++ (world.client.wireQueue ++
      world.client.parser.pushAll (chunksOf chunks))).filter isDownlink = _
    rw [hpending, hwire]
    rfl
  refine (waitForBindAck_ensures config packet.messageId hahead).bind ?_
  intro binding world₆ hahead
  refine (setTimeout_ensures world₆).andThen (fun _ _ _ => trivial) ?_
  intro _ world₇ hclient₇
  rw [← hclient₇] at hahead
  exact becomeReady_ensures config token binding hahead

theorem connect_ensures {chunks : List Chunk} (hstate : world.client.state = .disconnected)
    (hconnections : world.connections = .stream chunks :: connections) :
    (connect config).Ensures (fun _ world' =>
        Ahead ((({ world.client.parser with buffer := [] } : FrameParser).pushAll
          (chunksOf chunks)).filter isDownlink) world'.client)
      (fun _ _ => True) world := by
  refine ensures_getClient_bind ?_
  rw [hstate, if_neg (by decide)]
  refine ensures_update_bind ?_
  have hbind : (openAndBind config).Ensures _ _ { world with client := world.client.connecting } :=
    openAndBind_ensures config rfl rfl rfl hconnections
  refine hbind.tryCatch fun err world' _ => ?_
  exact ensures_update_bind (.throw trivial)

theorem connect_ready_ensures (h : Ahead packets world.client) :
    (connect config).Ensures (fun _ world' => Ahead packets world'.client) (fun _ _ => False)
      world := by
  refine ensures_getClient_bind ?_
  obtain ⟨binding, hbinding⟩ := Option.isSome_iff_exists.mp h.bound
  rw [h.ready, hbinding, if_neg (by decide)]
  exact .ret h

end Connecting

/-! ## Sequences of calls -/

/-- The packet that a call has received. -/
def received : Except Throwable Result → List Packet
  | .ok (.received packet) => [packet]
  | _ => []

/-- The calls that succeed, and those that end in a timeout of an acknowledgement or of `receive`.
-/
def Fine : Call → Except Throwable Result → Prop
  | .close, _ => False
  | .connect, result => ∃ value, result = .ok value
  | .send _, result => (∃ value, result = .ok value) ∨ result = .error (.client .ackTimeout)
  | .acknowledgeDownlink _, result =>
    (∃ value, result = .ok value) ∨ result = .error (.client .ackTimeout)
  | .receive _, result => (∃ value, result = .ok value) ∨ result = .error (.client .receiveTimeout)

theorem Fine.ends {call : Call} {result : Except Throwable Result} (h : Fine call result) :
    (∃ value, result = .ok value) ∨ ∃ kind, IsTimeout kind ∧ result = .error (.client kind) := by
  cases call with
  | close => exact h.elim
  | connect => exact .inl h
  | send request => exact h.imp_right fun hthrown => ⟨_, .inl rfl, hthrown⟩
  | acknowledgeDownlink packet => exact h.imp_right fun hthrown => ⟨_, .inl rfl, hthrown⟩
  | receive timeout => exact h.imp_right fun hthrown => ⟨_, .inr rfl, hthrown⟩

theorem construct_client {config : Config} {client : Client}
    (h : Client.construct config = .ok client) :
    client.state = .disconnected ∧
      client.parser = ⟨config.maxFramePayloadSize, config.maxBodySize, []⟩ := by
  have hpayload := config.maxFramePayloadSize_pos
  have hbody := config.maxBodySize_nonneg
  rw [Client.construct, FrameParser.construct, if_neg (by omega)] at h
  cases h
  exact ⟨rfl, rfl⟩

/-- A client that is not connected refuses what needs a connection. -/
theorem refused {α β : Type} {world : World} {body : Binding → ClientCode α}
    {rest : α → ClientCode β} (hstate : world.client.state = .disconnected) :
    (ensureReady >>= body >>= rest).Ensures (fun _ _ => False)
      (fun err _ => err = .client .closed ∨ err = .client .notReady) world := by
  have hbody : (ensureReady >>= body).Ensures (fun _ _ => False)
      (fun err _ => err = .client .closed ∨ err = .client .notReady) world := by
    refine ensureReady_ensures.bind ?_
    rintro _ _ ⟨-, hready⟩
    rw [hstate] at hready
    cases hready
  exact hbody.bind fun _ _ h => h.elim

section Runs

variable [PhpJson] (config : Config) {packets : List Packet} {world world' : World}

theorem call_ensures {call : Call} (h : Ahead packets world.client) (hcall : call ≠ .close) :
    (call.code config).Ensures
      (fun value world' => ∃ packets', packets = received (.ok value) ++ packets' ∧
        Ahead packets' world'.client)
      (TimedOut packets) world := by
  cases call with
  | close => exact absurd rfl hcall
  | connect =>
    refine (connect_ready_ensures config h).andThen (fun _ _ h' => h'.elim) ?_
    exact fun _ _ h' => .ret ⟨packets, rfl, h'⟩
  | send request =>
    refine (send_ensures config request h).bind ?_
    exact fun _ _ h' => .ret ⟨packets, rfl, h'⟩
  | acknowledgeDownlink packet =>
    refine (acknowledgeDownlink_ensures config packet h).bind ?_
    exact fun _ _ h' => .ret ⟨packets, rfl, h'⟩
  | receive timeout =>
    refine (receive_ensures config timeout h).bind ?_
    exact fun _ _ h' => .ret h'

theorem call_ahead {call : Call} {result : Except Throwable Result}
    (h : Ahead packets world.client) (hexec : (call.code config).exec world = some (result, world'))
    (hfine : Fine call result) :
    ∃ packets', packets = received result ++ packets' ∧ Ahead packets' world'.client := by
  have hopen : call ≠ .close := by
    rintro rfl
    exact hfine
  have hcall := call_ensures config h hopen
  rcases hfine.ends with ⟨value, rfl⟩ | ⟨kind, hkind, rfl⟩
  · exact hcall.returned hexec
  · exact ⟨packets, rfl, hcall.thrown hexec kind rfl hkind⟩

theorem runCalls_cons {call : Call} {calls : List Call}
    {results : List (Call × Except Throwable Result)}
    (h : runCalls config (call :: calls) world = some (results, world')) :
    ∃ result middle rest, (call.code config).exec world = some (result, middle) ∧
      runCalls config calls middle = some (rest, world') ∧ results = (call, result) :: rest := by
  rw [runCalls] at h
  split at h
  · cases h
  · next result middle hexec =>
    split at h
    · cases h
    · next rest last hrest =>
      cases h
      exact ⟨result, middle, rest, hexec, hrest, rfl⟩

/-- By induction on the calls: what the calls have received is what was ahead before and is not
ahead any more. -/
theorem runCalls_ahead {calls : List Call} {results : List (Call × Except Throwable Result)}
    (h : Ahead packets world.client)
    (hrun : runCalls config calls world = some (results, world'))
    (hfine : ∀ call result, (call, result) ∈ results → Fine call result) :
    ∃ packets', packets = results.flatMap (fun result => received result.2) ++ packets' ∧
      Ahead packets' world'.client := by
  induction calls generalizing world packets results with
  | nil =>
    cases hrun
    exact ⟨packets, rfl, h⟩
  | cons call calls ih =>
    obtain ⟨result, middle, rest, hexec, hrest, rfl⟩ := runCalls_cons config hrun
    obtain ⟨packets', rfl, hahead⟩ := call_ahead config h hexec (hfine _ _ (.head _))
    obtain ⟨packets'', rfl, hahead'⟩ :=
      ih hahead hrest fun call result hmem => hfine call result (.tail _ hmem)
    refine ⟨packets'', ?_, hahead'⟩
    rw [List.flatMap_cons, List.append_assoc]

theorem first_call {call : Call} {result : Except Throwable Result}
    (hstate : world.client.state = .disconnected)
    (hexec : (call.code config).exec world = some (result, world')) (hfine : Fine call result) :
    call = .connect := by
  have hnever : (call.code config).Ensures (fun _ _ => False)
      (fun err _ => err = .client .closed ∨ err = .client .notReady) world → call = .connect := by
    intro hrefused
    rcases hfine.ends with ⟨value, rfl⟩ | ⟨kind, hkind, rfl⟩
    · exact (hrefused.returned hexec).elim
    · rcases hrefused.thrown hexec with h | h <;> cases h <;> rcases hkind with h | h <;> cases h
  cases call with
  | close => exact hfine.elim
  | connect => rfl
  | send request => exact hnever (refused hstate)
  | acknowledgeDownlink packet => exact hnever (refused hstate)
  | receive timeout => exact hnever (refused hstate)

end Runs

/-- For every stream of good frames, cut into chunks in any way, and every sequence of calls that
succeed or end in a timeout: the packets that `receive` returns are the first packets of the stream
that are no acknowledgements, in their order, without loss or repetition. -/
theorem downlinks_in_order [PhpJson] {config : Config} {client : Client}
    (hclient : Client.construct config = .ok client) {chunks : List Chunk}
    {connections : List Connection} {inputs : Nat → Input} {calls : List Call}
    {results : List (Call × Except Throwable Result)} {world : World}
    (hrun : runCalls config calls ⟨client, .stream chunks :: connections, inputs, 0, []⟩ =
      some (results, world))
    (hfine : ∀ call result, (call, result) ∈ results → Fine call result)
    {frames : List Bytes} {packets : List Packet}
    (hframes : FrameParser.Decoded config.maxFramePayloadSize config.maxBodySize frames packets)
    (hstream : (chunksOf chunks).flatten <+: frames.flatten) :
    results.flatMap (fun result => received result.2) <+: packets.filter isDownlink := by
  cases calls with
  | nil =>
    cases hrun
    exact List.nil_prefix
  | cons call calls =>
    obtain ⟨hstate, hparser⟩ := construct_client hclient
    obtain ⟨result, middle, rest, hexec, hrest, rfl⟩ := runCalls_cons config hrun
    have hfirst := hfine _ _ (.head _)
    obtain rfl := first_call config hstate hexec hfirst
    obtain ⟨value, rfl⟩ := hfirst
    have hconnect : (Call.code config .connect).Ensures
        (fun value world' => received (.ok value) = [] ∧
          Ahead ((({ client.parser with buffer := [] } : FrameParser).pushAll
            (chunksOf chunks)).filter isDownlink) world'.client)
        (fun _ _ => True) ⟨client, .stream chunks :: connections, inputs, 0, []⟩ :=
      (connect_ensures config hstate rfl).bind fun _ _ h => .ret ⟨rfl, h⟩
    obtain ⟨hnone, hahead⟩ := hconnect.returned hexec
    obtain ⟨packets', hpackets, -⟩ := runCalls_ahead config hahead hrest
      fun call result hmem => hfine call result (.tail _ hmem)
    rw [List.flatMap_cons, hnone, List.nil_append]
    have hfront : ({ client.parser with buffer := [] } : FrameParser).pushAll
        (chunksOf chunks) <+: packets := by
      rw [hparser]
      exact FrameParser.pushAll_good hframes hstream
    exact (hpackets ▸ List.prefix_append _ packets').trans (hfront.filter isDownlink)

namespace DownlinkOrder

/-- A client with small limits. -/
def config : Config where
  clientId := ascii "c"
  deviceId := ascii "d"
  maxFramePayloadSize := 200
  maxBodySize := 100
  maxPendingBeforeReady := 4
  inboundBuffer := 4
  downlinkDedupCapacity := 4
  reconnect := none
  maxFramePayloadSize_pos := by decide
  maxBodySize_nonneg := by decide

/-- Surroundings in which nothing fails. -/
def input : Input := ⟨some (ascii "t"), true, true, ascii "1", 5, 9⟩

/-- A packet with a given number in its body. -/
def downlink (n : UInt8) : Server.Packet := { Protocol.bindPacket with msgID := 2000, body := [n] }

/-- The acknowledgement of the bind, and one that comes too late for its message. -/
def bindAck : Server.Packet :=
  { Protocol.bindPacket with
    msgID := 1, messageID := ascii "zc-bind-1", sessionID := ascii "s"
    body := 232 :: 3 :: ascii "zc-bind-1" }

/-- The packets of a stream with three downlinks. -/
def sent : List Server.Packet := [downlink 1, bindAck, downlink 2, bindAck, downlink 3]

def frames : List Bytes := sent.map Protocol.packetFrame

/-- The packets that the frames are decoded to. -/
def packets : List Packet := sent.map fun packet => ofGo (Protocol.stamped packet)

/-- A read that gives the given bytes. -/
def chunk : Bytes → Chunk
  | [] => .nothing
  | first :: rest => .bytes first rest

/-- The stream in three pieces, with a timeout before the last one. -/
def chunks : List Chunk :=
  [chunk (frames.flatten.take 100), chunk ((frames.flatten.drop 100).take 200), .timedOut,
    chunk (frames.flatten.drop 300)]

/-- A message that is not acknowledged in time is sent before the downlinks are received. -/
def calls : List Call :=
  [.connect, .send ⟨2000, [], ascii "m", [], 0, true⟩, .receive none, .receive none, .receive none]

/-- How these calls end. -/
def results : List (Call × Except Throwable Result) :=
  calls.zip [.ok (.bound ⟨ascii "client", ascii "device", ascii "s"⟩), .error (.client .ackTimeout),
    .ok (.received (ofGo (Protocol.stamped (downlink 1)))),
    .ok (.received (ofGo (Protocol.stamped (downlink 2)))),
    .ok (.received (ofGo (Protocol.stamped (downlink 3))))]

def client : Client where
  stream := none
  state := .disconnected
  binding := none
  parser := ⟨200, 100, []⟩
  wireQueue := []
  inboundQueue := []
  pendingBeforeReady := []
  sequence := 0
  token := []
  deduper := .new 4

def run : Option (List (Call × Except Throwable Result) × World) :=
  @runCalls .plain config calls ⟨client, [.stream chunks], fun _ => input, 0, []⟩

end DownlinkOrder

/-- A downlink that comes before the acknowledgement of the bind, one that comes while the client
waits for an acknowledgement that does not come in time, and one after it. -/
theorem downlinks_in_order_timeout :
    ∃ world, DownlinkOrder.run = some (DownlinkOrder.results, world) ∧
      DownlinkOrder.results.flatMap (fun result => received result.2) <+:
        DownlinkOrder.packets.filter isDownlink := by
  have hresults : DownlinkOrder.run.map (fun outcome => outcome.1) =
    some DownlinkOrder.results := by
    decide +kernel
  obtain ⟨⟨results, world⟩, hrun, hsame⟩ := Option.map_eq_some_iff.mp hresults
  obtain rfl : results = DownlinkOrder.results := hsame
  refine ⟨world, hrun, ?_⟩
  refine @downlinks_in_order .plain DownlinkOrder.config DownlinkOrder.client rfl
    DownlinkOrder.chunks [] (fun _ => DownlinkOrder.input) DownlinkOrder.calls _ world hrun ?_
    DownlinkOrder.frames DownlinkOrder.packets ?_ ?_
  · intro call result hmem
    simp only [DownlinkOrder.results, DownlinkOrder.calls, List.zip_cons_cons, List.zip_nil_right,
      List.mem_cons, Prod.mk.injEq, List.not_mem_nil, or_false] at hmem
    rcases hmem with ⟨rfl, rfl⟩ | ⟨rfl, rfl⟩ | ⟨rfl, rfl⟩ | ⟨rfl, rfl⟩ | ⟨rfl, rfl⟩
    · exact ⟨_, rfl⟩
    · exact .inr rfl
    · exact .inl ⟨_, rfl⟩
    · exact .inl ⟨_, rfl⟩
    · exact .inl ⟨_, rfl⟩
  · have hdecode : ∀ packet ∈ DownlinkOrder.sent,
        FrameCodec.decode (Protocol.packetFrame packet) 200 100 =
          .ok (ofGo (Protocol.stamped packet)) := by
      decide +kernel
    exact List.forall₂_map_left_iff.mpr (List.forall₂_map_right_iff.mpr
      (List.forall₂_same.mpr hdecode))
  · decide +kernel

end ZCourier.Php
