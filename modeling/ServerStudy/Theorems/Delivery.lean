import ServerStudy.Theorems.Messages

/-!
# Delivery when socket calls fail

In every run of a client and a server, whichever of their calls of `send` and
`recv` fail, the messages between them are neither lost nor doubled nor
reordered: what the server handles are the client's requests and what the
client parses are the server's replies, each once and in order
(`delivered_in_order`). A reply is made for every request and a request for
every reply, so the number of messages on their way is that of the lines typed
(`in_flight_eq_typed`).

This holds as long as no message outgrows a frame and no buffer refuses
anything, which is so while the lines typed, at the size of the longest frame,
fit one buffer (`never_refused`).
-/

namespace ServerStudy.Theorems.Delivery

open ServerStudy.Core PacketBuffer Echo Messages
open Lockstep (Bounded)

variable {codec : ChatCodec} {faults : Fault → Prop} {lines : List Text} {s s' : Echo}

/-- No call of `SetPacket` or `AppendBuffer` has been refused. -/
def Unrefused (s : Echo) : Prop := s.client.refused = 0 ∧ s.server.refused = 0

/-! ## What a step keeps -/

section Monotone

/-- What a step never takes back. -/
structure Grows (s s' : Echo) : Prop where
  clientBuilt : s.client.built <+: s'.client.built
  serverBuilt : s.server.built <+: s'.server.built
  clientRefused : s.client.refused ≤ s'.client.refused
  serverRefused : s.server.refused ≤ s'.server.refused
  stdin : s'.client.stdin <:+ s.client.stdin

theorem grows_setPacket (codec : ChatCodec) (c : EcoClient) (message : Text) :
    c.built <+: (c.setPacket codec message).built ∧
      c.refused ≤ (c.setPacket codec message).refused ∧
      (c.setPacket codec message).stdin = c.stdin := by
  unfold EcoClient.setPacket
  split
  · exact ⟨List.prefix_append .., Nat.le_succ _, rfl⟩
  · exact ⟨List.prefix_append .., Nat.le_refl _, rfl⟩

theorem grows_handle (codec : ChatCodec) (v : EchoServer) :
    v.refused ≤ (v.handle codec).refused := by
  by_cases hable : packetHeader.Complete v.recvBuffer.unread
  · have hyes := (isAbleToGetPacket_iff _).mpr hable
    by_cases hno : v.recvBuffer.getPacketNo = chatProtocolNumber
    · cases hparse : codec.parseFromArray v.recvBuffer.payload with
      | none => rw [handle_of_rejected hyes (.inr hparse)]
      | some message =>
          rw [handle_of_parsed hyes hno hparse]
          exact Nat.le_add_right ..
    · rw [handle_of_rejected hyes (.inl hno)]
  · rw [handle_of_not_able hable]

/-- A step that leaves one party alone. -/
theorem Grows.of_client {client : EcoClient} {upstream downstream : List Byte}
    (hbuilt : s.client.built <+: client.built) (hrefused : s.client.refused ≤ client.refused)
    (hstdin : client.stdin <:+ s.client.stdin) :
    Grows s { s with client := client, upstream := upstream, downstream := downstream } :=
  ⟨hbuilt, List.prefix_refl _, hrefused, Nat.le_refl _, hstdin⟩

theorem Grows.of_server {server : EchoServer} {upstream downstream : List Byte}
    (hbuilt : s.server.built <+: server.built) (hrefused : s.server.refused ≤ server.refused) :
    Grows s { s with server := server, upstream := upstream, downstream := downstream } :=
  ⟨List.prefix_refl _, hbuilt, Nat.le_refl _, hrefused, List.suffix_refl _⟩

theorem grows_of_step (h : FaultyStep codec faults s s') : Grows s s' := by
  cases h with
  | clientSendFails hfault hpoint =>
      exact .of_client (List.prefix_refl _) (Nat.le_refl _) (List.suffix_refl _)
  | clientRecvFails hfault hpoint =>
      exact .of_client (List.prefix_refl _) (Nat.le_refl _) (List.suffix_refl _)
  | serverSendFails hfault hpoint => exact .of_server (List.prefix_refl _) (Nat.le_refl _)
  | moves hmove =>
      cases hmove with
      | clientInput line rest hpoint hline =>
          obtain ⟨hbuilt, hrefused, hstdin⟩ :=
            grows_setPacket codec { s.client with stdin := rest } line
          refine .of_client hbuilt hrefused ?_
          show (EcoClient.setPacket codec { s.client with stdin := rest } line).stdin <:+ _
          rw [hstdin, hline]
          exact List.suffix_cons ..
      | clientSend hpoint =>
          exact .of_client (List.prefix_refl _) (Nat.le_refl _) (List.suffix_refl _)
      | clientRecv chunk more hpoint hchannel hne hsize =>
          unfold EcoClient.recv
          split
          · exact .of_client (List.prefix_refl _) (Nat.le_succ _) (List.suffix_refl _)
          · exact .of_client (List.prefix_refl _) (Nat.le_refl _) (List.suffix_refl _)
      | clientTake hpoint =>
          unfold EcoClient.take
          split
          · exact .of_client (List.prefix_refl _) (Nat.le_refl _) (List.suffix_refl _)
          · next message hparse =>
            obtain ⟨hbuilt, hrefused, hstdin⟩ := grows_setPacket codec
              { s.client with
                recvBuffer := s.client.recvBuffer.consumePacket
                parsed := s.client.parsed ++ [message] } message
            refine .of_client hbuilt hrefused ?_
            rw [hstdin]
      | serverRecv chunk more hpoint hchannel hne hsize =>
          unfold EchoServer.recv
          split
          · exact .of_server (List.prefix_refl _) (Nat.le_succ _)
          · split
            · exact .of_server (List.prefix_refl _) (Nat.le_succ _)
            · exact .of_server (List.prefix_refl _) (Nat.le_refl _)
      | serverHandle hpoint =>
          exact .of_server (Lockstep.built_handle ..) (grows_handle codec s.server)
      | serverSend hpoint => exact .of_server (List.prefix_refl _) (Nat.le_refl _)

/-- What is true of every message built was so before the step. -/
theorem Grows.built (h : Grows s s') {p : Packet → Prop}
    (hall : ∀ packet ∈ s'.client.built ++ s'.server.built, p packet) :
    ∀ packet ∈ s.client.built ++ s.server.built, p packet := by
  intro packet hpacket
  refine hall packet ?_
  rcases List.mem_append.mp hpacket with hold | hold
  · exact List.mem_append_left _ (h.clientBuilt.subset hold)
  · exact List.mem_append_right _ (h.serverBuilt.subset hold)

theorem Grows.unrefused (h : Grows s s') (hroom : Unrefused s') : Unrefused s :=
  ⟨Nat.le_zero.mp (hroom.1 ▸ h.clientRefused), Nat.le_zero.mp (hroom.2 ▸ h.serverRefused)⟩

end Monotone

/-! ## Runs -/

/-- One step of either party, or one failed call. -/
theorem account_step (hcodec : codec.Lawful) (hshort : ∀ line ∈ lines, line.length < 65535)
    {requests replies : List Text} {cw sw : Nat}
    (h : Account codec faults lines s requests replies cw sw)
    (hstep : FaultyStep codec faults s s') (hbounded : Bounded s') (hroom : Unrefused s') :
    ∃ requests replies cw sw, Account codec faults lines s' requests replies cw sw := by
  cases hstep with
  | clientSendFails hfault hpoint => exact ⟨_, _, _, _, account_clientFails h⟩
  | clientRecvFails hfault hpoint => exact ⟨_, _, _, _, account_clientFails h⟩
  | serverSendFails hfault hpoint => exact ⟨_, _, _, _, account_serverFails h hfault⟩
  | moves hmove =>
      cases hmove with
      | clientInput line rest hpoint hline =>
          exact ⟨_, _, _, _, account_clientInput hcodec h hshort hline hbounded hroom.1⟩
      | clientSend hpoint => exact ⟨_, _, _, _, account_clientSend h hpoint⟩
      | clientRecv chunk more hpoint hchannel hne hsize =>
          exact ⟨_, _, _, _, account_clientRecv h hpoint hchannel hne hsize hroom.1⟩
      | clientTake hpoint =>
          obtain ⟨text, hnext⟩ := account_clientTake hcodec h hpoint hroom.1
          exact ⟨_, _, _, _, hnext⟩
      | serverRecv chunk more hpoint hchannel hne hsize =>
          exact ⟨_, _, _, _, account_serverRecv h hpoint hchannel hne hroom.2⟩
      | serverHandle hpoint =>
          by_cases hable : packetHeader.Complete s.server.recvBuffer.unread
          · obtain ⟨reply, hnext⟩ :=
              account_serverReply hcodec h hpoint hable hbounded hroom.2
            exact ⟨_, _, _, _, hnext⟩
          · exact ⟨_, _, _, _, account_serverIdle h hpoint hable⟩
      | serverSend hpoint => exact ⟨_, _, _, _, account_serverSend h hpoint⟩

/-- In every state reached without a refusal the messages can be accounted
for. -/
theorem account_of_reachable (hcodec : codec.Lawful)
    (h : (faultySystem codec faults lines).Reachable s) (hbounded : Bounded s)
    (hroom : Unrefused s) :
    (∀ line ∈ lines, line.length < 65535) ∧
      ∃ requests replies cw sw, Account codec faults lines s requests replies cw sw := by
  induction h with
  | init hstart => exact ⟨hstart.short, _, _, _, _, account_start hstart⟩
  | step _ hmove ih =>
      have hgrows := grows_of_step hmove
      obtain ⟨hshort, _, _, _, _, haccount⟩ := ih (hgrows.built hbounded) (hgrows.unrefused hroom)
      exact ⟨hshort, account_step hcodec hshort haccount hmove hbounded hroom⟩

/-! ## A run with failing calls -/

/-- A client with the lines hi and ho, and a new server. -/
def hoStart : Echo where
  client := .new [[104, 105], [104, 111]] (fun _ => 0) (fun _ => 0)
  server := .new (fun _ => 0) (fun _ => 0) openClient.clientSock
  upstream := []
  downstream := []

/-- The client's `send` of hi has failed, and it has built ho. -/
def hoQueued : Echo :=
  { hoStart with
    client :=
      (hoStart.client.input chatWire [104, 105] [[104, 111]]).sendFailed.input chatWire
        [104, 111] [] }

/-- The frame of hi is in the channel. -/
def hoSent : Echo :=
  { hoQueued with
    client := hoQueued.client.send
    upstream := hoQueued.upstream ++ hoQueued.client.outgoing }

/-- The server's `send` of the reply has failed. -/
def hoStranded : Echo :=
  { hoSent with
    server :=
      ((hoSent.server.recv [8, 0, 0, 0, 10, 2, 104, 105]).handle chatWire).sendFailed
    upstream := [] }

/-- The server waits for the next request. -/
def hoIdle : Echo := { hoStranded with server := hoStranded.server.handle chatWire }

/-- Both parties' `send` may fail. -/
def sendsFail : Fault → Prop := fun fault => fault ≠ .clientRecv

/-- Only the client's calls may fail. -/
def clientFails : Fault → Prop := fun fault => fault ≠ .serverSend

theorem hoSent_reachable {faults : Fault → Prop} (hfault : faults .clientSend) :
    (faultySystem chatWire faults [[104, 105], [104, 111]]).Reachable hoSent := by
  have hstart : (faultySystem chatWire faults [[104, 105], [104, 111]]).Reachable hoStart :=
    .init ⟨⟨_, _, rfl⟩, by decide, ⟨_, _, _, rfl⟩, rfl, rfl⟩
  have htyped := hstart.step (.moves (.clientInput hoStart [104, 105] [[104, 111]] rfl rfl))
  have hfailed := htyped.step (.clientSendFails _ hfault (by decide +kernel))
  have hqueued := hfailed.step (.moves (.clientInput _ [104, 111] [] rfl rfl))
  exact hqueued.step (.moves (.clientSend hoQueued (by decide +kernel)))

theorem hoIdle_reachable :
    (faultySystem chatWire sendsFail [[104, 105], [104, 111]]).Reachable hoIdle := by
  have hsent := hoSent_reachable (show sendsFail .clientSend from Fault.noConfusion)
  have hreceived := hsent.step (.moves (.serverRecv _ [8, 0, 0, 0, 10, 2, 104, 105] []
    (by decide +kernel) (by decide +kernel) (by decide) (by decide)))
  have hhandled := hreceived.step (.moves (.serverHandle _ (by decide +kernel)))
  have hfailed := hhandled.step
    (.serverSendFails _ Fault.noConfusion (by decide +kernel))
  exact hfailed.step (.moves (.serverHandle hoStranded (by decide +kernel)))

/-! ## What the parties have -/

/-- In every run in which nothing is refused and every message fits a frame,
whichever calls fail: the replies are those to the first requests, numbered
without gaps; the client has parsed the first replies; and the bytes between
the parties are the frames of the other requests and the other replies, in
order and nothing else. -/
theorem delivered_in_order (hcodec : codec.Lawful)
    (h : (faultySystem codec faults lines).Reachable s)
    (hbounded : ∀ packet ∈ s.client.built ++ s.server.built, packet.byteSize ≤ 65531)
    (hclient : s.client.refused = 0) (hserver : s.server.refused = 0) :
    ∃ requests replies,
      s.client.built = requests.map codec.packet ∧ s.server.built = replies.map codec.packet ∧
      replies <+: numbered requests ∧ s.client.parsed <+: replies ∧
      s.toServer = (requests.drop replies.length).flatMap codec.encode ∧
      s.toClient = (replies.drop s.client.parsed.length).flatMap codec.encode := by
  obtain ⟨_, requests, replies, cw, sw, ha⟩ :=
    account_of_reachable hcodec h hbounded ⟨hclient, hserver⟩
  exact ⟨requests, replies, ha.clientBuilt, ha.serverBuilt, ha.replied, ha.parsed, ha.up.bytes,
    ha.down.bytes⟩

theorem ho_delivered : ∃ requests replies,
    hoIdle.client.built = requests.map chatWire.packet ∧
      hoIdle.server.built = replies.map chatWire.packet ∧
      replies <+: numbered requests ∧ hoIdle.client.parsed <+: replies ∧
      hoIdle.toServer = (requests.drop replies.length).flatMap chatWire.encode ∧
      hoIdle.toClient =
        (replies.drop hoIdle.client.parsed.length).flatMap chatWire.encode :=
  delivered_in_order chatWire_lawful hoIdle_reachable (by decide +kernel) (by decide +kernel)
    (by decide +kernel)

/-- In such a run the requests are the lines typed and the replies parsed, merged
in some order, and there are as many messages on their way as lines were typed. -/
theorem in_flight_eq_typed (hcodec : codec.Lawful)
    (h : (faultySystem codec faults lines).Reachable s)
    (hbounded : ∀ packet ∈ s.client.built ++ s.server.built, packet.byteSize ≤ 65531)
    (hclient : s.client.refused = 0) (hserver : s.server.refused = 0) :
    ∃ typed requests up down : List Text,
      lines = typed ++ s.client.stdin ∧ s.client.built = requests.map codec.packet ∧
      Interleaving typed s.client.parsed requests ∧
      s.toServer = up.flatMap codec.encode ∧ s.toClient = down.flatMap codec.encode ∧
      up.length + down.length = typed.length := by
  obtain ⟨_, requests, replies, cw, sw, ha⟩ :=
    account_of_reachable hcodec h hbounded ⟨hclient, hserver⟩
  obtain ⟨typed, htyped, hmerge⟩ := ha.typed
  refine ⟨typed, requests, requests.drop replies.length, replies.drop s.client.parsed.length,
    htyped, ha.clientBuilt, hmerge, ha.up.bytes, ha.down.bytes, ?_⟩
  have hmade := hmerge.length_eq
  have hanswered := Nat.le_trans ha.up.taken_le ha.up.wired_le
  have hheard := Nat.le_trans ha.down.taken_le ha.down.wired_le
  rw [List.length_drop, List.length_drop]
  omega

theorem ho_in_flight : ∃ typed requests up down : List Text,
    [[104, 105], [104, 111]] = typed ++ hoIdle.client.stdin ∧
      hoIdle.client.built = requests.map chatWire.packet ∧
      Interleaving typed hoIdle.client.parsed requests ∧
      hoIdle.toServer = up.flatMap chatWire.encode ∧
      hoIdle.toClient = down.flatMap chatWire.encode ∧
      up.length + down.length = typed.length :=
  in_flight_eq_typed chatWire_lawful hoIdle_reachable (by decide +kernel) (by decide +kernel)
    (by decide +kernel)

/-! ## When nothing is refused -/

/-- Every frame built so far has at most `limit` bytes. -/
def FramesWithin (limit : Nat) (s : Echo) : Prop :=
  ∀ packet ∈ s.client.built ++ s.server.built, 4 + packet.byteSize ≤ limit

theorem FramesWithin.bounded {limit : Nat} (h : FramesWithin limit s)
    (hlimit : limit ≤ maxBufSize) : Bounded s := by
  intro packet hpacket
  have hframe := h packet hpacket
  unfold maxBufSize at hlimit
  omega

section Room

variable {limit : Nat} {requests replies : List Text} {cw sw : Nat}

/-- There is room for a message besides `n` others. -/
theorem room_for {bytes n new typed : Nat} (hbytes : bytes ≤ n * limit) (hnew : new ≤ limit)
    (hcount : n + 1 ≤ typed) (hroom : typed * limit ≤ maxBufSize) :
    bytes + new ≤ maxBufSize := by
  have hmul : (n + 1) * limit ≤ typed * limit := Nat.mul_le_mul_right limit hcount
  rw [Nat.succ_mul] at hmul
  omega

theorem frames_requests (h : Account codec faults lines s requests replies cw sw)
    (hframes : FramesWithin limit s) : ∀ text ∈ requests, (codec.encode text).length ≤ limit := by
  intro text htext
  rw [codec.length_encode]
  refine hframes _ (List.mem_append_left _ ?_)
  rw [h.clientBuilt]
  exact List.mem_map_of_mem htext

theorem frames_replies (h : Account codec faults lines s requests replies cw sw)
    (hframes : FramesWithin limit s) : ∀ text ∈ replies, (codec.encode text).length ≤ limit := by
  intro text htext
  rw [codec.length_encode]
  refine hframes _ (List.mem_append_right _ ?_)
  rw [h.serverBuilt]
  exact List.mem_map_of_mem htext

/-- What is on its way in one direction, in messages. -/
theorem flights (h : Account codec faults lines s requests replies cw sw) :
    requests.length = lines.length - s.client.stdin.length + s.client.parsed.length ∧
      s.client.stdin.length ≤ lines.length ∧ replies.length ≤ cw ∧ cw ≤ requests.length ∧
      s.client.parsed.length ≤ sw ∧ sw ≤ replies.length := by
  obtain ⟨typed, htyped, hmerge⟩ := h.typed
  have hlines := congrArg List.length htyped
  have hmade := hmerge.length_eq
  rw [List.length_append] at hlines
  exact ⟨by omega, by omega, h.up.taken_le, h.up.wired_le, h.down.taken_le, h.down.wired_le⟩

/-- With room for it the client's next message is not refused. -/
theorem refused_setPacket (hcodec : codec.Lawful)
    (h : Account codec faults lines s requests replies cw sw) (hframes : FramesWithin limit s)
    {c : EcoClient} (hbuffer : c.sendBuffer = s.client.sendBuffer) {text : Text}
    (hshort : text.length < 2 ^ 31) (htext : (codec.encode text).length ≤ limit)
    (hlimit : limit ≤ maxBufSize) {typed : Nat} (hcount : requests.length + 1 ≤ typed + cw)
    (hroom : typed * limit ≤ maxBufSize) :
    (c.setPacket codec text).refused = c.refused := by
  have hqueue := h.up.queue_le (frames_requests h hframes)
  have hwired := h.up.wired_le
  have hfits := room_for hqueue htext (by omega) hroom
  have hsmall : (codec.packet text).byteSize ≤ 65531 := by
    rw [codec.length_encode] at htext
    unfold maxBufSize at hlimit
    omega
  have hord : c.sendBuffer.Ordered := hbuffer ▸ h.sound.clientSend
  rcases EcoClient.setPacket_cases hord (hcodec.byteSize_pos hshort) hsmall with
    ⟨_, _, _, _, heq⟩ | ⟨hfull, _⟩
  · rw [heq]
  · rw [hbuffer] at hfull
    omega

/-- A chunk is not refused if the bytes of all messages before it and its own
fit the buffer. -/
theorem chunk_room {sent : List Text} {wired taken : Nat} {queue chunk more : List Byte}
    {pb : PacketBuffer} (hpipe : Pipe packetHeader codec.encode sent wired taken queue
      (chunk ++ more) pb.unread)
    (hsent : ∀ text ∈ sent, (codec.encode text).length ≤ limit) {typed : Nat}
    (hcount : wired ≤ typed + taken) (hroom : typed * limit ≤ maxBufSize) :
    pb.unread.length + chunk.length ≤ maxBufSize := by
  have hbytes := hpipe.moving_le hsent
  have hmul : (wired - taken) * limit ≤ typed * limit :=
    Nat.mul_le_mul_right limit (by omega)
  rw [List.length_append] at hbytes
  omega

/-- The server has room for the next reply. -/
theorem refused_handle (hcodec : codec.Lawful)
    (h : Account codec faults lines s requests replies cw sw)
    (hold : FramesWithin limit s) (hlimit : limit ≤ maxBufSize)
    (hframes : FramesWithin limit { s with server := s.server.handle codec })
    (hroom : (lines.length - s.client.stdin.length) * limit ≤ maxBufSize)
    (hable : packetHeader.Complete s.server.recvBuffer.unread) :
    (s.server.handle codec).refused = s.server.refused := by
  obtain ⟨text, u, htext, hlt, hu, _⟩ := h.up.take hable
  obtain ⟨hmade, hlines, hreplies, hcw, hparsed, hsw⟩ := flights h
  have hfits := h.fits text (List.mem_append_left _ (List.mem_of_getElem? htext))
  have hyes := (isAbleToGetPacket_iff _).mpr hable
  obtain ⟨hno, hparse⟩ := read_head hcodec h.sound.serverRecv hfits hu
  obtain ⟨reply, hreply⟩ : ∃ reply, formatReply text (s.server.rest.count + 1) = reply := ⟨_, rfl⟩
  have hbuilt := EchoServer.built_of_parsed hyes hno hparse
  rw [hreply] at hbuilt
  have hnew : 4 + (codec.packet reply).byteSize ≤ limit := by
    refine hframes _ (List.mem_append_right _ ?_)
    show codec.packet reply ∈ (s.server.handle codec).built
    rw [hbuilt]
    exact List.mem_append_right _ List.mem_cons_self
  have hfits' := reply_fits hcodec hfits hreply
    (Nat.le_of_add_le_add_left (Nat.le_trans hnew hlimit))
  have hqueue := h.down.queue_le (frames_replies h hold)
  have hspace := room_for hqueue ((codec.length_encode reply).trans_le hnew) (by omega) hroom
  rcases EchoServer.handle_cases h.sound.serverSend hyes hno hparse hreply
    (hcodec.byteSize_pos hfits'.short) hfits'.small with ⟨_, _, _, _, heq⟩ | ⟨hfull, _⟩
  · rw [heq]
  · omega

/-- Whatever comes next, there is room for it. -/
theorem unrefused_step (hcodec : codec.Lawful) (hshort : ∀ line ∈ lines, line.length < 65535)
    (h : Account codec faults lines s requests replies cw sw)
    (hstep : FaultyStep codec faults s s') (hlimit : limit ≤ maxBufSize)
    (hframes : FramesWithin limit s')
    (hroom : (lines.length - s'.client.stdin.length) * limit ≤ maxBufSize) : Unrefused s' := by
  have hgrows := grows_of_step hstep
  have hold : FramesWithin limit s := hgrows.built hframes
  have hbounded := hframes.bounded hlimit
  have hsame : Unrefused s := ⟨h.sound.clientRefused, h.sound.serverRefused⟩
  obtain ⟨hmade, hlines, hreplies, hcw, hparsed, hsw⟩ := flights h
  have hroom' : (lines.length - s.client.stdin.length) * limit ≤ maxBufSize := by
    refine Nat.le_trans (Nat.mul_le_mul_right limit ?_) hroom
    exact Nat.sub_le_sub_left hgrows.stdin.length_le _
  have hnewest : ∀ {c : EcoClient} {text : Text},
      (s'.client = c.setPacket codec text) → (codec.encode text).length ≤ limit := by
    intro c text hclient
    rw [codec.length_encode]
    refine hframes _ (List.mem_append_left _ ?_)
    rw [hclient, Lockstep.built_setPacket]
    exact List.mem_append_right _ List.mem_cons_self
  cases hstep with
  | clientSendFails hfault hpoint => exact hsame
  | clientRecvFails hfault hpoint => exact hsame
  | serverSendFails hfault hpoint => exact hsame
  | moves hmove =>
      cases hmove with
      | clientInput line rest hpoint hline =>
          obtain ⟨typed, htyped, _⟩ := h.typed
          have hmem : line ∈ lines := by
            rw [htyped, hline]
            exact List.mem_append_right _ List.mem_cons_self
          have hrest : (s.client.input codec line rest).stdin = rest := (grows_setPacket ..).2.2
          have hone : s.client.stdin.length = rest.length + 1 := congrArg List.length hline
          refine ⟨?_, hsame.2⟩
          have hkeeps : (s.client.input codec line rest).refused = s.client.refused :=
            refused_setPacket hcodec h hold (c := { s.client with stdin := rest }) rfl
              (Nat.lt_trans (hshort line hmem) (by decide)) (hnewest rfl) hlimit
              (by rw [hrest] at *; omega) hroom
          exact hkeeps.trans hsame.1
      | clientSend hpoint => exact hsame
      | clientRecv chunk more hpoint hchannel hne hsize =>
          have hfits := chunk_room (hchannel ▸ h.down) (frames_replies h hold) (by omega) hroom'
          rcases EcoClient.recv_cases h.sound.clientRecv hne hsize with
            ⟨_, rb, _, _, heq⟩ | ⟨hfull, _⟩
          · rw [heq]
            exact hsame
          · omega
      | clientTake hpoint =>
          obtain ⟨text, u, htext, hlt, hu, _⟩ := h.down.take (h.atTake hpoint)
          have hfits := h.fits text (List.mem_append_right _ (List.mem_of_getElem? htext))
          obtain ⟨_, hparse⟩ := read_head hcodec h.sound.clientRecv hfits hu
          have htake : s.client.take codec =
              EcoClient.setPacket codec
                { s.client with
                  recvBuffer := s.client.recvBuffer.consumePacket
                  parsed := s.client.parsed ++ [text] }
                text := by
            rw [EcoClient.take, hparse]
          have hkeeps := refused_setPacket hcodec h hold (c := { s.client with
              recvBuffer := s.client.recvBuffer.consumePacket
              parsed := s.client.parsed ++ [text] }) rfl hfits.short (hnewest htake) hlimit
              (by omega) hroom'
          refine ⟨?_, hsame.2⟩
          show (s.client.take codec).refused = 0
          rw [htake, hkeeps]
          exact hsame.1
      | serverRecv chunk more hpoint hchannel hne hsize =>
          have hfits := chunk_room (hchannel ▸ h.up) (frames_requests h hold) (by omega) hroom'
          rcases EchoServer.recv_cases h.sound.serverRecv hne with
            ⟨_, rb, _, _, heq⟩ | ⟨hfull, _⟩
          · rw [heq]
            exact hsame
          · omega
      | serverHandle hpoint =>
          by_cases hable : packetHeader.Complete s.server.recvBuffer.unread
          · have hkeeps := refused_handle hcodec h hold hlimit hframes hroom' hable
            exact ⟨hsame.1, hkeeps.trans hsame.2⟩
          · rw [handle_of_not_able hable]
            exact hsame
      | serverSend hpoint => exact hsame

end Room

/-- Whatever fails, nothing is refused as long as the lines typed, at the size
of the longest frame, fit one buffer. -/
theorem never_refused (hcodec : codec.Lawful) (h : (faultySystem codec faults lines).Reachable s)
    {limit : Nat} (hlimit : limit ≤ maxBufSize)
    (hframes : ∀ packet ∈ s.client.built ++ s.server.built, 4 + packet.byteSize ≤ limit)
    (hroom : (lines.length - s.client.stdin.length) * limit ≤ maxBufSize) :
    s.client.refused = 0 ∧ s.server.refused = 0 := by
  induction h with
  | init hstart =>
      have hstarts : Account codec faults lines _ [] [] 0 0 := account_start hstart
      have hsound := hstarts.sound
      exact ⟨hsound.clientRefused, hsound.serverRefused⟩
  | step hreach hmove ih =>
      have hgrows := grows_of_step hmove
      have hold : FramesWithin limit _ := hgrows.built hframes
      have hbefore := ih hold (Nat.le_trans
        (Nat.mul_le_mul_right limit (Nat.sub_le_sub_left hgrows.stdin.length_le _)) hroom)
      obtain ⟨hshort, _, _, _, _, haccount⟩ :=
        account_of_reachable hcodec hreach (hold.bounded hlimit) hbefore
      exact unrefused_step hcodec hshort haccount hmove hlimit hframes hroom

theorem ho_unrefused : hoIdle.client.refused = 0 ∧ hoIdle.server.refused = 0 :=
  never_refused chatWire_lawful hoIdle_reachable (show 10 ≤ maxBufSize by decide)
    (by decide +kernel) (by decide +kernel)

end ServerStudy.Theorems.Delivery
