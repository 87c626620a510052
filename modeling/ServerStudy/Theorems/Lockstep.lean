import ServerStudy.Logic.Echo

/-!
# Lockstep

One client and one new server never have more than one message between them.
Its frame is the token of the system: it lies between the client's send buffer
and the server's receive buffer (`Requesting`), or between the server's send
buffer and the client's receive buffer (`Replying`), split at any point over
the two buffers and the channel. Whoever is to send next has an empty send
buffer, and whoever receives has at most this one frame in its buffer, so the
fixed sizes are never exceeded.

The handler writes its counter behind every message, so the texts grow. They
stay short enough for a frame only as long as `Bounded` says; until then the
counter is far from its wrap (`two_mul_le_length`).
-/

namespace ServerStudy.Theorems.Lockstep

open ServerStudy.Core PacketBuffer Echo

variable {codec : ChatCodec} {m₀ : Text} {s : Echo}

/-! ## The replies -/

/-- The first line with the counts 1 to `k` behind it: the `k`-th reply. -/
def replyText (m₀ : Text) : Nat → Text
  | 0 => m₀
  | k + 1 => replyText m₀ k ++ 44 :: decimal (k + 1)

/-- The replies 1 to `k`. -/
def replies (m₀ : Text) (k : Nat) : List Text :=
  (List.range k).map fun i => replyText m₀ (i + 1)

theorem replies_succ (m₀ : Text) (k : Nat) :
    replies m₀ (k + 1) = replies m₀ k ++ [replyText m₀ (k + 1)] := by
  simp [replies, List.range_succ]

theorem eq_of_getElem?_replies {k i : Nat} {text : Text} (h : (replies m₀ k)[i]? = some text) :
    text = replyText m₀ (i + 1) := by
  rw [replies, List.getElem?_map, Option.map_eq_some_iff] at h
  obtain ⟨j, hj, rfl⟩ := h
  have hij : i = j := (List.getElem?_eq_some_iff.mp hj).2 ▸ (List.getElem_range _).symm
  rw [hij]

/-- Every reply adds a comma and a digit. -/
theorem two_mul_le_length (m₀ : Text) (k : Nat) : 2 * k ≤ (replyText m₀ k).length := by
  induction k with
  | zero => exact Nat.zero_le _
  | succ k ih =>
      have hdigits := length_decimal_pos (k + 1)
      rw [replyText, List.length_append, List.length_cons]
      omega

/-! ## What the invariant says -/

/-- Every message given to `SetPacket` so far fits a frame. -/
def Bounded (s : Echo) : Prop :=
  ∀ packet ∈ s.client.built ++ s.server.built, packet.byteSize ≤ 65531

/-- The message of a text fits a frame. -/
structure Fits (codec : ChatCodec) (text : Text) : Prop where
  short : text.length < 2 ^ 31
  small : (codec.packet text).byteSize ≤ 65531

/-- What holds wherever the frame is. -/
structure Sound (s : Echo) : Prop where
  clientSend : s.client.sendBuffer.Ordered
  clientRecv : s.client.recvBuffer.Ordered
  serverRecv : s.server.recvBuffer.Ordered
  serverSend : s.server.rest.sendBuffer.Ordered
  clientRefused : s.client.refused = 0
  serverRefused : s.server.refused = 0

/-- No line has been sent. -/
structure Waiting (m₀ : Text) (s : Echo) : Prop where
  client : s.client.point = .input
  stdin : ∃ lines, s.client.stdin = m₀ :: lines
  line : m₀.length < 65535
  server : s.server.point = .recv
  up : s.toServer = []
  down : s.toClient = []
  count : s.server.rest.count.toNat = 0
  built : s.client.built = []
  parsed : s.client.parsed = []

/-- The frame of the `k`-th reply, or of the line, is on its way to the
server. -/
structure Requesting (codec : ChatCodec) (m₀ : Text) (k : Nat) (s : Echo) : Prop where
  fits : Fits codec (replyText m₀ k)
  client :
    s.client.point = .send ∧
      s.client.sendBuffer.unread = (codec.packet (replyText m₀ k)).frame ∨
    s.client.point = .recv ∧ s.client.sendBuffer.unread = []
  server : s.server.point ≠ .send
  up : s.toServer = (codec.packet (replyText m₀ k)).frame
  down : s.toClient = []
  count : s.server.rest.count.toNat = k
  parsed : s.client.parsed = replies m₀ k

/-- The frame of the next reply is on its way to the client. -/
structure Replying (codec : ChatCodec) (m₀ : Text) (k : Nat) (s : Echo) : Prop where
  fits : Fits codec (replyText m₀ (k + 1))
  client :
    s.client.point = .recv ∧ ¬ packetHeader.Complete s.client.recvBuffer.unread ∨
    s.client.point = .take ∧ packetHeader.Complete s.client.recvBuffer.unread
  server :
    s.server.point = .send ∧
      s.server.rest.sendBuffer.unread = (codec.packet (replyText m₀ (k + 1))).frame ∨
    s.server.point ≠ .send ∧ s.server.rest.sendBuffer.unread = []
  up : s.toServer = []
  down : s.toClient = (codec.packet (replyText m₀ (k + 1))).frame
  count : s.server.rest.count.toNat = k + 1
  parsed : s.client.parsed = replies m₀ k

/-- Exactly one of the parties has the turn. -/
def Inv (codec : ChatCodec) (m₀ : Text) (s : Echo) : Prop :=
  Sound s ∧ (Waiting m₀ s ∨ ∃ k, Requesting codec m₀ k s ∨ Replying codec m₀ k s)

/-! ## Nothing on its way -/

theorem toServer_eq_nil : s.toServer = [] ↔
    s.server.recvBuffer.unread = [] ∧ s.upstream = [] ∧ s.client.sendBuffer.unread = [] := by
  rw [toServer, List.append_eq_nil_iff, List.append_eq_nil_iff, and_assoc]

theorem toClient_eq_nil : s.toClient = [] ↔
    s.client.recvBuffer.unread = [] ∧ s.downstream = [] ∧
      s.server.rest.sendBuffer.unread = [] := by
  rw [toClient, List.append_eq_nil_iff, List.append_eq_nil_iff, and_assoc]

/-! ## Whose turn it is -/

namespace Inv

theorem waiting (h : Inv codec m₀ s) (hpoint : s.client.point = .input) : Waiting m₀ s := by
  rcases h.2 with hw | ⟨k, hreq | hrep⟩
  · exact hw
  · rcases hreq.client with ⟨hturn, _⟩ | ⟨hturn, _⟩
    · rw [hturn] at hpoint; cases hpoint
    · rw [hturn] at hpoint; cases hpoint
  · rcases hrep.client with ⟨hturn, _⟩ | ⟨hturn, _⟩
    · rw [hturn] at hpoint; cases hpoint
    · rw [hturn] at hpoint; cases hpoint

theorem client_send (h : Inv codec m₀ s) (hpoint : s.client.point = .send) :
    ∃ k, Requesting codec m₀ k s ∧
      s.client.sendBuffer.unread = (codec.packet (replyText m₀ k)).frame := by
  rcases h.2 with hw | ⟨k, hreq | hrep⟩
  · rw [hw.client] at hpoint; cases hpoint
  · rcases hreq.client with ⟨_, hfull⟩ | ⟨hturn, _⟩
    · exact ⟨k, hreq, hfull⟩
    · rw [hturn] at hpoint; cases hpoint
  · rcases hrep.client with ⟨hturn, _⟩ | ⟨hturn, _⟩
    · rw [hturn] at hpoint; cases hpoint
    · rw [hturn] at hpoint; cases hpoint

theorem client_take (h : Inv codec m₀ s) (hpoint : s.client.point = .take) :
    ∃ k, Replying codec m₀ k s ∧ packetHeader.Complete s.client.recvBuffer.unread := by
  rcases h.2 with hw | ⟨k, hreq | hrep⟩
  · rw [hw.client] at hpoint; cases hpoint
  · rcases hreq.client with ⟨hturn, _⟩ | ⟨hturn, _⟩
    · rw [hturn] at hpoint; cases hpoint
    · rw [hturn] at hpoint; cases hpoint
  · rcases hrep.client with ⟨hturn, _⟩ | ⟨_, hable⟩
    · rw [hturn] at hpoint; cases hpoint
    · exact ⟨k, hrep, hable⟩

theorem server_send (h : Inv codec m₀ s) (hpoint : s.server.point = .send) :
    ∃ k, Replying codec m₀ k s ∧
      s.server.rest.sendBuffer.unread = (codec.packet (replyText m₀ (k + 1))).frame := by
  rcases h.2 with hw | ⟨k, hreq | hrep⟩
  · rw [hw.server] at hpoint; cases hpoint
  · exact absurd hpoint hreq.server
  · rcases hrep.server with ⟨_, hfull⟩ | ⟨hturn, _⟩
    · exact ⟨k, hrep, hfull⟩
    · exact absurd hpoint hturn

/-- Bytes in the channel to the server are part of a request. -/
theorem requesting (h : Inv codec m₀ s) (hchannel : s.upstream ≠ []) :
    ∃ k, Requesting codec m₀ k s := by
  rcases h.2 with hw | ⟨k, hreq | hrep⟩
  · exact absurd (toServer_eq_nil.mp hw.up).2.1 hchannel
  · exact ⟨k, hreq⟩
  · exact absurd (toServer_eq_nil.mp hrep.up).2.1 hchannel

/-- Bytes in the channel to the client are part of a reply. -/
theorem replying (h : Inv codec m₀ s) (hchannel : s.downstream ≠ []) :
    ∃ k, Replying codec m₀ k s := by
  rcases h.2 with hw | ⟨k, hreq | hrep⟩
  · exact absurd (toClient_eq_nil.mp hw.down).2.1 hchannel
  · exact absurd (toClient_eq_nil.mp hreq.down).2.1 hchannel
  · exact ⟨k, hrep⟩

end Inv

/-! ## One frame in a buffer -/

section Buffer

variable {pb : PacketBuffer} {f : Frame} {part more : List Byte}

/-- A complete part of a frame is all of it. -/
theorem eq_of_complete (hwhole : part ++ more = f.stream) (hcomplete : packetHeader.Complete part) :
    part = f.stream ∧ more = [] := by
  have hpart : part = f.stream := by
    by_contra hne
    exact Header.not_complete_of_part f.isFrame ⟨more, hwhole⟩ hne hcomplete
  rw [hpart] at hwhole
  exact ⟨hpart, List.append_right_eq_self.mp hwhole⟩

/-- A buffer with one frame sends it and is empty then. -/
theorem send_frame (hord : pb.Ordered) (hu : pb.unread = f.stream) :
    pb.getPacketBuffer.slice 0 pb.getPacketSize.toNat = f.stream ∧
      pb.consumePacket.unread = [] := by
  have hhead := head_of_alone hu
  refine ⟨?_, unread_consume_of_head hord hhead⟩
  rw [headBytes_eq (complete_of_head hhead).2, size_of_head hhead, hu, List.take_length]

/-- There is room for the next part of a frame. -/
theorem append_part (hord : pb.Ordered) {chunk : List Byte} (hne : chunk ≠ [])
    (hwhole : pb.unread ++ (chunk ++ more) = f.stream) :
    ∃ rb : PacketBuffer, pb.appendBuffer (some (Mem.ofList 0 chunk)) (UInt16.ofNat chunk.length) =
      (true, rb) ∧ rb.Ordered ∧ rb.unread = pb.unread ++ chunk := by
  refine appendBuffer_chunk hord hne ?_
  have hlen := congrArg List.length hwhole
  have hframe : f.stream.length = 4 + f.byteSize := f.toPacket.length_frame
  have hfits := f.fits
  simp only [List.length_append] at hlen
  unfold maxBufSize
  omega

end Buffer

/-! ## One party's code -/

section Parties

/-- `SetPacket` records its message whatever it answers. -/
theorem built_setPacket (codec : ChatCodec) (c : EcoClient) (message : Text) :
    (c.setPacket codec message).built = c.built ++ [codec.packet message] := by
  unfold EcoClient.setPacket
  split
  · rfl
  · rfl

/-- A client with an empty send buffer goes on to `send` its message. -/
theorem setPacket_of_fits (hcodec : codec.Lawful) {c : EcoClient} (hord : c.sendBuffer.Ordered)
    (hempty : c.sendBuffer.unread = []) {text : Text} (hfits : Fits codec text) :
    ∃ sb : PacketBuffer, sb.Ordered ∧ sb.unread = (codec.packet text).frame ∧
      c.setPacket codec text =
        { c with
          point := .send
          sendBuffer := sb
          built := c.built ++ [codec.packet text] } := by
  obtain ⟨sb, hset, hsb, hunread⟩ :=
    setPacket_of_empty hord hempty (hcodec.byteSize_pos hfits.short) hfits.small
  refine ⟨sb, hsb, hunread, ?_⟩
  rw [EcoClient.setPacket, hset]

/-- What the parties find in a buffer that holds the frame of a text. -/
theorem read_frame (hcodec : codec.Lawful) {pb : PacketBuffer} (hord : pb.Ordered) {text : Text}
    (hfits : Fits codec text) (hu : pb.unread = (codec.packet text).frame) :
    pb.isAbleToGetPacket = true ∧ pb.getPacketNo = chatProtocolNumber ∧
      codec.parseFromArray pb.payload = some text := by
  have hhead := head_of_alone (f := codec.frame text hfits.small) hu
  refine ⟨(isAbleToGetPacket_iff pb).mpr (complete_of_head hhead), ?_, ?_⟩
  · rw [getPacketNo_of_head hord hhead]
    rfl
  · rw [payload_of_head hhead]
    exact hcodec.parse_serialize text hfits.short

/-- A client with one frame takes the message out of it. -/
theorem take_of_frame (hcodec : codec.Lawful) {c : EcoClient} (hord : c.recvBuffer.Ordered)
    {text : Text} (hfits : Fits codec text)
    (hu : c.recvBuffer.unread = (codec.packet text).frame) :
    c.take codec =
      EcoClient.setPacket codec
        { c with
          recvBuffer := c.recvBuffer.consumePacket
          parsed := c.parsed ++ [text] }
        text := by
  obtain ⟨_, _, hparse⟩ := read_frame hcodec hord hfits hu
  rw [EcoClient.take, hparse]

/-- A server with one frame makes the reply. -/
theorem handle_of_frame (hcodec : codec.Lawful) {v : EchoServer} (hord : v.recvBuffer.Ordered)
    {text : Text} (hfits : Fits codec text)
    (hu : v.recvBuffer.unread = (codec.packet text).frame) {reply : Text}
    (hreply : formatReply text (v.rest.count + 1) = reply) :
    (v.handle codec).built = v.built ++ [codec.packet reply] ∧
      (v.rest.sendBuffer.Ordered → v.rest.sendBuffer.unread = [] → Fits codec reply →
        ∃ sb : PacketBuffer, sb.Ordered ∧ sb.unread = (codec.packet reply).frame ∧
          v.handle codec =
            { point := .send
              recvBuffer := v.recvBuffer.consumePacket
              rest := { v.rest with sendBuffer := sb, count := v.rest.count + 1 }
              built := v.built ++ [codec.packet reply]
              refused := v.refused }) := by
  obtain ⟨hable, hno, hparse⟩ := read_frame hcodec hord hfits hu
  have hpacket : (chatReply codec v.rest text).2 = codec.packet reply := by
    rw [← hreply]
    rfl
  have hpass := handle_of_parsed hable hno hparse
  rw [hpacket] at hpass
  refine ⟨by rw [hpass], fun hsend hempty hsmall => ?_⟩
  -- the send buffer is empty, so the reply has room
  obtain ⟨sb, hset, hsb, hunread⟩ :=
    setPacket_of_empty hsend hempty (hcodec.byteSize_pos hsmall.short) hsmall.small
  refine ⟨sb, hsb, hunread, ?_⟩
  rw [hpass, hset]
  rfl

/-- A pass adds at most one message to those built. -/
theorem built_handle (codec : ChatCodec) (v : EchoServer) :
    v.built <+: (v.handle codec).built := by
  by_cases hable : packetHeader.Complete v.recvBuffer.unread
  · have hyes := (isAbleToGetPacket_iff _).mpr hable
    by_cases hno : v.recvBuffer.getPacketNo = chatProtocolNumber
    · cases hparse : codec.parseFromArray v.recvBuffer.payload with
      | none =>
          rw [handle_of_rejected hyes (.inr hparse)]
      | some message =>
          rw [handle_of_parsed hyes hno hparse]
          exact List.prefix_append ..
    · rw [handle_of_rejected hyes (.inl hno)]
  · rw [handle_of_not_able hable]

end Parties

/-! ## The steps of the client -/

theorem inv_of_start (h : Start m₀ s) : Inv codec m₀ s := by
  obtain ⟨⟨lines, sendPast, recvPast, hclient⟩, hline, ⟨recvPast', sendPast', sock, hserver⟩,
    hup, hdown⟩ := h
  refine ⟨⟨?_, ?_, ?_, ?_, ?_, ?_⟩, .inl ⟨?_, ⟨lines, ?_⟩, hline, ?_, ?_, ?_, ?_, ?_, ?_⟩⟩
  · rw [hclient]; exact new_ordered _
  · rw [hclient]; exact new_ordered _
  · rw [hserver]; exact new_ordered _
  · rw [hserver]; exact new_ordered _
  · rw [hclient]; rfl
  · rw [hserver]; rfl
  · rw [hclient]; rfl
  · rw [hclient]; rfl
  · rw [hserver]; rfl
  · -- new buffers and empty channels: nothing is on its way
    rw [toServer, hclient, hserver, hup]
    simp [EchoServer.new, EcoClient.new]
  · rw [toClient, hclient, hserver, hdown]
    simp [EchoServer.new, EcoClient.new]
  · rw [hserver]; rfl
  · rw [hclient]; rfl
  · rw [hclient]; rfl

/-- The line becomes the frame. -/
theorem inv_clientInput (hcodec : codec.Lawful) (h : Inv codec m₀ s) {line : Text}
    {rest : List Text} (hpoint : s.client.point = .input) (hline : s.client.stdin = line :: rest)
    (hbounded : Bounded { s with client := s.client.input codec line rest }) :
    Inv codec m₀ { s with client := s.client.input codec line rest } := by
  have hsound := h.1
  have hw := h.waiting hpoint
  obtain ⟨lines, hstdin⟩ := hw.stdin
  have hm : line = m₀ := (List.cons.inj (hline.symm.trans hstdin)).1
  subst hm
  have hbuilt : (s.client.input codec line rest).built = s.client.built ++ [codec.packet line] :=
    built_setPacket ..
  have hfits : Fits codec line := by
    refine ⟨Nat.lt_trans hw.line (by decide), hbounded _ (List.mem_append_left _ ?_)⟩
    show codec.packet line ∈ (s.client.input codec line rest).built
    rw [hbuilt]
    exact List.mem_append_right _ List.mem_cons_self
  obtain ⟨hrecv, hup, hempty⟩ := toServer_eq_nil.mp hw.up
  obtain ⟨sb, hsb, hunread, hset⟩ :=
    setPacket_of_fits (c := { s.client with stdin := rest }) hcodec hsound.clientSend hempty hfits
  have hnew : s.client.input codec line rest = _ := hset
  rw [hnew]
  refine ⟨?_, .inr ⟨0, .inl
    ⟨hfits, .inl ⟨rfl, hunread⟩, ?_, ?_, hw.down, hw.count, hw.parsed⟩⟩⟩
  · exact ⟨hsb, hsound.clientRecv, hsound.serverRecv, hsound.serverSend, hsound.clientRefused,
      hsound.serverRefused⟩
  · rw [hw.server]
    exact ServerPoint.noConfusion
  · show s.server.recvBuffer.unread ++ s.upstream ++ sb.unread = _
    rw [hrecv, hup, hunread]
    rfl

/-- The frame moves from the send buffer into the channel. -/
theorem inv_clientSend (h : Inv codec m₀ s) (hpoint : s.client.point = .send) :
    Inv codec m₀
      { s with client := s.client.send, upstream := s.upstream ++ s.client.outgoing } := by
  have hsound := h.1
  obtain ⟨k, hreq, hfull⟩ := h.client_send hpoint
  have hsent := send_frame (f := codec.frame _ hreq.fits.small) hsound.clientSend hfull
  refine ⟨?_, .inr ⟨k, .inl ⟨hreq.fits, .inr ⟨rfl, hsent.2⟩, hreq.server, ?_, hreq.down,
    hreq.count, hreq.parsed⟩⟩⟩
  · exact ⟨consumePacket_ordered hsound.clientSend, hsound.clientRecv, hsound.serverRecv,
      hsound.serverSend, hsound.clientRefused, hsound.serverRefused⟩
  · -- the bytes have only changed places
    show s.server.recvBuffer.unread ++ (s.upstream ++ s.client.outgoing) ++
      s.client.sendBuffer.consumePacket.unread = _
    have hout : s.client.outgoing = s.client.sendBuffer.unread := hsent.1.trans hfull.symm
    rw [hsent.2, hout, List.append_nil, ← List.append_assoc]
    exact hreq.up

/-- A part of the frame, or the rest of it, reaches the client. -/
theorem inv_clientRecv (h : Inv codec m₀ s) {chunk more : List Byte}
    (hchannel : s.downstream = chunk ++ more) (hne : chunk ≠ []) :
    Inv codec m₀ { s with client := s.client.recv chunk, downstream := more } := by
  have hsound := h.1
  obtain ⟨k, hrep⟩ := h.replying (by rw [hchannel]; exact List.append_ne_nil_of_left_ne_nil hne _)
  have hwhole : s.client.recvBuffer.unread ++
      (chunk ++ (more ++ s.server.rest.sendBuffer.unread)) =
        (codec.frame _ hrep.fits.small).stream := by
    have hdown := hrep.down
    rw [toClient, hchannel, List.append_assoc, List.append_assoc] at hdown
    exact hdown
  obtain ⟨rb, happend, hrb, hunread⟩ := append_part hsound.clientRecv hne hwhole
  have hnew : s.client.recv chunk =
      { s.client with
        point := if rb.isAbleToGetPacket = false then .recv else .take
        recvBuffer := rb } := by
    rw [EcoClient.recv, happend]
  rw [hnew]
  refine ⟨?_, .inr ⟨k, .inr
    ⟨hrep.fits, ?_, hrep.server, hrep.up, ?_, hrep.count, hrep.parsed⟩⟩⟩
  · exact ⟨hsound.clientSend, hrb, hsound.serverRecv, hsound.serverSend, hsound.clientRefused,
      hsound.serverRefused⟩
  · by_cases hable : packetHeader.Complete rb.unread
    · refine .inr ⟨if_neg ?_, hable⟩
      rw [isAbleToGetPacket_eq_false_iff]
      exact not_not.mpr hable
    · exact .inl ⟨if_pos ((isAbleToGetPacket_eq_false_iff rb).mpr hable), hable⟩
  · show rb.unread ++ more ++ s.server.rest.sendBuffer.unread = _
    rw [hunread, List.append_assoc, List.append_assoc]
    exact hwhole

/-- The whole frame is taken and its message sent back. -/
theorem inv_clientTake (hcodec : codec.Lawful) (h : Inv codec m₀ s)
    (hpoint : s.client.point = .take) :
    Inv codec m₀ { s with client := s.client.take codec } := by
  have hsound := h.1
  obtain ⟨k, hrep, hable⟩ := h.client_take hpoint
  have hwhole : s.client.recvBuffer.unread ++
      (s.downstream ++ s.server.rest.sendBuffer.unread) =
        (codec.frame _ hrep.fits.small).stream := by
    have hdown := hrep.down
    rw [toClient, List.append_assoc] at hdown
    exact hdown
  -- the complete part is all of the frame, so nothing else is on its way
  obtain ⟨hall, hnothing⟩ := eq_of_complete hwhole hable
  obtain ⟨hdown, hserver⟩ := List.append_eq_nil_iff.mp hnothing
  obtain ⟨hrecv, hup, hempty⟩ := toServer_eq_nil.mp hrep.up
  have htake := take_of_frame hcodec hsound.clientRecv hrep.fits hall
  have hconsumed := (send_frame hsound.clientRecv hall).2
  obtain ⟨sb, hsb, hunread, hset⟩ :=
    setPacket_of_fits (c := { s.client with
      recvBuffer := s.client.recvBuffer.consumePacket
      parsed := s.client.parsed ++ [replyText m₀ (k + 1)] }) hcodec hsound.clientSend hempty
      hrep.fits
  rw [htake, hset]
  refine ⟨?_, .inr ⟨k + 1, .inl
    ⟨hrep.fits, .inl ⟨rfl, hunread⟩, ?_, ?_, ?_, hrep.count, ?_⟩⟩⟩
  · exact ⟨hsb, consumePacket_ordered hsound.clientRecv, hsound.serverRecv, hsound.serverSend,
      hsound.clientRefused, hsound.serverRefused⟩
  · -- a server about to send would still hold the frame
    rcases hrep.server with ⟨_, hfull⟩ | ⟨hturn, _⟩
    · have hlen := (codec.packet (replyText m₀ (k + 1))).length_frame
      rw [← hfull, hserver, List.length_nil] at hlen
      omega
    · exact hturn
  · show s.server.recvBuffer.unread ++ s.upstream ++ sb.unread = _
    rw [hrecv, hup, hunread]
    rfl
  · show s.client.recvBuffer.consumePacket.unread ++ s.downstream ++
      s.server.rest.sendBuffer.unread = []
    rw [hconsumed, hdown, hserver]
    rfl
  · show s.client.parsed ++ [replyText m₀ (k + 1)] = _
    rw [hrep.parsed, replies_succ]

/-! ## The steps of the server -/

/-- A part of the frame, or the rest of it, reaches the server. -/
theorem inv_serverRecv (h : Inv codec m₀ s) {chunk more : List Byte}
    (hchannel : s.upstream = chunk ++ more) (hne : chunk ≠ []) :
    Inv codec m₀ { s with server := s.server.recv chunk, upstream := more } := by
  have hsound := h.1
  obtain ⟨k, hreq⟩ := h.requesting (by rw [hchannel]; exact List.append_ne_nil_of_left_ne_nil hne _)
  have hwhole : s.server.recvBuffer.unread ++
      (chunk ++ (more ++ s.client.sendBuffer.unread)) =
        (codec.frame _ hreq.fits.small).stream := by
    have hup := hreq.up
    rw [toServer, hchannel, List.append_assoc, List.append_assoc] at hup
    exact hup
  obtain ⟨rb, happend, hrb, hunread⟩ := append_part hsound.serverRecv hne hwhole
  have hsmall : ¬ chunk.length > maxBufSize := by
    have hle := rb.length_unread_le
    rw [hunread, List.length_append] at hle
    omega
  have hnew : s.server.recv chunk = { s.server with point := .handle, recvBuffer := rb } := by
    rw [EchoServer.recv, if_neg hsmall, happend]
  rw [hnew]
  refine ⟨?_, .inr ⟨k, .inl
    ⟨hreq.fits, hreq.client, ServerPoint.noConfusion, ?_, hreq.down, hreq.count, hreq.parsed⟩⟩⟩
  · exact ⟨hsound.clientSend, hsound.clientRecv, hrb, hsound.serverSend, hsound.clientRefused,
      hsound.serverRefused⟩
  · show rb.unread ++ more ++ s.client.sendBuffer.unread = _
    rw [hunread, List.append_assoc, List.append_assoc]
    exact hwhole

/-- The counter does not wrap while the messages fit a frame. -/
theorem formatReply_next (hcodec : codec.Lawful) {k : Nat} (hfits : Fits codec (replyText m₀ k))
    {count : UInt64} (hcount : count.toNat = k) :
    (count + 1).toNat = k + 1 ∧
      formatReply (replyText m₀ k) (count + 1) = replyText m₀ (k + 1) ∧
      (replyText m₀ (k + 1)).length < 2 ^ 31 := by
  have hlen := hcodec.length_le hfits.short hfits.small
  have hk := two_mul_le_length m₀ k
  have hnext : (count + 1).toNat = k + 1 := by
    have hone : (1 : UInt64).toNat = 1 := rfl
    rw [UInt64.toNat_add, hone, hcount]
    omega
  have hdigits : (decimal (k + 1)).length ≤ 20 := length_decimal_le (by omega)
  refine ⟨hnext, ?_, ?_⟩
  · rw [formatReply, hnext]
    rfl
  · rw [replyText, List.length_append, List.length_cons]
    omega

/-- A whole frame is answered. -/
theorem inv_handle_request (hcodec : codec.Lawful) (hsound : Sound s) {k : Nat}
    (hreq : Requesting codec m₀ k s)
    (hable : packetHeader.Complete s.server.recvBuffer.unread)
    (hbounded : Bounded { s with server := s.server.handle codec }) :
    Inv codec m₀ { s with server := s.server.handle codec } := by
  have hwhole : s.server.recvBuffer.unread ++ (s.upstream ++ s.client.sendBuffer.unread) =
      (codec.frame _ hreq.fits.small).stream := by
    have hup := hreq.up
    rw [toServer, List.append_assoc] at hup
    exact hup
  obtain ⟨hall, hnothing⟩ := eq_of_complete hwhole hable
  obtain ⟨hup, hclient⟩ := List.append_eq_nil_iff.mp hnothing
  obtain ⟨hrecv, hdown, hempty⟩ := toClient_eq_nil.mp hreq.down
  obtain ⟨hcount, hreply, hshort⟩ := formatReply_next hcodec hreq.fits hreq.count
  obtain ⟨hbuilt, hhandle⟩ := handle_of_frame hcodec hsound.serverRecv hreq.fits hall hreply
  have hfits : Fits codec (replyText m₀ (k + 1)) := by
    refine ⟨hshort, hbounded _ (List.mem_append_right _ ?_)⟩
    show codec.packet (replyText m₀ (k + 1)) ∈ (s.server.handle codec).built
    rw [hbuilt]
    exact List.mem_append_right _ List.mem_cons_self
  obtain ⟨sb, hsb, hunread, hnew⟩ := hhandle hsound.serverSend hempty hfits
  have hconsumed := (send_frame hsound.serverRecv hall).2
  rw [hnew]
  refine ⟨?_, .inr ⟨k, .inr
    ⟨hfits, .inl ⟨?_, ?_⟩, .inl ⟨rfl, hunread⟩, ?_, ?_, hcount, hreq.parsed⟩⟩⟩
  · exact ⟨hsound.clientSend, hsound.clientRecv, consumePacket_ordered hsound.serverRecv, hsb,
      hsound.clientRefused, hsound.serverRefused⟩
  · -- a client about to send would still hold the frame
    rcases hreq.client with ⟨_, hfull⟩ | ⟨hturn, _⟩
    · have hlen := (codec.packet (replyText m₀ k)).length_frame
      rw [← hfull, hclient, List.length_nil] at hlen
      omega
    · exact hturn
  · show ¬ packetHeader.Complete s.client.recvBuffer.unread
    rw [hrecv]
    exact packetHeader.not_complete_nil
  · show s.server.recvBuffer.consumePacket.unread ++ s.upstream ++
      s.client.sendBuffer.unread = []
    rw [hconsumed, hup, hclient]
    rfl
  · show s.client.recvBuffer.unread ++ s.downstream ++ sb.unread = _
    rw [hrecv, hdown, hunread]
    rfl

/-- One pass of the loop: with less than a frame it goes on to `recv`. -/
theorem inv_serverHandle (hcodec : codec.Lawful) (h : Inv codec m₀ s)
    (hpoint : s.server.point = .handle)
    (hbounded : Bounded { s with server := s.server.handle codec }) :
    Inv codec m₀ { s with server := s.server.handle codec } := by
  obtain ⟨hsound, hphase⟩ := h
  have hsame : Sound { s with server := { s.server with point := .recv } } :=
    ⟨hsound.clientSend, hsound.clientRecv, hsound.serverRecv, hsound.serverSend,
      hsound.clientRefused, hsound.serverRefused⟩
  rcases hphase with hw | ⟨k, hreq | hrep⟩
  · rw [hw.server] at hpoint; cases hpoint
  · by_cases hable : packetHeader.Complete s.server.recvBuffer.unread
    · exact inv_handle_request hcodec hsound hreq hable hbounded
    · rw [handle_of_not_able hable]
      exact ⟨hsame, .inr ⟨k, .inl ⟨hreq.fits, hreq.client, ServerPoint.noConfusion, hreq.up,
        hreq.down, hreq.count, hreq.parsed⟩⟩⟩
  · -- the request is answered and nothing is left of it
    obtain ⟨hrecv, _, _⟩ := toServer_eq_nil.mp hrep.up
    have hidle : ¬ packetHeader.Complete s.server.recvBuffer.unread := by
      rw [hrecv]
      exact packetHeader.not_complete_nil
    rw [handle_of_not_able hidle]
    refine ⟨hsame, .inr ⟨k, .inr ⟨hrep.fits, hrep.client, .inr ⟨ServerPoint.noConfusion, ?_⟩,
      hrep.up, hrep.down, hrep.count, hrep.parsed⟩⟩⟩
    rcases hrep.server with ⟨hturn, _⟩ | ⟨_, hempty⟩
    · rw [hturn] at hpoint; cases hpoint
    · exact hempty

/-- The frame of the reply moves from the send buffer into the channel. -/
theorem inv_serverSend (h : Inv codec m₀ s) (hpoint : s.server.point = .send) :
    Inv codec m₀
      { s with server := s.server.send, downstream := s.downstream ++ s.server.outgoing } := by
  have hsound := h.1
  obtain ⟨k, hrep, hfull⟩ := h.server_send hpoint
  have hsent := send_frame (f := codec.frame _ hrep.fits.small) hsound.serverSend hfull
  refine ⟨?_, .inr ⟨k, .inr ⟨hrep.fits, hrep.client, .inr ⟨ServerPoint.noConfusion, hsent.2⟩,
    hrep.up, ?_, hrep.count, hrep.parsed⟩⟩⟩
  · exact ⟨hsound.clientSend, hsound.clientRecv, hsound.serverRecv,
      consumePacket_ordered hsound.serverSend, hsound.clientRefused, hsound.serverRefused⟩
  · show s.client.recvBuffer.unread ++ (s.downstream ++ s.server.outgoing) ++
      s.server.rest.sendBuffer.consumePacket.unread = _
    have hout : s.server.outgoing = s.server.rest.sendBuffer.unread := hsent.1.trans hfull.symm
    rw [hsent.2, hout, List.append_nil, ← List.append_assoc]
    exact hrep.down

/-! ## Runs -/

/-- A step only adds to the messages built, so a bounded state was reached
through bounded states. -/
theorem Bounded.of_step {s' : Echo} (h : Step codec s s') (hbounded : Bounded s') : Bounded s := by
  have hgrows : s.client.built <+: s'.client.built ∧ s.server.built <+: s'.server.built := by
    cases h with
    | clientInput line rest hpoint hline =>
        have hbuilt : (s.client.input codec line rest).built = s.client.built ++ _ :=
          built_setPacket ..
        exact ⟨hbuilt ▸ List.prefix_append .., List.prefix_refl _⟩
    | clientSend hpoint => exact ⟨List.prefix_refl _, List.prefix_refl _⟩
    | clientRecv chunk more hpoint hchannel hne hsize =>
        refine ⟨?_, List.prefix_refl _⟩
        show s.client.built <+: (s.client.recv chunk).built
        unfold EcoClient.recv
        split <;> exact List.prefix_refl _
    | clientTake hpoint =>
        refine ⟨?_, List.prefix_refl _⟩
        show s.client.built <+: (s.client.take codec).built
        unfold EcoClient.take
        split
        · exact List.prefix_refl _
        · rw [built_setPacket]
          exact List.prefix_append ..
    | serverRecv chunk more hpoint hchannel hne hsize =>
        refine ⟨List.prefix_refl _, ?_⟩
        show s.server.built <+: (s.server.recv chunk).built
        unfold EchoServer.recv
        split
        · exact List.prefix_refl _
        · split <;> exact List.prefix_refl _
    | serverHandle hpoint =>
        refine ⟨List.prefix_refl _, ?_⟩
        show s.server.built <+: (s.server.handle codec).built
        exact built_handle ..
    | serverSend hpoint => exact ⟨List.prefix_refl _, List.prefix_refl _⟩
  intro packet hpacket
  refine hbounded packet ?_
  rcases List.mem_append.mp hpacket with hold | hold
  · exact List.mem_append_left _ (hgrows.1.subset hold)
  · exact List.mem_append_right _ (hgrows.2.subset hold)

/-- Every state reached by messages that fit is as `Inv` says. -/
theorem inv_of_reachable (hcodec : codec.Lawful) (h : (system codec m₀).Reachable s)
    (hbounded : Bounded s) : Inv codec m₀ s := by
  refine h.invariant (fun s => Bounded s → Inv codec m₀ s) (fun s hs _ => inv_of_start hs) ?_
    hbounded
  intro s s' ih hstep hnext
  have hinv := ih (Bounded.of_step hstep hnext)
  cases hstep with
  | clientInput line rest hpoint hline => exact inv_clientInput hcodec hinv hpoint hline hnext
  | clientSend hpoint => exact inv_clientSend hinv hpoint
  | clientRecv chunk more hpoint hchannel hne hsize => exact inv_clientRecv hinv hchannel hne
  | clientTake hpoint => exact inv_clientTake hcodec hinv hpoint
  | serverRecv chunk more hpoint hchannel hne hsize => exact inv_serverRecv hinv hchannel hne
  | serverHandle hpoint => exact inv_serverHandle hcodec hinv hpoint hnext
  | serverSend hpoint => exact inv_serverSend hinv hpoint

/-- In every run of the client and the server, whatever the order of their
steps and the cuts of the bytes, as long as the messages built fit a frame:
once the client has something to send there is exactly one Chat frame on its
way, nothing is refused, the client does not wait for bytes with a whole
packet in its buffer, and the replies it parses are the line with `,1`,
`,1,2`, ... behind it. -/
theorem one_frame_in_lockstep (hcodec : codec.Lawful) (h : (system codec m₀).Reachable s)
    (hbounded : ∀ packet ∈ s.client.built ++ s.server.built, packet.byteSize ≤ 65531) :
    (s.client.built ≠ [] → ∃ text,
        s.toServer = (codec.packet text).frame ∧ s.toClient = [] ∨
        s.toServer = [] ∧ s.toClient = (codec.packet text).frame) ∧
      s.client.refused = 0 ∧ s.server.refused = 0 ∧
      (s.client.point = .recv → s.client.recvBuffer.isAbleToGetPacket = false) ∧
      ∀ k text, s.client.parsed[k]? = some text → text = replyText m₀ (k + 1) := by
  obtain ⟨hsound, hphase⟩ := inv_of_reachable hcodec h hbounded
  refine ⟨?_, hsound.clientRefused, hsound.serverRefused, ?_, ?_⟩
  · intro hbuilt
    rcases hphase with hw | ⟨k, hreq | hrep⟩
    · exact absurd hw.built hbuilt
    · exact ⟨_, .inl ⟨hreq.up, hreq.down⟩⟩
    · exact ⟨_, .inr ⟨hrep.up, hrep.down⟩⟩
  · intro hpoint
    have hidle : ¬ packetHeader.Complete s.client.recvBuffer.unread := by
      rcases hphase with hw | ⟨k, hreq | hrep⟩
      · rw [(toClient_eq_nil.mp hw.down).1]
        exact packetHeader.not_complete_nil
      · rw [(toClient_eq_nil.mp hreq.down).1]
        exact packetHeader.not_complete_nil
      · rcases hrep.client with ⟨_, hpart⟩ | ⟨hturn, _⟩
        · exact hpart
        · rw [hturn] at hpoint; cases hpoint
    exact (isAbleToGetPacket_eq_false_iff _).mpr hidle
  · intro k text hk
    rcases hphase with hw | ⟨n, hreq | hrep⟩
    · rw [hw.parsed] at hk
      cases hk
    · rw [hreq.parsed] at hk
      exact eq_of_getElem?_replies hk
    · rw [hrep.parsed] at hk
      exact eq_of_getElem?_replies hk

/-- A client whose line is hi, and a new server. -/
def hiStart : Echo where
  client := .new [[104, 105]] (fun _ => 0) (fun _ => 0)
  server := .new (fun _ => 0) (fun _ => 0) openClient.clientSock
  upstream := []
  downstream := []

/-- The client is about to send the line. -/
def hiTyped : Echo := { hiStart with client := hiStart.client.input chatWire [104, 105] [] }

/-- The frame is in the channel. -/
def hiSent : Echo :=
  { hiTyped with
    client := hiTyped.client.send
    upstream := hiTyped.upstream ++ hiTyped.client.outgoing }

/-- The server has all of the frame. -/
def hiReceived : Echo :=
  { hiSent with server := hiSent.server.recv [8, 0, 0, 0, 10, 2, 104, 105], upstream := [] }

/-- The server is about to send the reply. -/
def hiHandled : Echo := { hiReceived with server := hiReceived.server.handle chatWire }

/-- The reply is in the channel. -/
def hiReplied : Echo :=
  { hiHandled with
    server := hiHandled.server.send
    downstream := hiHandled.downstream ++ hiHandled.server.outgoing }

/-- The client has the reply. -/
def hiHeard : Echo :=
  { hiReplied with
    client := hiReplied.client.recv [10, 0, 0, 0, 10, 4, 104, 105, 44, 49], downstream := [] }

/-- The client has taken the reply and is about to send it back. -/
def hiAnswered : Echo := { hiHeard with client := hiHeard.client.take chatWire }

theorem hiAnswered_reachable : (system chatWire [104, 105]).Reachable hiAnswered := by
  have hstart : (system chatWire [104, 105]).Reachable hiStart :=
    .init ⟨⟨[], _, _, rfl⟩, by decide, ⟨_, _, _, rfl⟩, rfl, rfl⟩
  have htyped : Step chatWire hiStart hiTyped := .clientInput hiStart [104, 105] [] rfl rfl
  have hsent : Step chatWire hiTyped hiSent := .clientSend hiTyped (by decide +kernel)
  have hreceived : Step chatWire hiSent hiReceived :=
    .serverRecv hiSent [8, 0, 0, 0, 10, 2, 104, 105] [] (by decide +kernel) (by decide +kernel)
      (by decide) (by decide)
  have hhandled : Step chatWire hiReceived hiHandled := .serverHandle hiReceived (by decide +kernel)
  have hreplied : Step chatWire hiHandled hiReplied := .serverSend hiHandled (by decide +kernel)
  have hheard : Step chatWire hiReplied hiHeard :=
    .clientRecv hiReplied [10, 0, 0, 0, 10, 4, 104, 105, 44, 49] [] (by decide +kernel)
      (by decide +kernel) (by decide) (by decide)
  have hanswered : Step chatWire hiHeard hiAnswered := .clientTake hiHeard (by decide +kernel)
  exact ((((((hstart.step htyped).step hsent).step hreceived).step hhandled).step hreplied).step
    hheard).step hanswered

theorem hi_answered_in_lockstep :
    hiAnswered.client.refused = 0 ∧ hiAnswered.server.refused = 0 ∧
      hiAnswered.client.parsed = [replyText [104, 105] 1] := by
  have h := one_frame_in_lockstep chatWire_lawful hiAnswered_reachable (by decide +kernel)
  obtain ⟨_, hclient, hserver, _, hreplies⟩ := h
  have hparsed : hiAnswered.client.parsed = [[104, 105, 44, 49]] := by decide +kernel
  have hreply := hreplies 0 [104, 105, 44, 49] (by rw [hparsed]; rfl)
  exact ⟨hclient, hserver, by rw [hparsed, hreply]⟩

end ServerStudy.Theorems.Lockstep
