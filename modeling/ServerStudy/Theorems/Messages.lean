import ServerStudy.Logic.Faults
import ServerStudy.Theorems.Lockstep

/-!
# Where all messages are

With failing calls the client and the server are out of step: the client goes
on with the next line while older messages are queued or under way, so any
number of them may be between the two. Still each direction is a pipe:
`Account` says which requests and replies there are and how far each has come.
Every step of either party, failed calls included, keeps it as long as no
buffer refuses anything.
-/

namespace ServerStudy.Theorems.Messages

open ServerStudy.Core PacketBuffer Echo
open Lockstep (Fits Sound Bounded built_setPacket)

variable {codec : ChatCodec} {faults : Fault → Prop} {lines : List Text} {s s' : Echo}

/-- The replies to the requests, with the count of each behind it. -/
def numbered (requests : List Text) : List Text :=
  requests.mapIdx fun i text => formatReply text (UInt64.ofNat (i + 1))

theorem numbered_concat (requests : List Text) (text : Text) :
    numbered requests <+: numbered (requests ++ [text]) := by
  rw [numbered, numbered, List.mapIdx_append]
  exact List.prefix_append ..

theorem getElem?_numbered {requests : List Text} {i : Nat} {text : Text}
    (h : requests[i]? = some text) :
    (numbered requests)[i]? = some (formatReply text (UInt64.ofNat (i + 1))) := by
  rw [numbered, List.getElem?_mapIdx, h]
  rfl

/-- A prefix may be lengthened by the element that follows it. -/
theorem prefix_concat {α : Type} {l whole : List α} {a : α} (h : l <+: whole)
    (ha : whole[l.length]? = some a) : l ++ [a] <+: whole := by
  obtain ⟨rest, rfl⟩ := h
  rw [List.getElem?_append_right (Nat.le_refl _), Nat.sub_self] at ha
  cases rest with
  | nil => cases ha
  | cons b rest =>
      cases ha
      exact ⟨rest, by simp⟩

/-- Where all messages are. The client has made `requests`, `cw` of which are
on the wire, and the server `replies`, one for each request it has handled,
with `sw` on the wire. -/
structure Account (codec : ChatCodec) (faults : Fault → Prop) (lines : List Text) (s : Echo)
    (requests replies : List Text) (cw sw : Nat) : Prop where
  sound : Sound s
  up : Pipe packetHeader codec.encode requests cw replies.length
    s.client.sendBuffer.unread s.upstream s.server.recvBuffer.unread
  down : Pipe packetHeader codec.encode replies sw s.client.parsed.length
    s.server.rest.sendBuffer.unread s.downstream s.client.recvBuffer.unread
  fits : ∀ text ∈ requests ++ replies, Fits codec text
  clientBuilt : s.client.built = requests.map codec.packet
  serverBuilt : s.server.built = replies.map codec.packet
  replied : replies <+: numbered requests
  count : s.server.rest.count = UInt64.ofNat replies.length
  parsed : s.client.parsed <+: replies
  typed : ∃ typed, lines = typed ++ s.client.stdin ∧
    Interleaving typed s.client.parsed requests
  atSend : s.client.point = .send → s.client.sendBuffer.unread ≠ []
  atTake : s.client.point = .take → packetHeader.Complete s.client.recvBuffer.unread
  serverAtSend : s.server.point = .send → s.server.rest.sendBuffer.unread ≠ []
  serverAtRecv : s.server.point = .recv → ¬ packetHeader.Complete s.server.recvBuffer.unread
  /-- A client that waits has a request or a reply under way. -/
  expects : s.client.point = .recv →
    replies.length < cw ∨ s.downstream ++ s.server.rest.sendBuffer.unread ≠ []
  /-- No reply is left queued if the server's `send` cannot fail. -/
  prompt : ¬ faults .serverSend →
    sw + (if s.server.point = .send then 1 else 0) = replies.length

/-! ## A buffer with a message at its head -/

section Head

variable {pb : PacketBuffer} {text : Text} {u : List Byte}

theorem read_head (hcodec : codec.Lawful) (hord : pb.Ordered) (hfits : Fits codec text)
    (hu : pb.unread = codec.encode text ++ u) :
    pb.getPacketNo = chatProtocolNumber ∧ codec.parseFromArray pb.payload = some text := by
  have hhead : pb.unread = (codec.frame text hfits.small).stream ++ u := hu
  rw [getPacketNo_of_head hord hhead, payload_of_head hhead]
  exact ⟨rfl, hcodec.parse_serialize text hfits.short⟩

theorem consume_head (hord : pb.Ordered) (hfits : Fits codec text)
    (hu : pb.unread = codec.encode text ++ u) : pb.consumePacket.unread = u :=
  unread_consume_of_head (f := codec.frame text hfits.small) hord hu

theorem isFrame_encode (hfits : Fits codec text) : packetHeader.IsFrame (codec.encode text) :=
  (codec.packet text).isFrame hfits.small

theorem outgoing_head (hfits : Fits codec text) (hu : pb.unread = codec.encode text ++ u) :
    pb.getPacketBuffer.slice 0 pb.getPacketSize.toNat = codec.encode text :=
  headBytes_of_frame (isFrame_encode hfits) hu

theorem encode_ne_nil (hfits : Fits codec text) : codec.encode text ≠ [] :=
  (isFrame_encode hfits).1

/-- A reply is a comma and at most twenty digits longer than its request. -/
theorem reply_fits (hcodec : codec.Lawful) {reply : Text} {count : UInt64}
    (hfits : Fits codec text) (hreply : formatReply text count = reply)
    (hsmall : (codec.packet reply).byteSize ≤ 65531) : Fits codec reply := by
  refine ⟨?_, hsmall⟩
  have hlen := hcodec.length_le hfits.short hfits.small
  have hdigits := length_decimal_le count.toNat_lt
  rw [← hreply, formatReply, List.length_append, List.length_cons]
  omega

end Head

/-! ## The steps of the client -/

section Client

variable {requests replies : List Text} {cw sw : Nat}

/-- A new client and a new server have no messages. -/
theorem account_start (h : Connected lines s) : Account codec faults lines s [] [] 0 0 := by
  obtain ⟨⟨sendPast, recvPast, hclient⟩, _, ⟨recvPast', sendPast', sock, hserver⟩, hup, hdown⟩ := h
  have hidle : ¬ packetHeader.Complete (PacketBuffer.new recvPast').unread := by
    rw [unread_new]
    exact packetHeader.not_complete_nil
  have hempty : ∀ past past', Pipe packetHeader codec.encode [] 0 0 (PacketBuffer.new past).unread
      [] (PacketBuffer.new past').unread := by
    intro past past'
    rw [unread_new, unread_new]
    exact Pipe.empty packetHeader codec.encode
  obtain ⟨client, server, upstream, downstream⟩ := s
  cases hclient
  cases hserver
  cases hup
  cases hdown
  refine ⟨⟨new_ordered _, new_ordered _, new_ordered _, new_ordered _, rfl, rfl⟩, ?_, ?_, ?_, rfl,
    rfl, List.nil_prefix, rfl, List.nil_prefix, ⟨[], rfl, .nil⟩, ?_, ?_, ?_, ?_, ?_, ?_⟩
  · exact hempty sendPast recvPast'
  · exact hempty sendPast' recvPast
  · intro text htext
    cases htext
  · intro hpoint
    cases hpoint
  · intro hpoint
    cases hpoint
  · intro hpoint
    cases hpoint
  · exact fun _ => hidle
  · intro hpoint
    cases hpoint
  · exact fun _ => rfl

/-- A message the client has room for is its next request. -/
theorem queued_setPacket {c : EcoClient} {text : Text} (hord : c.sendBuffer.Ordered)
    (hpos : 0 < (codec.packet text).byteSize) (hsmall : (codec.packet text).byteSize ≤ 65531)
    (hroom : (c.setPacket codec text).refused = 0) {wire buffer : List Byte} {taken : Nat}
    (hup : Pipe packetHeader codec.encode requests cw taken c.sendBuffer.unread wire buffer) :
    ∃ sb : PacketBuffer, sb.Ordered ∧ sb.unread ≠ [] ∧
      Pipe packetHeader codec.encode (requests ++ [text]) cw taken sb.unread wire buffer ∧
      c.setPacket codec text =
        { c with
          point := .send
          sendBuffer := sb
          built := c.built ++ [codec.packet text] } := by
  have hframe : packetHeader.IsFrame (codec.encode text) := (codec.packet text).isFrame hsmall
  rcases EcoClient.setPacket_cases hord hpos hsmall with ⟨_, sb, hsb, hunread, heq⟩ | ⟨_, hrefused⟩
  · refine ⟨sb, hsb, ?_, ?_, heq⟩
    · rw [hunread]
      exact List.append_ne_nil_of_right_ne_nil _ hframe.1
    · rw [hunread]
      exact hup.put hframe
  · rw [hrefused] at hroom
    cases hroom

/-- The line becomes a request. -/
theorem account_clientInput (hcodec : codec.Lawful)
    (h : Account codec faults lines s requests replies cw sw)
    (hshort : ∀ line ∈ lines, line.length < 65535) {line : Text} {rest : List Text}
    (hline : s.client.stdin = line :: rest)
    (hbounded : Bounded { s with client := s.client.input codec line rest })
    (hroom : (s.client.input codec line rest).refused = 0) :
    Account codec faults lines { s with client := s.client.input codec line rest }
      (requests ++ [line]) replies cw sw := by
  obtain ⟨typed, htyped, hmerge⟩ := h.typed
  have hbuilt : (s.client.input codec line rest).built = s.client.built ++ [codec.packet line] :=
    built_setPacket ..
  have hfits : Fits codec line := by
    have hmem : line ∈ lines := by
      rw [htyped, hline]
      exact List.mem_append_right _ List.mem_cons_self
    refine ⟨Nat.lt_trans (hshort line hmem) (by decide),
      hbounded _ (List.mem_append_left _ ?_)⟩
    show codec.packet line ∈ (s.client.input codec line rest).built
    rw [hbuilt]
    exact List.mem_append_right _ List.mem_cons_self
  obtain ⟨sb, hsb, hne, hup, hset⟩ :=
    queued_setPacket (c := { s.client with stdin := rest }) h.sound.clientSend
      (hcodec.byteSize_pos hfits.short) hfits.small hroom h.up
  have hnew : s.client.input codec line rest = _ := hset
  rw [hnew]
  refine { h with
    sound := ⟨hsb, h.sound.clientRecv, h.sound.serverRecv, h.sound.serverSend,
      h.sound.clientRefused, h.sound.serverRefused⟩
    up := hup
    fits := ?_
    clientBuilt := ?_
    replied := h.replied.trans (numbered_concat ..)
    typed := ⟨typed ++ [line], ?_, .left line hmerge⟩
    atSend := fun _ => hne
    atTake := fun hpoint => by cases hpoint
    expects := fun hpoint => by cases hpoint }
  · intro text htext
    simp only [List.append_assoc, List.mem_append, List.mem_singleton] at htext
    rcases htext with hold | rfl | hold
    · exact h.fits text (List.mem_append_left _ hold)
    · exact hfits
    · exact h.fits text (List.mem_append_right _ hold)
  · show s.client.built ++ [codec.packet line] = _
    rw [h.clientBuilt, List.map_append, List.map_singleton]
  · rw [htyped, hline, List.append_assoc]
    rfl

/-- The oldest request that is not on the wire goes there. -/
theorem account_clientSend (h : Account codec faults lines s requests replies cw sw)
    (hpoint : s.client.point = .send) :
    Account codec faults lines
      { s with client := s.client.send, upstream := s.upstream ++ s.client.outgoing }
      requests replies (cw + 1) sw := by
  obtain ⟨text, u, htext, hu, hup⟩ := h.up.transmit (h.up.wired_lt (h.atSend hpoint))
  have hfits := h.fits text (List.mem_append_left _ (List.mem_of_getElem? htext))
  have hout : s.client.outgoing = codec.encode text := outgoing_head hfits hu
  have hrest : s.client.sendBuffer.consumePacket.unread = u :=
    consume_head h.sound.clientSend hfits hu
  exact { h with
    sound := ⟨consumePacket_ordered h.sound.clientSend, h.sound.clientRecv, h.sound.serverRecv,
      h.sound.serverSend, h.sound.clientRefused, h.sound.serverRefused⟩
    up := by
      show Pipe packetHeader codec.encode requests (cw + 1) replies.length
        s.client.sendBuffer.consumePacket.unread (s.upstream ++ s.client.outgoing)
        s.server.recvBuffer.unread
      rw [hrest, hout]
      exact hup
    atSend := fun hpoint => by cases hpoint
    atTake := fun hpoint => by cases hpoint
    expects := fun _ => .inl (Nat.lt_succ_of_le h.up.taken_le) }

/-- A chunk reaches the client. -/
theorem account_clientRecv (h : Account codec faults lines s requests replies cw sw)
    {chunk more : List Byte} (hpoint : s.client.point = .recv)
    (hchannel : s.downstream = chunk ++ more) (hne : chunk ≠ [])
    (hsize : chunk.length ≤ maxBufSize) (hroom : (s.client.recv chunk).refused = 0) :
    Account codec faults lines { s with client := s.client.recv chunk, downstream := more }
      requests replies cw sw := by
  rcases EcoClient.recv_cases h.sound.clientRecv hne hsize with
    ⟨_, rb, hrb, hunread, heq⟩ | ⟨_, hrefused⟩
  · have hdown : Pipe packetHeader codec.encode replies sw s.client.parsed.length
        s.server.rest.sendBuffer.unread more rb.unread := by
      have hpipe := h.down
      rw [hchannel] at hpipe
      rw [hunread]
      exact hpipe.arrive
    rw [heq]
    by_cases hable : packetHeader.Complete rb.unread
    · have htake : rb.isAbleToGetPacket ≠ false := by
        rw [Ne, isAbleToGetPacket_eq_false_iff]
        exact not_not.mpr hable
      rw [if_neg htake]
      exact { h with
        sound := ⟨h.sound.clientSend, hrb, h.sound.serverRecv, h.sound.serverSend,
          h.sound.clientRefused, h.sound.serverRefused⟩
        down := hdown
        atSend := fun hpoint => by cases hpoint
        atTake := fun _ => hable
        expects := fun hpoint => by cases hpoint }
    · rw [if_pos ((isAbleToGetPacket_eq_false_iff rb).mpr hable)]
      refine { h with
        sound := ⟨h.sound.clientSend, hrb, h.sound.serverRecv, h.sound.serverSend,
          h.sound.clientRefused, h.sound.serverRefused⟩
        down := hdown
        atSend := fun hpoint => by cases hpoint
        atTake := fun hpoint => by cases hpoint
        expects := fun _ => ?_ }
      rcases h.expects hpoint with hold | _
      · exact .inl hold
      · -- if no more bytes are to come the buffer holds whole frames, and not one is
        refine .inr fun hnone => ?_
        have hmore : more = [] := (List.append_eq_nil_iff.mp hnone).1
        rw [hmore] at hdown
        have hempty := (hdown.settled hable).2
        rw [hunread] at hempty
        exact hne (List.append_eq_nil_iff.mp hempty).2
  · rw [hrefused, h.sound.clientRefused] at hroom
    cases hroom

/-- The next reply is taken, and its text is a request. -/
theorem account_clientTake (hcodec : codec.Lawful)
    (h : Account codec faults lines s requests replies cw sw)
    (hpoint : s.client.point = .take) (hroom : (s.client.take codec).refused = 0) :
    ∃ text, Account codec faults lines { s with client := s.client.take codec }
      (requests ++ [text]) replies cw sw := by
  obtain ⟨text, u, htext, hlt, hu, hdown⟩ := h.down.take (h.atTake hpoint)
  obtain ⟨typed, htyped, hmerge⟩ := h.typed
  have hfits := h.fits text (List.mem_append_right _ (List.mem_of_getElem? htext))
  obtain ⟨_, hparse⟩ := read_head hcodec h.sound.clientRecv hfits hu
  have htake : s.client.take codec =
      EcoClient.setPacket codec
        { s.client with
          recvBuffer := s.client.recvBuffer.consumePacket
          parsed := s.client.parsed ++ [text] }
        text := by
    rw [EcoClient.take, hparse]
  rw [htake] at hroom
  obtain ⟨sb, hsb, hne, hup, hset⟩ :=
    queued_setPacket (c := { s.client with
      recvBuffer := s.client.recvBuffer.consumePacket
      parsed := s.client.parsed ++ [text] }) h.sound.clientSend
      (hcodec.byteSize_pos hfits.short) hfits.small hroom h.up
  have hrest : s.client.recvBuffer.consumePacket.unread = u :=
    consume_head h.sound.clientRecv hfits hu
  refine ⟨text, ?_⟩
  rw [htake, hset]
  refine { h with
    sound := ⟨hsb, consumePacket_ordered h.sound.clientRecv, h.sound.serverRecv,
      h.sound.serverSend, h.sound.clientRefused, h.sound.serverRefused⟩
    up := hup
    down := ?_
    fits := ?_
    clientBuilt := ?_
    replied := h.replied.trans (numbered_concat ..)
    parsed := prefix_concat h.parsed htext
    typed := ⟨typed, htyped, .right text hmerge⟩
    atSend := fun _ => hne
    atTake := fun hpoint => by cases hpoint
    expects := fun hpoint => by cases hpoint }
  · show Pipe packetHeader codec.encode replies sw (s.client.parsed ++ [text]).length
      s.server.rest.sendBuffer.unread s.downstream s.client.recvBuffer.consumePacket.unread
    rw [List.length_append, List.length_singleton, hrest]
    exact hdown
  · intro text' htext'
    simp only [List.append_assoc, List.mem_append, List.mem_singleton] at htext'
    rcases htext' with hold | rfl | hold
    · exact h.fits text' (List.mem_append_left _ hold)
    · exact hfits
    · exact h.fits text' (List.mem_append_right _ hold)
  · show s.client.built ++ [codec.packet text] = _
    rw [h.clientBuilt, List.map_append, List.map_singleton]

/-- A client whose call fails only goes back to `fgets`. -/
theorem account_clientFails (h : Account codec faults lines s requests replies cw sw) :
    Account codec faults lines { s with client := { s.client with point := .input } }
      requests replies cw sw :=
  { h with
    sound := ⟨h.sound.clientSend, h.sound.clientRecv, h.sound.serverRecv, h.sound.serverSend,
      h.sound.clientRefused, h.sound.serverRefused⟩
    atSend := fun hpoint => by cases hpoint
    atTake := fun hpoint => by cases hpoint
    expects := fun hpoint => by cases hpoint }

end Client

/-! ## The steps of the server -/

section Server

variable {requests replies : List Text} {cw sw : Nat}

/-- A chunk reaches the server. -/
theorem account_serverRecv (h : Account codec faults lines s requests replies cw sw)
    {chunk more : List Byte} (hpoint : s.server.point = .recv)
    (hchannel : s.upstream = chunk ++ more) (hne : chunk ≠ [])
    (hroom : (s.server.recv chunk).refused = 0) :
    Account codec faults lines { s with server := s.server.recv chunk, upstream := more }
      requests replies cw sw := by
  rcases EchoServer.recv_cases h.sound.serverRecv hne with
    ⟨_, rb, hrb, hunread, heq⟩ | ⟨_, hrefused⟩
  · rw [heq]
    refine { h with
      sound := ⟨h.sound.clientSend, h.sound.clientRecv, hrb, h.sound.serverSend,
        h.sound.clientRefused, h.sound.serverRefused⟩
      up := ?_
      serverAtSend := fun hpoint => by cases hpoint
      serverAtRecv := fun hpoint => by cases hpoint
      prompt := ?_ }
    · have hpipe := h.up
      rw [hchannel] at hpipe
      show Pipe packetHeader codec.encode requests cw replies.length s.client.sendBuffer.unread
        more rb.unread
      rw [hunread]
      exact hpipe.arrive
    · intro hnever
      have hprompt := h.prompt hnever
      rw [hpoint] at hprompt
      exact hprompt
  · rw [hrefused, h.sound.serverRefused] at hroom
    cases hroom

/-- The counter is the number of the reply. -/
theorem count_succ (h : Account codec faults lines s requests replies cw sw) :
    s.server.rest.count + 1 = UInt64.ofNat (replies.length + 1) := by
  rw [h.count]
  exact (UInt64.ofNat_add ..).symm

/-- The next request is answered. -/
theorem account_serverReply (hcodec : codec.Lawful)
    (h : Account codec faults lines s requests replies cw sw)
    (hpoint : s.server.point = .handle)
    (hable : packetHeader.Complete s.server.recvBuffer.unread)
    (hbounded : Bounded { s with server := s.server.handle codec })
    (hroom : (s.server.handle codec).refused = 0) :
    ∃ reply, Account codec faults lines { s with server := s.server.handle codec }
      requests (replies ++ [reply]) cw sw := by
  obtain ⟨text, u, htext, hlt, hu, hup⟩ := h.up.take hable
  have hfits := h.fits text (List.mem_append_left _ (List.mem_of_getElem? htext))
  have hyes := (isAbleToGetPacket_iff _).mpr hable
  obtain ⟨hno, hparse⟩ := read_head hcodec h.sound.serverRecv hfits hu
  have hcount := count_succ h
  obtain ⟨reply, hreply⟩ : ∃ reply, formatReply text (s.server.rest.count + 1) = reply := ⟨_, rfl⟩
  have hbuilt := EchoServer.built_of_parsed hyes hno hparse
  rw [hreply] at hbuilt
  have hfits' : Fits codec reply := by
    refine reply_fits hcodec hfits hreply (hbounded _ (List.mem_append_right _ ?_))
    show codec.packet reply ∈ (s.server.handle codec).built
    rw [hbuilt]
    exact List.mem_append_right _ List.mem_cons_self
  rcases EchoServer.handle_cases h.sound.serverSend hyes hno hparse hreply
    (hcodec.byteSize_pos hfits'.short) hfits'.small with
    ⟨_, sb, hsb, hunread, heq⟩ | ⟨_, hrefused⟩
  · have hrest : s.server.recvBuffer.consumePacket.unread = u :=
      consume_head h.sound.serverRecv hfits hu
    have hqueued : sb.unread ≠ [] := by
      rw [hunread]
      exact List.append_ne_nil_of_right_ne_nil _ (encode_ne_nil hfits')
    refine ⟨reply, ?_⟩
    rw [heq]
    refine { h with
      sound := ⟨h.sound.clientSend, h.sound.clientRecv, consumePacket_ordered h.sound.serverRecv,
        hsb, h.sound.clientRefused, h.sound.serverRefused⟩
      up := ?_
      down := ?_
      fits := ?_
      serverBuilt := ?_
      replied := ?_
      count := ?_
      parsed := h.parsed.trans (List.prefix_append ..)
      serverAtSend := fun _ => hqueued
      serverAtRecv := fun hpoint => by cases hpoint
      expects := fun _ => .inr (List.append_ne_nil_of_right_ne_nil _ hqueued)
      prompt := ?_ }
    · show Pipe packetHeader codec.encode requests cw (replies ++ [reply]).length
        s.client.sendBuffer.unread s.upstream s.server.recvBuffer.consumePacket.unread
      rw [List.length_append, List.length_singleton, hrest]
      exact hup
    · show Pipe packetHeader codec.encode (replies ++ [reply]) sw s.client.parsed.length sb.unread
        s.downstream s.client.recvBuffer.unread
      rw [hunread]
      exact h.down.put (isFrame_encode hfits')
    · intro text' htext'
      rw [← List.append_assoc] at htext'
      rcases List.mem_append.mp htext' with hold | hnew
      · exact h.fits text' hold
      · rw [List.mem_singleton.mp hnew]
        exact hfits'
    · show s.server.built ++ [codec.packet reply] = _
      rw [h.serverBuilt, List.map_append, List.map_singleton]
    · refine prefix_concat h.replied ?_
      rw [getElem?_numbered htext, ← hcount, hreply]
    · show s.server.rest.count + 1 = UInt64.ofNat (replies ++ [reply]).length
      rw [hcount, List.length_append, List.length_singleton]
    · intro hnever
      have hprompt := h.prompt hnever
      rw [hpoint] at hprompt
      show sw + 1 = (replies ++ [reply]).length
      rw [List.length_append, List.length_singleton, ← hprompt]
      rfl
  · rw [hrefused, h.sound.serverRefused] at hroom
    cases hroom

/-- Without a whole request the server goes on to `recv`. -/
theorem account_serverIdle (h : Account codec faults lines s requests replies cw sw)
    (hpoint : s.server.point = .handle)
    (hidle : ¬ packetHeader.Complete s.server.recvBuffer.unread) :
    Account codec faults lines { s with server := s.server.handle codec }
      requests replies cw sw := by
  rw [handle_of_not_able hidle]
  exact { h with
    sound := ⟨h.sound.clientSend, h.sound.clientRecv, h.sound.serverRecv, h.sound.serverSend,
      h.sound.clientRefused, h.sound.serverRefused⟩
    serverAtSend := fun hpoint => by cases hpoint
    serverAtRecv := fun _ => hidle
    prompt := fun hnever => by
      have hprompt := h.prompt hnever
      rw [hpoint] at hprompt
      exact hprompt }

/-- The oldest reply that is not on the wire goes there. -/
theorem account_serverSend (h : Account codec faults lines s requests replies cw sw)
    (hpoint : s.server.point = .send) :
    Account codec faults lines
      { s with server := s.server.send, downstream := s.downstream ++ s.server.outgoing }
      requests replies cw (sw + 1) := by
  obtain ⟨text, u, htext, hu, hdown⟩ := h.down.transmit (h.down.wired_lt (h.serverAtSend hpoint))
  have hfits := h.fits text (List.mem_append_right _ (List.mem_of_getElem? htext))
  have hout : s.server.outgoing = codec.encode text := outgoing_head hfits hu
  have hrest : s.server.rest.sendBuffer.consumePacket.unread = u :=
    consume_head h.sound.serverSend hfits hu
  refine { h with
    sound := ⟨h.sound.clientSend, h.sound.clientRecv, h.sound.serverRecv,
      consumePacket_ordered h.sound.serverSend, h.sound.clientRefused, h.sound.serverRefused⟩
    down := ?_
    serverAtSend := fun hpoint => by cases hpoint
    serverAtRecv := fun hpoint => by cases hpoint
    expects := fun _ => .inr ?_
    prompt := ?_ }
  · show Pipe packetHeader codec.encode replies (sw + 1) s.client.parsed.length
      s.server.rest.sendBuffer.consumePacket.unread (s.downstream ++ s.server.outgoing)
      s.client.recvBuffer.unread
    rw [hrest, hout]
    exact hdown
  · refine List.append_ne_nil_of_left_ne_nil (List.append_ne_nil_of_right_ne_nil _ ?_) _
    rw [hout]
    exact encode_ne_nil hfits
  · intro hnever
    have hprompt := h.prompt hnever
    rw [hpoint] at hprompt
    exact hprompt

/-- A reply that cannot be sent stays queued. -/
theorem account_serverFails (h : Account codec faults lines s requests replies cw sw)
    (hfault : faults .serverSend) :
    Account codec faults lines { s with server := s.server.sendFailed } requests replies cw sw :=
  { h with
    sound := ⟨h.sound.clientSend, h.sound.clientRecv, h.sound.serverRecv, h.sound.serverSend,
      h.sound.clientRefused, h.sound.serverRefused⟩
    serverAtSend := fun hpoint => by cases hpoint
    serverAtRecv := fun hpoint => by cases hpoint
    prompt := fun hnever => absurd hfault hnever }

end Server

end ServerStudy.Theorems.Messages
