import Mathlib.Logic.Relation
import ServerStudy.Logic.Echo

/-!
# The steps of the server and `OnRecv`

The system cuts `OnRecv` at its calls of `send`, so that the client may run in
between. If it does not, and the socket takes all it is given, the server's
steps from one `recv` to the next do what one call of `OnRecv` does
(`onRecv_steps`): the same buffers and counter, the same bytes sent.

The word behind the table is taken to be null, as the loop of the system does
not look the number 65535 up.
-/

namespace ServerStudy

open ServerStudy.Core PacketBuffer Echo

/-- Every call of `send` transmits all it is given. -/
def Socket.TakesAll (sock : Socket) : Prop := ∀ i size, sock.outcome i size = .sent size

/-- A session and a server that hold the same buffers and the same counter. -/
structure Mirrors (s : ClientSession) (v : EchoServer) : Prop where
  recvBuffer : s.recvBuffer = v.recvBuffer
  sendBuffer : s.rest.sendBuffer = v.rest.sendBuffer
  count : s.rest.count = v.rest.count

/-- What leads from the session `s` to `s'`, the server does in the system by
steps from `e` to `e'`. -/
structure Shadows (codec : ChatCodec) (s s' : ClientSession) (e e' : Echo) : Prop where
  steps : Relation.ReflTransGen (Step codec) e e'
  mirrors : Mirrors s' e'.server
  takesAll : s'.rest.clientSock.TakesAll
  ordered : s'.recvBuffer.Ordered
  client : e'.client = e.client
  upstream : e'.upstream = e.upstream
  sent : ∃ out, e'.downstream = e.downstream ++ out ∧
    s'.rest.clientSock.transmitted = s.rest.clientSock.transmitted ++ out

section Steps

variable {codec : ChatCodec} {s s' s'' : ClientSession} {e e' e'' : Echo}

theorem Shadows.trans (h : Shadows codec s s' e e') (h' : Shadows codec s' s'' e' e'') :
    Shadows codec s s'' e e'' := by
  obtain ⟨out, hdown, hbytes⟩ := h.sent
  obtain ⟨more, hdown', hbytes'⟩ := h'.sent
  refine ⟨h.steps.trans h'.steps, h'.mirrors, h'.takesAll, h'.ordered, h'.client.trans h.client,
    h'.upstream.trans h.upstream, out ++ more, ?_, ?_⟩
  · rw [hdown', hdown, List.append_assoc]
  · rw [hbytes', hbytes, List.append_assoc]

/-- `SendPacket` after the handler, and the two steps of the server. -/
theorem reply_shadows (h : Mirrors s e.server) (hall : s.rest.clientSock.TakesAll)
    (hord : s.recvBuffer.Ordered) (hpoint : e.server.point = .handle)
    (hable : e.server.recvBuffer.isAbleToGetPacket = true)
    (hno : e.server.recvBuffer.getPacketNo = chatProtocolNumber) {message : Text}
    (hparse : codec.parseFromArray e.server.recvBuffer.payload = some message) :
    ∃ e', Shadows codec s (s.dispatch (chatFunctor codec) message) e e' ∧
      e'.server.point = .handle := by
  obtain ⟨hrecv, hsend, hcount⟩ := h
  have hreply : (chatReply codec e.server.rest message).2 = (chatReply codec s.rest message).2 := by
    simp only [chatReply, hcount]
  have hset : (chatReply codec s.rest message).1.sendBuffer = e.server.rest.sendBuffer := hsend
  have hbuffer : (s.dispatch (chatFunctor codec) message).recvBuffer =
      e.server.recvBuffer.consumePacket := by
    rw [SessionBase.dispatch_recvBuffer, hrecv]
  have hrest : (s.dispatch (chatFunctor codec) message).rest =
      ((chatReply codec s.rest message).1.sendPacket (chatReply codec s.rest message).2).2 := rfl
  have hpass := handle_of_parsed hable hno hparse
  have hstep : Step codec e { e with server := e.server.handle codec } := .serverHandle e hpoint
  rw [ClientState.sendPacket, hset, ← hreply] at hrest
  rcases hpair : e.server.rest.sendBuffer.setPacket (chatReply codec e.server.rest message).2
    with ⟨ok, sb⟩
  rw [hpair] at hrest hpass
  cases ok with
  | false =>
      rw [if_neg Bool.false_ne_true] at hpass
      refine ⟨_, ⟨.single hstep, ⟨?_, ?_, ?_⟩, ?_, consumePacket_ordered hord, rfl, rfl, [], ?_,
        ?_⟩, ?_⟩
      · rw [hbuffer, hpass]
      · rw [hrest, hpass]
      · rw [hrest, hpass]
        exact congrArg (· + 1) hcount
      · rw [hrest]
        exact hall
      · exact (List.append_nil _).symm
      · rw [hrest]
        exact (List.append_nil _).symm
      · rw [hpass]
  | true =>
      rw [if_pos rfl] at hpass
      -- the socket takes all of the head packet
      obtain ⟨t, ht⟩ : ∃ t : ClientState,
          t = { (chatReply codec s.rest message).1 with sendBuffer := sb } := ⟨_, rfl⟩
      have htsock : t.clientSock = s.rest.clientSock := by rw [ht]; rfl
      have hlast : (s.dispatch (chatFunctor codec) message).rest =
          { t.sending (.sent t.headBytes.length) with
            sendBuffer := t.sendBuffer.consumePacket } := by
        have htakes : ∀ i size, t.clientSock.outcome i size = .sent size := by
          rw [htsock]
          exact hall
        have hhead : (s.dispatch (chatFunctor codec) message).rest = t.sendHead.2 := by
          rw [hrest, ht]
        rw [hhead, t.sendHead_of_takes_all htakes]
      have hsent : Step codec { e with server := e.server.handle codec }
          { e with
            server := (e.server.handle codec).send
            downstream := e.downstream ++ (e.server.handle codec).outgoing } :=
        .serverSend { e with server := e.server.handle codec } (by rw [hpass])
      have hout : (e.server.handle codec).outgoing = t.headBytes := by
        rw [hpass, ht]
        rfl
      have hbytes := t.sending_transmitted (.sent t.headBytes.length)
      rw [Socket.taken, List.take_length, htsock] at hbytes
      refine ⟨_, ⟨.tail (.single hstep) hsent, ⟨?_, ?_, ?_⟩, ?_, consumePacket_ordered hord, rfl,
        rfl, t.headBytes, ?_, ?_⟩, rfl⟩
      · rw [hbuffer, hpass]
        rfl
      · rw [hlast, hpass, ht]
        rfl
      · rw [hlast, hpass, ht]
        exact congrArg (· + 1) hcount
      · rw [hlast]
        show ∀ i size, t.clientSock.outcome i size = .sent size
        rw [htsock]
        exact hall
      · exact congrArg (e.downstream ++ ·) hout
      · rw [hlast]
        exact hbytes

/-- A session that is rejected or idle, and a server that goes on to `recv`. -/
theorem idle_shadows (h : Mirrors s e.server) (hall : s.rest.clientSock.TakesAll)
    (hord : s.recvBuffer.Ordered) (hpoint : e.server.point = .handle)
    (hidle : e.server.handle codec = { e.server with point := .recv }) :
    ∃ e', Shadows codec s s e e' ∧ e'.server.point = .recv := by
  have hstep : Step codec e { e with server := e.server.handle codec } := .serverHandle e hpoint
  rw [hidle] at hstep
  exact ⟨_, ⟨.single hstep, ⟨h.recvBuffer, h.sendBuffer, h.count⟩, hall, hord, rfl, rfl, [],
    (List.append_nil _).symm, (List.append_nil _).symm⟩, rfl⟩

variable (codec) in
/-- The loop, and the steps of the server until it is before `recv` again. -/
theorem drain_shadows (fuel : Nat) (h : Mirrors s e.server) (hall : s.rest.clientSock.TakesAll)
    (hord : s.recvBuffer.Ordered) (hpoint : e.server.point = .handle)
    (hfuel : s.recvBuffer.unread.length < fuel) :
    ∃ e', Shadows codec s (SessionBase.drain (clientManager codec none) fuel s) e e' ∧
      e'.server.point = .recv := by
  induction fuel generalizing s e with
  | zero => exact absurd hfuel (Nat.not_lt_zero _)
  | succ fuel ih =>
      by_cases hable : packetHeader.Complete s.recvBuffer.unread
      · have hyes : e.server.recvBuffer.isAbleToGetPacket = true := by
          rw [← h.recvBuffer, isAbleToGetPacket_iff]
          exact hable
        have hhead : (_ ∧ (clientManager codec none).decode s.recvBuffer = none) ∨ _ :=
          clientManager_cases (.inr rfl)
        rcases hhead with ⟨hreject, hdecode⟩ | ⟨message, hno, hparse, hdecode⟩
        · -- rejected: the packet stays, in the server as in the session
          rw [h.recvBuffer] at hreject
          rw [SessionBase.drain_of_rejected _ hable hdecode]
          obtain ⟨e', hsh, hpt⟩ := idle_shadows h hall hord hpoint
            (handle_of_rejected hyes hreject)
          have hsame : Mirrors s.enter e'.server :=
            ⟨hsh.mirrors.recvBuffer, hsh.mirrors.sendBuffer, hsh.mirrors.count⟩
          exact ⟨e', ⟨hsh.steps, hsame, hall, hord, hsh.client, hsh.upstream, hsh.sent⟩, hpt⟩
        · rw [h.recvBuffer] at hno hparse
          have hshorter := SessionBase.consume_shorter hord hable
          obtain ⟨e₁, hsh, hpt⟩ := reply_shadows h hall hord hpoint hyes hno hparse
          rw [SessionBase.drain_of_decoded _ hable hdecode, if_pos (chatFunctor_fst ..)]
          obtain ⟨e', hrest, hend⟩ := ih hsh.mirrors hsh.takesAll hsh.ordered hpt (by
            rw [SessionBase.dispatch_recvBuffer]
            omega)
          exact ⟨e', hsh.trans hrest, hend⟩
      · have hidle : ¬ packetHeader.Complete e.server.recvBuffer.unread := by
          rw [← h.recvBuffer]
          exact hable
        rw [SessionBase.drain_of_not_able _ hable]
        exact idle_shadows h hall hord hpoint (handle_of_not_able hidle)

/-- One call of `OnRecv` is a run of the server's steps from one `recv` to the
next, in which nobody else moves. -/
theorem onRecv_steps (h : Mirrors s e.server) (hall : s.rest.clientSock.TakesAll)
    (hord : s.recvBuffer.Ordered) (hpoint : e.server.point = .recv) {chunk more : List Byte}
    (hchannel : e.upstream = chunk ++ more) (hne : chunk ≠ [])
    (hsize : chunk.length ≤ maxBufSize + 1) :
    ∃ e', Relation.ReflTransGen (Step codec) e e' ∧ e'.server.point = .recv ∧
      e'.client = e.client ∧ e'.upstream = more ∧
      Mirrors (s.onRecv (clientManager codec none) (some (Mem.ofList 0 chunk)) chunk.length)
        e'.server ∧
      ∃ out, e'.downstream = e.downstream ++ out ∧
        (s.onRecv (clientManager codec none) (some (Mem.ofList 0 chunk))
          chunk.length).rest.clientSock.transmitted =
          s.rest.clientSock.transmitted ++ out := by
  have hstep : Step codec e { e with server := e.server.recv chunk, upstream := more } :=
    .serverRecv e chunk more hpoint hchannel hne hsize
  by_cases hbig : chunk.length > maxBufSize
  · -- too long: dropped by both
    have hrecv : e.server.recv chunk = { e.server with refused := e.server.refused + 1 } := by
      rw [EchoServer.recv, if_pos hbig]
    have hcall : s.onRecv (clientManager codec none) (some (Mem.ofList 0 chunk)) chunk.length =
        s := by
      simp only [SessionBase.onRecv, if_pos hbig]
    rw [hrecv] at hstep
    rw [hcall]
    exact ⟨_, .single hstep, hpoint, rfl, rfl, ⟨h.recvBuffer, h.sendBuffer, h.count⟩, [],
      (List.append_nil _).symm, (List.append_nil _).symm⟩
  · have hnext : (s.recvBuffer.appendBuffer (some (Mem.ofList 0 chunk))
        (UInt16.ofNat chunk.length)).2.Ordered := appendBuffer_ordered hord
    rcases happend : s.recvBuffer.appendBuffer (some (Mem.ofList 0 chunk))
      (UInt16.ofNat chunk.length) with ⟨ok, rb⟩
    rw [happend] at hnext
    cases ok with
    | false =>
        have hcall : s.onRecv (clientManager codec none) (some (Mem.ofList 0 chunk)) chunk.length =
            { s with recvBuffer := rb } := by
          simp only [SessionBase.onRecv, if_neg hbig, happend]
        have hrecv : e.server.recv chunk =
            { e.server with recvBuffer := rb, refused := e.server.refused + 1 } := by
          rw [EchoServer.recv, if_neg hbig, ← h.recvBuffer, happend]
        rw [hrecv] at hstep
        rw [hcall]
        exact ⟨_, .single hstep, hpoint, rfl, rfl, ⟨rfl, h.sendBuffer, h.count⟩, [],
          (List.append_nil _).symm, (List.append_nil _).symm⟩
    | true =>
        have hcall : s.onRecv (clientManager codec none) (some (Mem.ofList 0 chunk)) chunk.length =
            SessionBase.loop (clientManager codec none)
              (s.received rb ((Mem.ofList 0 chunk).slice 0 chunk.length)) := by
          simp only [SessionBase.onRecv, if_neg hbig, happend]
          rfl
        have hrecv : e.server.recv chunk =
            { e.server with point := .handle, recvBuffer := rb } := by
          rw [EchoServer.recv, if_neg hbig, ← h.recvBuffer, happend]
        rw [hrecv] at hstep
        rw [hcall]
        obtain ⟨e', hsh, hend⟩ := drain_shadows codec _
          (s := s.received rb ((Mem.ofList 0 chunk).slice 0 chunk.length))
          (e := { e with
            server := { e.server with point := .handle, recvBuffer := rb }, upstream := more })
          ⟨rfl, h.sendBuffer, h.count⟩ hall hnext rfl (Nat.lt_succ_self _)
        exact ⟨e', .head hstep hsh.steps, hend, hsh.client, hsh.upstream, hsh.mirrors, hsh.sent⟩

end Steps

end ServerStudy
