import ServerStudy.Logic.Chat
import ServerStudy.Logic.Send
import ServerStudy.MServer.Main

/-!
# What one connection leaves to the next

Neither `InitSession` nor `CloseSession` clears the buffers. What a peer leaves
unread in the receive buffer stands in front of the next peer's bytes, and a
reply that was not sent goes to the next peer. If nothing is unread in either
buffer when the next connection is accepted, it is served as by a new session,
as long as the code does not look behind the unread bytes (`CallOk`).

The proof runs the used and the new session side by side: their positions and
stale bytes differ, their unread bytes do not (`Same`).
-/

namespace ServerStudy.Theorems.Isolation

open ServerStudy.Core PacketBuffer ClientSession

/-! ## One call of `SendPacket` on two sessions -/

/-- The header finds its place, and if the packet is queued `send` is asked
for no more than is unread. -/
def SendOk (s : ClientState) (packet : Packet) : Prop :=
  s.sendBuffer.HeaderFits packet ∧
    ((setOn s.sendBuffer.unread packet).1 = true →
      packetHeader.size (setOn s.sendBuffer.unread packet).2 ≤
        (setOn s.sendBuffer.unread packet).2.length)

instance (s : ClientState) (packet : Packet) : Decidable (SendOk s packet) :=
  inferInstanceAs (Decidable (_ ∧ _))

/-- The two sending halves show the same. -/
structure SameClient (a b : ClientState) : Prop where
  orderedLeft : a.sendBuffer.Ordered
  orderedRight : b.sendBuffer.Ordered
  unread : a.sendBuffer.unread = b.sendBuffer.unread
  clientSock : a.clientSock = b.clientSock
  count : a.count = b.count

namespace SameClient

variable {a b : ClientState}

theorem sendHead (h : SameClient a b)
    (hle : packetHeader.size a.sendBuffer.unread ≤ a.sendBuffer.unread.length) :
    SameClient a.sendHead.2 b.sendHead.2 := by
  have hbytes : a.headBytes = b.headBytes := by
    have hle' := hle
    rw [h.unread] at hle'
    rw [ClientState.headBytes, ClientState.headBytes, headBytes_eq hle, headBytes_eq hle',
      h.unread]
  have hrest : a.sendBuffer.consumePacket.unread = b.sendBuffer.consumePacket.unread := by
    rw [unread_consumePacket h.orderedLeft, unread_consumePacket h.orderedRight, h.unread]
  have hsending : ∀ result, (a.sending result).clientSock = (b.sending result).clientSock := by
    intro result
    rw [ClientState.sending, ClientState.sending, hbytes, h.clientSock]
  have hsame : a.clientSock.outcome a.clientSock.calls.length a.headBytes.length =
      b.clientSock.outcome b.clientSock.calls.length b.headBytes.length := by
    rw [hbytes, h.clientSock]
  rcases a.sendHead_cases with ⟨hresult, heq⟩ | ⟨count, hresult, heq⟩ <;>
    rcases b.sendHead_cases with ⟨hresult', heq'⟩ | ⟨count', hresult', heq'⟩ <;>
    rw [hsame, hresult'] at hresult
  · rw [heq, heq']
    exact ⟨h.orderedLeft, h.orderedRight, h.unread, hsending _, h.count⟩
  · cases hresult
  · cases hresult
  · cases hresult
    rw [heq, heq']
    exact ⟨consumePacket_ordered h.orderedLeft, consumePacket_ordered h.orderedRight, hrest,
      hsending _, h.count⟩

/-- `SendPacket` does the same on both. -/
theorem sendPacket (h : SameClient a b) {packet : Packet} (ha : SendOk a packet)
    (hb : SendOk b packet) : SameClient (a.sendPacket packet).2 (b.sendPacket packet).2 := by
  have hseta := setPacket_eq h.orderedLeft ha.1
  have hsetb := setPacket_eq h.orderedRight hb.1
  have horda := setPacket_ordered h.orderedLeft ha.1
  have hordb := setPacket_ordered h.orderedRight hb.1
  have hle := ha.2
  rw [← h.unread] at hsetb
  rw [← hseta] at hsetb hle
  obtain ⟨hok, hunread⟩ := Prod.mk.inj hsetb
  have hsame : SameClient (a.queue packet) (b.queue packet) :=
    ⟨horda, hordb, hunread.symm, h.clientSock, h.count⟩
  rcases a.sendPacket_cases packet with ⟨hno, heq⟩ | ⟨hyes, heq⟩
  · rw [hno] at hok
    rw [heq, ClientState.sendPacket_of_refused hok]
    exact hsame
  · rw [hyes] at hok
    rw [heq, ClientState.sendPacket_of_queued hok]
    exact hsame.sendHead (hle hyes)

end SameClient

/-! ## One call of `OnRecv` on two sessions -/

/-- What the code does not check when it dispatches a packet and replies: the
packet has room for its header, its number is in the table, and the reply is
queued and sent within the send buffer. -/
structure CallOk (codec : ChatCodec) (call : HandleCall ClientState) : Prop where
  header : 4 ≤ call.recvBuffer.getPacketSize.toNat
  inTable : call.recvBuffer.getPacketNo.toNat < packetFunctorsSize
  reply : call.recvBuffer.getPacketNo = chatProtocolNumber →
    ∀ message ∈ codec.parseFromArray call.recvBuffer.payload,
      SendOk (chatReply codec call.rest message).1 (chatReply codec call.rest message).2

instance (codec : ChatCodec) (call : HandleCall ClientState) : Decidable (CallOk codec call) :=
  decidable_of_iff (_ ∧ _ ∧ _) ⟨fun h => ⟨h.1, h.2.1, h.2.2⟩, fun h => ⟨h.1, h.2, h.3⟩⟩

/-- All calls of `Handle` from the `n`-th on are. -/
def OkFrom (codec : ChatCodec) (n : Nat) (s : ClientSession) : Prop :=
  ∀ call ∈ s.trace.entered.drop n, CallOk codec call

instance (codec : ChatCodec) (n : Nat) (s : ClientSession) : Decidable (OkFrom codec n s) :=
  inferInstanceAs (Decidable (∀ call ∈ _, _))

/-- The two sessions show the same, but for the dispatches `before` the used
one has made earlier. -/
structure Same (before : List (Dispatch Text)) (s t : ClientSession) : Prop where
  orderedLeft : s.recvBuffer.Ordered
  orderedRight : t.recvBuffer.Ordered
  unread : s.recvBuffer.unread = t.recvBuffer.unread
  client : SameClient s.rest t.rest
  dispatches : s.trace.dispatches = before ++ t.trace.dispatches

section Run

variable {codec : ChatCodec} {past : Option (PacketFunctor ClientState Text)}
  {before : List (Dispatch Text)} {n m : Nat} {s t : ClientSession}

theorem OkFrom.of_grows (hok : OkFrom codec n t) (h : s.trace.Grows t.trace) :
    OkFrom codec n s := by
  intro call hcall
  obtain ⟨more, hmore⟩ := h.entered
  refine hok call ?_
  rw [← hmore, List.drop_append]
  exact List.mem_append_left _ hcall

theorem OkFrom.last (hok : OkFrom codec n t) (hn : n ≤ s.trace.entered.length)
    {call : HandleCall ClientState} (h : s.trace.entered ++ [call] <+: t.trace.entered) :
    CallOk codec call := by
  obtain ⟨more, hmore⟩ := h
  refine hok call ?_
  rw [← hmore, List.append_assoc, List.drop_append_of_le_length hn]
  simp

/-- Both dispatch the same packet, if any. -/
theorem Same.dispatch (h : Same before s t)
    (hs : CallOk codec ⟨s.recvBuffer, s.rest⟩) (ht : CallOk codec ⟨t.recvBuffer, t.rest⟩)
    (hable : packetHeader.Complete s.recvBuffer.unread) :
    ((clientManager codec past).decode s.recvBuffer = none ∧
        (clientManager codec past).decode t.recvBuffer = none) ∨
      ∃ message, (clientManager codec past).decode s.recvBuffer =
          some (chatFunctor codec, message) ∧
        (clientManager codec past).decode t.recvBuffer = some (chatFunctor codec, message) ∧
        Same before (s.dispatch (chatFunctor codec) message)
          (t.dispatch (chatFunctor codec) message) := by
  -- with room for its header the head is a frame, the same in both
  have h4 := hs.header
  rw [toNat_getPacketSize] at h4
  obtain ⟨f, u, hu⟩ := exists_frame hable h4
  have hu' : t.recvBuffer.unread = f.stream ++ u := by rw [← h.unread, hu]
  have hno := getPacketNo_of_head h.orderedLeft hu
  have hno' := getPacketNo_of_head h.orderedRight hu'
  have hpayload := payload_of_head hu
  have hpayload' := payload_of_head hu'
  have hin := hs.inTable
  rw [decode_of_head _ h.orderedLeft hu, decode_of_head _ h.orderedRight hu']
  by_cases hchat : f.protocolNumber = chatProtocolNumber
  · have hdecode : (clientManager codec past).decodeFrame f =
        (codec.parseFromArray f.bytes).map fun message => (chatFunctor codec, message) := by
      rw [PacketHandlerManager.decodeFrame, hchat, clientManager_chat, Option.bind_some]
      rfl
    rw [hdecode]
    cases hparse : codec.parseFromArray f.bytes with
    | none => exact .inl ⟨rfl, rfl⟩
    | some message =>
        refine .inr ⟨message, rfl, rfl, ?_⟩
        have hreply := hs.reply (hno.trans hchat) message (by rw [hpayload]; exact hparse)
        have hreply' := ht.reply (hno'.trans hchat) message (by rw [hpayload']; exact hparse)
        have hcount : SameClient (chatReply codec s.rest message).1
            (chatReply codec t.rest message).1 :=
          ⟨h.client.orderedLeft, h.client.orderedRight, h.client.unread, h.client.clientSock,
            congrArg (· + 1) h.client.count⟩
        have htext : (chatReply codec s.rest message).2 = (chatReply codec t.rest message).2 := by
          simp only [chatReply, h.client.count]
        rw [← htext] at hreply'
        refine ⟨consumePacket_ordered h.orderedLeft, consumePacket_ordered h.orderedRight, ?_, ?_,
          ?_⟩
        · rw [SessionBase.dispatch_recvBuffer, SessionBase.dispatch_recvBuffer,
            unread_consume_of_head h.orderedLeft hu, unread_consume_of_head h.orderedRight hu']
        · have hclient := hcount.sendPacket hreply hreply'
          rw [SessionBase.dispatch_rest, SessionBase.dispatch_rest]
          show SameClient
            (ClientState.sendPacket (chatReply codec s.rest message).1
              (chatReply codec s.rest message).2).2
            (ClientState.sendPacket (chatReply codec t.rest message).1
              (chatReply codec t.rest message).2).2
          rw [← htext]
          exact hclient
        · rw [SessionBase.dispatch_dispatches, SessionBase.dispatch_dispatches, h.dispatches,
            record_of_head h.orderedLeft hu, record_of_head h.orderedRight hu', List.append_assoc]
  · have hnone : (clientManager codec past).decodeFrame f = none := by
      rw [PacketHandlerManager.decodeFrame,
        clientManager_other hchat (.inl (by rw [← hno]; exact hin)), Option.bind_none]
    exact .inl ⟨hnone, hnone⟩

theorem Same.enter (h : Same before s t) : Same before s.enter t.enter :=
  ⟨h.orderedLeft, h.orderedRight, h.unread, h.client, h.dispatches⟩

/-- The loop does the same on both. -/
theorem Same.drain (fuel : Nat) (h : Same before s t) (hn : n ≤ s.trace.entered.length)
    (hm : m ≤ t.trace.entered.length)
    (hs : OkFrom codec n (SessionBase.drain (clientManager codec past) fuel s))
    (ht : OkFrom codec m (SessionBase.drain (clientManager codec past) fuel t)) :
    Same before (SessionBase.drain (clientManager codec past) fuel s)
      (SessionBase.drain (clientManager codec past) fuel t) := by
  induction fuel generalizing s t with
  | zero => exact h
  | succ fuel ih =>
      by_cases hable : packetHeader.Complete s.recvBuffer.unread
      · have hable' : packetHeader.Complete t.recvBuffer.unread := by rw [← h.unread]; exact hable
        have hcall := hs.last hn
          (SessionBase.entered_of_able (clientManager codec past) h.orderedLeft hable fuel)
        have hcall' := ht.last hm
          (SessionBase.entered_of_able (clientManager codec past) h.orderedRight hable' fuel)
        rcases h.dispatch hcall hcall' hable with ⟨hnone, hnone'⟩ | ⟨message, hsome, hsome', hnext⟩
        · rw [SessionBase.drain_of_rejected _ hable hnone,
            SessionBase.drain_of_rejected _ hable' hnone']
          exact h.enter
        · -- the Chat handler answers true, and both go on
          have hgo := SessionBase.drain_of_decoded _ hable hsome fuel
          have hgo' := SessionBase.drain_of_decoded _ hable' hsome' fuel
          rw [if_pos (chatFunctor_fst ..)] at hgo hgo'
          rw [hgo] at hs ⊢
          rw [hgo'] at ht ⊢
          refine ih hnext ?_ ?_ hs ht
          · rw [SessionBase.dispatch_entered, List.length_append]
            exact Nat.le_trans hn (Nat.le_add_right ..)
          · rw [SessionBase.dispatch_entered, List.length_append]
            exact Nat.le_trans hm (Nat.le_add_right ..)
      · have hable' : ¬ packetHeader.Complete t.recvBuffer.unread := by
          rw [← h.unread]
          exact hable
        rw [SessionBase.drain_of_not_able _ hable, SessionBase.drain_of_not_able _ hable']
        exact h

/-- A chunk does the same on both. -/
theorem Same.onRecv (h : Same before s t) (hn : n ≤ s.trace.entered.length)
    (hm : m ≤ t.trace.entered.length) (src : Mem Byte) (size : Nat)
    (hs : OkFrom codec n (s.onRecv (clientManager codec past) (some src) size))
    (ht : OkFrom codec m (t.onRecv (clientManager codec past) (some src) size)) :
    Same before (s.onRecv (clientManager codec past) (some src) size)
      (t.onRecv (clientManager codec past) (some src) size) := by
  rcases SessionBase.onRecv_cases (clientManager codec past) h.orderedLeft (some src) size with
    ⟨hrefused, rb, hrb, hunread, heq⟩ | ⟨src₁, hsrc, hpos, hfits, rb, hrb, hunread, heq⟩ <;>
    rcases SessionBase.onRecv_cases (clientManager codec past) h.orderedRight (some src) size with
      ⟨hrefused', rb', hrb', hunread', heq'⟩ |
      ⟨src₂, hsrc', hpos', hfits', rb', hrb', hunread', heq'⟩
  · rw [heq, heq']
    exact ⟨hrb, hrb', (hunread.trans h.unread).trans hunread'.symm, h.client, h.dispatches⟩
  · rw [← h.unread] at hfits'
    exact absurd ⟨hpos', hfits'⟩ (hrefused src rfl)
  · rw [h.unread] at hfits
    exact absurd ⟨hpos, hfits⟩ (hrefused' src rfl)
  · cases hsrc
    cases hsrc'
    have hsame : rb.unread = rb'.unread := by rw [hunread, hunread', h.unread]
    have hreceived : Same before (s.received rb (src.slice 0 size))
        (t.received rb' (src.slice 0 size)) := ⟨hrb, hrb', hsame, h.client, h.dispatches⟩
    -- the unread bytes agree, and with them the passes `loop` allows
    have hloop : ∀ u : ClientSession, u.recvBuffer.unread.length = rb.unread.length →
        SessionBase.loop (clientManager codec past) u =
          SessionBase.drain (clientManager codec past) (rb.unread.length + 1) u := by
      intro u hu
      rw [SessionBase.loop, hu]
    rw [heq, hloop (s.received rb (src.slice 0 size)) rfl] at hs ⊢
    rw [heq', hloop (t.received rb' (src.slice 0 size)) (congrArg _ hsame.symm)] at ht ⊢
    exact hreceived.drain _ hn hm hs ht

/-- A connection only adds to the trace. -/
theorem recvLoop_grows (hord : s.recvBuffer.Ordered) (recvs : List RecvResult) :
    s.trace.Grows (recvLoop (clientManager codec past) s recvs).trace := by
  induction recvs generalizing s with
  | nil => exact .refl _
  | cons result rest ih =>
      cases result with
      | socketError => exact .refl _
      | received bytes =>
          have hgrows := SessionBase.onRecv_grows (clientManager codec past) hord
            (some (Mem.ofList 0 bytes)) bytes.length
          exact hgrows.trans (ih (SessionBase.onRecv_ordered _ hord _ _))

/-- So does a whole connection. -/
theorem Same.recvLoop (h : Same before s t) (hn : n ≤ s.trace.entered.length)
    (hm : m ≤ t.trace.entered.length) (recvs : List RecvResult)
    (hs : OkFrom codec n (recvLoop (clientManager codec past) s recvs))
    (ht : OkFrom codec m (recvLoop (clientManager codec past) t recvs)) :
    Same before (recvLoop (clientManager codec past) s recvs)
      (recvLoop (clientManager codec past) t recvs) := by
  induction recvs generalizing s t with
  | nil => exact h
  | cons result rest ih =>
      cases result with
      | socketError => exact h
      | received bytes =>
          have hgrows := SessionBase.onRecv_grows (clientManager codec past) h.orderedLeft
            (some (Mem.ofList 0 bytes)) bytes.length
          have hgrows' := SessionBase.onRecv_grows (clientManager codec past) h.orderedRight
            (some (Mem.ofList 0 bytes)) bytes.length
          have hnext := h.onRecv hn hm (Mem.ofList 0 bytes) bytes.length
            (hs.of_grows (recvLoop_grows (SessionBase.onRecv_ordered _ h.orderedLeft _ _) rest))
            (ht.of_grows (recvLoop_grows (SessionBase.onRecv_ordered _ h.orderedRight _ _) rest))
          exact ih hnext (Nat.le_trans hn hgrows.entered.length_le)
            (Nat.le_trans hm hgrows'.entered.length_le) hs ht

end Run

/-! ## The next connection -/

/-- The connection makes the same handler calls and passes the same bytes to
`send` on the used session as on the new one. -/
def Isolated (mgr : PacketHandlerManager ClientState Text) (used fresh : ClientSession)
    (conn : Connection) : Prop :=
  (serve mgr used conn).trace.dispatches =
      used.trace.dispatches ++ (serve mgr fresh conn).trace.dispatches ∧
    (serve mgr used conn).rest.clientSock.calls = (serve mgr fresh conn).rest.clientSock.calls

theorem isolated_of_drained {codec : ChatCodec}
    {past : Option (PacketFunctor ClientState Text)} {used : ClientSession} {conn : Connection}
    (hrecv : used.recvBuffer.readPos = used.recvBuffer.writePos)
    (hsend : used.rest.sendBuffer.readPos = used.rest.sendBuffer.writePos)
    {recvPast sendPast : Mem Byte} {sock : Socket}
    (hused : OkFrom codec used.trace.entered.length (serve (clientManager codec past) used conn))
    (hfresh : OkFrom codec 0 (serve (clientManager codec past)
      (ClientSession.new recvPast sendPast sock used.rest.count) conn)) :
    Isolated (clientManager codec past) used
      (ClientSession.new recvPast sendPast sock used.rest.count) conn := by
  have hstart : Same used.trace.dispatches (used.initSession conn)
      ((ClientSession.new recvPast sendPast sock used.rest.count).initSession conn) := by
    refine ⟨Nat.le_of_eq (congrArg _ hrecv), new_ordered recvPast, ?_, ?_, ?_⟩
    · rw [show (used.initSession conn).recvBuffer.unread = [] from unread_eq_nil hrecv]
      exact (unread_new recvPast).symm
    · refine ⟨Nat.le_of_eq (congrArg _ hsend), new_ordered sendPast, ?_, rfl, rfl⟩
      rw [show (used.initSession conn).rest.sendBuffer.unread = [] from unread_eq_nil hsend]
      exact (unread_new sendPast).symm
    · exact (List.append_nil _).symm
  have hend := hstart.recvLoop (Nat.le_refl _) (Nat.zero_le _) conn.recvs hused hfresh
  exact ⟨hend.dispatches, congrArg _ hend.client.clientSock⟩

/-- After any earlier connections: if nothing is unread in the buffers when the
next one is accepted, and no call of `Handle` on it, on either session, makes
the code look behind the unread bytes, the next connection is isolated. -/
theorem drained_connection_isolated (codec : ChatCodec)
    (past : Option (PacketFunctor ClientState Text))
    (recvPast sendPast recvPast' sendPast' : Mem Byte) (sock sock' : Socket) (count : UInt64)
    (earlier : List Connection) (conn : Connection) (used fresh : ClientSession)
    (hused : used = serveAll (clientManager codec past)
      (ClientSession.new recvPast sendPast sock count) earlier)
    (hfresh : fresh = ClientSession.new recvPast' sendPast' sock' used.rest.count)
    (hrecv : used.recvBuffer.readPos = used.recvBuffer.writePos)
    (hsend : used.rest.sendBuffer.readPos = used.rest.sendBuffer.writePos)
    (hok : OkFrom codec used.trace.entered.length (serve (clientManager codec past) used conn))
    (hok' : OkFrom codec 0 (serve (clientManager codec past) fresh conn)) :
    Isolated (clientManager codec past) used fresh conn := by
  subst hused
  subst hfresh
  exact isolated_of_drained hrecv hsend hok hok'

/-- A connection that sends one Chat frame and breaks. -/
def hiConnection : Connection :=
  ⟨fun _ size => .sent size, [.received hiFrame.stream, .socketError]⟩

theorem hi_after_hi_isolated :
    Isolated (clientManager chatWire none)
      (serveAll (clientManager chatWire none)
        (ClientSession.new (fun _ => 0) (fun _ => 0) ⟨fun _ _ => .socketError, []⟩ 0)
        [hiConnection])
      (ClientSession.new (fun _ => 0) (fun _ => 0) ⟨fun _ _ => .socketError, []⟩ 1)
      hiConnection :=
  drained_connection_isolated chatWire none (fun _ => 0) (fun _ => 0) (fun _ => 0) (fun _ => 0)
    ⟨fun _ _ => .socketError, []⟩ ⟨fun _ _ => .socketError, []⟩ 0 [hiConnection] hiConnection _ _
    rfl (congrArg _ (by decide +kernel)) (by decide +kernel) (by decide +kernel)
    (by decide +kernel) (by decide +kernel)

/-- One peer leaves a single byte, and the next peer's frame is not
recognised. -/
theorem residue_hides_frame :
    ¬ Isolated (clientManager chatWire none)
      (serveAll (clientManager chatWire none)
        (ClientSession.new (fun _ => 0) (fun _ => 0) ⟨fun _ _ => .socketError, []⟩ 0)
        [⟨fun _ size => .sent size, [.received [0], .socketError]⟩])
      (ClientSession.new (fun _ => 0) (fun _ => 0) ⟨fun _ _ => .socketError, []⟩ 0)
      hiConnection := by
  intro hisolated
  have hlen := congrArg List.length hisolated.1
  exact absurd hlen (by decide +kernel)

end ServerStudy.Theorems.Isolation
