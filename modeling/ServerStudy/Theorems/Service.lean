import ServerStudy.Logic.FrameRuns
import ServerStudy.Logic.MainSteps
import ServerStudy.Theorems.Answered

/-!
# The service as a whole

Over the endless main loop and any series of connections: as long as peers send
whole Chat frames, at a pace the receive buffer can take, every message is
answered once, in order, with the number of messages the process has had so
far, on the connection it came from. The numbers go on from one connection to
the next, and no connection leaves anything to the one after it.
-/

namespace ServerStudy.Theorems.Service

open ServerStudy.Core PacketBuffer ClientSession Answered

/-! ## What is promised -/

/-- What has arrived behind the last whole frame. -/
def unfinished (frames : List Frame) (bytes : List Byte) : List Byte :=
  bytes.drop ((whole Frame.stream frames bytes.length).flatMap Frame.stream).length

/-- A peer that keeps to the protocol. -/
structure Visit (codec : ChatCodec) where
  peer : Peer
  frames : List Frame
  isChat : ∀ f ∈ frames, f.IsChat codec
  /-- Whatever its number, the reply has room in a frame. -/
  short : ∀ f ∈ frames, ∀ message, codec.parseFromArray f.bytes = some message →
    ∀ count, (formatReply message count).length ≤ 65527
  sent : peer.chunks.flatten = frames.flatMap Frame.stream
  /-- No chunk is too much for the receive buffer. -/
  room : ∀ done chunk todo, peer.chunks = done ++ chunk :: todo →
    (unfinished frames done.flatten).length + chunk.length ≤ 65535
  takesAll : ∀ i size, peer.outcome i size = .sent size

/-- The texts of the replies to frames, when `count` replies have been made. -/
def replies (codec : ChatCodec) : UInt64 → List Frame → List Text
  | _, [] => []
  | count, f :: frames =>
      formatReply ((codec.parseFromArray f.bytes).getD []) (count + 1) ::
        replies codec (count + 1) frames

/-- Their frames on the wire. -/
def replyStream (codec : ChatCodec) (count : UInt64) (frames : List Frame) : List Byte :=
  (replies codec count frames).flatMap fun text => (codec.packet text).frame

/-- How many messages came with the first `n` calls of `accept`. -/
def received {codec : ChatCodec} (series : Nat → Option (Visit codec)) (n : Nat) : Nat :=
  (((List.range n).filterMap series).map fun visit => visit.frames.length).sum

/-- The connection is served up to these bytes, after so many messages on
earlier ones. -/
structure ServedUpTo {codec : ChatCodec} (visit : Visit codec) (earlier : Nat)
    (bytes : List Byte) (s : ClientSession) : Prop where
  unread : s.recvBuffer.unread = unfinished visit.frames bytes
  count : s.rest.count =
    UInt64.ofNat (earlier + (whole Frame.stream visit.frames bytes.length).length)
  transmitted : s.rest.clientSock.transmitted = replyStream codec (UInt64.ofNat earlier)
    (whole Frame.stream visit.frames bytes.length)

/-- The service at a state of the main loop. -/
def Serving {codec : ChatCodec} (series : Nat → Option (Visit codec)) (v : MainLoop) : Prop :=
  v.upClientSession.rest.sendBuffer.unread = [] ∧
    match v.point with
    | .accept =>
        v.upClientSession.recvBuffer.unread = [] ∧
          v.upClientSession.rest.count = UInt64.ofNat (received series v.accepts)
    | .recv peer recvs =>
        ∃ n visit, v.accepts = n + 1 ∧ series n = some visit ∧ peer = visit.peer ∧
          ServedUpTo visit (received series n) (peer.chunks.take recvs).flatten v.upClientSession
    | .close =>
        ∃ n visit, v.accepts = n + 1 ∧ series n = some visit ∧
          ServedUpTo visit (received series n) (visit.frames.flatMap Frame.stream)
            v.upClientSession

/-! ## The replies to frames -/

/-- Nothing is queued, and the socket takes all it is given. -/
structure Open (s : ClientState) : Prop where
  ordered : s.sendBuffer.Ordered
  empty : s.sendBuffer.unread = []
  takesAll : s.clientSock.TakesAll

section Replies

variable {codec : ChatCodec} {s : ClientState}

/-- One message: one more reply on the wire, and nothing queued. -/
theorem chatHandler_open (hcodec : codec.Lawful) (h : Open s) {message : Text}
    (hshort : (formatReply message (s.count + 1)).length ≤ 65527) :
    Open (chatHandler codec s message).2 ∧
      (chatHandler codec s message).2.count = s.count + 1 ∧
      (chatHandler codec s message).2.clientSock.transmitted =
        s.clientSock.transmitted ++ (codec.packet (formatReply message (s.count + 1))).frame := by
  have hsize : (codec.packet (formatReply message (s.count + 1))).byteSize = _ :=
    hcodec.byteSize _ (by omega)
  have hfits := (chat_fits_iff (formatReply message (s.count + 1)).length).mpr hshort
  have hpos : 0 < (codec.packet (formatReply message (s.count + 1))).byteSize := by omega
  have hsmall : (codec.packet (formatReply message (s.count + 1))).byteSize ≤ 65531 := by omega
  obtain ⟨hcalls, hempty⟩ := sent_at_once (s := { s with count := s.count + 1 })
    h.ordered h.empty h.takesAll hpos hsmall
  have hheader : s.sendBuffer.HeaderFits _ := headerFits_of_small hsmall
  have hordered := ClientState.sendPacket_ordered (s := { s with count := s.count + 1 })
    h.ordered hheader
  rw [chatHandler_snd]
  refine ⟨⟨hordered, hempty, ?_⟩, ?_, ?_⟩
  · intro i size
    rw [ClientState.sendPacket_outcome]
    exact h.takesAll i size
  · exact ClientState.sendPacket_count _ _
  · rw [Socket.transmitted]
    show List.flatMap Socket.taken (ClientState.sendPacket { s with count := s.count + 1 }
      (codec.packet (formatReply message (s.count + 1)))).2.clientSock.calls = _
    rw [hcalls, List.flatMap_append, List.flatMap_singleton, Socket.taken, List.take_length]
    rfl

/-- Any number of messages. -/
theorem handled_open (past : Option (PacketFunctor ClientState Text)) (hcodec : codec.Lawful)
    (frames : List Frame) (hchat : ∀ f ∈ frames, f.IsChat codec)
    (hshort : ∀ f ∈ frames, ∀ message, codec.parseFromArray f.bytes = some message →
      ∀ count, (formatReply message count).length ≤ 65527) (h : Open s) :
    Open (handled (clientManager codec past) s frames) ∧
      (handled (clientManager codec past) s frames).count =
        s.count + UInt64.ofNat frames.length ∧
      (handled (clientManager codec past) s frames).clientSock.transmitted =
        s.clientSock.transmitted ++ replyStream codec s.count frames := by
  induction frames generalizing s with
  | nil => exact ⟨h, by simp [handled], by simp [handled, replyStream, replies]⟩
  | cons f frames ih =>
      obtain ⟨hno, message, hparse⟩ := hchat f List.mem_cons_self
      have hdecode : (clientManager codec past).decodeFrame f =
          some (chatFunctor codec, message) := by
        rw [PacketHandlerManager.decodeFrame, hno, clientManager_chat, Option.bind_some]
        show (codec.parseFromArray f.bytes).map _ = _
        rw [hparse]
        rfl
      obtain ⟨hopen, hcount, hsent⟩ := chatHandler_open hcodec h
        (hshort f List.mem_cons_self message hparse (s.count + 1))
      obtain ⟨hopen', hcount', hsent'⟩ := ih (fun g hg => hchat g (List.mem_cons_of_mem _ hg))
        (fun g hg => hshort g (List.mem_cons_of_mem _ hg)) hopen
      have hcons := handled_cons (clientManager codec past) s frames hdecode
      rw [hcons]
      refine ⟨hopen', hcount'.trans ?_, hsent'.trans ?_⟩
      · show (chatHandler codec s message).2.count + _ = _
        rw [hcount, List.length_cons, UInt64.ofNat_add]
        grind
      · show (chatHandler codec s message).2.clientSock.transmitted ++
          replyStream codec (chatHandler codec s message).2.count frames = _
        rw [hsent, hcount, List.append_assoc, replyStream, replyStream, replies, hparse,
          List.flatMap_cons]
        rfl

end Replies

/-! ## The main loop -/

section Run

variable {codec : ChatCodec} {past : Option (PacketFunctor ClientState Text)}
  {series : Nat → Option (Visit codec)} {visit : Visit codec} {earlier : Nat} {s₀ s : ClientSession}
  {bytes : List Byte}

/-- What `accept` returns. -/
def peers {codec : ChatCodec} (series : Nat → Option (Visit codec)) (call : Nat) : Option Peer :=
  (series call).map Visit.peer

theorem received_succ (series : Nat → Option (Visit codec)) (n : Nat) :
    received series (n + 1) =
      received series n + ((series n).map fun visit => visit.frames.length).getD 0 := by
  rw [received, received, List.range_succ, List.filterMap_append, List.map_append,
    List.sum_append]
  cases hn : series n with
  | none => simp [hn]
  | some visit => simp [hn]

theorem Visit.neverFails (visit : Visit codec) :
    NeverFails (clientManager codec past) visit.frames := by
  intro f hf functor message hdecode rest
  obtain ⟨_, hchat⟩ : ∃ message, (clientManager codec past).decodeFrame f =
      some (chatFunctor codec, message) := (visit.isChat f hf).decodeFrame
  rw [hchat] at hdecode
  cases hdecode
  rfl

/-- All frames of the visit are served. -/
theorem Visit.served_eq (visit : Visit codec) (n : Nat) :
    served (clientManager codec past) visit.frames n = whole Frame.stream visit.frames n := by
  rw [served, List.takeWhile_eq_self_iff]
  intro f hf
  obtain ⟨_, hdecode⟩ : ∃ message, (clientManager codec past).decodeFrame f =
      some (chatFunctor codec, message) := (visit.isChat f (whole_subset _ _ _ hf)).decodeFrame
  rw [PacketHandlerManager.decodes, hdecode]
  rfl

theorem Visit.waiting_eq (visit : Visit codec) (bytes : List Byte) :
    waiting (clientManager codec past) visit.frames bytes = unfinished visit.frames bytes := by
  rw [waiting, visit.served_eq]
  rfl

/-- A session between two connections. -/
structure Idle (s : ClientSession) (count : Nat) : Prop where
  ordered : s.recvBuffer.Ordered
  unread : s.recvBuffer.unread = []
  sendOrdered : s.rest.sendBuffer.Ordered
  sendUnread : s.rest.sendBuffer.unread = []
  count_eq : s.rest.count = UInt64.ofNat count

/-- A session that has just been given a connection. -/
structure Fresh (s : ClientSession) (count : Nat) : Prop extends Idle s count where
  takesAll : s.rest.clientSock.TakesAll
  nothing : s.rest.clientSock.transmitted = []

theorem Idle.initSession (h : Idle s earlier) (visit : Visit codec) :
    Fresh (s.initSession visit.peer.connection) earlier :=
  ⟨⟨h.ordered, h.unread, h.sendOrdered, h.sendUnread, h.count_eq⟩, visit.takesAll, rfl⟩

/-- The session has served what has arrived on the connection. -/
structure OnVisit (past : Option (PacketFunctor ClientState Text)) (visit : Visit codec)
    (earlier : Nat) (bytes : List Byte) (s : ClientSession) : Prop where
  drained : ∃ s₀, Fresh s₀ earlier ∧
    Drained (clientManager codec past) s₀
      (served (clientManager codec past) visit.frames bytes.length)
      (waiting (clientManager codec past) visit.frames bytes) s

/-- Nothing has arrived yet. -/
theorem OnVisit.first (h : Fresh s earlier) : OnVisit past visit earlier [] s :=
  ⟨s, h, .start (clientManager codec past) visit.frames h.ordered h.unread⟩

/-- What that means for the replies. -/
theorem OnVisit.replied (hcodec : codec.Lawful) (h : OnVisit past visit earlier bytes s) :
    Open s.rest ∧ ServedUpTo visit earlier bytes s := by
  obtain ⟨s₀, hfresh, hdrained⟩ := h.drained
  rw [visit.served_eq, visit.waiting_eq] at hdrained
  have hsubset := whole_subset Frame.stream visit.frames bytes.length
  obtain ⟨hopen, hcount, hsent⟩ := handled_open past hcodec
    (whole Frame.stream visit.frames bytes.length)
    (fun f hf => visit.isChat f (hsubset hf)) (fun f hf => visit.short f (hsubset hf))
    ⟨hfresh.sendOrdered, hfresh.sendUnread, hfresh.takesAll⟩
  rw [← hdrained.rest] at hopen hcount hsent
  refine ⟨hopen, hdrained.unread, ?_, ?_⟩
  · rw [hcount, hfresh.count_eq, UInt64.ofNat_add]
  · rw [hsent, hfresh.nothing, hfresh.count_eq, List.nil_append]

/-- A chunk more. -/
theorem OnVisit.onRecv {done todo : List (List Byte)} {chunk : List Byte}
    (h : OnVisit past visit earlier done.flatten s)
    (hchunks : visit.peer.chunks = done ++ chunk :: todo) :
    OnVisit past visit earlier (done.flatten ++ chunk)
      (s.onRecv (clientManager codec past) (some (Mem.ofList 0 chunk)) chunk.length) := by
  obtain ⟨s₀, hfresh, hdrained⟩ := h.drained
  have hpart : done.flatten ++ chunk <+: visit.frames.flatMap Frame.stream ++ [] := by
    rw [List.append_nil, ← visit.sent, hchunks]
    simp
  have hmem : chunk ∈ visit.peer.chunks := by
    rw [hchunks]
    simp
  have hroom : (waiting (clientManager codec past) visit.frames done.flatten).length +
      chunk.length ≤ maxBufSize := by
    rw [visit.waiting_eq]
    exact visit.room done chunk todo hchunks
  exact ⟨s₀, hfresh, hdrained.onRecv visit.neverFails packetHeader.not_complete_nil hpart
    (visit.peer.nonempty chunk hmem) hroom⟩

/-- When all has arrived the session is ready for the next connection. -/
theorem OnVisit.finished (hcodec : codec.Lawful)
    (h : OnVisit past visit earlier (visit.frames.flatMap Frame.stream) s) :
    Idle s (earlier + visit.frames.length) := by
  obtain ⟨hopen, hserved⟩ := h.replied hcodec
  obtain ⟨s₀, _, hdrained⟩ := h.drained
  have hunread := hserved.unread
  have hcount := hserved.count
  rw [unfinished, whole_all, List.drop_length] at hunread
  rw [whole_all] at hcount
  exact ⟨hdrained.ordered, hunread, hopen.ordered, hopen.empty, hcount⟩

/-- The invariant of the main loop. -/
def Inv (past : Option (PacketFunctor ClientState Text)) (series : Nat → Option (Visit codec))
    (v : MainLoop) : Prop :=
  match v.point with
  | .accept => Idle v.upClientSession (received series v.accepts)
  | .recv peer recvs =>
      ∃ n visit, v.accepts = n + 1 ∧ series n = some visit ∧ peer = visit.peer ∧
        OnVisit past visit (received series n) (peer.chunks.take recvs).flatten v.upClientSession
  | .close =>
      ∃ n visit, v.accepts = n + 1 ∧ series n = some visit ∧
        OnVisit past visit (received series n) (visit.frames.flatMap Frame.stream)
          v.upClientSession

theorem inv_step (hcodec : codec.Lawful) {v : MainLoop} (h : Inv past series v) :
    Inv past series (v.step (clientManager codec past) (peers series)) := by
  rcases MainLoop.step_cases (clientManager codec past) (peers series) v with
    ⟨hpoint, hseries, heq⟩ | ⟨peer, hpoint, hseries, heq⟩ | ⟨peer, i, hpoint, hrecv, heq⟩ |
    ⟨peer, i, chunk, hpoint, hrecv, heq⟩ | ⟨hpoint, heq⟩
  · -- `accept` has failed
    rw [Inv, hpoint] at h
    rw [heq]
    show Idle v.upClientSession (received series (v.accepts + 1))
    have hnone : series v.accepts = none := Option.map_eq_none_iff.mp hseries
    rw [received_succ, hnone]
    exact h
  · rw [Inv, hpoint] at h
    obtain ⟨visit, hvisit, rfl⟩ := Option.map_eq_some_iff.mp hseries
    rw [heq]
    exact ⟨v.accepts, visit, rfl, hvisit, rfl, .first (h.initSession visit)⟩
  · -- `SOCKET_ERROR` comes after all chunks
    rw [Inv, hpoint] at h
    obtain ⟨n, visit, haccepts, hvisit, rfl, hon⟩ := h
    have hall : visit.peer.chunks.length ≤ i := by
      by_contra hlt
      rw [Peer.recv_of_lt (Nat.not_le.mp hlt)] at hrecv
      cases hrecv
    rw [List.take_of_length_le hall, visit.sent] at hon
    rw [heq]
    exact ⟨n, visit, haccepts, hvisit, hon⟩
  · rw [Inv, hpoint] at h
    obtain ⟨n, visit, haccepts, hvisit, rfl, hon⟩ := h
    rw [heq]
    refine ⟨n, visit, haccepts, hvisit, rfl, ?_⟩
    by_cases hi : i < visit.peer.chunks.length
    · rw [Peer.recv_of_lt hi] at hrecv
      cases hrecv
      have hchunks : visit.peer.chunks = visit.peer.chunks.take i ++
          visit.peer.chunks[i] :: visit.peer.chunks.drop (i + 1) := by
        rw [← List.drop_eq_getElem_cons hi, List.take_append_drop]
      rw [List.take_succ_eq_append_getElem hi, List.flatten_append, List.flatten_singleton]
      exact hon.onRecv hchunks
    · -- after a shutdown there is nothing in it
      have hle := Nat.not_lt.mp hi
      rw [Peer.recv_of_le hle] at hrecv
      cases hending : visit.peer.ending with
      | socketError => rw [hending] at hrecv; cases hrecv
      | shutdown =>
          rw [hending] at hrecv
          cases hrecv
          rw [List.take_of_length_le hle] at hon
          rw [List.take_of_length_le (Nat.le_succ_of_le hle), List.length_nil,
            SessionBase.onRecv_nothing]
          exact hon
  · rw [Inv, hpoint] at h
    obtain ⟨n, visit, haccepts, hvisit, hon⟩ := h
    rw [heq]
    show Idle v.upClientSession (received series v.accepts)
    rw [haccepts, received_succ, hvisit]
    exact hon.finished hcodec

theorem serving_of_inv (hcodec : codec.Lawful) {v : MainLoop} (h : Inv past series v) :
    Serving series v := by
  rw [Inv] at h
  rw [Serving]
  cases hpoint : v.point with
  | accept =>
      rw [hpoint] at h
      exact ⟨h.sendUnread, h.unread, h.count_eq⟩
  | recv peer i =>
      rw [hpoint] at h
      obtain ⟨n, visit, haccepts, hvisit, hpeer, hon⟩ := h
      obtain ⟨hopen, hserved⟩ := hon.replied hcodec
      exact ⟨hopen.empty, n, visit, haccepts, hvisit, hpeer, hserved⟩
  | close =>
      rw [hpoint] at h
      obtain ⟨n, visit, haccepts, hvisit, hon⟩ := h
      obtain ⟨hopen, hserved⟩ := hon.replied hcodec
      exact ⟨hopen.empty, n, visit, haccepts, hvisit, hserved⟩

/-- In every state of every run of the server: the connection that is open has
been sent, in order, the reply to each message that has come in as a whole, and
nothing else; the replies are numbered on from all earlier connections; and
between connections nothing is left in either buffer. -/
theorem service_in_every_state (codec : ChatCodec) (hcodec : codec.Lawful)
    (past : Option (PacketFunctor ClientState Text)) (series : Nat → Option (Visit codec))
    (recvPast sendPast : Mem Byte) (sock : Socket) (v : MainLoop)
    (hv : (MainLoop.system (clientManager codec past) (peers series)
      (ClientSession.new recvPast sendPast sock 0)).Reachable v) : Serving series v := by
  refine serving_of_inv hcodec (?_ : Inv past series v)
  refine TSys.Reachable.invariant (Inv past series) ?_ ?_ hv
  · rintro v rfl
    exact ⟨new_ordered recvPast, unread_new recvPast, new_ordered sendPast,
      unread_new sendPast, rfl⟩
  · rintro v v' h rfl
    exact inv_step hcodec h

end Run

/-! ## The text hi -/

theorem length_unfinished_le (frames : List Frame) (bytes : List Byte) :
    (unfinished frames bytes).length ≤ bytes.length := by
  rw [unfinished, List.length_drop]
  exact Nat.sub_le ..

/-- A peer that sends hi in two chunks and shuts down. -/
def hiPeer : Peer where
  outcome _ size := .sent size
  chunks := [[8, 0, 0, 0, 10], [2, 104, 105]]
  ending := .shutdown
  nonempty := by decide
  short := by decide

def hiVisit : Visit chatWire where
  peer := hiPeer
  frames := [hiFrame]
  isChat f hf := by
    rw [List.mem_singleton.mp hf]
    exact hiFrame_isChat
  short f hf message hparse count := by
    rw [List.mem_singleton.mp hf] at hparse
    have htext : chatWire.parseFromArray hiFrame.bytes = some [104, 105] := by decide
    rw [htext] at hparse
    cases hparse
    have hdigits := length_decimal_le count.toNat_lt
    rw [formatReply, List.length_append, List.length_cons]
    simp only [List.length_cons, List.length_nil]
    omega
  sent := by decide
  room done chunk todo hsplit := by
    have htotal := congrArg (fun chunks => chunks.flatten.length) hsplit
    have hle := length_unfinished_le [hiFrame] done.flatten
    have height : hiPeer.chunks.flatten.length = 8 := by decide
    simp only [height, List.flatten_append, List.flatten_cons, List.length_append] at htotal
    omega
  takesAll _ _ := rfl

/-- The main loop on this peer alone, from its start on. -/
def hiServer : MainLoop :=
  ⟨.accept, ClientSession.new (fun _ => 0) (fun _ => 0) openClient.clientSock 0, 0, []⟩

/-- After `accept` and two calls of `recv`. -/
theorem hi_served :
    Serving (fun _ => some hiVisit)
      (((hiServer.step (clientManager chatWire none) (peers fun _ => some hiVisit)).step
        (clientManager chatWire none) (peers fun _ => some hiVisit)).step
          (clientManager chatWire none) (peers fun _ => some hiVisit)) :=
  service_in_every_state chatWire chatWire_lawful none (fun _ => some hiVisit) _ _ _ _
    (.step (.step (.step (.init rfl) rfl) rfl) rfl)

end ServerStudy.Theorems.Service
