import ServerStudy.Core.FrameQueue
import ServerStudy.EcoClient.Alone
import ServerStudy.Theorems.Delivery
import ServerStudy.Theorems.FirstBad

/-!
# The client and a server it need not trust

A server may send frames of any numbers and payloads, at any time and cut in
any way. The client takes them one by one up to the first whose payload does
not parse; what it sends are the lines typed and the messages taken
(`taken_to_first_bad`). A client that is not connected takes lines for as long
as its buffer has room, and sends nothing (`unconnected_keeps`).
-/

namespace ServerStudy.Theorems.AnyServer

open ServerStudy.Core PacketBuffer Alone
open Lockstep (built_setPacket)

variable {codec : ChatCodec} {up : StartUp} {lines : List Text} {frames : List Frame}
  {s s' : Alone}

/-- The messages built fit a frame and are not empty. -/
def Sized (c : EcoClient) : Prop :=
  ∀ packet ∈ c.built, 0 < packet.byteSize ∧ packet.byteSize ≤ 65531

/-! ## What a step keeps -/

/-- What was built stays, and what was refused. -/
theorem grows_of_step (h : Step codec s s') :
    s.client.built <+: s'.client.built ∧ s.client.refused ≤ s'.client.refused := by
  cases h with
  | input line rest hpoint hline =>
      obtain ⟨hbuilt, hrefused, _⟩ :=
        Delivery.grows_setPacket codec { s.client with stdin := rest } line
      exact ⟨hbuilt, hrefused⟩
  | send hpoint hconnected => exact ⟨List.prefix_refl _, Nat.le_refl _⟩
  | sendFails hpoint => exact ⟨List.prefix_refl _, Nat.le_refl _⟩
  | recv chunk more hpoint hincoming hne hsize =>
      unfold EcoClient.recv
      split
      · exact ⟨List.prefix_refl _, Nat.le_succ _⟩
      · exact ⟨List.prefix_refl _, Nat.le_refl _⟩
  | recvFails hpoint => exact ⟨List.prefix_refl _, Nat.le_refl _⟩
  | take hpoint =>
      unfold EcoClient.take
      split
      · exact ⟨List.prefix_refl _, Nat.le_refl _⟩
      · next message _ =>
        obtain ⟨hbuilt, hrefused, _⟩ := Delivery.grows_setPacket codec
          { s.client with
            recvBuffer := s.client.recvBuffer.consumePacket
            parsed := s.client.parsed ++ [message] } message
        exact ⟨hbuilt, hrefused⟩

/-- The client has made `requests`, of which `w` are sent, and has taken the
messages of the first `k` frames. -/
structure Serves (codec : ChatCodec) (lines : List Text) (frames : List Frame) (s : Alone)
    (requests : List Text) (w k : Nat) : Prop where
  sendOrdered : s.client.sendBuffer.Ordered
  recvOrdered : s.client.recvBuffer.Ordered
  out : Pipe packetHeader codec.encode requests w 0 s.client.sendBuffer.unread s.sent []
  into : Pipe packetHeader Frame.stream frames frames.length k [] s.incoming
    s.client.recvBuffer.unread
  built : s.client.built = requests.map codec.packet
  parsed : (frames.take k).map (fun f => codec.parseFromArray f.bytes) = s.client.parsed.map some
  typed : ∃ typed, lines = typed ++ s.client.stdin ∧
    Interleaving typed s.client.parsed requests
  atSend : s.client.point = .send → s.client.sendBuffer.unread ≠ []
  atTake : s.client.point = .take → packetHeader.Complete s.client.recvBuffer.unread

section Steps

variable {requests : List Text} {w k : Nat}

/-- A message there is room for. -/
theorem serves_setPacket {c : EcoClient} {text : Text} (hord : c.sendBuffer.Ordered)
    (hsized : Sized (c.setPacket codec text)) (hroom : (c.setPacket codec text).refused = 0)
    {wire : List Byte}
    (hout : Pipe packetHeader codec.encode requests w 0 c.sendBuffer.unread wire []) :
    ∃ sb : PacketBuffer, sb.Ordered ∧ sb.unread ≠ [] ∧
      Pipe packetHeader codec.encode (requests ++ [text]) w 0 sb.unread wire [] ∧
      c.setPacket codec text =
        { c with
          point := .send
          sendBuffer := sb
          built := c.built ++ [codec.packet text] } := by
  have hlast : codec.packet text ∈ (c.setPacket codec text).built := by
    rw [built_setPacket]
    exact List.mem_append_right _ (List.mem_singleton_self _)
  obtain ⟨hpos, hsmall⟩ := hsized _ hlast
  exact Messages.queued_setPacket hord hpos hsmall hroom hout

theorem serves_start (h : (system codec up lines (frames.flatMap Frame.stream)).init s) :
    Serves codec lines frames s [] 0 0 := by
  obtain ⟨sendPast, recvPast, hstart⟩ := h
  rw [start] at hstart
  split at hstart <;> cases hstart
  have hout : Pipe packetHeader codec.encode [] 0 0 (PacketBuffer.new sendPast).unread [] [] := by
    rw [unread_new]
    exact Pipe.empty packetHeader codec.encode
  have hinto : Pipe packetHeader Frame.stream frames frames.length 0 []
      (frames.flatMap Frame.stream) (PacketBuffer.new recvPast).unread := by
    refine ⟨fun f _ => f.isFrame, Nat.zero_le _, Nat.le_refl _, ?_, ?_⟩
    · rw [List.drop_length]
      rfl
    · rw [unread_new, List.take_length]
      rfl
  refine ⟨new_ordered _, new_ordered _, hout, hinto, rfl, rfl, ⟨[], rfl, .nil⟩, ?_, ?_⟩
  · intro hpoint
    cases hpoint
  · intro hpoint
    cases hpoint

theorem serves_input (h : Serves codec lines frames s requests w k) {line : Text}
    {rest : List Text} (hline : s.client.stdin = line :: rest)
    (hsized : Sized (s.client.input codec line rest))
    (hroom : (s.client.input codec line rest).refused = 0) :
    Serves codec lines frames { s with client := s.client.input codec line rest }
      (requests ++ [line]) w k := by
  obtain ⟨sb, hsb, hne, hout, heq⟩ :=
    serves_setPacket (c := { s.client with stdin := rest }) h.sendOrdered hsized hroom h.out
  obtain ⟨typed, htyped, hmerge⟩ := h.typed
  rw [EcoClient.input, heq]
  refine ⟨hsb, h.recvOrdered, hout, h.into, ?_, h.parsed, ⟨typed ++ [line], ?_, hmerge.left line⟩,
    fun _ => hne, ?_⟩
  · show s.client.built ++ [codec.packet line] = _
    rw [h.built, List.map_append]
    rfl
  · rw [htyped, hline]
    exact List.append_cons ..
  · intro hpoint
    cases hpoint

theorem serves_send (h : Serves codec lines frames s requests w k)
    (hpoint : s.client.point = .send) :
    Serves codec lines frames
      { s with client := s.client.send, sent := s.sent ++ s.client.outgoing }
      requests (w + 1) k := by
  obtain ⟨text, rest, htext, hqueue, hout⟩ := h.out.transmit (h.out.wired_lt (h.atSend hpoint))
  have hframe := h.out.frames text (List.mem_of_getElem? htext)
  have hbytes := headBytes_of_frame hframe hqueue
  have hconsume := unread_consume_of_frame h.sendOrdered hframe hqueue
  refine ⟨consumePacket_ordered h.sendOrdered, h.recvOrdered, ?_, h.into, h.built, h.parsed,
    h.typed, ?_, ?_⟩
  · show Pipe _ _ _ _ _ s.client.sendBuffer.consumePacket.unread (s.sent ++ s.client.outgoing) []
    rw [hconsume, EcoClient.outgoing, hbytes]
    exact hout
  · intro hnext
    cases hnext
  · intro hnext
    cases hnext

/-- Back to `fgets`, nothing changed. -/
theorem serves_fails (h : Serves codec lines frames s requests w k) :
    Serves codec lines frames { s with client := { s.client with point := .input } } requests w k :=
  { h with
    atSend := fun hnext => by cases hnext
    atTake := fun hnext => by cases hnext }

theorem serves_recv (h : Serves codec lines frames s requests w k) {chunk more : List Byte}
    (hincoming : s.incoming = chunk ++ more) (hne : chunk ≠ [])
    (hsize : chunk.length ≤ maxBufSize) (hroom : (s.client.recv chunk).refused = 0) :
    Serves codec lines frames { s with client := s.client.recv chunk, incoming := more }
      requests w k := by
  rcases EcoClient.recv_cases h.recvOrdered hne hsize with
    ⟨_, rb, hrb, hunread, heq⟩ | ⟨_, hrefused⟩
  · have harrive := (hincoming ▸ h.into).arrive
    rw [heq]
    refine ⟨h.sendOrdered, hrb, h.out, ?_, h.built, h.parsed, h.typed, ?_, ?_⟩
    · show Pipe _ _ _ _ _ _ _ rb.unread
      rw [hunread]
      exact harrive
    · intro hnext
      dsimp only at hnext
      split at hnext <;> cases hnext
    · intro hnext
      dsimp only at hnext
      split at hnext
      · cases hnext
      · rename_i hable
        exact (isAbleToGetPacket_iff _).mp (Bool.eq_true_of_not_eq_false hable)
  · rw [hrefused] at hroom
    cases hroom

/-- The frame at the head is the next one; its message is taken if it parses,
and otherwise nothing changes. -/
theorem serves_take (h : Serves codec lines frames s requests w k)
    (hpoint : s.client.point = .take) (hsized : Sized (s.client.take codec))
    (hroom : (s.client.take codec).refused = 0) :
    ∃ requests w k, Serves codec lines frames { s with client := s.client.take codec }
      requests w k := by
  obtain ⟨f, u, hf, hlt, hu, hinto⟩ := h.into.take (h.atTake hpoint)
  have hpayload := payload_of_head hu
  have hconsume := unread_consume_of_head h.recvOrdered hu
  cases hparse : codec.parseFromArray f.bytes with
  | none =>
      have htake : s.client.take codec = { s.client with point := .input } := by
        rw [EcoClient.take, hpayload, hparse]
      rw [htake]
      exact ⟨requests, w, k, serves_fails h⟩
  | some message =>
      have htake : s.client.take codec =
          EcoClient.setPacket codec
            { s.client with
              recvBuffer := s.client.recvBuffer.consumePacket
              parsed := s.client.parsed ++ [message] }
            message := by
        rw [EcoClient.take, hpayload, hparse]
      rw [htake] at hsized hroom ⊢
      obtain ⟨sb, hsb, hne, hout, heq⟩ := serves_setPacket (c := { s.client with
          recvBuffer := s.client.recvBuffer.consumePacket
          parsed := s.client.parsed ++ [message] }) h.sendOrdered hsized hroom h.out
      obtain ⟨typed, htyped, hmerge⟩ := h.typed
      rw [heq]
      refine ⟨requests ++ [message], w, k + 1, hsb, consumePacket_ordered h.recvOrdered, hout, ?_,
        ?_, ?_, ⟨typed, htyped, hmerge.right message⟩, fun _ => hne, ?_⟩
      · show Pipe _ _ _ _ _ _ _ s.client.recvBuffer.consumePacket.unread
        rw [hconsume]
        exact hinto
      · show s.client.built ++ [codec.packet message] = _
        rw [h.built, List.map_append]
        rfl
      · rw [List.take_add_one, hf, List.map_append, h.parsed, List.map_append]
        exact congrArg (s.client.parsed.map some ++ [·]) hparse
      · intro hnext
        cases hnext

theorem serves_step (h : Serves codec lines frames s requests w k) (hstep : Step codec s s')
    (hsized : Sized s'.client) (hroom : s'.client.refused = 0) :
    ∃ requests w k, Serves codec lines frames s' requests w k := by
  cases hstep with
  | input line rest hpoint hline => exact ⟨_, _, _, serves_input h hline hsized hroom⟩
  | send hpoint hconnected => exact ⟨_, _, _, serves_send h hpoint⟩
  | sendFails hpoint => exact ⟨_, _, _, serves_fails h⟩
  | recv chunk more hpoint hincoming hne hsize =>
      exact ⟨_, _, _, serves_recv h hincoming hne hsize hroom⟩
  | recvFails hpoint => exact ⟨_, _, _, serves_fails h⟩
  | take hpoint => exact serves_take h hpoint hsized hroom

end Steps

theorem serves_of_reachable
    (h : (system codec up lines (frames.flatMap Frame.stream)).Reachable s)
    (hsized : Sized s.client) (hroom : s.client.refused = 0) :
    ∃ requests w k, Serves codec lines frames s requests w k := by
  induction h with
  | init hstart => exact ⟨_, _, _, serves_start hstart⟩
  | step _ hmove ih =>
      obtain ⟨hbuilt, hrefused⟩ := grows_of_step hmove
      obtain ⟨_, _, _, hserves⟩ := ih (fun packet hpacket => hsized packet (hbuilt.subset hpacket))
        (Nat.le_zero.mp (hroom ▸ hrefused))
      exact serves_step hserves hmove hsized hroom

/-- Whatever frames a server sends, in every state of the client in which
nothing has been refused and every message built fits a frame: the messages
taken are those of the first frames, which all parse, whatever their numbers;
the bytes unread and still to come are the other frames; and what is sent and
queued is the requests, the lines typed and the messages taken, merged. No
frame is taken from the first that does not parse on. -/
theorem taken_to_first_bad (h : (system codec up lines (frames.flatMap Frame.stream)).Reachable s)
    (hsized : ∀ packet ∈ s.client.built, 0 < packet.byteSize ∧ packet.byteSize ≤ 65531)
    (hrefused : s.client.refused = 0) :
    (frames.take s.client.parsed.length).map (fun f => codec.parseFromArray f.bytes) =
        s.client.parsed.map some ∧
      s.client.recvBuffer.unread ++ s.incoming =
        (frames.drop s.client.parsed.length).flatMap Frame.stream ∧
      (∃ typed requests, lines = typed ++ s.client.stdin ∧
        Interleaving typed s.client.parsed requests ∧
        s.client.built = requests.map codec.packet ∧
        s.sent ++ s.client.sendBuffer.unread = requests.flatMap codec.encode) ∧
      ∀ i f, frames[i]? = some f → codec.parseFromArray f.bytes = none →
        s.client.parsed.length ≤ i := by
  obtain ⟨requests, w, k, hserves⟩ := serves_of_reachable h hsized hrefused
  have hk : k = s.client.parsed.length := by
    have hcount := congrArg List.length hserves.parsed
    rw [List.length_map, List.length_map, List.length_take,
      Nat.min_eq_left hserves.into.taken_le] at hcount
    exact hcount
  subst hk
  obtain ⟨typed, htyped, hmerge⟩ := hserves.typed
  refine ⟨hserves.parsed, ?_,
    ⟨typed, requests, htyped, hmerge, hserves.built, hserves.out.bytes⟩, ?_⟩
  · have hbytes := hserves.into.bytes
    rw [List.append_nil] at hbytes
    exact hbytes
  · intro i f hf hbad
    by_contra hlt
    have hget := congrArg (fun parsed => parsed[i]?) hserves.parsed
    rw [List.getElem?_map, List.getElem?_take_of_lt (Nat.not_le.mp hlt), hf, List.getElem?_map,
      List.getElem?_eq_getElem (Nat.not_le.mp hlt), Option.map_some, Option.map_some, hbad] at hget
    cases hget

/-- A server's hi under a number of its own, a frame that does not parse, and
hi again. -/
def oddFrames : List Frame :=
  [⟨⟨7, chatWire.serialize [104, 105]⟩, by decide⟩, FirstBad.otherFrame, hiFrame]

/-- A client at which a has been typed, before such a server. -/
def aTyped : Alone where
  client := .new [[97]] (fun _ => 0) (fun _ => 0)
  connected := true
  incoming := oddFrames.flatMap Frame.stream
  sent := []

/-- It has sent a, and the first frame has come in, with the beginning of the
second. -/
def hiCame : Alone :=
  { aTyped with
    client := (aTyped.client.input chatWire [97] []).send.recv [8, 0, 7, 0, 10, 2, 104, 105, 5]
    incoming := [0, 7, 0, 1] ++ hiFrame.stream
    sent := [7, 0, 0, 0, 10, 1, 97] }

/-- It has sent hi, and the second frame does not parse. -/
def hiSent : Alone :=
  { hiCame with
    client := ((hiCame.client.take chatWire).send.recv [0, 7, 0, 1]).take chatWire
    incoming := hiFrame.stream
    sent := [7, 0, 0, 0, 10, 1, 97] ++ [8, 0, 0, 0, 10, 2, 104, 105] }

theorem hiSent_reachable : (system chatWire ⟨true, true, true⟩ [[97]]
    (oddFrames.flatMap Frame.stream)).Reachable hiSent := by
  have hstart : (system chatWire ⟨true, true, true⟩ [[97]]
      (oddFrames.flatMap Frame.stream)).Reachable aTyped := .init ⟨fun _ => 0, fun _ => 0, rfl⟩
  have htyped := hstart.step (.input _ [97] [] rfl rfl)
  have hsent := htyped.step (.send _ (by decide +kernel) rfl)
  have hcame : (system chatWire ⟨true, true, true⟩ [[97]]
      (oddFrames.flatMap Frame.stream)).Reachable hiCame :=
    hsent.step (.recv _ [8, 0, 7, 0, 10, 2, 104, 105, 5] ([0, 7, 0, 1] ++ hiFrame.stream)
      (by decide +kernel) (by decide) (by decide) (by decide))
  have htaken := hcame.step (.take _ (by decide +kernel))
  have hagain := htaken.step (.send _ (by decide +kernel) rfl)
  have hbad := hagain.step (.recv _ [0, 7, 0, 1] hiFrame.stream
    (by decide +kernel) (by decide) (by decide) (by decide))
  exact hbad.step (.take _ (by decide +kernel))

theorem hi_taken_to_first_bad :
    (oddFrames.take hiSent.client.parsed.length).map (fun f => chatWire.parseFromArray f.bytes) =
        hiSent.client.parsed.map some ∧
      hiSent.client.recvBuffer.unread ++ hiSent.incoming =
        (oddFrames.drop hiSent.client.parsed.length).flatMap Frame.stream ∧
      (∃ typed requests, [[97]] = typed ++ hiSent.client.stdin ∧
        Interleaving typed hiSent.client.parsed requests ∧
        hiSent.client.built = requests.map chatWire.packet ∧
        hiSent.sent ++ hiSent.client.sendBuffer.unread = requests.flatMap chatWire.encode) ∧
      ∀ i f, oddFrames[i]? = some f → chatWire.parseFromArray f.bytes = none →
        hiSent.client.parsed.length ≤ i :=
  taken_to_first_bad hiSent_reachable (by decide +kernel) (by decide +kernel)

/-! ## Without a connection -/

/-- The buffer after some lines, each of which it takes if it has room. -/
def keep (codec : ChatCodec) (typed : List Text) : FrameQueue codec.encode maxBufSize :=
  run (fun queue line => (queue.push line).2) .empty typed

theorem keep_concat (codec : ChatCodec) (typed : List Text) (line : Text) :
    keep codec (typed ++ [line]) = ((keep codec typed).push line).2 := by
  rw [keep, run_append]
  rfl

/-- The client has read `typed` and has not been connected. -/
structure Offline (codec : ChatCodec) (lines : List Text) (incoming : List Byte) (s : Alone)
    (typed : List Text) : Prop where
  ordered : s.client.sendBuffer.Ordered
  connected : s.connected = false
  point : s.client.point = .input ∨ s.client.point = .send
  lines : lines = typed ++ s.client.stdin
  kept : s.client.sendBuffer.unread = (keep codec typed).items.flatMap codec.encode
  refused : s.client.refused + (keep codec typed).items.length = typed.length
  untouched : s.client.recvBuffer.unread = [] ∧ s.client.parsed = [] ∧ s.sent = [] ∧
    s.incoming = incoming

/-- A line is kept if there is room, and refused otherwise. -/
theorem offline_input {incoming : List Byte} {typed : List Text}
    (h : Offline codec lines incoming s typed) {line : Text} {rest : List Text}
    (hline : s.client.stdin = line :: rest) (hpos : 0 < (codec.packet line).byteSize)
    (hsmall : (codec.packet line).byteSize ≤ 65531) :
    Offline codec lines incoming { s with client := s.client.input codec line rest }
      (typed ++ [line]) := by
  have hnext : lines = typed ++ [line] ++ rest := by
    rw [h.lines, hline]
    exact List.append_cons ..
  have hlen := codec.length_encode line
  have hcount := h.refused
  rw [EcoClient.input, EcoClient.setPacket]
  have hplace : s.client.sendBuffer.HeaderFits (codec.packet line) := headerFits_of_small hsmall
  have hord := setPacket_ordered h.ordered hplace
  rcases setPacket_small h.ordered hpos hsmall with ⟨hroom, hok, hunread⟩ | ⟨hfull, hno, hunread⟩
  · rw [h.kept, ← hlen] at hroom
    have hpush := FrameQueue.push_of_room hroom
    rcases hset : s.client.sendBuffer.setPacket (codec.packet line) with ⟨ok, sb⟩
    rw [hset] at hok hunread hord
    cases hok
    refine ⟨hord, h.connected, .inr rfl, hnext, ?_, ?_, h.untouched⟩
    · rw [keep_concat, hpush, List.flatMap_append, List.flatMap_singleton, ← h.kept]
      exact hunread
    · rw [keep_concat, hpush, List.length_append, List.length_append]
      show s.client.refused + (_ + 1) = _ + 1
      omega
  · rw [h.kept, ← hlen] at hfull
    have hpush := FrameQueue.push_of_full hfull
    rcases hset : s.client.sendBuffer.setPacket (codec.packet line) with ⟨ok, sb⟩
    rw [hset] at hno hunread hord
    cases hno
    refine ⟨hord, h.connected, .inl rfl, hnext, ?_, ?_, h.untouched⟩
    · rw [keep_concat, hpush, ← h.kept]
      exact hunread
    · rw [keep_concat, hpush, List.length_append, List.length_singleton]
      show s.client.refused + 1 + _ = _
      omega

/-- A client whose `socket` or `connect` has failed goes on reading lines. If
each of them fits a frame then at any time its buffer holds those for which
there was room, in order, each is kept or refused, and nothing is ever sent or
received. -/
theorem unconnected_keeps {incoming : List Byte} (hup : up.socket = false ∨ up.connect = false)
    (hsized : ∀ line ∈ lines,
      0 < (codec.packet line).byteSize ∧ (codec.packet line).byteSize ≤ 65531)
    (h : (system codec up lines incoming).Reachable s) :
    ∃ typed, lines = typed ++ s.client.stdin ∧
      s.client.sendBuffer.unread = (keep codec typed).items.flatMap codec.encode ∧
      s.client.refused + (keep codec typed).items.length = typed.length ∧
      s.client.recvBuffer.unread = [] ∧ s.client.parsed = [] ∧ s.sent = [] ∧
      s.incoming = incoming := by
  have hoffline : ∃ typed, Offline codec lines incoming s typed := by
    refine h.invariant (fun s => ∃ typed, Offline codec lines incoming s typed) ?_ ?_
    · rintro s ⟨sendPast, recvPast, hstart⟩
      rw [start] at hstart
      split at hstart <;> cases hstart
      refine ⟨[], new_ordered _, ?_, .inl rfl, rfl, unread_new _, rfl, unread_new _, rfl, rfl, rfl⟩
      rcases hup with hsocket | hconnect
      · exact (congrArg (· && up.connect) hsocket).trans rfl
      · exact (congrArg (up.socket && ·) hconnect).trans (Bool.and_false _)
    · rintro s s' ⟨typed, hs⟩ hstep
      cases hstep with
      | input line rest hpoint hline =>
          obtain ⟨hpos, hsmall⟩ := hsized line (by
            rw [hs.lines, hline]
            exact List.mem_append_right _ List.mem_cons_self)
          exact ⟨_, offline_input hs hline hpos hsmall⟩
      | send hpoint hconnected => cases hs.connected.symm.trans hconnected
      | sendFails hpoint => exact ⟨typed, { hs with point := .inl rfl }⟩
      | recv chunk more hpoint hincoming hne hsize =>
          rcases hs.point with hother | hother <;> cases hpoint.symm.trans hother
      | recvFails hpoint => exact ⟨typed, { hs with point := .inl rfl }⟩
      | take hpoint =>
          rcases hs.point with hother | hother <;> cases hpoint.symm.trans hother
  obtain ⟨typed, hs⟩ := hoffline
  exact ⟨typed, hs.lines, hs.kept, hs.refused, hs.untouched⟩

/-- A client that could not connect, after its first line. -/
def aKept : Alone :=
  { aTyped with
    client := (aTyped.client.input chatWire [97] []).sendFailed
    connected := false }

theorem a_kept : ∃ typed, [[97]] = typed ++ aKept.client.stdin ∧
    aKept.client.sendBuffer.unread = (keep chatWire typed).items.flatMap chatWire.encode ∧
    aKept.client.refused + (keep chatWire typed).items.length = typed.length ∧
    aKept.client.recvBuffer.unread = [] ∧ aKept.client.parsed = [] ∧ aKept.sent = [] ∧
    aKept.incoming = oddFrames.flatMap Frame.stream := by
  have hstart : (system chatWire ⟨true, true, false⟩ [[97]]
      (oddFrames.flatMap Frame.stream)).Reachable { aTyped with connected := false } :=
    .init ⟨fun _ => 0, fun _ => 0, rfl⟩
  have htyped := hstart.step (.input _ [97] [] rfl rfl)
  exact unconnected_keeps (.inr rfl) (by decide)
    (htyped.step (.sendFails _ (by decide +kernel)))

end ServerStudy.Theorems.AnyServer
