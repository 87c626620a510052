import ServerStudy.Core.Progress
import ServerStudy.Theorems.Delivery

/-!
# A client that waits

A client in `recv` is stuck if its reply is stuck in the server's send buffer
(`stranded_of_stuck`): the server sends only when it has handled a request, and
the client makes none before the reply has come. If the server's `send` does
not fail this cannot be, and whichever way the parties then move the reply
reaches the client, if no `recv` of the client fails first (`reply_inevitable`).
-/

namespace ServerStudy.Theorems.NoDeadlock

open ServerStudy.Core PacketBuffer Echo Messages Delivery
open Lockstep (Bounded)

variable {codec : ChatCodec} {faults : Fault → Prop} {lines : List Text} {s s' : Echo}
  {requests replies : List Text} {cw sw : Nat}

/-- A server that cannot move waits for bytes, and a client in `recv` beside it
has no bytes to take. -/
theorem idle_of_stuck (hstuck : ∀ s', ¬ Step codec s s') (hpoint : s.client.point = .recv) :
    s.server.point = .recv ∧ s.upstream = [] ∧ s.downstream = [] := by
  have hserver : s.server.point = .recv := by
    cases hcase : s.server.point with
    | recv => rfl
    | handle => exact absurd (.serverHandle s hcase) (hstuck _)
    | send => exact absurd (.serverSend s hcase) (hstuck _)
  refine ⟨hserver, ?_, ?_⟩
  · cases hup : s.upstream with
    | nil => rfl
    | cons b more =>
        exact absurd (.serverRecv s [b] more hserver hup (by simp) (by simp)) (hstuck _)
  · cases hdown : s.downstream with
    | nil => rfl
    | cons b more =>
        exact absurd (.clientRecv s [b] more hpoint hdown (by simp) (by simp [maxBufSize]))
          (hstuck _)

/-- Then all requests sent are answered, and not all replies are sent. -/
theorem unsent_of_stuck (h : Account codec faults lines s requests replies cw sw)
    (hstuck : ∀ s', ¬ Step codec s s') (hpoint : s.client.point = .recv) :
    replies.length = cw ∧ s.server.rest.sendBuffer.unread ≠ [] := by
  obtain ⟨hserver, hup, hdown⟩ := idle_of_stuck hstuck hpoint
  have hpipe := h.up
  rw [hup] at hpipe
  obtain ⟨hall, _⟩ := hpipe.settled (h.serverAtRecv hserver)
  refine ⟨hall, ?_⟩
  rcases h.expects hpoint with hwaiting | hqueued
  · omega
  · rw [hdown] at hqueued
    exact hqueued

/-- So a `send` of the server may fail. -/
theorem serverSend_of_stuck (h : Account codec faults lines s requests replies cw sw)
    (hstuck : ∀ s', ¬ Step codec s s') (hpoint : s.client.point = .recv) :
    faults .serverSend := by
  obtain ⟨hidle, _, _⟩ := idle_of_stuck hstuck hpoint
  obtain ⟨_, hqueued⟩ := unsent_of_stuck h hstuck hpoint
  have hunsent := h.down.wired_lt hqueued
  by_contra hnever
  have hprompt := h.prompt hnever
  rw [hidle] at hprompt
  have hall : sw = replies.length := hprompt
  omega

/-- A client that waits while nothing can move, though nothing has been refused,
has not been sent all replies: a `send` of the server has failed, and those
from the `k`-th on are queued. -/
theorem stranded_of_stuck (hcodec : codec.Lawful)
    (h : (faultySystem codec faults lines).Reachable s)
    (hbounded : ∀ packet ∈ s.client.built ++ s.server.built, packet.byteSize ≤ 65531)
    (hclient : s.client.refused = 0) (hserver : s.server.refused = 0)
    (hpoint : s.client.point = .recv) (hstuck : ∀ s', ¬ Step codec s s') :
    faults .serverSend ∧ ∃ (replies : List Text) (k : Nat),
      s.server.built = replies.map codec.packet ∧ k < replies.length ∧
      s.server.rest.sendBuffer.unread = (replies.drop k).flatMap codec.encode ∧
      s.client.recvBuffer.unread =
        ((replies.take k).drop s.client.parsed.length).flatMap codec.encode := by
  obtain ⟨_, requests, replies, cw, sw, ha⟩ :=
    account_of_reachable hcodec h hbounded ⟨hclient, hserver⟩
  obtain ⟨_, _, hdown⟩ := idle_of_stuck hstuck hpoint
  obtain ⟨_, hqueued⟩ := unsent_of_stuck ha hstuck hpoint
  have hmoving := ha.down.moving
  rw [hdown, List.append_nil] at hmoving
  exact ⟨serverSend_of_stuck ha hstuck hpoint, replies, sw, ha.serverBuilt,
    ha.down.wired_lt hqueued, ha.down.queued, hmoving⟩

theorem hoIdle_stuck : ∀ s', ¬ Step chatWire hoIdle s' := by
  intro s' hstep
  cases hstep with
  | clientInput line rest hpoint hline => exact absurd hpoint (by decide +kernel)
  | clientSend hpoint => exact absurd hpoint (by decide +kernel)
  | clientTake hpoint => exact absurd hpoint (by decide +kernel)
  | serverHandle hpoint => exact absurd hpoint (by decide +kernel)
  | serverSend hpoint => exact absurd hpoint (by decide +kernel)
  | clientRecv chunk more hpoint hchannel hne hsize =>
      exact hne (List.append_eq_nil_iff.mp hchannel.symm).1
  | serverRecv chunk more hpoint hchannel hne hsize =>
      exact hne (List.append_eq_nil_iff.mp hchannel.symm).1

theorem ho_stranded :
    sendsFail .serverSend ∧ ∃ (replies : List Text) (k : Nat),
      hoIdle.server.built = replies.map chatWire.packet ∧ k < replies.length ∧
      hoIdle.server.rest.sendBuffer.unread = (replies.drop k).flatMap chatWire.encode ∧
      hoIdle.client.recvBuffer.unread =
        ((replies.take k).drop hoIdle.client.parsed.length).flatMap chatWire.encode :=
  stranded_of_stuck chatWire_lawful hoIdle_reachable (by decide +kernel) (by decide +kernel)
    (by decide +kernel) (by decide +kernel) hoIdle_stuck

/-! ## The variant -/

/-- Bytes on their way to the server, twice those in the channel, and one or
two for a pass of its loop. -/
def serverWork (s : Echo) : Nat :=
  2 * s.server.recvBuffer.unread.length + 4 * s.upstream.length +
    match s.server.point with
    | .recv => 0
    | .handle => 1
    | .send => 2

/-- What is left to do, the server's part first. -/
def remaining (s : Echo) : Nat × Nat := (serverWork s, s.downstream.length)

/-- The order of `remaining`. -/
abbrev Less : Nat × Nat → Nat × Nat → Prop := Prod.Lex (· < ·) (· < ·)

/-- While the client waits every step brings its reply nearer. -/
theorem remaining_step (hcodec : codec.Lawful)
    (h : Account codec faults lines s requests replies cw sw) (hpoint : s.client.point = .recv)
    (hstep : Step codec s s') (hbounded : Bounded s') (hroom : Unrefused s') :
    (s'.client.point = .recv ∨ s'.client.point = .take) ∧ Less (remaining s') (remaining s) := by
  cases hstep with
  | clientInput line rest hturn hline => rw [hturn] at hpoint; cases hpoint
  | clientSend hturn => rw [hturn] at hpoint; cases hpoint
  | clientTake hturn => rw [hturn] at hpoint; cases hpoint
  | clientRecv chunk more hturn hchannel hne hsize =>
      have hshorter : more.length < s.downstream.length := by
        have hpos := List.length_pos_iff.mpr hne
        rw [hchannel, List.length_append]
        omega
      rcases EcoClient.recv_cases h.sound.clientRecv hne hsize with
        ⟨_, rb, _, _, heq⟩ | ⟨_, hrefused⟩
      · refine ⟨?_, .right _ hshorter⟩
        rw [heq]
        show (if rb.isAbleToGetPacket = false then ClientPoint.recv else .take) = _ ∨ _
        split
        · exact .inl rfl
        · exact .inr rfl
      · have hnone := hroom.1
        rw [show (s.client.recv chunk).refused = _ from hrefused] at hnone
        cases hnone
  | serverRecv chunk more hturn hchannel hne hsize =>
      refine ⟨.inl hpoint, .left _ _ ?_⟩
      rcases EchoServer.recv_cases h.sound.serverRecv hne with
        ⟨_, rb, _, hunread, heq⟩ | ⟨_, hrefused⟩
      · have hpos := List.length_pos_iff.mpr hne
        rw [heq]
        simp only [serverWork, hturn, hchannel, hunread, List.length_append]
        omega
      · have hnone := hroom.2
        rw [show (s.server.recv chunk).refused = _ from hrefused] at hnone
        cases hnone
  | serverHandle hturn =>
      refine ⟨.inl hpoint, .left _ _ ?_⟩
      by_cases hable : packetHeader.Complete s.server.recvBuffer.unread
      · -- the request handled is off the way
        obtain ⟨text, u, htext, _, hu, _⟩ := h.up.take hable
        have hfits := h.fits text (List.mem_append_left _ (List.mem_of_getElem? htext))
        obtain ⟨hno, hparse⟩ := read_head hcodec h.sound.serverRecv hfits hu
        have hrest := consume_head h.sound.serverRecv hfits hu
        have hlen := congrArg List.length hu
        rw [List.length_append, codec.length_encode] at hlen
        rw [handle_of_parsed ((isAbleToGetPacket_iff _).mpr hable) hno hparse]
        simp only [serverWork, hturn, hrest]
        split <;> omega
      · rw [handle_of_not_able hable]
        simp only [serverWork, hturn]
        omega
  | serverSend hturn =>
      refine ⟨.inl hpoint, .left _ _ ?_⟩
      simp only [serverWork, EchoServer.send, hturn]
      omega

/-- Where the client waits and all is accounted for. -/
def Awaiting (codec : ChatCodec) (faults : Fault → Prop) (lines : List Text) (s : Echo) : Prop :=
  s.client.point = .recv ∧
    ∃ requests replies cw sw, Account codec faults lines s requests replies cw sw

/-- How a wait can end: with a whole reply, or with a failed `recv` where it may
fail, unless a message has become too long or a buffer has refused one. -/
def WaitOver (later : Fault → Prop) (s : Echo) : Prop :=
  s.client.point = .take ∨ (later .clientRecv ∧ s.client.point = .input) ∨
    ¬ Bounded s ∨ ¬ Unrefused s

/-- A step of a wait, failed calls included. -/
theorem wait_step {later : Fault → Prop} (hcodec : codec.Lawful)
    (hshort : ∀ line ∈ lines, line.length < 65535) (hnever : ¬ faults .serverSend)
    (hlater : ∀ fault, later fault → faults fault) (h : Awaiting codec faults lines s)
    (hstep : FaultyStep codec later s s') :
    WaitOver later s' ∨
      Awaiting codec faults lines s' ∧ Less (remaining s') (remaining s) := by
  obtain ⟨hpoint, requests, replies, cw, sw, ha⟩ := h
  by_cases hbounded : Bounded s'
  · by_cases hroom : Unrefused s'
    · have haccount :=
        account_step hcodec hshort ha (hstep.mono hlater) hbounded hroom
      cases hstep with
      | moves hmove =>
          obtain ⟨hnext, hless⟩ := remaining_step hcodec ha hpoint hmove hbounded hroom
          rcases hnext with hrecv | htake
          · exact .inr ⟨⟨hrecv, haccount⟩, hless⟩
          · exact .inl (.inl htake)
      | clientSendFails hfault hturn => rw [hturn] at hpoint; cases hpoint
      | clientRecvFails hfault hturn => exact .inl (.inr (.inl ⟨hfault, rfl⟩))
      | serverSendFails hfault hturn => exact absurd (hlater _ hfault) hnever
    · exact .inl (.inr (.inr (.inr hroom)))
  · exact .inl (.inr (.inr (.inl hbounded)))

/-- If the server's `send` does not fail then a client that waits gets a whole
reply, whichever way the parties move, unless its own `recv` fails first, a
message has become too long or a buffer has refused one. `faults` may have
failed before, `later` from then on. -/
theorem reply_inevitable {later : Fault → Prop} (hcodec : codec.Lawful)
    (hnever : ¬ faults .serverSend) (hlater : ∀ fault, later fault → faults fault)
    (h : (faultySystem codec faults lines).Reachable s)
    (hbounded : ∀ packet ∈ s.client.built ++ s.server.built, packet.byteSize ≤ 65531)
    (hclient : s.client.refused = 0) (hserver : s.server.refused = 0)
    (hpoint : s.client.point = .recv) :
    Inevitably (FaultyStep codec later) (WaitOver later) s := by
  obtain ⟨hshort, haccount⟩ := account_of_reachable hcodec h hbounded ⟨hclient, hserver⟩
  refine inevitably_of_variant (WellFounded.prod_lex Nat.lt_wfRel.wf Nat.lt_wfRel.wf) remaining
    (Awaiting codec faults lines) ?_ ⟨hpoint, haccount⟩
  intro s hwait _
  refine ⟨?_, fun s' hstep => wait_step hcodec hshort hnever hlater hwait hstep⟩
  obtain ⟨hpoint, requests, replies, cw, sw, ha⟩ := hwait
  by_contra hnone
  have hstuck : ∀ s', ¬ Step codec s s' := fun s' hs' => hnone ⟨s', .moves hs'⟩
  exact hnever (serverSend_of_stuck ha hstuck hpoint)

/-- The client's first `send` has failed, and nothing fails any more. -/
theorem ho_reply_inevitable :
    Inevitably (FaultyStep chatWire fun _ => False) (WaitOver fun _ => False) hoSent :=
  reply_inevitable chatWire_lawful (not_not_intro rfl) (fun _ => False.elim)
    (hoSent_reachable (show clientFails .clientSend from Fault.noConfusion)) (by decide +kernel)
    (by decide +kernel) (by decide +kernel) (by decide +kernel)

end ServerStudy.Theorems.NoDeadlock
