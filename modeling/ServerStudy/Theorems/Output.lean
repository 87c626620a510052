import ServerStudy.Logic.Send

/-!
# Output is ordered and free of duplicates

A failed `send` leaves its frame queued, and the next call of `SendPacket`
sends it before its own. So the send buffer holds whole frames, the oldest
first: the frames of the messages `SetPacket` took are those on the wire,
followed by those in the buffer.
-/

namespace ServerStudy.Theorems.Output

open ServerStudy.Core PacketBuffer

/-- Each `send` transmits all it is given, or fails and transmits nothing. -/
def AllOrNothing (outcome : Nat → Nat → SendResult) : Prop :=
  ∀ i size, outcome i size = .socketError ∨ outcome i size = .sent size

/-- The sending half of a new session on a connection. -/
def fresh (sendPast : Mem Byte) (outcome : Nat → Nat → SendResult) (count : UInt64) :
    ClientState := ⟨.new sendPast, ⟨outcome, []⟩, count⟩

/-- The session after calls of `SendPacket`. -/
def sendAll (s : ClientState) (packets : List Packet) : ClientState :=
  run (fun s packet => (s.sendPacket packet).2) s packets

/-- The messages of these calls for which `SetPacket` returns true. -/
def queued : ClientState → List Packet → List Packet
  | _, [] => []
  | s, packet :: rest =>
      (if (s.sendBuffer.setPacket packet).1 = true then [packet] else []) ++
        queued (s.sendPacket packet).2 rest

/-- How many of the calls did not fail. -/
def delivered (calls : List (List Byte × SendResult)) : Nat :=
  calls.countP fun call => decide (call.2 ≠ .socketError)

@[simp] theorem delivered_failed (calls : List (List Byte × SendResult)) (data : List Byte) :
    delivered (calls ++ [(data, .socketError)]) = delivered calls := by
  simp [delivered]

@[simp] theorem delivered_sent (calls : List (List Byte × SendResult)) (data : List Byte)
    (count : Nat) : delivered (calls ++ [(data, .sent count)]) = delivered calls + 1 := by
  simp [delivered]

/-- The frames of `taken` are on the wire up to the number of successful
calls, and queued from there on; every call was given the oldest frame that
was not on the wire. -/
structure Ledger (taken : List Packet) (s : ClientState) : Prop where
  ordered : s.sendBuffer.Ordered
  outcome : AllOrNothing s.clientSock.outcome
  small : ∀ packet ∈ taken, packet.byteSize ≤ 65531
  bound : delivered s.clientSock.calls ≤ taken.length
  transmitted : s.clientSock.transmitted =
    (taken.take (delivered s.clientSock.calls)).flatMap Packet.frame
  unread : s.sendBuffer.unread =
    (taken.drop (delivered s.clientSock.calls)).flatMap Packet.frame
  eachCall : ∀ i data result, s.clientSock.calls[i]? = some (data, result) →
    ∃ packet, taken[delivered (s.clientSock.calls.take i)]? = some packet ∧
      data = packet.frame ∧
      (s.clientSock.calls.take i).flatMap Socket.taken =
        (taken.take (delivered (s.clientSock.calls.take i))).flatMap Packet.frame

namespace Ledger

variable {taken : List Packet} {s : ClientState}

/-- A buffer with the same unread bytes serves as well. -/
theorem refused (h : Ledger taken s) {sb : PacketBuffer} (hord : sb.Ordered)
    (hunread : sb.unread = s.sendBuffer.unread) :
    Ledger taken { s with sendBuffer := sb } := by
  refine ⟨hord, h.outcome, h.small, h.bound, h.transmitted, ?_, h.eachCall⟩
  show sb.unread = _
  rw [hunread, h.unread]

/-- `SetPacket` adds a frame at the end. -/
theorem queue (h : Ledger taken s) {packet : Packet} (hsmall : packet.byteSize ≤ 65531)
    {sb : PacketBuffer} (hord : sb.Ordered)
    (hunread : sb.unread = s.sendBuffer.unread ++ packet.frame) :
    Ledger (taken ++ [packet]) { s with sendBuffer := sb } := by
  have hbound := h.bound
  refine ⟨hord, h.outcome, ?_, ?_, ?_, ?_, ?_⟩
  · intro p hp
    rcases List.mem_append.mp hp with hold | hnew
    · exact h.small p hold
    · rw [List.mem_singleton.mp hnew]
      exact hsmall
  · rw [List.length_append]
    exact Nat.le_trans hbound (Nat.le_add_right ..)
  · rw [List.take_append_of_le_length hbound]
    exact h.transmitted
  · show sb.unread = _
    rw [List.drop_append_of_le_length hbound, List.flatMap_append, ← h.unread, hunread]
    simp
  · intro i data result hi
    obtain ⟨p, hp, hdata, hbefore⟩ := h.eachCall i data result hi
    have hlt := (List.getElem?_eq_some_iff.mp hp).1
    refine ⟨p, ?_, hdata, ?_⟩
    · rw [List.getElem?_append_left hlt]
      exact hp
    · rw [List.take_append_of_le_length (Nat.le_of_lt hlt)]
      exact hbefore

section Send

variable {packet : Packet} {rest : List Byte}

/-- The oldest frame that is not on the wire is the head of the buffer. -/
theorem head (h : Ledger taken s) (hpending : delivered s.clientSock.calls < taken.length) :
    ∃ packet, taken[delivered s.clientSock.calls]? = some packet ∧
      s.headBytes = packet.frame ∧
      s.sendBuffer.consumePacket.unread =
        (taken.drop (delivered s.clientSock.calls + 1)).flatMap Packet.frame := by
  obtain ⟨packet, hget⟩ : ∃ packet, taken[delivered s.clientSock.calls]? = some packet :=
    ⟨_, List.getElem?_eq_getElem hpending⟩
  obtain ⟨f, hf⟩ : ∃ f : Frame, f.stream = packet.frame :=
    ⟨⟨packet, h.small packet (List.mem_of_getElem? hget)⟩, rfl⟩
  have hsplit : taken.drop (delivered s.clientSock.calls) =
      packet :: taken.drop (delivered s.clientSock.calls + 1) := by
    rw [List.drop_eq_getElem_cons hpending]
    rw [List.getElem?_eq_getElem hpending] at hget
    cases hget
    rfl
  have hhead : s.sendBuffer.unread =
      f.stream ++ (taken.drop (delivered s.clientSock.calls + 1)).flatMap Packet.frame := by
    rw [h.unread, hsplit, List.flatMap_cons, hf]
  refine ⟨packet, hget, ?_, unread_consume_of_head h.ordered hhead⟩
  rw [ClientState.headBytes_of_head hhead, hf]

/-- The new call was given the frame that follows those on the wire. -/
theorem eachCall_sending (h : Ledger taken s)
    (hget : taken[delivered s.clientSock.calls]? = some packet)
    (hdata : s.headBytes = packet.frame) (result : SendResult) (i : Nat) (data : List Byte)
    (result' : SendResult) (hi : (s.sending result).clientSock.calls[i]? = some (data, result')) :
    ∃ p, taken[delivered ((s.sending result).clientSock.calls.take i)]? = some p ∧
      data = p.frame ∧
      ((s.sending result).clientSock.calls.take i).flatMap Socket.taken =
        (taken.take (delivered ((s.sending result).clientSock.calls.take i))).flatMap
          Packet.frame := by
  rw [ClientState.sending_calls] at hi ⊢
  have hlt := (List.getElem?_eq_some_iff.mp hi).1
  rw [List.length_append, List.length_singleton] at hlt
  rw [List.take_append_of_le_length (by omega)]
  by_cases hold : i < s.clientSock.calls.length
  · rw [List.getElem?_append_left hold] at hi
    exact h.eachCall i data result' hi
  · -- the new call: everything before it is all that was sent
    have hlast : i = s.clientSock.calls.length := by omega
    subst hlast
    rw [List.getElem?_append_right (Nat.le_refl _), Nat.sub_self] at hi
    cases hi
    rw [List.take_length]
    exact ⟨packet, hget, hdata, h.transmitted⟩

/-- A failed call leaves the frame queued. -/
theorem failed (h : Ledger taken s)
    (hget : taken[delivered s.clientSock.calls]? = some packet)
    (hdata : s.headBytes = packet.frame) : Ledger taken (s.sending .socketError) where
  ordered := h.ordered
  outcome := h.outcome
  small := h.small
  bound := by
    rw [ClientState.sending_calls, delivered_failed]
    exact h.bound
  transmitted := by
    rw [ClientState.sending_transmitted, ClientState.sending_calls, delivered_failed,
      h.transmitted]
    exact List.append_nil _
  unread := by
    rw [ClientState.sending_sendBuffer, ClientState.sending_calls, delivered_failed]
    exact h.unread
  eachCall := h.eachCall_sending hget hdata .socketError

/-- A call that does not fail puts the frame on the wire. -/
theorem sent (h : Ledger taken s)
    (hget : taken[delivered s.clientSock.calls]? = some packet)
    (hdata : s.headBytes = packet.frame)
    (hrest : s.sendBuffer.consumePacket.unread =
      (taken.drop (delivered s.clientSock.calls + 1)).flatMap Packet.frame) :
    Ledger taken { s.sending (.sent s.headBytes.length) with
      sendBuffer := s.sendBuffer.consumePacket } where
  ordered := consumePacket_ordered h.ordered
  outcome := h.outcome
  small := h.small
  bound := by
    rw [ClientState.sending_calls, delivered_sent]
    exact (List.getElem?_eq_some_iff.mp hget).1
  transmitted := by
    rw [ClientState.sending_transmitted, ClientState.sending_calls, delivered_sent,
      h.transmitted, List.take_add_one, hget, List.flatMap_append, Socket.taken,
      List.take_length, hdata]
    simp
  unread := by
    rw [ClientState.sending_calls, delivered_sent]
    exact hrest
  eachCall := h.eachCall_sending hget hdata (.sent s.headBytes.length)

/-- `send` is given the oldest frame, and it goes on the wire or stays. -/
theorem sendHead (h : Ledger taken s) (hpending : delivered s.clientSock.calls < taken.length) :
    Ledger taken s.sendHead.2 := by
  obtain ⟨packet, hget, hdata, hrest⟩ := h.head hpending
  rcases s.sendHead_cases with ⟨_, heq⟩ | ⟨count, hresult, heq⟩
  · rw [heq]
    exact h.failed hget hdata
  · have hall : count = s.headBytes.length := by
      rcases h.outcome s.clientSock.calls.length s.headBytes.length with herr | hsent
      · rw [herr] at hresult
        cases hresult
      · rw [hsent] at hresult
        cases hresult
        rfl
    subst hall
    rw [heq]
    exact h.sent hget hdata hrest

end Send

/-- One call of `SendPacket`. -/
theorem sendPacket (h : Ledger taken s) {packet : Packet} (hpos : 1 ≤ packet.byteSize)
    (hsmall : packet.byteSize ≤ 65531) :
    Ledger (taken ++ if (s.sendBuffer.setPacket packet).1 = true then [packet] else [])
      (s.sendPacket packet).2 := by
  have hord : (s.queue packet).sendBuffer.Ordered :=
    setPacket_ordered h.ordered (headerFits_of_small hsmall)
  rcases setPacket_small h.ordered hpos hsmall with ⟨_, hok, hunread⟩ | ⟨_, hno, hunread⟩
  · -- the new frame is queued last, and the oldest one sent
    have hqueue : Ledger (taken ++ [packet]) (s.queue packet) := h.queue hsmall hord hunread
    have hbound := h.bound
    rw [ClientState.sendPacket_of_queued hok, if_pos hok]
    refine hqueue.sendHead ?_
    rw [List.length_append, List.length_singleton]
    exact Nat.lt_succ_of_le hbound
  · rw [ClientState.sendPacket_of_refused hno, hno, if_neg Bool.false_ne_true, List.append_nil]
    exact h.refused hord hunread

/-- Any calls of `SendPacket`. -/
theorem sendAll (h : Ledger taken s) (packets : List Packet)
    (hsizes : ∀ packet ∈ packets, 1 ≤ packet.byteSize ∧ packet.byteSize ≤ 65531) :
    Ledger (taken ++ queued s packets) (sendAll s packets) := by
  induction packets generalizing s taken with
  | nil =>
      rw [queued, List.append_nil]
      exact h
  | cons packet rest ih =>
      have hpacket := hsizes packet List.mem_cons_self
      have hstep := h.sendPacket hpacket.1 hpacket.2
      have hrun := ih hstep fun p hp => hsizes p (List.mem_cons_of_mem _ hp)
      rw [queued, ← List.append_assoc]
      exact hrun

end Ledger

/-- Calls of `SendPacket` with messages of 1 to 65531 bytes, each `send` all or
nothing: the bytes on the wire, followed by those in the send buffer, are the
frames of the messages `SetPacket` took, in order; and each `send` was given
the one frame that follows those on the wire at that moment. -/
theorem output_in_order (sendPast : Mem Byte) (outcome : Nat → Nat → SendResult)
    (count : UInt64) (hout : AllOrNothing outcome) (packets : List Packet)
    (hsizes : ∀ packet ∈ packets, 1 ≤ packet.byteSize ∧ packet.byteSize ≤ 65531) :
    (sendAll (fresh sendPast outcome count) packets).clientSock.transmitted ++
        (sendAll (fresh sendPast outcome count) packets).sendBuffer.unread =
      (queued (fresh sendPast outcome count) packets).flatMap Packet.frame ∧
    ∀ i data result,
      (sendAll (fresh sendPast outcome count) packets).clientSock.calls[i]? = some (data, result) →
      let before := (sendAll (fresh sendPast outcome count) packets).clientSock.calls.take i
      ∃ packet, (queued (fresh sendPast outcome count) packets)[delivered before]? = some packet ∧
        data = packet.frame ∧
        before.flatMap Socket.taken =
          ((queued (fresh sendPast outcome count) packets).take (delivered before)).flatMap
            Packet.frame := by
  have hnew : Ledger [] (fresh sendPast outcome count) := by
    refine ⟨new_ordered sendPast, hout, ?_, Nat.le_refl _, rfl, unread_new sendPast, ?_⟩
    · intro packet hpacket
      exact absurd hpacket List.not_mem_nil
    · intro i data result hi
      cases hi
  have hrun := hnew.sendAll packets hsizes
  rw [List.nil_append] at hrun
  refine ⟨?_, hrun.eachCall⟩
  rw [hrun.transmitted, hrun.unread, ← List.flatMap_append, List.take_append_drop]

/-- Two messages, the first `send` of which fails. -/
theorem failed_then_sent :
    (sendAll (fresh (fun _ => 0) (fun i size => if i = 0 then .socketError else .sent size) 0)
        [⟨0, [7]⟩, ⟨1, [8, 9]⟩]).clientSock.transmitted ++
      (sendAll (fresh (fun _ => 0) (fun i size => if i = 0 then .socketError else .sent size) 0)
        [⟨0, [7]⟩, ⟨1, [8, 9]⟩]).sendBuffer.unread =
    (queued (fresh (fun _ => 0) (fun i size => if i = 0 then .socketError else .sent size) 0)
      [⟨0, [7]⟩, ⟨1, [8, 9]⟩]).flatMap Packet.frame :=
  (output_in_order (fun _ => 0) (fun i size => if i = 0 then .socketError else .sent size) 0
    (fun i size => by by_cases h : i = 0 <;> simp [h]) [⟨0, [7]⟩, ⟨1, [8, 9]⟩]
    (by decide)).1

end ServerStudy.Theorems.Output
