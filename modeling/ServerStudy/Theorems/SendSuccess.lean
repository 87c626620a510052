import ServerStudy.Theorems.Output

/-!
# When `SendPacket` answers true

`SendPacket` sends the packet at the head of the buffer, which is its own only
if nothing is queued before it, and takes any count but `SOCKET_ERROR` for the
whole packet. So the answer true means that the packet of the call has been
sent exactly when `send` takes all that is queued, the new frame included.
-/

namespace ServerStudy.Theorems.SendSuccess

open ServerStudy.Core PacketBuffer
open ServerStudy.Theorems.Output (fresh sendAll)

/-- `send` takes at most what it is given. -/
def TakesAtMost (outcome : Nat → Nat → SendResult) : Prop :=
  ∀ i size count, outcome i size = .sent count → count ≤ size

/-- The bytes this call of `SendPacket` puts on the wire. -/
def onWire (s : ClientState) (packet : Packet) : List Byte :=
  (s.sendPacket packet).2.clientSock.transmitted.drop s.clientSock.transmitted.length

/-- If `SendPacket` answers true, what it has put on the wire goes on, behind
the bytes that were queued before, with the frame of its packet. -/
def SuccessMeansSent (s : ClientState) (packet : Packet) : Prop :=
  (s.sendPacket packet).1 = true →
    packet.frame <+: (onWire s packet).drop s.sendBuffer.unread.length

/-- If the frame fits the buffer and `send`, asked for the head of the queue,
does not fail, it takes all that is queued. -/
def Covered (s : ClientState) (packet : Packet) : Prop :=
  1 ≤ packet.byteSize → s.sendBuffer.unread.length + packet.frame.length ≤ maxBufSize →
    ∀ count, s.clientSock.outcome s.clientSock.calls.length
        (packetHeader.size (s.sendBuffer.unread ++ packet.frame)) = .sent count →
      s.sendBuffer.unread.length + packet.frame.length ≤ count

/-- At each of the calls. -/
def AtEachCall (s : ClientState) (packets : List Packet) (P : ClientState → Packet → Prop) :
    Prop :=
  ∀ done packet todo, packets = done ++ packet :: todo → P (sendAll s done) packet

variable {s : ClientState} {packet : Packet}

theorem atEachCall_iff {packets : List Packet} {P : ClientState → Packet → Prop} :
    AtEachCall s packets P ↔
      Along (fun (s : ClientState) packet => (s.sendPacket packet).2) P s packets :=
  along_iff.symm

/-- What `send` takes of the head is on the wire. -/
theorem onWire_of_sent {count : Nat}
    (hset : (s.sendBuffer.setPacket packet).1 = true)
    (hresult : s.clientSock.outcome s.clientSock.calls.length (s.queue packet).headBytes.length =
      .sent count) :
    (s.sendPacket packet).1 = true ∧ onWire s packet = (s.queue packet).headBytes.take count := by
  have hcall := ClientState.sendPacket_of_queued hset
  rcases (s.queue packet).sendHead_cases with ⟨herror, _⟩ | ⟨count', hsent, heq⟩
  · exact absurd (hresult.symm.trans herror) (by simp)
  · cases hresult.symm.trans hsent
    have hbytes := (s.queue packet).sending_transmitted (.sent count)
    rw [onWire, hcall, heq]
    refine ⟨rfl, ?_⟩
    show ((s.queue packet).sending (.sent count)).clientSock.transmitted.drop _ = _
    rw [hbytes]
    exact List.drop_left' rfl

/-- The frame is among the first `count` bytes of the head exactly when the
queue is no longer than that. -/
theorem frame_taken_iff {u frame head : List Byte} {count : Nat} (hframe : 0 < frame.length)
    (hcount : count ≤ head.length)
    (hqueue : (u ++ frame).length ≤ head.length → u ++ frame <+: head) :
    frame <+: (head.take count).drop u.length ↔ u.length + frame.length ≤ count := by
  constructor
  · intro hprefix
    have hlen := hprefix.length_le
    rw [List.length_drop, List.length_take] at hlen
    omega
  · intro hall
    rw [← List.length_append] at hall
    obtain ⟨more, rfl⟩ := hqueue (Nat.le_trans hall hcount)
    rw [List.take_append, List.take_of_length_le hall, List.append_assoc,
      List.drop_left' rfl]
    exact List.prefix_append ..

/-- A call that answers false says nothing. -/
theorem successMeansSent_of_refused (hno : (s.sendBuffer.setPacket packet).1 = false) :
    SuccessMeansSent s packet := by
  intro htrue
  rw [ClientState.sendPacket_of_refused hno] at htrue
  cases htrue

theorem successMeansSent_of_error
    (hresult : s.clientSock.outcome s.clientSock.calls.length (s.queue packet).headBytes.length =
      .socketError) : SuccessMeansSent s packet := by
  intro htrue
  rcases s.sendPacket_cases packet with ⟨_, heq⟩ | ⟨_, heq⟩
  · rw [heq] at htrue
    cases htrue
  · rcases (s.queue packet).sendHead_cases with ⟨_, hhead⟩ | ⟨count, hsent, _⟩
    · rw [heq, hhead] at htrue
      cases htrue
    · cases hresult.symm.trans hsent

/-- A call whose frame is queued. -/
theorem successMeansSent_of_queued_iff (hmost : TakesAtMost s.clientSock.outcome)
    (hok : (s.sendBuffer.setPacket packet).1 = true)
    (hunread : (s.queue packet).sendBuffer.unread = s.sendBuffer.unread ++ packet.frame) :
    SuccessMeansSent s packet ↔
      ∀ count, s.clientSock.outcome s.clientSock.calls.length
          (packetHeader.size (s.sendBuffer.unread ++ packet.frame)) = .sent count →
        s.sendBuffer.unread.length + packet.frame.length ≤ count := by
  have hframe : 0 < packet.frame.length := by
    rw [Packet.length_frame]
    omega
  have hlen := (s.queue packet).length_headBytes
  have hprefix := (s.queue packet).unread_prefix_headBytes
  rw [hunread] at hlen hprefix
  rw [← hlen]
  cases hresult : s.clientSock.outcome s.clientSock.calls.length
      (s.queue packet).headBytes.length with
  | socketError =>
      refine iff_of_true (successMeansSent_of_error hresult) ?_
      intro count hsent
      cases hsent
  | sent count =>
      obtain ⟨htrue, hwire⟩ := onWire_of_sent hok hresult
      rw [SuccessMeansSent, hwire,
        frame_taken_iff hframe (hmost _ _ _ hresult) hprefix]
      constructor
      · rintro h count' hsent
        cases hsent
        exact h htrue
      · exact fun h _ => h count rfl

/-- One call with room for its header. -/
theorem successMeansSent_iff (hord : s.sendBuffer.Ordered)
    (hmost : TakesAtMost s.clientSock.outcome) (hfits : s.sendBuffer.HeaderFits packet) :
    SuccessMeansSent s packet ↔ Covered s packet := by
  have hset := setPacket_eq hord hfits
  have hsize := packet.toNat_size16
  have hlen := packet.length_frame
  rw [setOn] at hset
  by_cases hwhole : 0 < packet.byteSize ∧
      s.sendBuffer.unread.length + (4 + packet.byteSize) ≤ maxBufSize
  · have hroom : ¬ maxBufSize < s.sendBuffer.unread.length + packet.size16.toNat := by omega
    rw [if_neg hroom, if_pos hwhole] at hset
    rw [successMeansSent_of_queued_iff hmost (congrArg Prod.fst hset) (congrArg Prod.snd hset)]
    constructor
    · exact fun h _ _ => h
    · exact fun h => h hwhole.1 (by rw [hlen]; exact hwhole.2)
  · have hno : (s.sendBuffer.setPacket packet).1 = false := by
      rw [if_neg hwhole] at hset
      split at hset
      · exact congrArg Prod.fst hset
      · exact congrArg Prod.fst hset
    refine iff_of_true (successMeansSent_of_refused hno) ?_
    intro hpos hin
    rw [hlen] at hin
    exact absurd ⟨hpos, hin⟩ hwhole

/-- Where a run of calls with room for their headers gets to. -/
theorem sendAll_ordered (sendPast : Mem Byte) (outcome : Nat → Nat → SendResult) (count : UInt64)
    {packets : List Packet}
    (hfits : AtEachCall (fresh sendPast outcome count) packets
      fun s packet => s.sendBuffer.HeaderFits packet) :
    ∀ done packet todo, packets = done ++ packet :: todo →
      (sendAll (fresh sendPast outcome count) done).sendBuffer.Ordered ∧
        (sendAll (fresh sendPast outcome count) done).clientSock.outcome = outcome := by
  rintro done packet todo rfl
  refine invariant_of_along
    (fun s : ClientState => s.sendBuffer.Ordered ∧ s.clientSock.outcome = outcome) ?_
    (Along.append.mp (atEachCall_iff.mp hfits)).1
    ⟨new_ordered sendPast, rfl⟩
  rintro s packet ⟨hord, hout⟩ hroom
  exact ⟨s.sendPacket_ordered hord hroom, by rw [s.sendPacket_outcome, hout]⟩

/-- Any calls of `SendPacket` on a new session, any results of `send` up to
the length asked for, each header with room or refused on its size: if each
`send` that follows a queued frame fails or takes all that is queued, every
call that answers true has sent its packet; and only then. -/
theorem success_means_sent (sendPast : Mem Byte) (outcome : Nat → Nat → SendResult)
    (count : UInt64) (hmost : TakesAtMost outcome) (packets : List Packet) :
    (AtEachCall (fresh sendPast outcome count) packets
        (fun s packet => s.sendBuffer.HeaderFits packet ∧ Covered s packet) →
      AtEachCall (fresh sendPast outcome count) packets SuccessMeansSent) ∧
    (AtEachCall (fresh sendPast outcome count) packets
        (fun s packet => s.sendBuffer.HeaderFits packet ∧ SuccessMeansSent s packet) →
      AtEachCall (fresh sendPast outcome count) packets Covered) := by
  have hcall : AtEachCall (fresh sendPast outcome count) packets
        (fun s packet => s.sendBuffer.HeaderFits packet) →
      AtEachCall (fresh sendPast outcome count) packets
        (fun s packet => SuccessMeansSent s packet ↔ Covered s packet) := by
    intro hfits done packet todo hsplit
    obtain ⟨hord, hout⟩ := sendAll_ordered sendPast outcome count hfits done packet todo hsplit
    exact successMeansSent_iff hord (hout.symm ▸ hmost) (hfits done packet todo hsplit)
  constructor
  · intro h done packet todo hsplit
    exact (hcall (fun d p t hs => (h d p t hs).1) done packet todo hsplit).mpr
      (h done packet todo hsplit).2
  · intro h done packet todo hsplit
    exact (hcall (fun d p t hs => (h d p t hs).1) done packet todo hsplit).mp
      (h done packet todo hsplit).2

/-- Two calls, both sent. -/
theorem both_sent :
    AtEachCall (fresh (fun _ => 0) (fun _ size => .sent size) 0) [⟨0, [7]⟩, ⟨1, [8, 9]⟩]
      SuccessMeansSent := by
  refine (success_means_sent (fun _ => 0) (fun _ size => .sent size) 0 ?_
    [⟨0, [7]⟩, ⟨1, [8, 9]⟩]).1 ?_
  · intro i size count hsent
    cases hsent
    exact Nat.le_refl _
  · refine atEachCall_iff.mpr ⟨⟨by decide +kernel, ?_⟩, ⟨by decide +kernel, ?_⟩, trivial⟩
    all_goals
      intro _ _ count hsent
      cases hsent
      decide +kernel

/-- The first `send` fails, the second sends the packet of the first. -/
theorem sent_the_packet_before :
    ¬ AtEachCall (fresh (fun _ => 0) (fun i size => if i = 0 then .socketError else .sent size) 0)
      [⟨0, [7]⟩, ⟨1, [8, 9]⟩] SuccessMeansSent := by
  intro h
  exact absurd (h [⟨0, [7]⟩] ⟨1, [8, 9]⟩ [] rfl (by decide +kernel)) (by decide +kernel)

end ServerStudy.Theorems.SendSuccess
