import ServerStudy.Logic.Frames
import ServerStudy.MServer.ClientSession

/-!
# `SendPacket`

`send` is given as many bytes as the size field at the head of the send buffer
says. As long as that many are unread they are the head packet, and a call of
`send` that does not fail takes it off.
-/

namespace ServerStudy

open ServerStudy.Core PacketBuffer

/-- The bytes passed to `send` are the head packet. -/
theorem headBytes_eq {pb : PacketBuffer}
    (hle : packetHeader.size pb.unread ≤ pb.unread.length) :
    pb.getPacketBuffer.slice 0 pb.getPacketSize.toNat =
      pb.unread.take (packetHeader.size pb.unread) := by
  rw [length_unread] at hle
  rw [toNat_getPacketSize]
  generalize packetHeader.size pb.unread = size at hle ⊢
  rw [unread, Mem.take_slice _ hle]
  rfl

/-- A frame at the head of a buffer is what `send` is given. -/
theorem headBytes_of_frame {pb : PacketBuffer} {p u : List Byte} (hp : packetHeader.IsFrame p)
    (hu : pb.unread = p ++ u) : pb.getPacketBuffer.slice 0 pb.getPacketSize.toNat = p := by
  have hsize : packetHeader.size pb.unread = p.length := by
    rw [hu, hp.size_append]
  have hle : packetHeader.size pb.unread ≤ pb.unread.length := by
    rw [hu]
    exact (hp.complete_append u).2
  rw [headBytes_eq hle, hsize, hu, List.take_left' rfl]

/-- And what `ConsumePacket` takes off. -/
theorem unread_consume_of_frame {pb : PacketBuffer} (hord : pb.Ordered) {p u : List Byte}
    (hp : packetHeader.IsFrame p) (hu : pb.unread = p ++ u) : pb.consumePacket.unread = u := by
  rw [unread_consumePacket hord, hu, if_pos (hp.complete_append u).2, hp.size_append,
    List.drop_left' rfl]

namespace ClientState

variable {s : ClientState}

/-- The bytes `sendHead` passes to `send`. -/
def headBytes (s : ClientState) : List Byte :=
  s.sendBuffer.getPacketBuffer.slice 0 s.sendBuffer.getPacketSize.toNat

/-- The session after the call of `send`. -/
def sending (s : ClientState) (result : SendResult) : ClientState :=
  { s with clientSock := { s.clientSock with
      calls := s.clientSock.calls ++ [(s.headBytes, result)] } }

@[simp] theorem sending_sendBuffer (s : ClientState) (result : SendResult) :
    (s.sending result).sendBuffer = s.sendBuffer := rfl

@[simp] theorem sending_calls (s : ClientState) (result : SendResult) :
    (s.sending result).clientSock.calls = s.clientSock.calls ++ [(s.headBytes, result)] := rfl

theorem sending_transmitted (s : ClientState) (result : SendResult) :
    (s.sending result).clientSock.transmitted =
      s.clientSock.transmitted ++ Socket.taken (s.headBytes, result) := by
  rw [Socket.transmitted, sending_calls, List.flatMap_append]
  simp [Socket.transmitted]

/-- `sendHead` passes the head packet to `send`, and takes it off the buffer
unless the call failed. -/
theorem sendHead_cases (s : ClientState) :
    (s.clientSock.outcome s.clientSock.calls.length s.headBytes.length = .socketError ∧
        s.sendHead = (false, s.sending .socketError)) ∨
      ∃ count,
        s.clientSock.outcome s.clientSock.calls.length s.headBytes.length = .sent count ∧
        s.sendHead =
          (true, { s.sending (.sent count) with sendBuffer := s.sendBuffer.consumePacket }) := by
  cases hresult : s.clientSock.outcome s.clientSock.calls.length s.headBytes.length with
  | socketError =>
      refine .inl ⟨rfl, ?_⟩
      unfold headBytes at hresult
      simp only [sendHead, Socket.send, hresult, sending, headBytes]
  | sent count =>
      refine .inr ⟨count, rfl, ?_⟩
      unfold headBytes at hresult
      simp only [sendHead, Socket.send, hresult, sending, headBytes]

/-- A socket that takes all it is given takes the head packet. -/
theorem sendHead_of_takes_all (s : ClientState)
    (hall : ∀ i size, s.clientSock.outcome i size = .sent size) :
    s.sendHead = (true, { s.sending (.sent s.headBytes.length) with
      sendBuffer := s.sendBuffer.consumePacket }) := by
  rcases s.sendHead_cases with ⟨hresult, _⟩ | ⟨count, hresult, hsent⟩
  · rw [hall] at hresult
    cases hresult
  · rw [hall] at hresult
    cases hresult
    exact hsent

@[simp] theorem sendHead_outcome (s : ClientState) :
    s.sendHead.2.clientSock.outcome = s.clientSock.outcome := by
  rcases s.sendHead_cases with ⟨_, heq⟩ | ⟨count, _, heq⟩
  · rw [heq]
    rfl
  · rw [heq]
    rfl

@[simp] theorem sendHead_count (s : ClientState) : s.sendHead.2.count = s.count := by
  rcases s.sendHead_cases with ⟨_, heq⟩ | ⟨count, _, heq⟩
  · rw [heq]
    rfl
  · rw [heq]
    rfl

/-- As long as the size field says. -/
theorem length_headBytes (s : ClientState) :
    s.headBytes.length = packetHeader.size s.sendBuffer.unread := by
  rw [headBytes, Mem.length_slice, toNat_getPacketSize]

/-- At least as many bytes as are unread are the unread ones, and more. -/
theorem unread_prefix_headBytes (hle : s.sendBuffer.unread.length ≤ s.headBytes.length) :
    s.sendBuffer.unread <+: s.headBytes := by
  have hsize : s.sendBuffer.getBufferSize.toNat ≤ s.sendBuffer.getPacketSize.toNat := by
    rw [← length_unread]
    exact Nat.le_trans hle (Nat.le_of_eq (Mem.length_slice ..))
  have htake : s.headBytes.take s.sendBuffer.getBufferSize.toNat = s.sendBuffer.unread :=
    Mem.take_slice _ hsize
  rw [← htake]
  exact List.take_prefix ..

/-- With a frame at the head, `send` is given the frame. -/
theorem headBytes_of_head {f : Frame} {u : List Byte}
    (hu : s.sendBuffer.unread = f.stream ++ u) : s.headBytes = f.stream := by
  rw [headBytes, headBytes_eq (complete_of_head hu).2, size_of_head hu, hu, List.take_left' rfl]

/-! ## The whole of `SendPacket` -/

/-- The session once `SetPacket` has answered. -/
def queue (s : ClientState) (packet : Packet) : ClientState :=
  { s with sendBuffer := (s.sendBuffer.setPacket packet).2 }

@[simp] theorem queue_sendBuffer (s : ClientState) (packet : Packet) :
    (s.queue packet).sendBuffer = (s.sendBuffer.setPacket packet).2 := rfl

@[simp] theorem queue_clientSock (s : ClientState) (packet : Packet) :
    (s.queue packet).clientSock = s.clientSock := rfl

theorem sendPacket_of_refused {packet : Packet}
    (hno : (s.sendBuffer.setPacket packet).1 = false) :
    s.sendPacket packet = (false, s.queue packet) := by
  unfold sendPacket queue
  rcases hset : s.sendBuffer.setPacket packet with ⟨ok, sb⟩
  rw [hset] at hno
  cases hno
  rfl

theorem sendPacket_of_queued {packet : Packet}
    (hok : (s.sendBuffer.setPacket packet).1 = true) :
    s.sendPacket packet = (s.queue packet).sendHead := by
  unfold sendPacket queue
  rcases hset : s.sendBuffer.setPacket packet with ⟨ok, sb⟩
  rw [hset] at hok
  cases hok
  rfl

/-- A packet `SetPacket` refuses is not sent; after any other, the head of the
buffer is. -/
theorem sendPacket_cases (s : ClientState) (packet : Packet) :
    ((s.sendBuffer.setPacket packet).1 = false ∧
        s.sendPacket packet = (false, s.queue packet)) ∨
      ((s.sendBuffer.setPacket packet).1 = true ∧
        s.sendPacket packet = (s.queue packet).sendHead) := by
  cases hset : (s.sendBuffer.setPacket packet).1 with
  | false => exact .inl ⟨rfl, sendPacket_of_refused hset⟩
  | true => exact .inr ⟨rfl, sendPacket_of_queued hset⟩

theorem sendHead_ordered (h : s.sendBuffer.Ordered) : s.sendHead.2.sendBuffer.Ordered := by
  rcases s.sendHead_cases with ⟨_, heq⟩ | ⟨count, _, heq⟩
  · rw [heq]
    exact h
  · rw [heq]
    exact consumePacket_ordered h

theorem sendPacket_ordered (h : s.sendBuffer.Ordered) {packet : Packet}
    (hfits : s.sendBuffer.HeaderFits packet) :
    (s.sendPacket packet).2.sendBuffer.Ordered := by
  have hqueued : (s.queue packet).sendBuffer.Ordered := setPacket_ordered h hfits
  rcases s.sendPacket_cases packet with ⟨_, heq⟩ | ⟨_, heq⟩
  · rw [heq]
    exact hqueued
  · rw [heq]
    exact sendHead_ordered hqueued

@[simp] theorem sendPacket_outcome (s : ClientState) (packet : Packet) :
    (s.sendPacket packet).2.clientSock.outcome = s.clientSock.outcome := by
  rcases s.sendPacket_cases packet with ⟨_, heq⟩ | ⟨_, heq⟩
  · rw [heq]
    rfl
  · rw [heq, sendHead_outcome]
    rfl

@[simp] theorem sendPacket_count (s : ClientState) (packet : Packet) :
    (s.sendPacket packet).2.count = s.count := by
  rcases s.sendPacket_cases packet with ⟨_, heq⟩ | ⟨_, heq⟩
  · rw [heq]
    rfl
  · rw [heq, sendHead_count]
    rfl

end ClientState

end ServerStudy
