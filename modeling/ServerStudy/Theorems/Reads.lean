import ServerStudy.Logic.Chat

/-!
# Where the dispatcher reads

Once `IsAbleToGetPacket` has answered true the packet is all there, but it may
be shorter than its own header: a size field of 1, 2 or 3 passes. Then the
number is read behind the packet, or, when `GetPacketNo` gives up and answers
0, the payload size wraps. With a size field of at least 4 every read is
inside the packet.
-/

namespace ServerStudy.Theorems.Reads

open ServerStudy.Core PacketBuffer

variable {codec : ChatCodec} {past : Option (PacketFunctor ClientState Text)}

/-- The packet `[readPos, readPos + GetPacketSize())` is unread, and the number
and the range handed to `ParseFromArray` are in it. -/
structure ReadsInside (mgr : PacketHandlerManager ClientState Text) (pb : PacketBuffer) :
    Prop where
  packet : (⟨pb.readPos.toNat, pb.getPacketSize.toNat⟩ : Region).Inside
    pb.readPos.toNat pb.writePos.toNat
  number : ∀ r ∈ pb.getPacketNoLoads,
    r.Inside pb.readPos.toNat (pb.readPos.toNat + pb.getPacketSize.toNat)
  payload : (mgr.packetFunctors pb.getPacketNo).isSome →
    pb.payloadRegion.Inside pb.readPos.toNat (pb.readPos.toNat + pb.getPacketSize.toNat)

/-- The head is unread as a whole. -/
theorem packet_inside {pb : PacketBuffer} (hord : pb.Ordered)
    (hable : packetHeader.Complete pb.unread) :
    pb.readPos.toNat + pb.getPacketSize.toNat ≤ pb.writePos.toNat := by
  have hend := readPos_add_length hord
  have hle := hable.2
  rw [toNat_getPacketSize]
  omega

/-- All reads are inside the packet exactly when it has room for its header. -/
theorem readsInside_iff {pb : PacketBuffer} (hord : pb.Ordered)
    (hable : packetHeader.Complete pb.unread) :
    ReadsInside (clientManager codec past) pb ↔ 4 ≤ pb.getPacketSize.toNat := by
  have hin := packet_inside hord hable
  constructor
  · rintro ⟨_, hnumber, hpayload⟩
    by_cases hshort : pb.writePos < getHeaderSize
    · -- `GetPacketNo` answers 0, and the parser of Chat is given the payload
      have hno : pb.getPacketNo = chatProtocolNumber := by
        rw [getPacketNo, if_pos hshort]
        rfl
      have hregion := hpayload (by rw [hno, clientManager_chat]; rfl)
      have hend : pb.readPos.toNat + 4 + pb.getPayloadBufferSize.toNat ≤
          pb.readPos.toNat + pb.getPacketSize.toNat := hregion.2
      omega
    · have hloads : (⟨pb.readPos.toNat + 2, 2⟩ : Region) ∈ pb.getPacketNoLoads := by
        rw [getPacketNoLoads, if_neg hshort]
        exact List.mem_singleton_self _
      have hend : pb.readPos.toNat + 2 + 2 ≤ pb.readPos.toNat + pb.getPacketSize.toNat :=
        (hnumber _ hloads).2
      omega
  · intro h4
    refine ⟨⟨Nat.le_refl _, hin⟩, ?_, ?_⟩
    · intro r hr
      rw [getPacketNoLoads] at hr
      split at hr
      · exact absurd hr List.not_mem_nil
      · rw [List.mem_singleton.mp hr]
        exact ⟨Nat.le_add_right .., by show pb.readPos.toNat + 2 + 2 ≤ _; omega⟩
    · intro _
      have hpayload : pb.getPayloadBufferSize.toNat = pb.getPacketSize.toNat - 4 :=
        UInt16.toNat_sub_of_le _ _ (UInt16.le_iff_toNat_le.mpr h4)
      refine ⟨Nat.le_add_right .., ?_⟩
      show pb.readPos.toNat + 4 + pb.getPayloadBufferSize.toNat ≤ _
      omega

section Entered

variable {σ Msg : Type} (mgr : PacketHandlerManager σ Msg)

/-- Every call of `Handle` was made on an ordered buffer with a whole packet at
its head. -/
def EnteredAble (s : SessionBase σ Msg) : Prop :=
  ∀ call ∈ s.trace.entered,
    call.recvBuffer.Ordered ∧ packetHeader.Complete call.recvBuffer.unread

theorem EnteredAble.enter {s : SessionBase σ Msg} (h : EnteredAble s)
    (hord : s.recvBuffer.Ordered) (hable : packetHeader.Complete s.recvBuffer.unread) :
    EnteredAble s.enter := by
  intro call hcall
  rcases List.mem_append.mp hcall with hold | hnew
  · exact h call hold
  · rw [List.mem_singleton.mp hnew]
    exact ⟨hord, hable⟩

theorem enteredAble_recvAll (recvPast : Mem Byte) (rest₀ : σ) (calls : List RecvCall) :
    EnteredAble ((SessionBase.new recvPast rest₀).recvAll mgr calls) := by
  have hnew : EnteredAble (SessionBase.new recvPast rest₀ : SessionBase σ Msg) := by
    intro call hcall
    exact absurd hcall List.not_mem_nil
  refine (recvAll_induction EnteredAble ?_ (new_ordered recvPast) hnew calls).2
  intro s call hord h
  refine (SessionBase.onRecv_induction EnteredAble ?_ ?_ ?_ ?_ hord h _ _).2
  · exact fun s rb _ h _ _ => h
  · exact fun s rb bytes _ h _ _ => h
  · exact fun s hord h hable _ => h.enter hord hable
  · exact fun s functor message hord h hable _ => h.enter hord hable

end Entered

/-- Any calls on a new session: at every call of `Handle` so far the reads were
inside the packet, exactly when at every one the size field was at least 4. -/
theorem reads_inside_packet_iff (codec : ChatCodec)
    (past : Option (PacketFunctor ClientState Text)) (recvPast : Mem Byte) (client : ClientState)
    (calls : List RecvCall) :
    (∀ call ∈ ((SessionBase.new recvPast client).recvAll (clientManager codec past)
        calls).trace.entered, ReadsInside (clientManager codec past) call.recvBuffer) ↔
      ∀ call ∈ ((SessionBase.new recvPast client).recvAll (clientManager codec past)
        calls).trace.entered, 4 ≤ call.recvBuffer.getPacketSize.toNat := by
  have hable := enteredAble_recvAll (clientManager codec past) recvPast client calls
  constructor
  · intro h call hcall
    obtain ⟨hord, hcomplete⟩ := hable call hcall
    exact (readsInside_iff hord hcomplete).mp (h call hcall)
  · intro h call hcall
    obtain ⟨hord, hcomplete⟩ := hable call hcall
    exact (readsInside_iff hord hcomplete).mpr (h call hcall)

/-- The two bytes 2, 0 are a whole packet of size 2. -/
theorem undersized_packet_overread :
    ¬ ∀ call ∈ ((SessionBase.new (fun _ => 0) openClient).recvAll (clientManager chatWire none)
        [chunkCall [2, 0]]).trace.entered,
      ReadsInside (clientManager chatWire none) call.recvBuffer := by
  intro hinside
  have hable := enteredAble_recvAll (clientManager chatWire none) (fun _ => 0) openClient
    [chunkCall [2, 0]]
  have hsizes : ((SessionBase.new (fun _ => 0) openClient).recvAll (clientManager chatWire none)
      [chunkCall [2, 0]]).trace.entered.map (fun call => call.recvBuffer.getPacketSize) = [2] := by
    decide +kernel
  obtain ⟨call, hcall, hsize⟩ := List.mem_map.mp (hsizes ▸ List.mem_singleton_self (2 : UInt16))
  obtain ⟨hord, hcomplete⟩ := hable call hcall
  have h4 := (readsInside_iff hord hcomplete).mp (hinside call hcall)
  rw [hsize] at h4
  exact absurd h4 (by decide)

end ServerStudy.Theorems.Reads
