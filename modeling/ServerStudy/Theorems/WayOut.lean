import ServerStudy.Logic.Chat

/-!
# Ways out of a receive state

A state has a way out if some chunks bring the Chat handler to run once more.
As long as the accepted bytes are part of a stream of Chat frames there always
is one: the rest of the frame that has begun. Two kinds of head have none, and
nothing removes them: a size field of 0, which `IsAbleToGetPacket` takes for a
packet that is not complete yet, and a whole frame that `Handle` rejects.
-/

namespace ServerStudy.Theorems.WayOut

open ServerStudy.Core PacketBuffer

section General

variable {σ Msg : Type} (mgr : PacketHandlerManager σ Msg)

/-- Some chunks lead to one more dispatch, of a Chat packet. -/
def HasWayOut (s : SessionBase σ Msg) : Prop :=
  ∃ (chunks : List (List Byte)) (d : Dispatch Msg),
    (∀ chunk ∈ chunks, 0 < chunk.length ∧ chunk.length ≤ 65535) ∧
      d.packetNo = chatProtocolNumber ∧
      s.trace.dispatches ++ [d] <+: (s.recvAll mgr (chunks.map chunkCall)).trace.dispatches

/-! ## Dead ends -/

/-- The head is never taken off: its size field is 0, or it is a whole frame
that `Handle` rejects. -/
def DeadHead (u : List Byte) : Prop :=
  (2 ≤ u.length ∧ packetHeader.size u = 0) ∨
    ∃ (f : Frame) (u' : List Byte), u = f.stream ++ u' ∧ mgr.decodeFrame f = none

variable {mgr}

theorem DeadHead.append {u : List Byte} (h : DeadHead mgr u) (bytes : List Byte) :
    DeadHead mgr (u ++ bytes) := by
  rcases h with ⟨h2, hzero⟩ | ⟨f, u', rfl, hreject⟩
  · refine .inl ⟨?_, ?_⟩
    · rw [List.length_append]
      exact Nat.le_trans h2 (Nat.le_add_right ..)
    · rw [packetHeader_size, ofLe16_append h2]
      exact hzero
  · exact .inr ⟨f, u' ++ bytes, List.append_assoc .., hreject⟩

/-- `Handle` does not take a dead head. -/
theorem DeadHead.decode {s : SessionBase σ Msg} (h : DeadHead mgr s.recvBuffer.unread)
    (hord : s.recvBuffer.Ordered) (hable : packetHeader.Complete s.recvBuffer.unread) :
    mgr.decode s.recvBuffer = none := by
  rcases h with ⟨_, hzero⟩ | ⟨f, u', hu, hreject⟩
  · exact absurd hable.1 (by omega)
  · rw [decode_of_head mgr hord hu, hreject]

/-- After a dead head nothing is ever dispatched again. -/
theorem dead_end {s : SessionBase σ Msg} (hord : s.recvBuffer.Ordered)
    (h : DeadHead mgr s.recvBuffer.unread) (calls : List RecvCall) :
    (s.recvAll mgr calls).trace.dispatches = s.trace.dispatches := by
  let Dead : SessionBase σ Msg → Prop := fun t =>
    DeadHead mgr t.recvBuffer.unread ∧ t.trace.dispatches = s.trace.dispatches
  have hcall : ∀ (t : SessionBase σ Msg) (call : RecvCall), t.recvBuffer.Ordered → Dead t →
      Dead (t.onRecv mgr call.pBuffer call.recvSize) := by
    intro t call hord ht
    refine (SessionBase.onRecv_induction Dead ?_ ?_ ?_ ?_ hord ht _ _).2
    · rintro t rb _ ⟨hdead, hsame⟩ _ hunread
      exact ⟨by rw [hunread]; exact hdead, hsame⟩
    · rintro t rb bytes _ ⟨hdead, hsame⟩ _ hunread
      refine ⟨?_, hsame⟩
      show DeadHead mgr rb.unread
      rw [hunread]
      exact hdead.append bytes
    · exact fun t _ ht _ _ => ht
    · -- a pass that dispatches would have taken the head
      rintro t functor message hord ⟨hdead, _⟩ hable hsome
      rw [hdead.decode hord hable] at hsome
      cases hsome
  exact (recvAll_induction Dead hcall hord ⟨h, rfl⟩ calls).2.2

theorem not_hasWayOut_of_deadHead {s : SessionBase σ Msg} (hord : s.recvBuffer.Ordered)
    (h : DeadHead mgr s.recvBuffer.unread) : ¬ HasWayOut mgr s := by
  rintro ⟨chunks, d, _, _, hmore⟩
  rw [dead_end hord h] at hmore
  have hlen := hmore.length_le
  rw [List.length_append, List.length_singleton] at hlen
  omega

end General

/-! ## Streams of Chat frames -/

section Chat

variable {codec : ChatCodec} {past : Option (PacketFunctor ClientState Text)}

/-- What is unread is the beginning of some Chat frame, and the frame is not
complete. -/
def Begins (codec : ChatCodec) (u : List Byte) : Prop :=
  ∃ (f : Frame) (r : List Byte), f.IsChat codec ∧ r ≠ [] ∧ f.stream = u ++ r

/-- The rest of the frame is a way out. -/
theorem hasWayOut_of_begins {s : ClientSession} (hord : s.recvBuffer.Ordered)
    (h : Begins codec s.recvBuffer.unread) : HasWayOut (clientManager codec past) s := by
  obtain ⟨f, r, hf, hr, hstream⟩ := h
  obtain ⟨message, hdecode⟩ : ∃ message, (clientManager codec past).decodeFrame f =
      some (chatFunctor codec, message) := hf.decodeFrame
  have hpos : 0 < r.length := List.length_pos_iff.mpr hr
  have hlen : s.recvBuffer.unread.length + r.length ≤ 65535 := by
    have := congrArg List.length hstream
    have hfits := f.fits
    rw [List.length_append, Frame.stream, Packet.length_frame] at this
    omega
  have hcall : (s.recvAll (clientManager codec past) [chunkCall r]) =
      s.onRecv (clientManager codec past) (some (Mem.ofList 0 r)) r.length := rfl
  rcases SessionBase.onRecv_cases (clientManager codec past) hord (some (Mem.ofList 0 r)) r.length
    with ⟨hrefused, _⟩ | ⟨src, hsrc, _, _, rb, hrb, hunread, heq⟩
  · exact absurd ⟨hpos, hlen⟩ (hrefused _ rfl)
  · cases hsrc
    rw [Mem.slice_ofList] at hunread heq
    rw [← hstream] at hunread
    rw [loop_of_frame (s := s.received rb r) hrb hunread hdecode] at heq
    have hrecord := record_of_head (s := s.received rb r) hrb
      (show rb.unread = f.stream ++ [] by rw [hunread, List.append_nil]) message
    refine ⟨[r], (s.received rb r).record message, ?_, ?_, ?_⟩
    · intro chunk hchunk
      rw [List.mem_singleton.mp hchunk]
      exact ⟨hpos, by omega⟩
    · rw [hrecord]
      exact hf.1
    · rw [List.map_singleton, hcall, heq, SessionBase.dispatch_dispatches]
      exact List.prefix_refl _

/-- A state that follows a stream of Chat frames and rests on no whole packet
holds the beginning of one. -/
theorem begins_of_follows (hcodec : codec.Lawful) {s : ClientSession} {client : ClientState}
    {frames : List Frame} (hframes : ∀ f ∈ frames, f.IsChat codec)
    (h : Follows (clientManager codec past) frames client s)
    (hacc : s.trace.accepted <+: frames.flatMap Frame.stream)
    (hidle : ¬ packetHeader.Complete s.recvBuffer.unread) :
    Begins codec s.recvBuffer.unread := by
  obtain ⟨k, hk⟩ := h
  have hpart := hk.unread_part (q := []) (by rw [List.append_nil]; exact hacc)
  rw [List.append_nil] at hpart
  cases hrest : frames.drop k with
  | nil =>
      -- the stream is used up: any Chat frame will do
      have hempty : s.recvBuffer.unread = [] := by
        rw [hrest, List.flatMap_nil] at hpart
        exact List.prefix_nil.mp hpart
      have hsize : (codec.packet []).byteSize = 2 := hcodec.byteSize [] (by decide)
      have hfits : (codec.packet []).byteSize ≤ 65531 := by omega
      refine ⟨codec.frame [] hfits, (codec.frame [] hfits).stream,
        hcodec.isChat hfits (by decide), ?_, ?_⟩
      · exact (codec.frame [] hfits).isFrame.1
      · rw [hempty, List.nil_append]
  | cons f rest =>
      have hf : f.IsChat codec := by
        refine hframes f (List.drop_subset k frames ?_)
        rw [hrest]
        exact List.mem_cons_self
      rw [hrest, List.flatMap_cons] at hpart
      rcases List.prefix_or_prefix_of_prefix hpart (List.prefix_append f.stream _) with
        ⟨r, hr⟩ | ⟨u, hu⟩
      · refine ⟨f, r, hf, ?_, hr.symm⟩
        rintro rfl
        rw [List.append_nil] at hr
        rw [hr] at hidle
        exact hidle (by simpa using f.isFrame.complete_append [])
      · rw [← hu] at hidle
        exact absurd (f.isFrame.complete_append u) hidle

end Chat

/-- Any calls on a new session of which the accepted bytes are part of a
stream of Chat frames lead to a state with a way out. -/
theorem chat_stream_has_way_out (codec : ChatCodec) (hcodec : codec.Lawful)
    (past : Option (PacketFunctor ClientState Text)) (recvPast : Mem Byte) (client : ClientState)
    (frames : List Frame) (hframes : ∀ f ∈ frames, f.IsChat codec) (calls : List RecvCall)
    (hacc : ((SessionBase.new recvPast client).recvAll (clientManager codec past)
      calls).trace.accepted <+: frames.flatMap Frame.stream) :
    HasWayOut (clientManager codec past)
      ((SessionBase.new recvPast client).recvAll (clientManager codec past) calls) := by
  have hempty := packetHeader.not_complete_nil
  have hpart : ((SessionBase.new recvPast client).recvAll (clientManager codec past)
      calls).trace.accepted <+: frames.flatMap Frame.stream ++ [] := by
    rw [List.append_nil]
    exact hacc
  have hfollows := follows_of_recvAll hempty hpart
  have hidle := idle_of_recvAll hempty (allHandled_of_isChat hframes client) hpart
  exact hasWayOut_of_begins hfollows.ordered (begins_of_follows hcodec hframes hfollows hacc hidle)

/-- In the middle of a frame, with a refused call in between. -/
theorem half_hi_has_way_out :
    HasWayOut (clientManager chatWire none)
      ((SessionBase.new (fun _ => 0) openClient).recvAll (clientManager chatWire none)
        [chunkCall [8, 0, 0], ⟨none, 3⟩]) :=
  chat_stream_has_way_out chatWire chatWire_lawful none (fun _ => 0) openClient [hiFrame]
    (by intro f hf; rw [List.mem_singleton.mp hf]; exact hiFrame_isChat)
    [chunkCall [8, 0, 0], ⟨none, 3⟩] (by decide +kernel)

/-- Two zero bytes, and no Chat packet is ever dispatched again. -/
theorem zero_size_wedges :
    ¬ HasWayOut (clientManager chatWire none)
      ((SessionBase.new (fun _ => 0) openClient).recvAll (clientManager chatWire none)
        [chunkCall [0, 0]]) := by
  refine not_hasWayOut_of_deadHead (recvAll_ordered _ (new_ordered _) _) (.inl ?_)
  have hunread : ((SessionBase.new (fun _ => 0) openClient).recvAll (clientManager chatWire none)
      [chunkCall [0, 0]]).recvBuffer.unread = [0, 0] := by decide +kernel
  rw [hunread]
  decide

end ServerStudy.Theorems.WayOut
