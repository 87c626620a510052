import Mathlib.Data.List.Forall2
import ServerStudy.Logic.Receive

/-!
# The receive loop on a stream of frames

What one pass does when the unread bytes start with a frame, and the invariant
that follows for every run of `OnRecv` whose accepted bytes are part of a
stream of frames (`Tracks`): the frames dispatched are the first `k`, in order,
each with its own payload, and what is unread is what was accepted after them.

The invariant does not ask what the handlers answer, nor whether every frame
has a functor and parses: a rejected frame stays where it is.
-/

namespace ServerStudy

open ServerStudy.Core PacketBuffer

variable {σ Msg : Type}

/-- A packet whose size field holds its size. -/
structure Frame extends Packet where
  fits : toPacket.byteSize ≤ 65531

/-- The bytes of the frame on the wire. -/
def Frame.stream (f : Frame) : List Byte := f.toPacket.frame

theorem Frame.isFrame (f : Frame) : packetHeader.IsFrame f.stream := f.toPacket.isFrame f.fits

theorem Frame.four_le (f : Frame) : 4 ≤ f.stream.length := by
  have := f.toPacket.length_frame
  rw [Frame.stream]
  omega

/-- The functor and the message `Handle` gets from a frame. -/
def PacketHandlerManager.decodeFrame (mgr : PacketHandlerManager σ Msg) (f : Frame) :
    Option (PacketFunctor σ Msg × Msg) :=
  (mgr.packetFunctors f.protocolNumber).bind fun functor =>
    (functor.parseFromArray f.bytes).map fun message => (functor, message)

/-! ## A frame at the head -/

section Head

variable {f : Frame} {u : List Byte}

/-- A frame that is all there is is the head. -/
theorem head_of_alone {pb : PacketBuffer} (hu : pb.unread = f.stream) :
    pb.unread = f.stream ++ [] := by
  rw [hu, List.append_nil]

theorem size_of_head {pb : PacketBuffer} (hu : pb.unread = f.stream ++ u) :
    packetHeader.size pb.unread = f.stream.length := by
  rw [hu, f.isFrame.size_append]

theorem complete_of_head {pb : PacketBuffer} (hu : pb.unread = f.stream ++ u) :
    packetHeader.Complete pb.unread := by
  rw [hu]
  exact f.isFrame.complete_append u

theorem getPacketNo_of_head {pb : PacketBuffer} (hord : pb.Ordered)
    (hu : pb.unread = f.stream ++ u) : pb.getPacketNo = f.protocolNumber := by
  have h4 : 4 ≤ pb.unread.length := by
    rw [hu, List.length_append]
    exact Nat.le_trans f.four_le (Nat.le_add_right ..)
  rw [getPacketNo_eq hord h4, hu]
  exact ofLe16_le16_append ..

theorem payload_of_head {pb : PacketBuffer} (hu : pb.unread = f.stream ++ u) :
    pb.payload = f.bytes := by
  have hsize := size_of_head hu
  have hcomplete := complete_of_head hu
  have h4 : 4 ≤ packetHeader.size pb.unread := by
    rw [hsize]
    exact f.four_le
  rw [PacketBuffer.payload, payload_eq h4 hcomplete.2, hsize, hu, List.take_left' rfl]
  rfl

theorem unread_consume_of_head {pb : PacketBuffer} (hord : pb.Ordered)
    (hu : pb.unread = f.stream ++ u) : pb.consumePacket.unread = u := by
  rw [unread_consumePacket hord, if_pos (complete_of_head hu).2, size_of_head hu, hu,
    List.drop_left' rfl]

theorem decode_of_head (mgr : PacketHandlerManager σ Msg) {pb : PacketBuffer}
    (hord : pb.Ordered) (hu : pb.unread = f.stream ++ u) :
    mgr.decode pb = mgr.decodeFrame f := by
  rw [PacketHandlerManager.decode, getPacketNo_of_head hord hu, payload_of_head hu]
  rfl

/-- The record of a dispatch: number, payload and bytes are the frame's. -/
theorem record_of_head {s : SessionBase σ Msg} (hord : s.recvBuffer.Ordered)
    (hu : s.recvBuffer.unread = f.stream ++ u) (message : Msg) :
    s.record message = ⟨f.protocolNumber, f.bytes, message, f.stream, u⟩ := by
  have hpacket := SessionBase.record_packet hord (complete_of_head hu) message
  rw [size_of_head hu, hu, List.take_left' rfl] at hpacket
  have hno := getPacketNo_of_head hord hu
  have hpayload := payload_of_head hu
  have hrest := unread_consume_of_head hord hu
  simp only [SessionBase.record] at hpacket ⊢
  rw [hpacket, hno, hpayload, hrest]

end Head

/-! ## Following a stream of frames -/

/-- The dispatch is that of the frame. -/
structure Dispatched (mgr : PacketHandlerManager σ Msg) (d : Dispatch Msg) (f : Frame) :
    Prop where
  packetNo : d.packetNo = f.protocolNumber
  payload : d.payload = f.bytes
  packet : d.packet = f.stream
  decoded : ∃ functor, mgr.decodeFrame f = some (functor, d.message)

/-- The rest of the session after the handlers of the frames have run, each
once, in order. -/
def handled (mgr : PacketHandlerManager σ Msg) (rest : σ) (frames : List Frame) : σ :=
  frames.foldl
    (fun rest f =>
      match mgr.decodeFrame f with
      | none => rest
      | some (functor, message) => (functor.handler rest message).2) rest

theorem handled_concat (mgr : PacketHandlerManager σ Msg) (rest : σ) (frames : List Frame)
    {f : Frame} {functor : PacketFunctor σ Msg} {message : Msg}
    (hf : mgr.decodeFrame f = some (functor, message)) :
    handled mgr rest (frames ++ [f]) =
      (functor.handler (handled mgr rest frames) message).2 := by
  simp [handled, List.foldl_append, hf]

/-- The session has dispatched the first `k` frames and no more. -/
structure Tracks (mgr : PacketHandlerManager σ Msg) (frames : List Frame) (rest₀ : σ) (k : Nat)
    (s : SessionBase σ Msg) : Prop where
  ordered : s.recvBuffer.Ordered
  bound : k ≤ frames.length
  dispatched : List.Forall₂ (Dispatched mgr) s.trace.dispatches (frames.take k)
  rest_eq : s.rest = handled mgr rest₀ (frames.take k)
  accepted_eq : s.trace.accepted = (frames.take k).flatMap Frame.stream ++ s.recvBuffer.unread
  /-- When a handler started, its frame and those before it were consumed. -/
  atHandler : ∀ i d, s.trace.dispatches[i]? = some d →
    (frames.take (i + 1)).flatMap Frame.stream ++ d.unread <+: s.trace.accepted
  /-- A frame `Handle` has rejected is the next one, and still the head. -/
  rejected : ∀ call ∈ s.trace.entered, mgr.decode call.recvBuffer = none →
    ∃ f, frames[k]? = some f ∧ mgr.decodeFrame f = none ∧
      f.stream <+: call.recvBuffer.unread ∧ f.stream <+: s.recvBuffer.unread

namespace Tracks

variable {mgr : PacketHandlerManager σ Msg} {frames : List Frame} {rest₀ : σ} {k : Nat}
  {s : SessionBase σ Msg} {q : List Byte}

theorem new (mgr : PacketHandlerManager σ Msg) (frames : List Frame) (past : Mem Byte)
    (rest₀ : σ) : Tracks mgr frames rest₀ 0 (SessionBase.new past rest₀) where
  ordered := new_ordered past
  bound := Nat.zero_le _
  dispatched := by simp [SessionBase.new]
  rest_eq := rfl
  accepted_eq := by simp [SessionBase.new]
  atHandler := by simp [SessionBase.new]
  rejected := by simp [SessionBase.new]

theorem length_dispatches (h : Tracks mgr frames rest₀ k s) : s.trace.dispatches.length = k := by
  rw [h.dispatched.length_eq, List.length_take, Nat.min_eq_left h.bound]

/-- A frame that was dispatched has a functor and parses. -/
theorem decodes (h : Tracks mgr frames rest₀ k s) {i : Nat} (hi : i < k) {f : Frame}
    (hf : frames[i]? = some f) :
    ∃ functor message, mgr.decodeFrame f = some (functor, message) := by
  have hlen := h.length_dispatches
  have htake : i < (frames.take k).length := by
    rw [← h.dispatched.length_eq]
    omega
  have hd := h.dispatched.get (hlen ▸ hi) htake
  obtain ⟨functor, hdecode⟩ := hd.decoded
  have hget : (frames.take k).get ⟨i, htake⟩ = f := by
    rw [List.get_eq_getElem, List.getElem_take]
    exact (List.getElem?_eq_some_iff.mp hf).2
  rw [hget] at hdecode
  exact ⟨functor, _, hdecode⟩

/-- The unread bytes are part of the stream from frame `k` on. -/
theorem unread_part (h : Tracks mgr frames rest₀ k s)
    (hacc : s.trace.accepted <+: frames.flatMap Frame.stream ++ q) :
    s.recvBuffer.unread <+: (frames.drop k).flatMap Frame.stream ++ q := by
  rw [h.accepted_eq] at hacc
  have hsplit : frames.flatMap Frame.stream =
      (frames.take k).flatMap Frame.stream ++ (frames.drop k).flatMap Frame.stream := by
    rw [← List.flatMap_append, List.take_append_drop]
  rw [hsplit, List.append_assoc] at hacc
  exact (List.prefix_append_right_inj _).mp hacc

/-- A whole packet at the head is frame `k`. -/
theorem head (h : Tracks mgr frames rest₀ k s)
    (hacc : s.trace.accepted <+: frames.flatMap Frame.stream ++ q)
    (hq : ¬ packetHeader.Complete q) (hable : packetHeader.Complete s.recvBuffer.unread) :
    ∃ f u, frames[k]? = some f ∧ frames.take (k + 1) = frames.take k ++ [f] ∧
      s.recvBuffer.unread = f.stream ++ u := by
  obtain ⟨f, rest, u, hdrop, hu, _⟩ :=
    Header.head_of_stream (fun f _ => f.isFrame) hq (h.unread_part hacc) hable
  have hk : frames[k]? = some f := by
    have hget : (frames.drop k)[0]? = frames[k]? := by rw [List.getElem?_drop, Nat.add_zero]
    rw [hdrop] at hget
    exact hget.symm
  refine ⟨f, u, hk, ?_, hu⟩
  rw [List.take_add_one, hk]
  rfl

/-- A rejected head changes nothing. -/
theorem enter (h : Tracks mgr frames rest₀ k s)
    (hacc : s.trace.accepted <+: frames.flatMap Frame.stream ++ q)
    (hq : ¬ packetHeader.Complete q) (hable : packetHeader.Complete s.recvBuffer.unread) :
    Tracks mgr frames rest₀ k s.enter := by
  obtain ⟨f, u, hk, _, hu⟩ := h.head hacc hq hable
  refine ⟨h.ordered, h.bound, h.dispatched, h.rest_eq, h.accepted_eq, h.atHandler, ?_⟩
  intro call hcall hnone
  rcases List.mem_append.mp hcall with hold | hnew
  · exact h.rejected call hold hnone
  · have hpart : f.stream <+: s.recvBuffer.unread := ⟨u, hu.symm⟩
    rw [List.mem_singleton.mp hnew] at hnone ⊢
    rw [decode_of_head mgr h.ordered hu] at hnone
    exact ⟨f, hk, hnone, hpart, hpart⟩

/-- A dispatch is that of the next frame. -/
theorem dispatch (h : Tracks mgr frames rest₀ k s)
    (hacc : s.trace.accepted <+: frames.flatMap Frame.stream ++ q)
    (hq : ¬ packetHeader.Complete q) (hable : packetHeader.Complete s.recvBuffer.unread)
    {functor : PacketFunctor σ Msg} {message : Msg}
    (hsome : mgr.decode s.recvBuffer = some (functor, message)) :
    Tracks mgr frames rest₀ (k + 1) (s.dispatch functor message) := by
  obtain ⟨f, u, hk, htake, hu⟩ := h.head hacc hq hable
  have hdecode : mgr.decodeFrame f = some (functor, message) := by
    rw [← decode_of_head mgr h.ordered hu, hsome]
  have hrecord := record_of_head h.ordered hu message
  have hrest := unread_consume_of_head h.ordered hu
  have hlen := h.length_dispatches
  have haccepted : s.trace.accepted = (frames.take (k + 1)).flatMap Frame.stream ++ u := by
    rw [h.accepted_eq, htake, hu]
    simp
  refine ⟨consumePacket_ordered h.ordered, ?_, ?_, ?_, ?_, ?_, ?_⟩
  · exact (List.getElem?_eq_some_iff.mp hk).1
  · rw [htake, SessionBase.dispatch_dispatches, hrecord]
    refine List.rel_append h.dispatched (List.Forall₂.cons ?_ List.Forall₂.nil)
    exact ⟨rfl, rfl, rfl, functor, hdecode⟩
  · rw [SessionBase.dispatch_rest, htake, handled_concat mgr rest₀ _ hdecode, h.rest_eq]
  · rw [SessionBase.dispatch_accepted, SessionBase.dispatch_recvBuffer, hrest, haccepted]
  · intro i d hd
    rw [SessionBase.dispatch_dispatches, hrecord] at hd
    rcases Nat.lt_trichotomy i k with hlt | heq | hgt
    · rw [List.getElem?_append_left (by omega)] at hd
      exact h.atHandler i d hd
    · -- the new record: everything up to frame `k` is gone when its handler starts
      subst heq
      rw [List.getElem?_append_right (by omega), hlen, Nat.sub_self] at hd
      cases hd
      rw [SessionBase.dispatch_accepted, haccepted]
    · rw [List.getElem?_eq_none (by simp; omega)] at hd
      cases hd
  · -- a rejected frame would be this very head
    intro call hcall hnone
    rw [SessionBase.dispatch_entered] at hcall
    rcases List.mem_append.mp hcall with hold | hnew
    · obtain ⟨g, hg, hreject, _⟩ := h.rejected call hold hnone
      rw [hk] at hg
      cases hg
      rw [hdecode] at hreject
      cases hreject
    · rw [List.mem_singleton.mp hnew] at hnone
      rw [hnone] at hsome
      cases hsome

/-- Bytes that join the unread ones change neither the dispatches nor the
rejected head. -/
theorem received (h : Tracks mgr frames rest₀ k s) {rb : PacketBuffer} (hord : rb.Ordered)
    {bytes : List Byte} (hunread : rb.unread = s.recvBuffer.unread ++ bytes) :
    Tracks mgr frames rest₀ k (s.received rb bytes) := by
  refine ⟨hord, h.bound, h.dispatched, h.rest_eq, ?_, ?_, ?_⟩
  · show s.trace.accepted ++ bytes = _ ++ rb.unread
    rw [hunread, h.accepted_eq, List.append_assoc]
  · intro i d hd
    exact List.IsPrefix.trans (h.atHandler i d hd) (List.prefix_append ..)
  · intro call hcall hnone
    obtain ⟨f, hk, hreject, hcallpart, hpart⟩ := h.rejected call hcall hnone
    refine ⟨f, hk, hreject, hcallpart, ?_⟩
    show f.stream <+: rb.unread
    rw [hunread]
    exact List.IsPrefix.trans hpart (List.prefix_append ..)

end Tracks

/-! ## The loop and a run of calls -/

/-- The session has dispatched some number of the frames and no more. -/
def Follows (mgr : PacketHandlerManager σ Msg) (frames : List Frame) (rest₀ : σ)
    (s : SessionBase σ Msg) : Prop := ∃ k, Tracks mgr frames rest₀ k s

/-- Every frame has a functor and parses, and its handler succeeds when it
runs after those of the frames before it. -/
def AllHandled (mgr : PacketHandlerManager σ Msg) (rest₀ : σ) (frames : List Frame) : Prop :=
  ∀ k f, frames[k]? = some f → ∃ functor message,
    mgr.decodeFrame f = some (functor, message) ∧
      (functor.handler (handled mgr rest₀ (frames.take k)) message).1 = true

namespace Follows

variable {mgr : PacketHandlerManager σ Msg} {frames : List Frame} {rest₀ : σ} {q : List Byte}
  {s : SessionBase σ Msg}

theorem ordered (h : Follows mgr frames rest₀ s) : s.recvBuffer.Ordered := by
  obtain ⟨k, hk⟩ := h
  exact hk.ordered

theorem loop (h : Follows mgr frames rest₀ s)
    (hacc : s.trace.accepted <+: frames.flatMap Frame.stream ++ q)
    (hq : ¬ packetHeader.Complete q) : Follows mgr frames rest₀ (SessionBase.loop mgr s) := by
  refine (SessionBase.drain_induction
    (fun t => t.trace.accepted <+: frames.flatMap Frame.stream ++ q ∧
      Follows mgr frames rest₀ t) ?_ ?_ _ h.ordered ⟨hacc, h⟩).2.2
  · rintro t _ ⟨hacc, k, hk⟩ hable _
    exact ⟨hacc, k, hk.enter hacc hq hable⟩
  · rintro t functor message _ ⟨hacc, k, hk⟩ hable hsome
    exact ⟨hacc, k + 1, hk.dispatch hacc hq hable hsome⟩

/-- If all frames are handled the loop ends on an incomplete head. -/
theorem loop_idle (h : Follows mgr frames rest₀ s)
    (hacc : s.trace.accepted <+: frames.flatMap Frame.stream ++ q)
    (hq : ¬ packetHeader.Complete q) (hgood : AllHandled mgr rest₀ frames) :
    ¬ packetHeader.Complete (SessionBase.loop mgr s).recvBuffer.unread := by
  have hdrain : ∀ fuel (t : SessionBase σ Msg), Follows mgr frames rest₀ t →
      t.trace.accepted <+: frames.flatMap Frame.stream ++ q →
      t.recvBuffer.unread.length < fuel →
      ¬ packetHeader.Complete (SessionBase.drain mgr fuel t).recvBuffer.unread := by
    -- the fuel outlasts the unread bytes, and every pass consumes a frame
    intro fuel
    induction fuel with
    | zero => exact fun t _ _ hfuel => absurd hfuel (Nat.not_lt_zero _)
    | succ fuel ih =>
        rintro t ⟨k, hk⟩ hacc hfuel
        by_cases hable : packetHeader.Complete t.recvBuffer.unread
        · obtain ⟨f, u, hf, _, hu⟩ := hk.head hacc hq hable
          obtain ⟨functor, message, hdecode, htrue⟩ := hgood k f hf
          have hshorter := SessionBase.consume_shorter hk.ordered hable
          rw [← decode_of_head mgr hk.ordered hu] at hdecode
          rw [← hk.rest_eq] at htrue
          rw [SessionBase.drain_of_decoded mgr hable hdecode, if_pos htrue]
          refine ih _ ⟨k + 1, hk.dispatch hacc hq hable hdecode⟩ hacc ?_
          rw [SessionBase.dispatch_recvBuffer]
          omega
        · rw [SessionBase.drain_of_not_able mgr hable]
          exact hable
  exact hdrain _ s h hacc (Nat.lt_succ_self _)

/-- One call of `OnRecv`, whatever it takes. -/
theorem onRecv (h : Follows mgr frames rest₀ s) (pBuffer : Option (Mem Byte)) (recvSize : Nat)
    (hacc : (s.onRecv mgr pBuffer recvSize).trace.accepted <+:
      frames.flatMap Frame.stream ++ q)
    (hq : ¬ packetHeader.Complete q) :
    Follows mgr frames rest₀ (s.onRecv mgr pBuffer recvSize) := by
  obtain ⟨k, hk⟩ := h
  rcases SessionBase.onRecv_cases mgr hk.ordered pBuffer recvSize with
    ⟨_, rb, hrb, hunread, heq⟩ | ⟨src, _, _, _, rb, hrb, hunread, heq⟩
  · -- refused: at most compacted
    rw [heq]
    refine ⟨k, hrb, hk.bound, hk.dispatched, hk.rest_eq, ?_, hk.atHandler, ?_⟩
    · rw [hk.accepted_eq]
      exact congrArg (_ ++ ·) hunread.symm
    · intro call hcall hnone
      obtain ⟨f, hf, hreject, hcallpart, hpart⟩ := hk.rejected call hcall hnone
      exact ⟨f, hf, hreject, hcallpart, by rw [hunread]; exact hpart⟩
  · rw [heq] at hacc ⊢
    rw [SessionBase.loop_accepted mgr hrb] at hacc
    exact Follows.loop ⟨k, hk.received hrb hunread⟩ hacc hq

/-- If all frames are handled no call leaves a whole packet at the head. -/
theorem onRecv_idle (h : Follows mgr frames rest₀ s)
    (hidle : ¬ packetHeader.Complete s.recvBuffer.unread) (pBuffer : Option (Mem Byte))
    (recvSize : Nat)
    (hacc : (s.onRecv mgr pBuffer recvSize).trace.accepted <+:
      frames.flatMap Frame.stream ++ q)
    (hq : ¬ packetHeader.Complete q) (hgood : AllHandled mgr rest₀ frames) :
    ¬ packetHeader.Complete (s.onRecv mgr pBuffer recvSize).recvBuffer.unread := by
  obtain ⟨k, hk⟩ := h
  rcases SessionBase.onRecv_cases mgr hk.ordered pBuffer recvSize with
    ⟨_, rb, _, hunread, heq⟩ | ⟨src, _, _, _, rb, hrb, hunread, heq⟩
  · rw [heq]
    show ¬ packetHeader.Complete rb.unread
    rw [hunread]
    exact hidle
  · rw [heq] at hacc ⊢
    rw [SessionBase.loop_accepted mgr hrb] at hacc
    exact Follows.loop_idle ⟨k, hk.received hrb hunread⟩ hacc hq hgood

end Follows

section Calls

variable {mgr : PacketHandlerManager σ Msg} {past : Mem Byte} {rest₀ : σ} {frames : List Frame}
  {q : List Byte} {calls : List RecvCall}

/-- A run of calls follows every stream its accepted bytes are a part of. -/
theorem follows_of_recvAll (hq : ¬ packetHeader.Complete q)
    (hacc : ((SessionBase.new past rest₀).recvAll mgr calls).trace.accepted <+:
      frames.flatMap Frame.stream ++ q) :
    Follows mgr frames rest₀ ((SessionBase.new past rest₀).recvAll mgr calls) := by
  have hinit : Follows mgr frames rest₀ (SessionBase.new past rest₀) :=
    ⟨0, Tracks.new mgr frames past rest₀⟩
  refine (recvAll_induction (fun s : SessionBase σ Msg =>
    s.trace.accepted <+: frames.flatMap Frame.stream ++ q → Follows mgr frames rest₀ s) ?_
    (new_ordered past) (fun _ => hinit) calls).2 hacc
  intro s call hord hfollows hacc
  have hbefore := (SessionBase.onRecv_grows mgr hord call.pBuffer call.recvSize).accepted.trans hacc
  exact (hfollows hbefore).onRecv call.pBuffer call.recvSize hacc hq

/-- If all frames are handled no whole packet is left at the head. -/
theorem idle_of_recvAll (hq : ¬ packetHeader.Complete q) (hgood : AllHandled mgr rest₀ frames)
    (hacc : ((SessionBase.new past rest₀).recvAll mgr calls).trace.accepted <+:
      frames.flatMap Frame.stream ++ q) :
    ¬ packetHeader.Complete ((SessionBase.new past rest₀).recvAll mgr calls).recvBuffer.unread := by
  have hinit : ¬ packetHeader.Complete
      (SessionBase.new past rest₀ : SessionBase σ Msg).recvBuffer.unread := by
    rw [show (SessionBase.new past rest₀ : SessionBase σ Msg).recvBuffer.unread = [] from
      unread_new past]
    exact packetHeader.not_complete_nil
  refine ((recvAll_induction (fun s : SessionBase σ Msg =>
    s.trace.accepted <+: frames.flatMap Frame.stream ++ q →
      Follows mgr frames rest₀ s ∧ ¬ packetHeader.Complete s.recvBuffer.unread) ?_
    (new_ordered past) (fun _ => ⟨⟨0, Tracks.new mgr frames past rest₀⟩, hinit⟩) calls).2 hacc).2
  intro s call hord hbefore hacc
  have hpart := (SessionBase.onRecv_grows mgr hord call.pBuffer call.recvSize).accepted.trans hacc
  obtain ⟨hfollows, hidle⟩ := hbefore hpart
  exact ⟨hfollows.onRecv _ _ hacc hq, hfollows.onRecv_idle hidle _ _ hacc hq hgood⟩

end Calls

/-! ## One frame alone -/

/-- The loop dispatches a frame that is all there is, and ends. -/
theorem loop_of_frame {mgr : PacketHandlerManager σ Msg} {s : SessionBase σ Msg} {f : Frame}
    (hord : s.recvBuffer.Ordered) (hu : s.recvBuffer.unread = f.stream)
    {functor : PacketFunctor σ Msg} {message : Msg}
    (hdecode : mgr.decodeFrame f = some (functor, message)) :
    SessionBase.loop mgr s = s.dispatch functor message := by
  have hhead := head_of_alone hu
  have hdone : ¬ packetHeader.Complete (s.dispatch functor message).recvBuffer.unread := by
    rw [SessionBase.dispatch_recvBuffer, unread_consume_of_head hord hhead]
    exact packetHeader.not_complete_nil
  rw [← decode_of_head mgr hord hhead] at hdecode
  rw [SessionBase.loop, SessionBase.drain_of_decoded mgr (complete_of_head hhead) hdecode,
    SessionBase.drain_of_not_able mgr hdone]
  split <;> rfl

/-- A whole packet of at least four bytes is a frame. -/
theorem exists_frame {u : List Byte} (hcomplete : packetHeader.Complete u)
    (h4 : 4 ≤ packetHeader.size u) : ∃ (f : Frame) (u' : List Byte), u = f.stream ++ u' := by
  have hle := hcomplete.2
  have hlong : 4 ≤ u.length := Nat.le_trans h4 hle
  match u, hlong with
  | b₀ :: b₁ :: b₂ :: b₃ :: rest, _ =>
      have hlt := (ofLe16 (b₀ :: b₁ :: b₂ :: b₃ :: rest)).toNat_lt
      rw [packetHeader_size] at h4 hle
      generalize hsize : (ofLe16 (b₀ :: b₁ :: b₂ :: b₃ :: rest)).toNat = size at h4 hle hlt
      have hpayload : (rest.take (size - 4)).length = size - 4 := by
        rw [List.length_take]
        simp only [List.length_cons] at hle
        omega
      let f : Frame :=
        ⟨⟨ofLe16 (b₂ :: b₃ :: rest), rest.take (size - 4)⟩, by
          show (rest.take (size - 4)).length ≤ 65531
          omega⟩
      have hfield : f.size16 = ofLe16 (b₀ :: b₁ :: b₂ :: b₃ :: rest) := by
        rw [← UInt16.toNat_inj, Packet.toNat_size16, hsize]
        show (4 + (rest.take (size - 4)).length) % 65536 = size
        omega
      have hstream : f.stream = b₀ :: b₁ :: b₂ :: b₃ :: rest.take (size - 4) := by
        show le16 f.size16 ++ le16 (ofLe16 (b₂ :: b₃ :: rest)) ++ rest.take (size - 4) = _
        rw [hfield, le16_ofLe16_cons, le16_ofLe16_cons]
        rfl
      refine ⟨f, rest.drop (size - 4), ?_⟩
      rw [hstream]
      simp [List.take_append_drop]

end ServerStudy
