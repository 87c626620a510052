import ServerStudy.Logic.Chat

/-!
# Dispatch is in order, and at most once

`OnRecv` stops for three reasons: no functor, a payload that does not parse, a
handler that answers false. The first two leave the frame at the head of the
buffer, for good; the third has consumed it. Whatever the mixture, and
whatever is refused in between, the frames handed to handlers are the first of
the stream and the bytes consumed are theirs.
-/

namespace ServerStudy.Theorems.InOrder

open ServerStudy.Core PacketBuffer

variable {σ Msg : Type} {mgr : PacketHandlerManager σ Msg} {frames : List Frame} {rest₀ : σ}

/-- A frame that was rejected is the next one for good: a later state of the
run has dispatched no more. -/
theorem stuck_of_rejected {k k' : Nat} {s s' : SessionBase σ Msg}
    (h : Tracks mgr frames rest₀ k s) (h' : Tracks mgr frames rest₀ k' s')
    (hgrows : s.trace.Grows s'.trace) {f : Frame} (hf : frames[k]? = some f)
    (hreject : mgr.decodeFrame f = none) : k' = k ∧ s'.trace.dispatches = s.trace.dispatches := by
  have hlen := h.length_dispatches
  have hlen' := h'.length_dispatches
  have hle := hgrows.dispatches.length_le
  have hk : k' = k := by
    by_contra hne
    obtain ⟨functor, message, hdecode⟩ := h'.decodes (show k < k' by omega) hf
    rw [hreject] at hdecode
    cases hdecode
  exact ⟨hk, (hgrows.dispatches.eq_of_length (by omega)).symm⟩

theorem map_packet_of_dispatched {ds : List (Dispatch Msg)} {fs : List Frame}
    (h : List.Forall₂ (Dispatched mgr) ds fs) :
    (ds.map Dispatch.packet).flatten = fs.flatMap Frame.stream := by
  induction h with
  | nil => rfl
  | cons hd _ ih => rw [List.map_cons, List.flatten_cons, hd.packet, ih, List.flatMap_cons]

/-- Any calls on a new session of which the accepted bytes are part of a
stream of frames. At every point the dispatches are those of the first `k`
frames and each handler has run once; the bytes accepted are the dispatched
packets and the unread bytes, and were so, without the packet, when a handler
started; a packet `Handle` has rejected is frame `k`, and from then on it stays
at the head and nothing is dispatched. -/
theorem frames_dispatched_in_order (mgr : PacketHandlerManager σ Msg) (past : Mem Byte)
    (rest₀ : σ) (frames : List Frame) (calls : List RecvCall)
    (hacc : ((SessionBase.new past rest₀).recvAll mgr calls).trace.accepted <+:
      frames.flatMap Frame.stream)
    (done todo : List RecvCall) (hsplit : calls = done ++ todo) :
    ∃ k s, s = (SessionBase.new past rest₀).recvAll mgr done ∧ k ≤ frames.length ∧
      List.Forall₂ (Dispatched mgr) s.trace.dispatches (frames.take k) ∧
      s.rest = handled mgr rest₀ (frames.take k) ∧
      s.trace.accepted =
        (s.trace.dispatches.map Dispatch.packet).flatten ++ s.recvBuffer.unread ∧
      (∀ i d, s.trace.dispatches[i]? = some d →
        (frames.take (i + 1)).flatMap Frame.stream ++ d.unread <+: s.trace.accepted) ∧
      ∀ call ∈ s.trace.entered, mgr.decode call.recvBuffer = none →
        ∃ f, frames[k]? = some f ∧ f.stream <+: call.recvBuffer.unread ∧
          ∀ more rest, todo = more ++ rest →
            f.stream <+: (s.recvAll mgr more).recvBuffer.unread ∧
              (s.recvAll mgr more).trace.dispatches = s.trace.dispatches := by
  have hempty := packetHeader.not_complete_nil
  have hfollows : ∀ before after, calls = before ++ after →
      Follows mgr frames rest₀ ((SessionBase.new past rest₀).recvAll mgr before) := by
    intro before after hcalls
    refine follows_of_recvAll hempty ?_
    rw [hcalls, recvAll_append] at hacc
    have hgrows := recvAll_grows mgr (recvAll_ordered mgr (s := SessionBase.new past rest₀)
      (new_ordered past) before) after
    rw [List.append_nil]
    exact hgrows.accepted.trans hacc
  obtain ⟨k, hk⟩ := hfollows done todo hsplit
  refine ⟨k, _, rfl, hk.bound, hk.dispatched, hk.rest_eq, ?_, hk.atHandler, ?_⟩
  · rw [map_packet_of_dispatched hk.dispatched]
    exact hk.accepted_eq
  · intro call hcall hnone
    obtain ⟨f, hf, hreject, hpart, _⟩ := hk.rejected call hcall hnone
    refine ⟨f, hf, hpart, ?_⟩
    intro more rest htodo
    obtain ⟨k', hk'⟩ := hfollows (done ++ more) rest (by rw [hsplit, htodo, List.append_assoc])
    rw [recvAll_append] at hk'
    -- both states follow the same stream, so the later one is stuck at frame `k`
    have hgrows := recvAll_grows mgr hk.ordered more
    obtain ⟨heq, hsame⟩ := stuck_of_rejected hk hk' hgrows hf hreject
    obtain ⟨f', hf', _, _, hhead⟩ := hk'.rejected call (hgrows.entered.subset hcall) hnone
    rw [heq, hf] at hf'
    cases hf'
    exact ⟨hhead, hsame⟩

/-- A frame without a functor behind one that has it, and a refused call. -/
theorem unregistered_after_hi :
    ∃ k s, s = (SessionBase.new (fun _ => 0) openClient).recvAll (clientManager chatWire none)
        [⟨none, 7⟩, chunkCall (hiFrame.stream ++ [4, 0, 1, 0])] ∧
      List.Forall₂ (Dispatched (clientManager chatWire none)) s.trace.dispatches
        ([hiFrame, ⟨⟨1, []⟩, by decide⟩].take k) := by
  obtain ⟨k, s, hs, _, hdispatched, _⟩ := frames_dispatched_in_order
    (clientManager chatWire none) (fun _ => 0) openClient [hiFrame, ⟨⟨1, []⟩, by decide⟩]
    [⟨none, 7⟩, chunkCall (hiFrame.stream ++ [4, 0, 1, 0])] (by decide +kernel)
    [⟨none, 7⟩, chunkCall (hiFrame.stream ++ [4, 0, 1, 0])] [] rfl
  exact ⟨k, s, hs, hdispatched⟩

end ServerStudy.Theorems.InOrder
