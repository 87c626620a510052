import Mathlib.Data.List.Induction
import ServerStudy.Logic.Chat

/-!
# `OnRecv` reassembles a stream of frames

However a stream of frames is cut into chunks, as long as none is refused the
handlers run exactly for the frames that have arrived as a whole.
-/

namespace ServerStudy.Theorems.Reassembly

open ServerStudy.Core PacketBuffer

variable {σ Msg : Type} (mgr : PacketHandlerManager σ Msg)

/-- A new session that has been given the chunks. -/
def feed (past : Mem Byte) (rest₀ : σ) (chunks : List (List Byte)) : SessionBase σ Msg :=
  (SessionBase.new past rest₀).recvAll mgr (chunks.map chunkCall)

/-- No `AppendBuffer` call of the run is refused. -/
def NoneRefused (past : Mem Byte) (rest₀ : σ) (chunks : List (List Byte)) : Prop :=
  Along (fun s chunk => SessionBase.onRecv mgr s (some (Mem.ofList 0 chunk)) chunk.length)
    (fun s chunk => (s.recvBuffer.appendBuffer (some (Mem.ofList 0 chunk))
      (UInt16.ofNat chunk.length)).1 = true)
    (SessionBase.new past rest₀) chunks

theorem feed_concat (past : Mem Byte) (rest₀ : σ) (chunks : List (List Byte))
    (chunk : List Byte) :
    feed mgr past rest₀ (chunks ++ [chunk]) =
      (feed mgr past rest₀ chunks).onRecv mgr (some (Mem.ofList 0 chunk)) chunk.length := by
  rw [feed, List.map_append]
  exact recvAll_concat mgr _ _ _

theorem feed_eq_run (past : Mem Byte) (rest₀ : σ) (chunks : List (List Byte)) :
    feed mgr past rest₀ chunks =
      run (fun s chunk => SessionBase.onRecv mgr s (some (Mem.ofList 0 chunk)) chunk.length)
        (SessionBase.new past rest₀) chunks := by
  rw [feed, SessionBase.recvAll, run, List.foldl_map]
  rfl

section Stream

variable {mgr} {past : Mem Byte} {rest₀ : σ} {frames : List Frame} {q : List Byte}

/-- A chunk that is not refused is accepted as a whole. -/
theorem onRecv_accepts {s : SessionBase σ Msg} (hord : s.recvBuffer.Ordered) {chunk : List Byte}
    (hsize : chunk.length ≤ 65535)
    (hroom : (s.recvBuffer.appendBuffer (some (Mem.ofList 0 chunk))
      (UInt16.ofNat chunk.length)).1 = true) :
    (s.onRecv mgr (some (Mem.ofList 0 chunk)) chunk.length).trace.accepted =
      s.trace.accepted ++ chunk := by
  have hlen : (UInt16.ofNat chunk.length).toNat = chunk.length := toNat_ofNat_of_le hsize
  rw [appendBuffer_fst hord, hlen] at hroom
  rcases SessionBase.onRecv_cases mgr hord (some (Mem.ofList 0 chunk)) chunk.length
    with ⟨hrefused, _⟩ | ⟨src, hsrc, _, _, rb, hrb, _, heq⟩
  · exact absurd hroom (hrefused _ rfl)
  · cases hsrc
    rw [heq, SessionBase.loop_accepted mgr hrb, Mem.slice_ofList]
    rfl

/-- If none of the chunks is refused all their bytes are accepted. -/
theorem accepted_feed {chunks : List (List Byte)}
    (hsizes : ∀ chunk ∈ chunks, chunk.length ≤ 65535)
    (hroom : NoneRefused mgr past rest₀ chunks) (done todo : List (List Byte))
    (hsplit : chunks = done ++ todo) :
    (feed mgr past rest₀ done).trace.accepted = done.flatten := by
  induction done using List.reverseRecOn generalizing todo with
  | nil => rfl
  | append_singleton done chunk ih =>
      have hsplit' : chunks = done ++ chunk :: todo := by rw [hsplit]; simp
      have hbefore := ih (chunk :: todo) hsplit'
      have hord : (feed mgr past rest₀ done).recvBuffer.Ordered :=
        recvAll_ordered mgr (new_ordered past) _
      have haccepts := along_iff.mp hroom done chunk todo hsplit'
      rw [← feed_eq_run] at haccepts
      have hsize := hsizes chunk (by rw [hsplit']; simp)
      rw [feed_concat, onRecv_accepts hord hsize haccepts, hbefore, List.flatten_append,
        List.flatten_singleton]

/-- The frames dispatched are those that have arrived as a whole. -/
theorem tracks_whole {chunks : List (List Byte)} (hq : ¬ packetHeader.Complete q)
    (hgood : AllHandled mgr rest₀ frames)
    (hacc : (feed mgr past rest₀ chunks).trace.accepted <+: frames.flatMap Frame.stream ++ q) :
    ∃ k, Tracks mgr frames rest₀ k (feed mgr past rest₀ chunks) ∧
      whole Frame.stream frames (feed mgr past rest₀ chunks).trace.accepted.length =
        frames.take k := by
  obtain ⟨k, hk⟩ := follows_of_recvAll hq hacc
  refine ⟨k, hk, ?_⟩
  have hidle := idle_of_recvAll hq hgood hacc
  have hbytes : (feed mgr past rest₀ chunks).trace.accepted =
      (frames.take k).flatMap Frame.stream ++ (feed mgr past rest₀ chunks).recvBuffer.unread :=
    hk.accepted_eq
  rw [hbytes] at hacc ⊢
  exact Header.whole_eq_take (fun f _ => f.isFrame) hacc hidle

end Stream

/-- Frames that are all handled, and a proper prefix of one more, cut into
chunks of which none is refused: after each chunk the handlers have run for
the frames that have arrived as a whole, each once, in order, with the message
parsed from its own payload, and what has arrived after them is unread. -/
theorem frames_reassembled (past : Mem Byte) (rest₀ : σ) (frames : List Frame) (next : Frame)
    (q : List Byte) (chunks : List (List Byte)) (hgood : AllHandled mgr rest₀ frames)
    (hq : q <+: next.stream) (hproper : q ≠ next.stream)
    (hsizes : ∀ chunk ∈ chunks, 0 < chunk.length ∧ chunk.length ≤ 65535)
    (hcut : chunks.flatten = frames.flatMap Frame.stream ++ q)
    (hroom : NoneRefused mgr past rest₀ chunks) :
    (∀ done todo, chunks = done ++ todo →
      List.Forall₂ (Dispatched mgr) (feed mgr past rest₀ done).trace.dispatches
          (whole Frame.stream frames done.flatten.length) ∧
        (feed mgr past rest₀ done).rest =
          handled mgr rest₀ (whole Frame.stream frames done.flatten.length) ∧
        (feed mgr past rest₀ done).recvBuffer.unread =
          done.flatten.drop
            ((whole Frame.stream frames done.flatten.length).flatMap Frame.stream).length) ∧
      (feed mgr past rest₀ chunks).recvBuffer.unread = q := by
  have hpartial : ¬ packetHeader.Complete q := Header.not_complete_of_part next.isFrame hq hproper
  have haccepted := accepted_feed (fun chunk h => (hsizes chunk h).2) hroom
  constructor
  · intro done todo hsplit
    have hdone := haccepted done todo hsplit
    have hpart : (feed mgr past rest₀ done).trace.accepted <+:
        frames.flatMap Frame.stream ++ q := by
      rw [hdone, ← hcut, hsplit, List.flatten_append]
      exact List.prefix_append ..
    obtain ⟨k, hk, hwhole⟩ := tracks_whole hpartial hgood hpart
    rw [← hdone, hwhole]
    refine ⟨hk.dispatched, hk.rest_eq, ?_⟩
    rw [hk.accepted_eq, List.drop_left' rfl]
  · -- all bytes are there: the whole frames are all the frames
    have hall : (feed mgr past rest₀ chunks).trace.accepted =
        frames.flatMap Frame.stream ++ q := by
      rw [haccepted chunks [] (by rw [List.append_nil]), hcut]
    obtain ⟨k, hk, hwhole⟩ := tracks_whole hpartial hgood (by rw [hall])
    have hframes := Header.whole_eq_take (k := frames.length) (q := q)
      (fun f (_ : f ∈ frames) => f.isFrame)
      (by rw [List.take_length]) hpartial
    rw [List.take_length] at hframes
    rw [hall, hframes] at hwhole
    have hbytes := hk.accepted_eq
    rw [hall, ← hwhole] at hbytes
    exact (List.append_cancel_left hbytes).symm

/-- One frame and three bytes of the next, in two chunks. -/
theorem hi_reassembled :
    List.Forall₂ (Dispatched (clientManager chatWire none))
        (feed (clientManager chatWire none) (fun _ => 0) openClient
          [[8, 0, 0, 0, 10], [2, 104, 105, 8, 0, 0]]).trace.dispatches [hiFrame] ∧
      (feed (clientManager chatWire none) (fun _ => 0) openClient
        [[8, 0, 0, 0, 10], [2, 104, 105, 8, 0, 0]]).recvBuffer.unread = [8, 0, 0] := by
  have hrun := frames_reassembled (clientManager chatWire none) (fun _ => 0) openClient
    [hiFrame] hiFrame [8, 0, 0] [[8, 0, 0, 0, 10], [2, 104, 105, 8, 0, 0]]
    (allHandled_of_isChat (by intro f hf; rw [List.mem_singleton.mp hf]; exact hiFrame_isChat) _)
    ⟨[0, 10, 2, 104, 105], by decide⟩ (by decide) (by decide) (by decide)
    ⟨by decide +kernel, by decide +kernel, trivial⟩
  exact ⟨(hrun.1 _ [] rfl).1, hrun.2⟩

end ServerStudy.Theorems.Reassembly
