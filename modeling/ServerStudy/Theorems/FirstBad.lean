import Mathlib.Data.List.Induction
import ServerStudy.Logic.Chat
import ServerStudy.Logic.FrameRuns

/-!
# Where a stream stops

A session that receives frames of any numbers and payloads dispatches them up
to the first that `Handle` rejects, however they are cut into chunks; that frame
and all behind it stay in the buffer.
-/

namespace ServerStudy.Theorems.FirstBad

open ServerStudy.Core PacketBuffer

variable {σ Msg : Type}

/-- Frames of any kind, cut in any way into chunks that the buffer has room for:
what was dispatched is exactly the frames that are there as a whole, up to the
first that does not decode, and what is unread is all that came behind them. -/
theorem served_to_first_bad (mgr : PacketHandlerManager σ Msg) (frames : List Frame)
    (hnever : NeverFails mgr frames) (s : SessionBase σ Msg)
    (hord : s.recvBuffer.readPos ≤ s.recvBuffer.writePos) (hempty : s.recvBuffer.unread = [])
    (chunks : List (List Byte)) (hne : ∀ chunk ∈ chunks, chunk ≠ [])
    (hpart : chunks.flatten <+: frames.flatMap Frame.stream)
    (hroom : ∀ done chunk todo, chunks = done ++ chunk :: todo →
      (waiting mgr frames done.flatten).length + chunk.length ≤ 65535) :
    Drained mgr s (served mgr frames chunks.flatten.length)
      (waiting mgr frames chunks.flatten) (s.recvAll mgr (chunks.map chunkCall)) := by
  induction chunks using List.reverseRecOn with
  | nil => exact .start mgr frames (ordered_iff.mp hord) hempty
  | append_singleton done chunk ih =>
      have hflat : (done ++ [chunk]).flatten = done.flatten ++ chunk := by
        rw [List.flatten_append, List.flatten_singleton]
      rw [hflat] at hpart ⊢
      have hbefore := ih (fun c hc => hne c (List.mem_append_left _ hc))
        ((List.prefix_append ..).trans hpart)
        (fun first c todo hsplit => hroom first c (todo ++ [chunk]) (by rw [hsplit]; simp))
      rw [List.map_append, List.map_singleton, recvAll_concat]
      exact hbefore.onRecv hnever packetHeader.not_complete_nil
        (by rw [List.append_nil]; exact hpart)
        (hne chunk (List.mem_append_right _ (List.mem_singleton_self _)))
        (hroom done chunk [] rfl)

/-- The server's own handlers never fail. -/
theorem clientManager_neverFails (codec : ChatCodec) (frames : List Frame) :
    NeverFails (clientManager codec none) frames := by
  intro f _ functor message hdecode rest
  by_cases hno : f.protocolNumber = chatProtocolNumber
  · rw [PacketHandlerManager.decodeFrame, hno, clientManager_chat, Option.bind_some,
      Option.map_eq_some_iff] at hdecode
    obtain ⟨_, _, heq⟩ := hdecode
    cases heq
    rfl
  · rw [PacketHandlerManager.decodeFrame, clientManager_other hno (.inr rfl)] at hdecode
    cases hdecode

/-- A frame of number 7, which no functor is registered for. -/
def otherFrame : Frame := ⟨⟨7, [1]⟩, by decide⟩

/-- Behind the message hi comes such a frame, and then hi again, which is never
dispatched. -/
theorem hi_to_first_bad :
    Drained (clientManager chatWire none)
      (ClientSession.new (fun _ => 0) (fun _ => 0) openClient.clientSock 0)
      [hiFrame] (otherFrame.stream ++ hiFrame.stream)
      (SessionBase.recvAll (clientManager chatWire none)
        (ClientSession.new (fun _ => 0) (fun _ => 0) openClient.clientSock 0)
        ([hiFrame.stream ++ otherFrame.stream, hiFrame.stream].map chunkCall)) := by
  have hroom : ∀ done chunk todo,
      [hiFrame.stream ++ otherFrame.stream, hiFrame.stream] = done ++ chunk :: todo →
      (waiting (clientManager chatWire none) [hiFrame, otherFrame, hiFrame]
        done.flatten).length + chunk.length ≤ 65535 := by
    intro done chunk todo hsplit
    have htotal : 21 = (done ++ chunk :: todo).flatten.length := by
      rw [← hsplit]
      decide
    rw [List.flatten_append, List.flatten_cons, List.length_append, List.length_append] at htotal
    rw [waiting, List.length_drop]
    omega
  exact served_to_first_bad (clientManager chatWire none) [hiFrame, otherFrame, hiFrame]
    (clientManager_neverFails chatWire _)
    (ClientSession.new (fun _ => 0) (fun _ => 0) openClient.clientSock 0) (Nat.le_refl _)
    (unread_new _) [hiFrame.stream ++ otherFrame.stream, hiFrame.stream] (by decide)
    ⟨[], by decide⟩ hroom

end ServerStudy.Theorems.FirstBad
