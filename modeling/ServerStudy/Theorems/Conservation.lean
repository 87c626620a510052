import ServerStudy.Theorems.Reassembly

/-!
# When `OnRecv` keeps every byte

The caller receives into an array one byte larger than `OnRecv` accepts, and
`AppendBuffer` takes a chunk only if all of it fits behind the unread bytes,
before any packet is drained. So a chunk is lost as a whole exactly when it
and the unread bytes exceed the buffer together.
-/

namespace ServerStudy.Theorems.Conservation

open ServerStudy.Core PacketBuffer Reassembly

variable {σ Msg : Type} (mgr : PacketHandlerManager σ Msg)

/-- What the call dispatched, followed by what it left unread, is what was
unread, followed by the chunk. -/
def Keeps (s : SessionBase σ Msg) (chunk : List Byte) : Prop :=
  ∃ dispatched,
    (s.onRecv mgr (some (Mem.ofList 0 chunk)) chunk.length).trace.dispatches =
        s.trace.dispatches ++ dispatched ∧
      (dispatched.map Dispatch.packet).flatten ++
          (s.onRecv mgr (some (Mem.ofList 0 chunk)) chunk.length).recvBuffer.unread =
        s.recvBuffer.unread ++ chunk

theorem keeps_iff {s : SessionBase σ Msg} (hord : s.recvBuffer.Ordered) (chunk : List Byte) :
    Keeps mgr s chunk ↔ s.recvBuffer.unread.length + chunk.length ≤ maxBufSize := by
  have hgrows := SessionBase.onRecv_grows mgr hord (some (Mem.ofList 0 chunk)) chunk.length
  have hbound := s.recvBuffer.length_unread_le
  rcases SessionBase.onRecv_cases mgr hord (some (Mem.ofList 0 chunk)) chunk.length with
    ⟨hrefused, rb, _, hunread, heq⟩ | ⟨src, hsrc, _, hfits, rb, hrb, hunread, heq⟩
  · -- refused: kept only if there was nothing to keep
    have hno := hrefused _ rfl
    constructor
    · rintro ⟨dispatched, hdispatches, hbytes⟩
      rw [heq] at hdispatches hbytes
      have hnone : dispatched = [] := by simpa using hdispatches
      rw [hnone] at hbytes
      have hlen := congrArg List.length hbytes
      simp only [List.map_nil, List.flatten_nil, List.nil_append, hunread,
        List.length_append] at hlen
      omega
    · intro hfits
      have hnil : chunk = [] := List.eq_nil_of_length_eq_zero (by omega)
      refine ⟨[], ?_, ?_⟩
      · rw [heq, List.append_nil]
      · rw [heq]
        simp [hunread, hnil]
  · cases hsrc
    refine iff_of_true ?_ hfits
    obtain ⟨dispatched, hdispatches⟩ := hgrows.dispatches
    refine ⟨dispatched, hdispatches.symm, ?_⟩
    rw [Mem.slice_ofList] at hunread heq
    have hstream := SessionBase.loop_conserves mgr (s := s.received rb chunk) hrb
    rw [← heq] at hstream
    simp only [SessionBase.stream, ← hdispatches, List.map_append, List.flatten_append,
      List.append_assoc] at hstream
    have hbytes := List.append_cancel_left hstream
    rw [hbytes]
    exact hunread

/-- In every state that chunks lead to, and for every next chunk: the call
keeps every byte exactly when the chunk fits behind the unread bytes. -/
theorem onRecv_keeps_iff (past : Mem Byte) (rest₀ : σ) (chunks : List (List Byte))
    (chunk : List Byte) :
    Keeps mgr (feed mgr past rest₀ chunks) chunk ↔
      (feed mgr past rest₀ chunks).recvBuffer.unread.length + chunk.length ≤ 65535 :=
  keeps_iff mgr (recvAll_ordered mgr (new_ordered past) _) chunk

/-- The stream of 8192 Chat frames of eight bytes. -/
theorem length_hiFrames : ((List.replicate 8192 hiFrame).flatMap Frame.stream).length = 65536 := by
  have hlen : hiFrame.stream.length = 8 := by decide
  rw [List.length_flatMap, List.map_replicate, List.sum_replicate_nat, hlen]

/-- All of it is well formed, and one `recv` into `MAX_BUF_SIZE + 1` bytes can
return it; `OnRecv` drops it on a new session. -/
theorem full_recv_lost :
    AllHandled (clientManager chatWire none) openClient (List.replicate 8192 hiFrame) ∧
      ((List.replicate 8192 hiFrame).flatMap Frame.stream).length = maxBufSize + 1 ∧
      ¬ Keeps (clientManager chatWire none)
        (feed (clientManager chatWire none) (fun _ => 0) openClient [])
        ((List.replicate 8192 hiFrame).flatMap Frame.stream) := by
  refine ⟨allHandled_of_isChat ?_ _, length_hiFrames, ?_⟩
  · intro f hf
    rw [List.eq_of_mem_replicate hf]
    exact hiFrame_isChat
  · intro hkeeps
    have hfits := (keeps_iff _ (new_ordered _) _).mp hkeeps
    rw [length_hiFrames] at hfits
    unfold maxBufSize at hfits
    omega

end ServerStudy.Theorems.Conservation
