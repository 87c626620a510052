import ServerStudy.Core.Loop
import ServerStudy.Logic.Chat

/-!
# The receive loop ends

The size field that bounds a pass of the loop comes from the peer and is read
three times. A pass that goes on has found a whole packet, of at least one
byte, and has consumed it before the handler ran; so whatever the bytes are and
whatever the parser and the handlers answer, the loop ends.
-/

namespace ServerStudy.Theorems.LoopEnds

open ServerStudy.Core PacketBuffer SessionBase

variable {σ Msg : Type} {mgr : PacketHandlerManager σ Msg} {s s' : SessionBase σ Msg}

/-- The body of the `for (;;)` of `OnRecv`: whether it goes on. -/
def pass (mgr : PacketHandlerManager σ Msg) (s : SessionBase σ Msg) : Bool × SessionBase σ Msg :=
  if s.recvBuffer.isAbleToGetPacket = false then (false, s) else mgr.handle s

/-- A pass that goes on has taken a packet off the receive buffer. -/
theorem pass_shorter (hord : s.recvBuffer.Ordered) (hpass : pass mgr s = (true, s')) :
    s'.recvBuffer.Ordered ∧ s'.recvBuffer.unread.length < s.recvBuffer.unread.length := by
  unfold pass at hpass
  split at hpass
  · cases hpass
  · rename_i hable
    rw [isAbleToGetPacket_eq_false_iff, not_not] at hable
    rcases handle_cases mgr s with ⟨_, heq⟩ | ⟨functor, message, _, heq⟩
    · rw [heq] at hpass
      cases hpass
    · rw [heq] at hpass
      obtain ⟨_, hnext⟩ := Prod.mk.inj hpass
      rw [← hnext, dispatch_recvBuffer]
      exact ⟨consumePacket_ordered hord, consume_shorter hord hable⟩

/-- A run of the loop that ends is the loop of the session. -/
theorem loop_of_loops {k : Nat} (h : Loops (pass mgr) s k s') (hord : s.recvBuffer.Ordered) :
    loop mgr s = s' := by
  induction h with
  | @leave s s' hleave =>
      rw [loop_eq mgr hord]
      unfold pass at hleave
      split at hleave
      · rename_i hnot
        rw [if_pos hnot]
        exact (Prod.mk.inj hleave).2
      · rename_i hable
        rw [if_neg hable, hleave]
  | @again s t s'' k hagain _ ih =>
      obtain ⟨hnext, _⟩ := pass_shorter hord hagain
      rw [loop_eq mgr hord]
      unfold pass at hagain
      split at hagain
      · cases hagain
      · rename_i hable
        rw [if_neg hable, hagain]
        exact ih hnext

/-- The loop ends, after at most as many passes that go on as there are unread
bytes. -/
theorem loop_ends (mgr : PacketHandlerManager σ Msg) (hord : s.recvBuffer.Ordered) :
    ∃ k ≤ s.recvBuffer.unread.length, Loops (pass mgr) s k (loop mgr s) := by
  obtain ⟨k, s', hk, hrun⟩ : ∃ k s', k ≤ s.recvBuffer.unread.length ∧ Loops (pass mgr) s k s' :=
    exists_loops (fun s : SessionBase σ Msg => s.recvBuffer.Ordered)
      (fun s => s.recvBuffer.unread.length) (fun _ _ hord hpass => pass_shorter hord hpass) hord
  rw [loop_of_loops hrun hord]
  exact ⟨k, hk, hrun⟩

/-- One call of `OnRecv` on any buffer and any bytes. If `AppendBuffer` takes
them, the loop is left after at most as many successful calls of `Handle` as
there are unread bytes then; if not, `Handle` is not called. And in any state
a pass that goes on has removed at least one byte. -/
theorem onRecv_loop_ends (mgr : PacketHandlerManager σ Msg) (s : SessionBase σ Msg)
    (hle : s.recvBuffer.readPos ≤ s.recvBuffer.writePos) (src : Mem Byte) (recvSize : Nat) :
    ((0 < recvSize ∧ s.recvBuffer.unread.length + recvSize ≤ 65535 →
        ∃ rb k, rb.unread = s.recvBuffer.unread ++ src.slice 0 recvSize ∧
          k ≤ rb.unread.length ∧
          Loops (pass mgr) (s.received rb (src.slice 0 recvSize)) k
            (s.onRecv mgr (some src) recvSize)) ∧
      (¬ (0 < recvSize ∧ s.recvBuffer.unread.length + recvSize ≤ 65535) →
        (s.onRecv mgr (some src) recvSize).trace = s.trace)) ∧
    ∀ t t' : SessionBase σ Msg, t.recvBuffer.readPos ≤ t.recvBuffer.writePos →
      pass mgr t = (true, t') →
      t'.recvBuffer.readPos ≤ t'.recvBuffer.writePos ∧
        t'.recvBuffer.unread.length < t.recvBuffer.unread.length := by
  have hord : s.recvBuffer.Ordered := ordered_iff.mp hle
  constructor
  · rcases onRecv_cases mgr hord (some src) recvSize with
      ⟨hno, rb, _, _, heq⟩ | ⟨src', hsrc, hpos, hroom, rb, hrb, hunread, heq⟩
    · refine ⟨fun hfits => absurd hfits (hno src rfl), fun _ => ?_⟩
      rw [heq]
    · cases hsrc
      refine ⟨fun _ => ?_, fun hrefused => absurd ⟨hpos, hroom⟩ hrefused⟩
      have hstart : (s.received rb (src.slice 0 recvSize)).recvBuffer.Ordered := hrb
      obtain ⟨k, hk, hrun⟩ := loop_ends mgr hstart
      rw [heq]
      exact ⟨rb, k, hunread, hk, hrun⟩
  · intro t t' ht hpass
    obtain ⟨hnext, hshorter⟩ := pass_shorter (ordered_iff.mp ht) hpass
    exact ⟨ordered_iff.mpr hnext, hshorter⟩

/-- A new session and the frame of the text hi. -/
theorem hi_loop_ends :
    ∃ rb k, rb.unread = [] ++ (Mem.ofList 0 hiFrame.stream).slice 0 8 ∧ k ≤ rb.unread.length ∧
      Loops (pass (clientManager chatWire none))
        ((SessionBase.new (fun _ => 0) openClient).received rb
          ((Mem.ofList 0 hiFrame.stream).slice 0 8)) k
        ((SessionBase.new (fun _ => 0) openClient).onRecv (clientManager chatWire none)
          (some (Mem.ofList 0 hiFrame.stream)) 8) :=
  (onRecv_loop_ends (clientManager chatWire none) (SessionBase.new (fun _ => 0) openClient)
    (by decide) (Mem.ofList 0 hiFrame.stream) 8).1.1 (by decide)

end ServerStudy.Theorems.LoopEnds
