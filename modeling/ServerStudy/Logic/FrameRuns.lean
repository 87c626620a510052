import Mathlib.Data.List.TakeWhile
import ServerStudy.Logic.Frames

/-!
# A chunk of frames

What one call of `OnRecv` does when the unread bytes and the chunk are frames
with a rest behind them (`onRecv_frames`): the frames are dispatched and the
rest stays, which is an incomplete head or a frame that `Handle` rejects.
`Tracks` follows a whole stream from a new session on; here the session may have
any past.
-/

namespace ServerStudy

open ServerStudy.Core PacketBuffer

variable {σ Msg : Type} {mgr : PacketHandlerManager σ Msg}

/-- The loop ends at these bytes: there is no whole packet, or one that `Handle`
rejects. -/
def Stuck (mgr : PacketHandlerManager σ Msg) (u : List Byte) : Prop :=
  ¬ packetHeader.Complete u ∨ ∃ f u', u = f.stream ++ u' ∧ mgr.decodeFrame f = none

/-- `Handle` finds a functor for the frame, which parses it. -/
def PacketHandlerManager.decodes (mgr : PacketHandlerManager σ Msg) (f : Frame) : Bool :=
  (mgr.decodeFrame f).isSome

/-- The handlers of the frames answer true, whatever they are given. -/
def NeverFails (mgr : PacketHandlerManager σ Msg) (frames : List Frame) : Prop :=
  ∀ f ∈ frames, ∀ functor message, mgr.decodeFrame f = some (functor, message) →
    ∀ rest, (functor.handler rest message).1 = true

/-! ## Lists of frames that are handled -/

theorem handled_cons (mgr : PacketHandlerManager σ Msg) (rest : σ) (frames : List Frame)
    {f : Frame} {functor : PacketFunctor σ Msg} {message : Msg}
    (hf : mgr.decodeFrame f = some (functor, message)) :
    handled mgr rest (f :: frames) = handled mgr (functor.handler rest message).2 frames := by
  rw [handled, List.foldl_cons, hf]
  rfl

theorem handled_append (mgr : PacketHandlerManager σ Msg) (rest : σ) (first second : List Frame) :
    handled mgr rest (first ++ second) = handled mgr (handled mgr rest first) second :=
  List.foldl_append ..

theorem AllHandled.head {rest : σ} {f : Frame} {frames : List Frame}
    (h : AllHandled mgr rest (f :: frames)) :
    ∃ functor message, mgr.decodeFrame f = some (functor, message) ∧
      (functor.handler rest message).1 = true := h 0 f rfl

theorem AllHandled.tail {rest : σ} {f : Frame} {frames : List Frame}
    (h : AllHandled mgr rest (f :: frames)) {functor : PacketFunctor σ Msg} {message : Msg}
    (hf : mgr.decodeFrame f = some (functor, message)) :
    AllHandled mgr (functor.handler rest message).2 frames := by
  intro k g hg
  have hnext := h (k + 1) g hg
  rw [List.take_succ_cons, handled_cons mgr rest _ hf] at hnext
  exact hnext

/-- Frames that decode are handled if their handlers never fail. -/
theorem allHandled_of_decodes {frames : List Frame} (rest : σ) (hnever : NeverFails mgr frames)
    (h : ∀ f ∈ frames, mgr.decodes f = true) : AllHandled mgr rest frames := by
  intro k f hk
  have hf := List.mem_of_getElem? hk
  obtain ⟨⟨functor, message⟩, hdecode⟩ := Option.isSome_iff_exists.mp (h f hf)
  exact ⟨functor, message, hdecode, hnever f hf functor message hdecode _⟩

/-! ## The loop -/

/-- The session has dispatched the frames, in order, and then holds the bytes. -/
structure Drained (mgr : PacketHandlerManager σ Msg) (s : SessionBase σ Msg)
    (frames : List Frame) (u : List Byte) (t : SessionBase σ Msg) : Prop where
  ordered : t.recvBuffer.Ordered
  unread : t.recvBuffer.unread = u
  rest : t.rest = handled mgr s.rest frames
  dispatches : ∃ ds, t.trace.dispatches = s.trace.dispatches ++ ds ∧
    List.Forall₂ (Dispatched mgr) ds frames

/-- Behind one more dispatch. -/
theorem Drained.cons {s t : SessionBase σ Msg} {f : Frame} {frames : List Frame}
    {u v : List Byte} {functor : PacketFunctor σ Msg} {message : Msg}
    (h : Drained mgr (s.dispatch functor message) frames u t) (hord : s.recvBuffer.Ordered)
    (hu : s.recvBuffer.unread = f.stream ++ v)
    (hdecode : mgr.decodeFrame f = some (functor, message)) :
    Drained mgr s (f :: frames) u t := by
  refine ⟨h.ordered, h.unread, ?_, ?_⟩
  · rw [handled_cons mgr _ _ hdecode, h.rest]
    rfl
  · obtain ⟨ds, hds, hall⟩ := h.dispatches
    have hfirst : Dispatched mgr (s.record message) f := by
      rw [record_of_head hord hu]
      exact ⟨rfl, rfl, rfl, functor, hdecode⟩
    refine ⟨s.record message :: ds, ?_, .cons hfirst hall⟩
    rw [hds, SessionBase.dispatch_dispatches, List.append_assoc]
    rfl

/-- The loop at bytes it cannot get past. -/
theorem drain_of_stuck {s : SessionBase σ Msg} (hord : s.recvBuffer.Ordered)
    (hstuck : Stuck mgr s.recvBuffer.unread) (fuel : Nat) :
    Drained mgr s [] s.recvBuffer.unread (SessionBase.drain mgr fuel s) := by
  have hsame : Drained mgr s [] s.recvBuffer.unread s :=
    ⟨hord, rfl, rfl, [], (List.append_nil _).symm, .nil⟩
  cases fuel with
  | zero => exact hsame
  | succ fuel =>
      rcases hstuck with hno | ⟨f, u, hu, hnone⟩
      · rw [SessionBase.drain_of_not_able mgr hno]
        exact hsame
      · have hdecode : mgr.decode s.recvBuffer = none := by
          rw [decode_of_head mgr hord hu, hnone]
        rw [SessionBase.drain_of_rejected mgr (complete_of_head hu) hdecode]
        exact ⟨hord, rfl, rfl, [], (List.append_nil _).symm, .nil⟩

/-- The loop takes all the frames in front of such bytes. -/
theorem drain_frames {s : SessionBase σ Msg} {frames : List Frame} {u : List Byte} {fuel : Nat}
    (hord : s.recvBuffer.Ordered) (hu : s.recvBuffer.unread = frames.flatMap Frame.stream ++ u)
    (hstuck : Stuck mgr u) (hgood : AllHandled mgr s.rest frames)
    (hfuel : frames.length < fuel) : Drained mgr s frames u (SessionBase.drain mgr fuel s) := by
  induction frames generalizing s fuel with
  | nil =>
      have hunread : s.recvBuffer.unread = u := hu
      have hdrained := drain_of_stuck hord (hunread ▸ hstuck) fuel
      rw [hunread] at hdrained
      exact hdrained
  | cons f frames ih =>
      obtain ⟨fuel, rfl⟩ : ∃ k, fuel = k + 1 := ⟨fuel - 1, by omega⟩
      have hhead : s.recvBuffer.unread = f.stream ++ (frames.flatMap Frame.stream ++ u) := by
        rw [hu, List.flatMap_cons, List.append_assoc]
      obtain ⟨functor, message, hdecode, htrue⟩ := hgood.head
      have hdecode' : mgr.decode s.recvBuffer = some (functor, message) := by
        rw [decode_of_head mgr hord hhead, hdecode]
      rw [SessionBase.drain_of_decoded mgr (complete_of_head hhead) hdecode', if_pos htrue]
      have hnext := ih (s := s.dispatch functor message) (consumePacket_ordered hord)
        (unread_consume_of_head hord hhead) (hgood.tail hdecode)
        (Nat.lt_of_succ_lt_succ hfuel)
      exact hnext.cons hord hhead hdecode

theorem length_le_stream (frames : List Frame) :
    frames.length ≤ (frames.flatMap Frame.stream).length := by
  induction frames with
  | nil => exact Nat.le_refl _
  | cons f frames ih =>
      have hf := f.four_le
      rw [List.flatMap_cons, List.length_append, List.length_cons]
      omega

/-- One call of `OnRecv` with a chunk that is not refused. -/
theorem onRecv_frames {s : SessionBase σ Msg} {chunk : List Byte} {frames : List Frame}
    {u : List Byte} (hord : s.recvBuffer.Ordered) (hne : chunk ≠ [])
    (hroom : s.recvBuffer.unread.length + chunk.length ≤ maxBufSize)
    (hbytes : s.recvBuffer.unread ++ chunk = frames.flatMap Frame.stream ++ u)
    (hstuck : Stuck mgr u) (hgood : AllHandled mgr s.rest frames) :
    Drained mgr s frames u (s.onRecv mgr (some (Mem.ofList 0 chunk)) chunk.length) := by
  rcases SessionBase.onRecv_cases mgr hord (some (Mem.ofList 0 chunk)) chunk.length with
    ⟨hrefused, _⟩ | ⟨src, hsrc, _, _, rb, hrb, hunread, heq⟩
  · exact absurd ⟨List.length_pos_iff.mpr hne, hroom⟩ (hrefused _ rfl)
  · cases hsrc
    rw [Mem.slice_ofList] at hunread heq
    have hstream : (s.received rb chunk).recvBuffer.unread = frames.flatMap Frame.stream ++ u :=
      hunread.trans hbytes
    have hfuel : frames.length < (s.received rb chunk).recvBuffer.unread.length + 1 := by
      have hle := length_le_stream frames
      rw [hstream, List.length_append]
      omega
    have hdrained := drain_frames (s := s.received rb chunk) hrb hstream hstuck hgood hfuel
    rw [heq]
    exact ⟨hdrained.ordered, hdrained.unread, hdrained.rest, hdrained.dispatches⟩

/-! ## A stream, chunk by chunk -/

/-- The frames dispatched once this much of the stream has arrived: those that
are there as a whole, up to the first that does not decode. -/
def served (mgr : PacketHandlerManager σ Msg) (frames : List Frame) (n : Nat) : List Frame :=
  (whole Frame.stream frames n).takeWhile mgr.decodes

/-- The bytes behind them. -/
def waiting (mgr : PacketHandlerManager σ Msg) (frames : List Frame) (bytes : List Byte) :
    List Byte :=
  bytes.drop ((served mgr frames bytes.length).flatMap Frame.stream).length

section Stream

variable {frames : List Frame} {q bytes chunk : List Byte} {s t v : SessionBase σ Msg}

theorem decodes_of_mem_served {n : Nat} {f : Frame} (h : f ∈ served mgr frames n) :
    mgr.decodes f = true := List.mem_takeWhile_imp h

theorem mem_of_mem_served {n : Nat} {f : Frame} (h : f ∈ served mgr frames n) : f ∈ frames :=
  whole_subset Frame.stream frames n (List.takeWhile_subset _ h)

theorem served_mono (mgr : PacketHandlerManager σ Msg) (frames : List Frame) {n m : Nat}
    (h : n ≤ m) : served mgr frames n <+: served mgr frames m := by
  obtain ⟨more, hmore⟩ := whole_mono Frame.stream frames h
  rw [served, served, ← hmore, List.takeWhile_append]
  split
  · next hall =>
    have hwhole : (whole Frame.stream frames n).takeWhile mgr.decodes =
        whole Frame.stream frames n :=
      List.IsPrefix.eq_of_length (List.takeWhile_prefix _) hall
    rw [hwhole]
    exact List.prefix_append ..
  · exact List.prefix_refl _

/-- What has arrived is what was dispatched and bytes the loop cannot get
past. -/
theorem served_split (mgr : PacketHandlerManager σ Msg) (frames : List Frame)
    (hq : ¬ packetHeader.Complete q) (hpart : bytes <+: frames.flatMap Frame.stream ++ q) :
    bytes = (served mgr frames bytes.length).flatMap Frame.stream ++ waiting mgr frames bytes ∧
      Stuck mgr (waiting mgr frames bytes) := by
  obtain ⟨v, hv, hidle⟩ := Header.whole_split (fun f _ => f.isFrame) hq hpart
  have hsplit := List.takeWhile_append_dropWhile (p := mgr.decodes)
    (l := whole Frame.stream frames bytes.length)
  have hbytes : bytes = (served mgr frames bytes.length).flatMap Frame.stream ++
      (((whole Frame.stream frames bytes.length).dropWhile mgr.decodes).flatMap Frame.stream ++
        v) := by
    rw [← List.append_assoc, served, ← List.flatMap_append, hsplit]
    exact hv
  have hwaiting : waiting mgr frames bytes =
      ((whole Frame.stream frames bytes.length).dropWhile mgr.decodes).flatMap Frame.stream ++
        v :=
    (congrArg (List.drop _) hbytes).trans (List.drop_left' rfl)
  refine ⟨by rw [hwaiting]; exact hbytes, ?_⟩
  rw [hwaiting]
  cases hdrop : (whole Frame.stream frames bytes.length).dropWhile mgr.decodes with
  | nil => exact .inl hidle
  | cons f rest =>
      -- the first frame that is left does not decode
      have hbad := List.head?_dropWhile_not mgr.decodes (whole Frame.stream frames bytes.length)
      rw [hdrop] at hbad
      refine .inr ⟨f, rest.flatMap Frame.stream ++ v, ?_, ?_⟩
      · rw [List.flatMap_cons, List.append_assoc]
      · have hno : mgr.decodes f = false := by simpa using hbad
        rw [← Option.not_isSome_iff_eq_none]
        exact fun h => Bool.false_ne_true (hno.symm.trans h)

/-- Before anything has arrived. -/
theorem served_nil (mgr : PacketHandlerManager σ Msg) (frames : List Frame) :
    served mgr frames ([] : List Byte).length = [] ∧ waiting mgr frames [] = [] := by
  have hpart : ([] : List Byte) <+: frames.flatMap Frame.stream ++ [] := List.nil_prefix
  obtain ⟨hsplit, _⟩ := served_split mgr frames packetHeader.not_complete_nil hpart
  obtain ⟨hstream, hwaiting⟩ := List.append_eq_nil_iff.mp hsplit.symm
  have hlen := length_le_stream (served mgr frames ([] : List Byte).length)
  rw [hstream] at hlen
  exact ⟨List.eq_nil_of_length_eq_zero (Nat.le_zero.mp hlen), hwaiting⟩

theorem Drained.start (mgr : PacketHandlerManager σ Msg) (frames : List Frame)
    (hord : s.recvBuffer.Ordered) (hempty : s.recvBuffer.unread = []) :
    Drained mgr s (served mgr frames ([] : List Byte).length) (waiting mgr frames []) s := by
  rw [(served_nil mgr frames).1, (served_nil mgr frames).2]
  exact ⟨hord, hempty, rfl, [], (List.append_nil _).symm, .nil⟩

/-- One run of the loop after another. -/
theorem Drained.trans {first second : List Frame} {u w : List Byte}
    (h : Drained mgr s first u t) (h' : Drained mgr t second w v) :
    Drained mgr s (first ++ second) w v := by
  refine ⟨h'.ordered, h'.unread, ?_, ?_⟩
  · rw [h'.rest, h.rest, handled_append]
  · obtain ⟨ds, hds, hall⟩ := h.dispatches
    obtain ⟨ds', hds', hall'⟩ := h'.dispatches
    refine ⟨ds ++ ds', ?_, List.rel_append hall hall'⟩
    rw [hds', hds, List.append_assoc]

/-- A chunk more of the stream, which is not refused. -/
theorem Drained.onRecv (hnever : NeverFails mgr frames)
    (h : Drained mgr s (served mgr frames bytes.length) (waiting mgr frames bytes) t)
    (hq : ¬ packetHeader.Complete q)
    (hpart : bytes ++ chunk <+: frames.flatMap Frame.stream ++ q) (hne : chunk ≠ [])
    (hroom : (waiting mgr frames bytes).length + chunk.length ≤ maxBufSize) :
    Drained mgr s (served mgr frames (bytes ++ chunk).length)
      (waiting mgr frames (bytes ++ chunk))
      (t.onRecv mgr (some (Mem.ofList 0 chunk)) chunk.length) := by
  have hbefore := (served_split mgr frames hq ((List.prefix_append ..).trans hpart)).1
  obtain ⟨hafter, hstuck⟩ := served_split mgr frames hq hpart
  have hgrow : bytes.length ≤ (bytes ++ chunk).length := by
    rw [List.length_append]
    exact Nat.le_add_right ..
  obtain ⟨more, hmore⟩ := served_mono mgr frames hgrow
  have hbytes : t.recvBuffer.unread ++ chunk =
      more.flatMap Frame.stream ++ waiting mgr frames (bytes ++ chunk) := by
    rw [← hmore, List.flatMap_append, List.append_assoc] at hafter
    nth_rewrite 1 [hbefore] at hafter
    rw [List.append_assoc] at hafter
    rw [h.unread]
    exact List.append_cancel_left hafter
  have hserved : ∀ f ∈ more, f ∈ served mgr frames (bytes ++ chunk).length := by
    intro f hf
    rw [← hmore]
    exact List.mem_append_right _ hf
  have hroom' : t.recvBuffer.unread.length + chunk.length ≤ maxBufSize := by
    rw [h.unread]
    exact hroom
  have hgood := allHandled_of_decodes t.rest
    (fun f hf => hnever f (mem_of_mem_served (hserved f hf)))
    (fun f hf => decodes_of_mem_served (hserved f hf))
  have hnext := onRecv_frames h.ordered hne hroom' hbytes hstuck hgood
  rw [← hmore]
  exact h.trans hnext

end Stream

end ServerStudy
